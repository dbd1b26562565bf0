import ScoreLowering.Score.Machine
import ScoreLowering.Proofs.RangeText

/-!
# The text of a command determines it

Names stand unquoted between the keywords of a command and may be keywords themselves,
so only its place tells what a word is.  This module reads a line word by word, in the
order in which commands are written.  As long as every name is a word of its own, the
reader finds back the command behind each line, and running lines is the same as
running the commands they were printed from.
-/

namespace ScoreLowering

/-- The words of a line are what stands between its blanks. -/
def wordsOf (line : String) : List String :=
  ((line.toList.splitOn ' ').map String.ofList).filter (· ≠ "")

/-- A text that is one word of a line. -/
def IsWord (text : String) : Prop :=
  text ≠ "" ∧ ' ' ∉ text.toList

instance (text : String) : Decidable (IsWord text) :=
  inferInstanceAs (Decidable (_ ∧ _))

theorem wordsOf_intercalate {words : List String} (blankless : ∀ word ∈ words, ' ' ∉ word.toList) :
    wordsOf (" ".intercalate words) = words.filter (· ≠ "") := by
  by_cases none : words = []
  · subst none
    rfl
  · have blank : " ".toList = [' '] := rfl
    have apart : ∀ chars ∈ words.map String.toList, ' ' ∉ chars := by
      simpa only [List.forall_mem_map] using blankless
    rw [wordsOf, String.toList_intercalate, blank,
      List.splitOn_intercalate ' ' apart (by simpa using none), List.map_map]
    simp [Function.comp_def]

theorem ScoreOperation.isWord_symbol (operation : ScoreOperation) : IsWord operation.symbol := by
  cases operation <;> decide

theorem Score.isWord_text (score : Score) : IsWord score.text :=
  ⟨score.text_ne_empty, score.not_mem_text (by decide) (by decide)⟩

theorem Range.isWord_text {range : Range} (bounded : range.IsBounded) : IsWord range.text :=
  ⟨text_ne_empty bounded, range.not_mem_text (by decide) (by decide) (by decide) (by decide)⟩

def ScoreOperation.ofSymbol? : String → Option ScoreOperation
  | "=" => some copy
  | "+=" => some add
  | "-=" => some subtract
  | "*=" => some multiply
  | "/=" => some divide
  | "%=" => some modulo
  | "><" => some swap
  | "<" => some min
  | ">" => some max
  | _ => none

theorem ScoreOperation.ofSymbol?_symbol (operation : ScoreOperation) :
    ofSymbol? operation.symbol = some operation := by
  cases operation <;> rfl

namespace Command

/-- Take away one quote on either side. -/
def unquote? (word : String) : Option String :=
  match word.toList with
  | '"' :: rest => if rest.getLast? = some '"' then some (String.ofList rest.dropLast) else none
  | _ => none

theorem unquote?_quoted (name : String) : unquote? ("\"" ++ name ++ "\"") = some name := by
  simp [unquote?]

def readObjectives? : List String → Option Command
  | ["add", name, "dummy"] => (unquote? name).map addObjective
  | ["remove", name] => (unquote? name).map removeObjective
  | _ => none

def readPlayers? : List String → Option Command
  | ["set", holder, objective, score] =>
      (Score.read? score.toList).map (setScore ⟨holder, objective⟩)
  | ["add", holder, objective, amount] =>
      (Score.read? amount.toList).map (addScore ⟨holder, objective⟩)
  | ["remove", holder, objective, amount] =>
      (Score.read? amount.toList).map (removeScore ⟨holder, objective⟩)
  | ["operation", holder, objective, symbol, sourceHolder, sourceObjective] =>
      (ScoreOperation.ofSymbol? symbol).map fun operation =>
        operate ⟨holder, objective⟩ operation ⟨sourceHolder, sourceObjective⟩
  | _ => none

mutual

/-- Read a command from its words. -/
def readWords? : List String → Option Command
  | "scoreboard" :: "objectives" :: rest => readObjectives? rest
  | "scoreboard" :: "players" :: rest => readPlayers? rest
  | "execute" :: rest => readClauses? [] rest
  | ["function", path] => some (call path)
  | _ => none

/-- Read the rest of an `execute` chain behind the clauses in `before`. -/
def readClauses? (before : List Clause) : List String → Option Command
  | "run" :: rest => (readWords? rest).map (execute before)
  | "as" :: selector :: rest => readClauses? (before ++ [.asEntity selector]) rest
  | "if" :: "score" :: holder :: objective :: "matches" :: range :: rest =>
      (Range.parse? range).bind fun range =>
        readClauses? (before ++ [.ifScore ⟨holder, objective⟩ range]) rest
  | _ => none

end

/-- The command that a line stands for, if there is one. -/
def read? (line : String) : Option Command :=
  readWords? (wordsOf line)

end Command

def Register.IsPlain (register : Register) : Prop :=
  IsWord register.holder ∧ IsWord register.objective

instance (register : Register) : Decidable register.IsPlain :=
  inferInstanceAs (Decidable (_ ∧ _))

theorem Register.isWord_words {register : Register} (plain : register.IsPlain) :
    ∀ word ∈ register.words, IsWord word := by
  simpa [words] using And.intro plain.1 plain.2

namespace Clause

def IsPlain : Clause → Prop
  | asEntity selector => IsWord selector
  | ifScore register range => register.IsPlain ∧ range.IsBounded

instance decidablePlain : (clause : Clause) → Decidable clause.IsPlain
  | asEntity selector => inferInstanceAs (Decidable (IsWord selector))
  | ifScore register range => inferInstanceAs (Decidable (register.IsPlain ∧ range.IsBounded))

theorem isWord_words {clause : Clause} (plain : clause.IsPlain) :
    ∀ word ∈ clause.words, IsWord word := by
  cases clause with
  | asEntity selector =>
      have keyword : IsWord "as" := by decide
      have named : IsWord selector := plain
      simpa [words, keyword] using named
  | ifScore register range =>
      have condition : ∀ word ∈ ["if", "score"], IsWord word := by decide
      have test : ∀ word ∈ ["matches", range.text], IsWord word :=
        List.forall_mem_cons.mpr
          ⟨by decide, List.forall_mem_singleton.mpr (Range.isWord_text plain.2)⟩
      simp only [words, List.forall_mem_append]
      exact ⟨⟨condition, Register.isWord_words plain.1⟩, test⟩

end Clause

namespace Command

/-- Every name is one word, every range has a bound, and nothing was handed over as
text. -/
def IsPlain : Command → Prop
  | addObjective name => IsWord name
  | removeObjective name => IsWord name
  | setScore register _ => register.IsPlain
  | addScore register _ => register.IsPlain
  | removeScore register _ => register.IsPlain
  | operate target _ source => target.IsPlain ∧ source.IsPlain
  | execute clauses run => (∀ clause ∈ clauses, clause.IsPlain) ∧ run.IsPlain
  | call path => IsWord path
  | raw _ => False

instance decidablePlain : (command : Command) → Decidable command.IsPlain
  | addObjective name => inferInstanceAs (Decidable (IsWord name))
  | removeObjective name => inferInstanceAs (Decidable (IsWord name))
  | setScore register _ => inferInstanceAs (Decidable register.IsPlain)
  | addScore register _ => inferInstanceAs (Decidable register.IsPlain)
  | removeScore register _ => inferInstanceAs (Decidable register.IsPlain)
  | operate target _ source => inferInstanceAs (Decidable (target.IsPlain ∧ source.IsPlain))
  | execute clauses run =>
      have := decidablePlain run
      inferInstanceAs (Decidable ((∀ clause ∈ clauses, clause.IsPlain) ∧ run.IsPlain))
  | call path => inferInstanceAs (Decidable (IsWord path))
  | raw _ => inferInstanceAs (Decidable False)

theorem isWord_clauseWords {clauses : List Clause} (plain : ∀ clause ∈ clauses, clause.IsPlain) :
    ∀ word ∈ clauses.flatMap Clause.words, IsWord word := by
  intro word member
  obtain ⟨clause, inside, among⟩ := List.mem_flatMap.mp member
  exact Clause.isWord_words (plain clause inside) word among

/-- Reading does not see the gap that an empty list of clauses leaves. -/
theorem filter_clauseWords {clauses : List Clause} (plain : ∀ clause ∈ clauses, clause.IsPlain) :
    (clauseWords clauses).filter (· ≠ "") = clauses.flatMap Clause.words := by
  cases clauses with
  | nil => rfl
  | cons clause clauses =>
      rw [clauseWords, if_neg (by simp), List.filter_eq_self]
      exact fun word member => decide_eq_true (isWord_clauseWords plain word member).1

theorem blankless_clauseWords {clauses : List Clause}
    (plain : ∀ clause ∈ clauses, clause.IsPlain) :
    ∀ word ∈ clauseWords clauses, ' ' ∉ word.toList := by
  unfold clauseWords
  split
  · simp
  · exact fun word member => (isWord_clauseWords plain word member).2

theorem blankless_words {command : Command} (plain : command.IsPlain) :
    ∀ word ∈ command.words, ' ' ∉ word.toList := by
  induction command with
  | addObjective name | removeObjective name => simp [words, plain.2]
  | setScore register score | addScore register score | removeScore register score =>
      simp [words, Register.words, plain.1.2, plain.2.2, score.isWord_text.2]
  | operate target operation source =>
      simp [words, Register.words, plain.1.1.2, plain.1.2.2, plain.2.1.2, plain.2.2.2,
        operation.isWord_symbol.2]
  | execute clauses run ih =>
      simp only [words, List.forall_mem_append]
      exact ⟨⟨⟨by decide, blankless_clauseWords plain.1⟩, by decide⟩, ih plain.2⟩
  | call path => simp [words, plain.2]
  | raw text => exact plain.elim

/-- Past its clauses an `execute` chain goes on with the command it runs. -/
theorem readClauses?_flatMap {clauses : List Clause}
    (bounded : ∀ clause ∈ clauses, clause.IsPlain) (before : List Clause) (rest : List String) :
    readClauses? before (clauses.flatMap Clause.words ++ "run" :: rest) =
      (readWords? rest).map (execute (before ++ clauses)) := by
  induction clauses generalizing before with
  | nil => simp [readClauses?]
  | cons clause clauses ih =>
      obtain ⟨plain, restPlain⟩ := List.forall_mem_cons.mp bounded
      cases clause with
      | asEntity selector =>
          simp [Clause.words, readClauses?, ih restPlain]
      | ifScore register range =>
          simp [Clause.words, Register.words, readClauses?, Range.parse?_text plain.2,
            ih restPlain]

theorem readWords?_words {command : Command} (plain : command.IsPlain) :
    readWords? (command.words.filter (· ≠ "")) = some command := by
  induction command with
  | addObjective name | removeObjective name =>
      simp [words, readWords?, readObjectives?, unquote?_quoted]
  | setScore register score | addScore register score | removeScore register score =>
      simp [words, Register.words, plain.1.1, plain.2.1, score.text_ne_empty, readWords?,
        readPlayers?, Score.read?_text]
  | operate target operation source =>
      simp [words, Register.words, plain.1.1.1, plain.1.2.1, plain.2.1.1, plain.2.2.1,
        operation.isWord_symbol.1, readWords?, readPlayers?, ScoreOperation.ofSymbol?_symbol]
  | execute clauses run ih =>
      have gapless := filter_clauseWords plain.1
      have body := ih plain.2
      have keywords : ["execute"].filter (· ≠ "") = ["execute"] ∧
          ["run"].filter (· ≠ "") = ["run"] := by decide
      rw [words, List.filter_append, List.filter_append, List.filter_append, gapless, keywords.1,
        keywords.2, List.append_assoc, List.append_assoc]
      rw [List.singleton_append, List.singleton_append, readWords?, readClauses?_flatMap plain.1,
        body, Option.map_some, List.nil_append]
  | call path => simp [words, plain.1, readWords?]
  | raw text => exact plain.elim

theorem read?_text {command : Command} (plain : command.IsPlain) :
    read? command.text = some command := by
  rw [read?, text, wordsOf_intercalate (blankless_words plain), readWords?_words plain]

end Command

namespace Machine

/-- Run one line.  A line that no command is written as does nothing. -/
def stepLine (call : String → String → Scores → Scores) (line : String) (executor : String)
    (scores : Scores) : Scores :=
  match Command.read? line with
  | some command => step call command executor scores
  | none => scores

def runLines (call : String → String → Scores → Scores) (lines : List String)
    (executor : String) (scores : Scores) : Scores :=
  lines.foldl (fun scores line => stepLine call line executor scores) scores

/-- What the function at a path does, given the lines of all functions.  Calls nested
deeper than `depth` do nothing. -/
def callLines (library : String → List String) : Nat → String → String → Scores → Scores
  | 0, _, _, scores => scores
  | depth + 1, path, executor, scores =>
      runLines (callLines library depth) (library path) executor scores

theorem stepLine_text {command : Command} (plain : command.IsPlain)
    (call : String → String → Scores → Scores) (executor : String) (scores : Scores) :
    stepLine call command.text executor scores = step call command executor scores := by
  rw [stepLine, Command.read?_text plain]

theorem runLines_text {commands : List Command} (plain : ∀ command ∈ commands, command.IsPlain)
    (call : String → String → Scores → Scores) (executor : String) (scores : Scores) :
    runLines call (commands.map Command.text) executor scores =
      runAll call commands executor scores := by
  induction commands generalizing scores with
  | nil => rfl
  | cons command commands ih =>
      obtain ⟨first, rest⟩ := List.forall_mem_cons.mp plain
      simp only [runLines, runAll, List.map_cons, List.foldl_cons] at ih ⊢
      rw [stepLine_text first, ih rest]

theorem callLines_text {library : String → List Command}
    (plain : ∀ path, ∀ command ∈ library path, command.IsPlain) (depth : Nat) :
    callLines (fun path => (library path).map Command.text) depth = call library depth := by
  induction depth with
  | zero => rfl
  | succ depth ih =>
      funext path executor scores
      rw [callLines, call, ih, runLines_text (plain path)]

end Machine

namespace Command

/-- Two plain commands with one text are one command, so it makes no difference whether
commands are run or the lines they are written as, alone or in the functions of a
library. -/
theorem text_unambiguous (first second : Command) (firstPlain : first.IsPlain)
    (secondPlain : second.IsPlain) :
    (first.text = second.text → first = second) ∧
      (∀ call executor scores,
        Machine.stepLine call first.text executor scores =
          Machine.step call first executor scores) ∧
      ∀ library : String → List Command,
        (∀ path, ∀ command ∈ library path, command.IsPlain) →
          ∀ depth, Machine.callLines (fun path => (library path).map text) depth =
            Machine.call library depth := by
  refine ⟨fun same => ?_, fun call executor scores => Machine.stepLine_text firstPlain ..,
    fun library plain depth => Machine.callLines_text plain depth⟩
  have read : read? second.text = some first := same ▸ read?_text firstPlain
  rw [read?_text secondPlain] at read
  exact (Option.some.inj read).symm

/-- Keywords serve as names here, and one chain has no clauses. -/
theorem text_unambiguous_keywords :
    let range : Range := { min := some (-3), max := some 5, inverted := true }
    let inner := execute [.asEntity "run", .ifScore ⟨"if", "score"⟩ range] (call "function")
    let first := execute [] inner
    let second := execute [.asEntity "run"]
      (execute [.ifScore ⟨"if", "score"⟩ range] (call "function"))
    first.IsPlain ∧ second.IsPlain ∧
      inner.text = "execute as run if score if score matches !-3..5 run function function" ∧
      first.text ≠ second.text ∧
      (∀ call executor scores,
        Machine.stepLine call first.text executor scores =
          Machine.step call first executor scores) ∧
      ∀ depth, Machine.callLines (fun _ => [first.text, second.text]) depth =
        Machine.call (fun _ => [first, second]) depth := by
  intro range inner first second
  have firstPlain : first.IsPlain := by decide
  have secondPlain : second.IsPlain := by decide
  obtain ⟨determined, lines, functions⟩ := text_unambiguous first second firstPlain secondPlain
  have library : ∀ command ∈ [first, second], command.IsPlain := by decide
  refine ⟨firstPlain, secondPlain, by decide, fun same => ?_, lines, fun depth => ?_⟩
  · exact absurd (determined same) (by decide)
  · exact functions (fun _ => [first, second]) (fun _ => library) depth

end Command
end ScoreLowering
