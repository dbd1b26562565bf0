import ScoreLowering.Score.Command

/-!
# The score machine

What a list of commands does to the scores.  A command runs on behalf of an
executor, whom the holder `@s` stands for; every other holder stands for
itself.  Creating and deleting objectives and raw text do not concern the
scores that remain.

Functions call each other through a library of bodies.  A call is handed down
as a parameter, so that running a single command is a plain recursion on it,
and `Machine.call` closes the knot up to a given nesting depth.
-/

namespace ScoreLowering

/-- The content of every register. -/
@[ext]
structure Scores where
  read : Register → Score

namespace Scores

def write (scores : Scores) (register : Register) (score : Score) : Scores :=
  ⟨fun candidate => if candidate = register then score else scores.read candidate⟩

/-- Combine a target with a source; a swap writes both. -/
def operate (scores : Scores) (target : Register) (operation : ScoreOperation)
    (source : Register) : Scores :=
  let combined := scores.write target
    (operation.evaluate (scores.read target) (scores.read source))
  if operation = .swap then combined.write source (scores.read target) else combined

@[simp]
theorem read_write_self (scores : Scores) (register : Register) (score : Score) :
    (scores.write register score).read register = score := by
  simp [write]

theorem read_write_other (scores : Scores) {register candidate : Register} (score : Score)
    (different : candidate ≠ register) :
    (scores.write register score).read candidate = scores.read candidate := by
  simp [write, different]

end Scores

namespace Machine

/-- The holder that stands for whoever runs the command. -/
def self : String := "@s"

/-- Whom a selector stands for. -/
def holder (executor selector : String) : String :=
  if selector = self then executor else selector

/-- The register that a command addresses when `executor` runs it. -/
def locate (executor : String) (register : Register) : Register :=
  { register with holder := holder executor register.holder }

/-- The executor behind a list of clauses, or nobody if one of them fails. -/
def follow (scores : Scores) : List Clause → String → Option String
  | [], executor => some executor
  | .asEntity selector :: rest, executor => follow scores rest (holder executor selector)
  | .ifScore register range :: rest, executor =>
      if range.contains (scores.read (locate executor register)) then
        follow scores rest executor
      else
        none

/-- Run one command.  `call` says what the function at a path does. -/
def step (call : String → String → Scores → Scores) :
    Command → String → Scores → Scores
  | .addObjective _, _, scores => scores
  | .removeObjective _, _, scores => scores
  | .setScore register score, executor, scores =>
      scores.write (locate executor register) score
  | .addScore register amount, executor, scores =>
      let place := locate executor register
      scores.write place (scores.read place + amount)
  | .removeScore register amount, executor, scores =>
      let place := locate executor register
      scores.write place (scores.read place - amount)
  | .operate target operation source, executor, scores =>
      scores.operate (locate executor target) operation (locate executor source)
  | .execute clauses run, executor, scores =>
      match follow scores clauses executor with
      | some executor => step call run executor scores
      | none => scores
  | .call path, executor, scores => call path executor scores
  | .raw _, _, scores => scores

/-- Run commands one after the other. -/
def runAll (call : String → String → Scores → Scores) (commands : List Command)
    (executor : String) (scores : Scores) : Scores :=
  commands.foldl (fun scores command => step call command executor scores) scores

/-- What the function at a path does, given the bodies of all functions.  Calls
nested deeper than `depth` do nothing. -/
def call (library : String → List Command) : Nat → String → String → Scores → Scores
  | 0, _, _, scores => scores
  | depth + 1, path, executor, scores =>
      runAll (call library depth) (library path) executor scores

@[simp]
theorem runAll_nil (call : String → String → Scores → Scores) (executor : String)
    (scores : Scores) : runAll call [] executor scores = scores :=
  rfl

theorem runAll_append (call : String → String → Scores → Scores)
    (first second : List Command) (executor : String) (scores : Scores) :
    runAll call (first ++ second) executor scores =
      runAll call second executor (runAll call first executor scores) := by
  simp [runAll]

end Machine
end ScoreLowering
