import Mathlib.Logic.Relation
import ScoreLowering.Proofs.StatementExecution

/-!
# Where borrow calls lead

Every borrow routine has a path made of the objective it works on and a number
that tells the routines of one objective apart.  The path keeps only letters and
digits of the objective, so that routines of two objectives may end up at one
path.  Then the routine generated last is the one that is called for both.  This
file says exactly when that happens.  Where it does not, the commands of a statement
do in the finished program what executing the statement is known to do.
-/

namespace ScoreLowering

/-- The commands of the routine for a key. -/
def RoutineKey.commands (key : RoutineKey) : List Command :=
  [.addScore ⟨key.holder, key.name⟩ 1,
    .removeScore ⟨key.holder, key.name ++ Name.fractionSuffix⟩ key.unit]

theorem RoutineKey.commands_injective {first second : RoutineKey}
    (same : first.commands = second.commands) : first = second := by
  cases first with
  | mk name unit holder =>
    cases second with
    | mk otherName otherUnit otherHolder =>
      simp only [commands, List.cons.injEq, Command.addScore.injEq, Register.mk.injEq,
        Command.removeScore.injEq] at same
      obtain ⟨⟨⟨rfl, rfl⟩, _⟩, ⟨_, rfl⟩, _⟩ := same
      rfl

namespace Routines

/-- The keys that got their routine before this one. -/
def earlier (routines : Routines) (key : RoutineKey) : List RoutineKey :=
  routines.table.keys.takeWhile (· ≠ key)

/-- How many routines its objective had before this one. -/
def number (routines : Routines) (key : RoutineKey) : Nat :=
  ((routines.earlier key).filter (·.name = key.name)).length

/-- The last part of a path. -/
def spelling (name : String) (number : Nat) : String :=
  if number = 0 then sanitize name else sanitize name ++ "_" ++ toString number

def pathOf (routines : Routines) (key : RoutineKey) : String :=
  routines.directory ++ "/borrow/" ++ spelling key.name (routines.number key)

/-- Two routines are spelled alike: with the same number, or because the name of
one ends like the number of the other. -/
def Clash (routines : Routines) (first second : RoutineKey) : Prop :=
  sanitize first.name = sanitize second.name ∧
      routines.number first = routines.number second ∨
    routines.number first = 0 ∧ routines.number second ≠ 0 ∧
      sanitize first.name = sanitize second.name ++ "_" ++ toString (routines.number second) ∨
    routines.number second = 0 ∧ routines.number first ≠ 0 ∧
      sanitize second.name = sanitize first.name ++ "_" ++ toString (routines.number first)

theorem nextPath_eq (routines : Routines) (name : String) :
    routines.nextPath name = routines.directory ++ "/borrow/" ++
      spelling name (routines.table.keys.filter (·.name = name)).length := by
  unfold nextPath spelling
  by_cases first : (routines.table.keys.filter (·.name = name)).length = 0
  · simp [first]
  · simp only [if_neg first, toString, String.append_assoc]

/-- A numbered name ends in its number, which holds no underscore. -/
theorem numbered_inj {first second : String} {number other : Nat}
    (same : first ++ "_" ++ toString number = second ++ "_" ++ toString other) :
    first = second ∧ number = other := by
  have characters := congrArg String.toList same
  simp only [String.toList_append, Nat.toString_eq_ofList_toDigits,
    String.toList_ofList] at characters
  have stops (name : String) :
      ∀ char ∈ (name.toList ++ "_".toList).getLast?, char.isDigit = false := by
    intro char member
    rw [List.getLast?_append] at member
    cases member
    decide
  obtain ⟨names, numbers⟩ := append_toDigits_inj (stops first) (stops second) characters
  exact ⟨String.toList_inj.mp (List.append_cancel_right names), numbers⟩

theorem spelling_eq_iff (first second : String) (number other : Nat) :
    spelling first number = spelling second other ↔
      sanitize first = sanitize second ∧ number = other ∨
        number = 0 ∧ other ≠ 0 ∧ sanitize first = sanitize second ++ "_" ++ toString other ∨
        other = 0 ∧ number ≠ 0 ∧ sanitize second = sanitize first ++ "_" ++ toString number := by
  unfold spelling
  by_cases firstPlain : number = 0
  · by_cases secondPlain : other = 0
    · simp [firstPlain, secondPlain]
    · simp [firstPlain, secondPlain, Ne.symm secondPlain]
  · by_cases secondPlain : other = 0
    · simp [firstPlain, secondPlain, eq_comm]
    · simp only [firstPlain, secondPlain, if_false, false_and, or_false]
      constructor
      · exact numbered_inj
      · rintro ⟨names, rfl⟩
        rw [names]

theorem pathOf_eq_iff (routines : Routines) (first second : RoutineKey) :
    routines.pathOf first = routines.pathOf second ↔ routines.Clash first second := by
  unfold pathOf Clash
  rw [← spelling_eq_iff]
  constructor
  · intro same
    have characters := congrArg String.toList same
    simp only [String.toList_append] at characters
    exact String.toList_inj.mp (List.append_cancel_left characters)
  · intro same
    rw [same]

theorem takeWhile_append_of_mem {key : RoutineKey} {keys : List RoutineKey}
    (member : key ∈ keys) (others : List RoutineKey) :
    (keys ++ others).takeWhile (· ≠ key) = keys.takeWhile (· ≠ key) := by
  induction keys with
  | nil => exact absurd member List.not_mem_nil
  | cons first rest ih =>
      by_cases here : first = key
      · simp [here]
      · have later : key ∈ rest := by
          rcases List.mem_cons.mp member with same | later
          · exact absurd same.symm here
          · exact later
        simp only [List.cons_append, List.takeWhile_cons, ne_eq, here, not_false_eq_true,
          decide_true, if_true, ih later]

theorem takeWhile_append_of_not_mem {key : RoutineKey} {keys : List RoutineKey}
    (absent : key ∉ keys) (others : List RoutineKey) :
    (keys ++ key :: others).takeWhile (· ≠ key) = keys := by
  rw [List.takeWhile_append_of_pos]
  · simp
  · intro other member
    simp only [ne_eq, decide_eq_true_eq]
    rintro rfl
    exact absent member

/-- No key has two routines, and each routine is the one for its key. -/
structure Numbered (routines : Routines) : Prop where
  distinct : routines.table.keys.Nodup
  stored : ∀ entry ∈ routines.table.entries,
    entry.2 = ⟨routines.pathOf entry.1, entry.1.commands⟩

/-- The table with one more routine. -/
def grow (routines : Routines) (key : RoutineKey) (routine : Routine) : Routines :=
  { routines with table := routines.table.insert key routine }

theorem earlier_grow_old {routines : Routines} {key new : RoutineKey}
    (absent : routines.table.get? new = none) (routine : Routine)
    (member : key ∈ routines.table.keys) :
    (routines.grow new routine).earlier key = routines.earlier key := by
  unfold earlier grow
  rw [OrderedMap.keys_insert_new absent, takeWhile_append_of_mem member]

theorem earlier_grow_new {routines : Routines} {new : RoutineKey}
    (absent : routines.table.get? new = none) (routine : Routine) :
    (routines.grow new routine).earlier new = routines.table.keys := by
  unfold earlier grow
  rw [OrderedMap.keys_insert_new absent]
  exact takeWhile_append_of_not_mem ((OrderedMap.not_mem_keys_iff _ _).mpr absent) []

theorem grow_numbered {routines : Routines} (numbered : routines.Numbered) {new : RoutineKey}
    (absent : routines.table.get? new = none) :
    (routines.grow new ⟨routines.nextPath new.name, new.commands⟩).Numbered := by
  constructor
  · rw [grow, OrderedMap.keys_insert_new absent, List.nodup_append]
    refine ⟨numbered.distinct, by simp, ?_⟩
    rintro key member other otherMem rfl
    rw [List.mem_singleton.mp otherMem] at member
    exact (OrderedMap.not_mem_keys_iff _ _).mpr absent member
  · intro entry member
    rw [grow, OrderedMap.entries_insert_new absent, List.mem_append, List.mem_singleton] at member
    unfold pathOf number
    rcases member with old | rfl
    · rw [earlier_grow_old absent _ (List.mem_map_of_mem old)]
      exact numbered.stored entry old
    · rw [earlier_grow_new absent, nextPath_eq]
      rfl

theorem borrow_numbered {routines : Routines} (numbered : routines.Numbered) (value : Value)
    (unit : Score) : (routines.borrow value unit).2.Numbered := by
  cases found : routines.table.get? (borrowKey value unit) with
  | some known => rwa [borrow_known found]
  | none =>
      rw [borrow_new found]
      exact grow_numbered numbered found

variable {routines : Routines} {key other : RoutineKey} {routine : Routine}

theorem Numbered.get? (numbered : routines.Numbered)
    (found : routines.table.get? key = some routine) :
    routine = ⟨routines.pathOf key, key.commands⟩ :=
  numbered.stored (key, routine) (OrderedMap.mem_entries_of_get? found)

theorem earlier_eq {before after : List RoutineKey} (numbered : routines.Numbered)
    (split : routines.table.keys = before ++ key :: after) : routines.earlier key = before := by
  have distinct := numbered.distinct
  rw [split, List.nodup_append] at distinct
  rw [earlier, split]
  apply takeWhile_append_of_not_mem
  intro member
  exact distinct.2.2 key member key List.mem_cons_self rfl

/-- What came later is what stands behind. -/
theorem mem_earlier_iff {before after : List RoutineKey} (numbered : routines.Numbered)
    (split : routines.table.keys = before ++ key :: after)
    (otherMem : other ∈ routines.table.keys) :
    key ∈ routines.earlier other ↔ other ∈ after := by
  have distinct := numbered.distinct
  rw [split, List.nodup_append, List.nodup_cons] at distinct
  obtain ⟨_, _, apart⟩ := distinct
  constructor
  · intro keyEarlier
    rw [split, List.mem_append, List.mem_cons] at otherMem
    rcases otherMem with ahead | rfl | behind
    · -- what came before the other key came before this one, too
      obtain ⟨start, rest, rfl⟩ := List.append_of_mem ahead
      rw [earlier_eq numbered (split.trans (List.append_assoc start _ _))] at keyEarlier
      exact absurd rfl (apart key (List.mem_append_left _ keyEarlier) key List.mem_cons_self)
    · rw [earlier_eq numbered split] at keyEarlier
      exact absurd rfl (apart other keyEarlier other List.mem_cons_self)
    · exact behind
  · intro behind
    obtain ⟨middle, rest, rfl⟩ := List.append_of_mem behind
    have regrouped : routines.table.keys = (before ++ key :: middle) ++ other :: rest := by
      rw [split, List.append_assoc, List.cons_append]
    rw [earlier_eq numbered regrouped]
    exact List.mem_append_right _ List.mem_cons_self

/-- The routines of one objective have growing numbers. -/
theorem number_lt {before after : List RoutineKey} (numbered : routines.Numbered)
    (split : routines.table.keys = before ++ key :: after) (behind : other ∈ after)
    (sameName : key.name = other.name) : routines.number key < routines.number other := by
  obtain ⟨middle, rest, rfl⟩ := List.append_of_mem behind
  have regrouped : routines.table.keys = (before ++ key :: middle) ++ other :: rest := by
    rw [split, List.append_assoc, List.cons_append]
  unfold number
  rw [earlier_eq numbered split, earlier_eq numbered regrouped, List.filter_append,
    List.length_append, sameName]
  have here : (List.filter (·.name = other.name) (key :: middle)).length ≠ 0 := by
    simp [sameName]
  omega

/-- Two routines of one objective never clash. -/
theorem not_clash_of_name_eq (numbered : routines.Numbered) (member : key ∈ routines.table.keys)
    (otherMem : other ∈ routines.table.keys) (different : key ≠ other)
    (sameName : key.name = other.name) : ¬ routines.Clash key other := by
  have numbers : routines.number key ≠ routines.number other := by
    obtain ⟨before, after, split⟩ := List.append_of_mem member
    have place := otherMem
    rw [split, List.mem_append, List.mem_cons] at place
    rcases place with ahead | same | behind
    · obtain ⟨start, rest, rfl⟩ := List.append_of_mem ahead
      have regrouped : routines.table.keys = start ++ other :: (rest ++ key :: after) := by
        rw [split, List.append_assoc, List.cons_append]
      exact Nat.ne_of_gt (number_lt numbered regrouped (by simp) sameName.symm)
    · exact absurd same.symm different
    · exact Nat.ne_of_lt (number_lt numbered split behind sameName)
  have longer (text : String) (number : Nat) : text ≠ text ++ "_" ++ toString number := by
    intro same
    have lengths := congrArg String.length same
    have one : "_".length = 1 := rfl
    rw [String.length_append, String.length_append, one] at lengths
    omega
  unfold Clash
  rw [sameName]
  rintro (⟨_, same⟩ | ⟨_, _, same⟩ | ⟨_, _, same⟩)
  · exact numbers same
  · exact longer _ _ same
  · exact longer _ _ same

/-- Store routines as functions, one after the other. -/
def store (functions : OrderedMap String (List Command)) (list : List Routine) :
    OrderedMap String (List Command) :=
  list.foldl (fun functions routine => functions.insert routine.path routine.commands) functions

theorem get?_store_of_absent (functions : OrderedMap String (List Command))
    {list : List Routine} {path : String} (absent : ∀ routine ∈ list, routine.path ≠ path) :
    (store functions list).get? path = functions.get? path := by
  induction list generalizing functions with
  | nil => rfl
  | cons first rest ih =>
      obtain ⟨firstApart, restApart⟩ := List.forall_mem_cons.mp absent
      calc
        (store functions (first :: rest)).get? path =
            (functions.insert first.path first.commands).get? path := ih _ restApart
        _ = functions.get? path := OrderedMap.get?_insert_of_ne _ _ firstApart.symm

/-- One of the routines for a path ends up there. -/
theorem get?_store_of_mem (functions : OrderedMap String (List Command)) {list : List Routine}
    {path : String} (present : ∃ routine ∈ list, routine.path = path) :
    ∃ routine ∈ list, routine.path = path ∧
      (store functions list).get? path = some routine.commands := by
  induction list generalizing functions with
  | nil =>
      obtain ⟨routine, member, _⟩ := present
      exact absurd member List.not_mem_nil
  | cons first rest ih =>
      by_cases later : ∃ routine ∈ rest, routine.path = path
      · obtain ⟨routine, member, pathEq, stored⟩ :=
          ih (functions.insert first.path first.commands) later
        exact ⟨routine, List.mem_cons_of_mem first member, pathEq, stored⟩
      · have absent : ∀ routine ∈ rest, routine.path ≠ path :=
          fun routine member same => later ⟨routine, member, same⟩
        obtain ⟨routine, member, pathEq⟩ := present
        have isFirst : routine = first := by
          rcases List.mem_cons.mp member with same | inRest
          · exact same
          · exact absurd pathEq (absent routine inRest)
        subst isFirst
        refine ⟨routine, List.mem_cons_self, pathEq, ?_⟩
        have stored := get?_store_of_absent (functions.insert routine.path routine.commands) absent
        rw [← pathEq] at stored ⊢
        exact stored.trans (OrderedMap.get?_insert_self _ _ _)

/-- Paths that are new come behind the functions. -/
theorem keys_store {functions : OrderedMap String (List Command)} {names : List String}
    (listed : functions.keys = names.eraseDups) (list : List Routine) :
    (store functions list).keys = (names ++ list.map Routine.path).eraseDups := by
  induction list generalizing functions names with
  | nil => rw [List.map_nil, List.append_nil, store, List.foldl_nil, listed]
  | cons first rest ih =>
      have stored := OrderedMap.keys_insert_eq_eraseDups listed first.path first.commands
      rw [List.map_cons, List.append_cons]
      exact ih stored

theorem get?_store_iff (numbered : routines.Numbered)
    (functions : OrderedMap String (List Command))
    (found : routines.table.get? key = some routine) :
    (store functions routines.routines).get? routine.path = some key.commands ↔
      ∀ later ∈ routines.table.keys, key ∈ routines.earlier later →
        ¬ routines.Clash key later := by
  have routineEq := numbered.get? found
  obtain ⟨before, after, split⟩ :=
    List.append_of_mem (OrderedMap.mem_entries_of_get? found)
  have keysSplit : routines.table.keys =
      before.map Prod.fst ++ key :: after.map Prod.fst := by
    rw [OrderedMap.keys, split, List.map_append, List.map_cons]
  have storedEq : store functions routines.routines =
      store ((store functions (before.map Prod.snd)).insert routine.path routine.commands)
        (after.map Prod.snd) := by
    rw [Routines.routines, OrderedMap.values, split, List.map_append, List.map_cons, store,
      List.foldl_append, List.foldl_cons]
    rfl
  have behindMem {entry : RoutineKey × Routine} (behind : entry ∈ after) :
      entry ∈ routines.table.entries := by
    rw [split]
    exact List.mem_append_right _ (List.mem_cons_of_mem _ behind)
  -- a routine behind this one has its path exactly if the two clash
  have samePath {entry : RoutineKey × Routine} (behind : entry ∈ after) :
      entry.2.path = routine.path ↔ routines.Clash key entry.1 := by
    rw [numbered.stored entry (behindMem behind), routineEq, ← pathOf_eq_iff]
    exact eq_comm
  rw [storedEq]
  constructor
  · intro stored later laterMem keyEarlier clash
    have behind := (mem_earlier_iff numbered keysSplit laterMem).mp keyEarlier
    obtain ⟨entry, entryBehind, rfl⟩ := List.mem_map.mp behind
    obtain ⟨winner, winnerMem, _, winnerStored⟩ := get?_store_of_mem
      ((store functions (before.map Prod.snd)).insert routine.path routine.commands)
      ⟨entry.2, List.mem_map_of_mem entryBehind, (samePath entryBehind).mpr clash⟩
    obtain ⟨other, otherBehind, rfl⟩ := List.mem_map.mp winnerMem
    rw [winnerStored, numbered.stored other (behindMem otherBehind), Option.some.injEq] at stored
    have same := RoutineKey.commands_injective stored
    have distinct := numbered.distinct
    rw [keysSplit, List.nodup_append, List.nodup_cons] at distinct
    apply distinct.2.1.1
    rw [← same]
    exact List.mem_map_of_mem otherBehind
  · intro clear
    have absent : ∀ other ∈ after.map Prod.snd, other.path ≠ routine.path := by
      intro other member same
      obtain ⟨entry, behind, rfl⟩ := List.mem_map.mp member
      have entryMem : entry.1 ∈ routines.table.keys := List.mem_map_of_mem (behindMem behind)
      have keyEarlier :=
        (mem_earlier_iff numbered keysSplit entryMem).mpr (List.mem_map_of_mem behind)
      exact clear entry.1 entryMem keyEarlier ((samePath behind).mp same)
    rw [get?_store_of_absent _ absent, OrderedMap.get?_insert_self, routineEq]

end Routines

namespace Command

/-- The functions that a command runs. -/
def calls : Command → List String
  | execute _ run => run.calls
  | call path => [path]
  | addObjective _ | removeObjective _ | setScore _ _ | addScore _ _ | removeScore _ _
  | operate _ _ _ | raw _ => []

end Command

theorem Step.command_calls (held : List Value) (step : Step) : (step.command held).calls = [] := by
  induction step with
  | set target score => rfl
  | add target amount => rfl
  | remove target amount => rfl
  | operate target operation source => rfl
  | guarded tests step ih => exact ih

namespace Routines

/-- Whatever the command calls is the routine of a value that it tests. -/
def Links (routines : Routines) (command : Command) : Prop :=
  ∀ path ∈ command.calls, ∃ value unit routine,
    command = borrowCall value path ∧ value.unit? = some unit ∧
      routines.table.get? (borrowKey value unit) = some routine ∧ routine.path = path

theorem Links.of_extends {earlier later : Routines} {command : Command}
    (links : earlier.Links command) (grown : earlier.Extends later) : later.Links command := by
  intro path member
  obtain ⟨value, unit, routine, isCall, unitEq, stored, pathEq⟩ := links path member
  exact ⟨value, unit, routine, isCall, unitEq, grown _ _ stored, pathEq⟩

end Routines

namespace Plan

/-- The commands of a plan call only routines of values that borrow in it. -/
theorem allocate_links {pool : Pool} (plan : Plan) {held : List Value}
    {workspace later : Workspace} {commands : List Command}
    (succeeds : plan.allocate pool held workspace = (.ok commands, later))
    (units : ∀ pair ∈ plan.borrowers, pair.1.unit? = some pair.2) :
    ∀ command ∈ commands, later.routines.Links command := by
  induction plan generalizing held workspace later commands with
  | steps list =>
      cases succeeds
      intro command member path called
      obtain ⟨step, _, rfl⟩ := List.mem_map.mp member
      rw [step.command_calls] at called
      exact absurd called List.not_mem_nil
  | borrow value unit =>
      cases succeeds
      intro command member path called
      obtain rfl := List.mem_singleton.mp member
      obtain rfl := List.mem_singleton.mp called
      obtain ⟨routine, stored, pathEq⟩ := Routines.borrow_stored workspace.routines value unit
      exact ⟨value, unit, routine, rfl, units (value, unit) List.mem_cons_self, stored, pathEq⟩
  | fail error => cases succeeds
  | sequence first next firstIH nextIH =>
      obtain ⟨front, middle, back, firstSucceeds, nextSucceeds, rfl⟩ :=
        allocate_sequence_inv succeeds
      have grown := allocate_extends pool next held middle
      rw [nextSucceeds] at grown
      intro command member
      rcases List.mem_append.mp member with inFirst | inNext
      · exact (firstIH firstSucceeds (fun pair pairMem =>
          units pair (List.mem_append_left _ pairMem)) command inFirst).of_extends grown
      · exact nextIH nextSucceeds (fun pair pairMem =>
          units pair (List.mem_append_right _ pairMem)) command inNext
  | scratch ty address body ih =>
      rcases outcome : body.allocate pool
        (held ++ [(workspace.acquire pool ty address).1.value])
        (workspace.acquire pool ty address).2 with ⟨result, released⟩
      simp only [allocate, outcome, Prod.mk.injEq] at succeeds
      obtain ⟨rfl, rfl⟩ := succeeds
      rw [Workspace.discard_routines]
      exact ih outcome units

theorem allocate_numbered (pool : Pool) (plan : Plan) (held : List Value) {workspace : Workspace}
    (numbered : workspace.routines.Numbered) :
    (plan.allocate pool held workspace).2.routines.Numbered := by
  apply allocate_routines (fun before after => before.Numbered → after.Numbered)
  · exact fun _ unchanged => unchanged
  · exact fun left right start => right (left start)
  · exact fun _ value unit start => Routines.borrow_numbered start value unit
  · exact numbered

end Plan

namespace Program

/-- The commands of a function.  One that does not exist has none. -/
def body (program : Program) (path : String) : List Command :=
  (program.functions.get? path).getD []

end Program

namespace Compilation

/-- One thing done in a compilation. -/
inductive Advance : Compilation → Compilation → Prop
  | addFile (compilation : Compilation) (file : SourceFile) :
      Advance compilation (compilation.addFile file).2
  | declare (compilation : Compilation) (ident : String) (ty : Ty)
      (attributes : List Attribute) :
      Advance compilation (compilation.declare ident ty attributes).2
  | openFunction (compilation : Compilation) (name : String) :
      Advance compilation (compilation.openFunction name)
  | acquire (compilation : Compilation) (pool : Pool) (ty : Ty) (address : Address) :
      Advance compilation
        { compilation with workspace := (compilation.workspace.acquire pool ty address).2 }
  | discard (compilation : Compilation) (lease : Lease) :
      Advance compilation { compilation with workspace := compilation.workspace.discard lease }
  | lower (compilation : Compilation) (span : Span) (pool : Pool) (statement : Statement) :
      Advance compilation
        (compilation.lower span fun _ workspace => statement.lower pool workspace).2

/-- All calls in the functions lead to routines of the table. -/
structure Linked (compilation : Compilation) : Prop where
  numbered : compilation.workspace.routines.Numbered
  links : ∀ name body, compilation.functions.get? name = some body →
    ∀ command ∈ body, compilation.workspace.routines.Links command

theorem start_linked (settings : Settings) : (start settings).Linked where
  numbered := ⟨List.nodup_nil, fun _ member => absurd member List.not_mem_nil⟩
  links _ _ stored := by cases stored

variable {compilation : Compilation}

theorem Linked.openFunction (linked : compilation.Linked) (name : String) :
    (compilation.openFunction name).Linked := by
  refine ⟨linked.numbered, fun other body stored => ?_⟩
  simp only [Compilation.openFunction] at stored
  split at stored
  · exact linked.links other body stored
  · by_cases same : other = name
    · subst same
      rw [OrderedMap.get?_insert_self] at stored
      cases stored
      exact fun command member => absurd member List.not_mem_nil
    · rw [OrderedMap.get?_insert_of_ne _ _ same] at stored
      exact linked.links other body stored

theorem Linked.appendTo (linked : compilation.Linked) (name : String) {commands : List Command}
    (links : ∀ command ∈ commands, compilation.workspace.routines.Links command) :
    (compilation.appendTo name commands).Linked := by
  refine ⟨linked.numbered, fun other body stored command member => ?_⟩
  simp only [Compilation.appendTo] at stored
  by_cases same : other = name
  · subst same
    rw [OrderedMap.get?_insert_self] at stored
    cases stored
    rcases List.mem_append.mp member with old | new
    · cases found : compilation.functions.get? other with
      | none =>
          rw [found] at old
          exact absurd old List.not_mem_nil
      | some known =>
          rw [found] at old
          exact linked.links other known found command old
    · exact links command new
  · rw [OrderedMap.get?_insert_of_ne _ _ same] at stored
    exact linked.links other body stored command member

theorem Linked.append (linked : compilation.Linked) {commands : List Command}
    (links : ∀ command ∈ commands, compilation.workspace.routines.Links command) :
    (compilation.append commands).Linked := by
  unfold Compilation.append
  split
  · exact linked.appendTo _ links
  · exact (linked.openFunction mainFunction).appendTo _ links

/-- Only routines matter for what is linked already. -/
theorem Linked.withWorkspace (linked : compilation.Linked) {later : Workspace}
    (numbered : later.routines.Numbered)
    (grown : compilation.workspace.routines.Extends later.routines) :
    { compilation with workspace := later }.Linked :=
  ⟨numbered, fun name body stored command member =>
    (linked.links name body stored command member).of_extends grown⟩

theorem Linked.advance {later : Compilation} (linked : compilation.Linked)
    (step : Advance compilation later) : later.Linked := by
  cases step with
  | addFile file => exact ⟨linked.numbered, linked.links⟩
  | openFunction name => exact linked.openFunction name
  | declare ident ty attributes =>
      unfold Compilation.declare
      split
      · exact linked
      · exact ⟨linked.numbered, linked.links⟩
  | acquire pool ty address =>
      have same := Workspace.acquire_routines compilation.workspace pool ty address
      exact linked.withWorkspace (same ▸ linked.numbered) (same ▸ .refl _)
  | discard lease =>
      have same := Workspace.discard_routines compilation.workspace lease
      exact linked.withWorkspace (same ▸ linked.numbered) (same ▸ .refl _)
  | lower span pool statement =>
      have numbered := Plan.allocate_numbered pool statement.plan [] linked.numbered
      have grown := Plan.allocate_extends pool statement.plan [] compilation.workspace
      simp only [Compilation.lower, Statement.lower_eq_allocate]
      rcases lowered : statement.plan.allocate pool [] compilation.workspace with
        ⟨error | commands, workspace⟩
      · rw [lowered] at numbered grown
        exact linked.withWorkspace numbered grown
      · rw [lowered] at numbered grown
        apply (linked.withWorkspace numbered grown).append
        apply Plan.allocate_links statement.plan lowered
        intro pair member
        obtain ⟨isLeft, unitEq⟩ := statement.plan_onlyBorrows pair member
        rwa [isLeft]

theorem linked_of_advances {settings : Settings}
    (advances : Relation.ReflTransGen Advance (start settings) compilation) :
    compilation.Linked := by
  induction advances with
  | refl => exact start_linked settings
  | tail _ step ih => exact ih.advance step

/-! ### Running a finished program -/

theorem append_workspace (compilation : Compilation) (commands : List Command) :
    (compilation.append commands).workspace = compilation.workspace := by
  unfold append
  split <;> rfl

theorem lower_workspace (compilation : Compilation) (span : Span)
    (lowering : Registry → Workspace → Outcome (List Command)) :
    (compilation.lower span lowering).2.workspace =
      (lowering compilation.registry compilation.workspace).2 := by
  unfold lower
  rcases lowering compilation.registry compilation.workspace with ⟨error | commands, later⟩
  · rfl
  · exact append_workspace _ commands

/-- A routine that is in the table stays there. -/
theorem Advance.extends {later : Compilation} (step : Advance compilation later) :
    compilation.workspace.routines.Extends later.workspace.routines := by
  cases step with
  | addFile file | openFunction name => exact .refl _
  | declare ident ty attributes =>
      unfold Compilation.declare
      split <;> exact .refl _
  | acquire pool ty address =>
      rw [Workspace.acquire_routines]
      exact .refl _
  | discard lease =>
      rw [Workspace.discard_routines]
      exact .refl _
  | lower span pool statement =>
      rw [lower_workspace, Statement.lower_eq_allocate]
      exact Plan.allocate_extends pool statement.plan [] compilation.workspace

theorem extends_of_advances {later : Compilation}
    (advances : Relation.ReflTransGen Advance compilation later) :
    compilation.workspace.routines.Extends later.workspace.routines := by
  induction advances with
  | refl => exact .refl _
  | tail _ step ih => exact ih.trans step.extends

/-- No routine that came later has taken the place of the one for the value. -/
def KeepsRoutine (compilation : Compilation) (value : Value) (unit : Score) : Prop :=
  let routines := compilation.workspace.routines
  ∀ later ∈ routines.table.keys, Routines.borrowKey value unit ∈ routines.earlier later →
    ¬ routines.Clash (Routines.borrowKey value unit) later

/-- In the finished program, a value has the routine that was generated for it. -/
theorem Linked.serves (linked : compilation.Linked) {value : Value} {unit : Score}
    (keeps : compilation.KeepsRoutine value unit) :
    compilation.workspace.routines.Serves compilation.finish.body value unit := by
  intro routine found
  have stored : compilation.finish.functions.get? routine.path =
      some (Routines.borrowCommands value unit) :=
    (Routines.get?_store_iff linked.numbered compilation.functions found).mpr keeps
  rw [Program.body, stored]
  rfl

/-- The commands of a statement do in the finished program what is known of executing the
statement, whatever is compiled behind it, as long as its routine keeps its place. -/
theorem executes_finished {settings : Settings} {later : Compilation} {span : Span} {pool : Pool}
    {statement : Statement} {commands : List Command} {workspace : Workspace}
    (advances : Relation.ReflTransGen Advance (start settings) compilation)
    (lowered : statement.lower pool compilation.workspace = (.ok commands, workspace))
    (remaining : Relation.ReflTransGen Advance
      (compilation.lower span fun _ workspace => statement.lower pool workspace).2 later)
    (keeps : ∀ unit, statement.left.unit? = some unit → later.KeepsRoutine statement.left unit)
    (depth : Nat) (executor : String) (scores : Scores) :
    statement.Executes pool executor (compilation.workspace, scores)
      (workspace,
        Machine.runAll (Machine.call later.finish.body (depth + 1)) commands executor scores) := by
  have linked : later.Linked :=
    linked_of_advances ((advances.tail (.lower compilation span pool statement)).trans remaining)
  have grown := extends_of_advances remaining
  rw [lower_workspace, lowered] at grown
  exact ⟨commands, later.finish.body, depth, lowered,
    fun unit unitEq => (linked.serves (keeps unit unitEq)).of_extends grown, rfl⟩

/-! ### Which routine is called -/

/-- Different routines have one path exactly if they clash, and routines of one
objective never do. -/
def TellsApart (compilation : Compilation) : Prop :=
  let routines := compilation.workspace.routines
  ∀ first second routine another, first ≠ second →
    routines.table.get? first = some routine → routines.table.get? second = some another →
      (routine.path = another.path ↔ routines.Clash first second) ∧
        (first.name = second.name → routine.path ≠ another.path)

/-- Every call stands for a value that it tests, and runs the two commands for
that value exactly if no later routine clashes with the value's own. -/
def ReachesUnlessTaken (compilation : Compilation) : Prop :=
  let routines := compilation.workspace.routines
  ∀ name body, compilation.functions.get? name = some body →
    ∀ command ∈ body, ∀ path ∈ command.calls,
      ∃ value unit, command = Routines.borrowCall value path ∧ value.unit? = some unit ∧
        routines.table.get? (Routines.borrowKey value unit) =
          some ⟨path, Routines.borrowCommands value unit⟩ ∧
        (compilation.finish.functions.get? path = some (Routines.borrowCommands value unit) ↔
          ∀ later ∈ routines.table.keys,
            Routines.borrowKey value unit ∈ routines.earlier later →
              ¬ routines.Clash (Routines.borrowKey value unit) later)

/-- However a compilation came about, paths tell routines apart unless they clash, and a call in
it reaches the routine of its value unless a later routine took the path. -/
theorem borrow_call_reaches_routine_iff {settings : Settings} {compilation : Compilation}
    (advances : Relation.ReflTransGen Advance (start settings) compilation) :
    compilation.TellsApart ∧ compilation.ReachesUnlessTaken := by
  have linked := linked_of_advances advances
  have numbered := linked.numbered
  constructor
  · intro first second routine another different found otherFound
    have firstMem : first ∈ compilation.workspace.routines.table.keys :=
      List.mem_map_of_mem (OrderedMap.mem_entries_of_get? found)
    have secondMem : second ∈ compilation.workspace.routines.table.keys :=
      List.mem_map_of_mem (OrderedMap.mem_entries_of_get? otherFound)
    rw [numbered.get? found, numbered.get? otherFound, ne_eq, Routines.pathOf_eq_iff]
    exact ⟨Iff.rfl, Routines.not_clash_of_name_eq numbered firstMem secondMem different⟩
  · intro name body stored command member path called
    obtain ⟨value, unit, routine, isCall, unitEq, found, rfl⟩ :=
      linked.links name body stored command member path called
    -- finishing stores the routines one after the other
    have reached := Routines.get?_store_iff numbered compilation.functions found
    refine ⟨value, unit, isCall, unitEq, ?_, reached⟩
    rw [found, numbered.get? found]
    rfl

/-- Three values of one name, each with a routine of its own. -/
theorem borrow_call_reaches_variant :
    let coarse : Value := ⟨"x", .decimal 1, .here, []⟩
    let fine : Value := ⟨"x", .decimal 2, .here, []⟩
    let shared : Value := ⟨"x", .decimal 2, .player "_", [.global]⟩
    let lowered (compilation : Compilation) (value : Value) := (compilation.lower ⟨0, 1⟩
      fun _ workspace =>
        (Statement.operateLiteral value .mul (.int 3)).lower .counted workspace).2
    let compilation := lowered (lowered (lowered (start {}) coarse) fine) shared
    let path := "_mcc/borrow/x_2"
    Relation.ReflTransGen Advance (start {}) compilation ∧
      Routines.borrowCall shared path ∈ (compilation.functions.get? "main").getD [] ∧
      compilation.finish.functions.get? path = some (Routines.borrowCommands shared 100) ∧
      compilation.TellsApart ∧ compilation.ReachesUnlessTaken := by
  intro coarse fine shared lowered compilation path
  have advances : Relation.ReflTransGen Advance (start {}) compilation :=
    ((Relation.ReflTransGen.refl.tail (.lower _ _ _ _)).tail (.lower _ _ _ _)).tail
      (.lower _ _ _ _)
  exact ⟨advances, by decide +kernel, by decide +kernel,
    borrow_call_reaches_routine_iff advances⟩

/-- The field `x` of a struct `s` and a value `s_x` are different keys with one
path, and the call for the field runs the commands of the other. -/
theorem borrow_routine_taken :
    let ty : Ty := .struct "P" [("x", .decimal 1)]
    let field : Value := ⟨"s.x", .decimal 1, .here, []⟩
    let plain : Value := ⟨"s_x", .decimal 1, .here, []⟩
    let lowered (compilation : Compilation) (value : Value) := (compilation.lower ⟨0, 1⟩
      fun _ workspace =>
        (Statement.operateLiteral value .add (.int 1)).lower .stacked workspace).2
    let declared := (((start {}).declare "s" ty []).2.declare "s_x" (.decimal 1) []).2
    let compilation := lowered (lowered declared field) plain
    let path := "_mcc/borrow/s_x"
    Relation.ReflTransGen Advance (start {}) compilation ∧
      Routines.borrowKey field 10 ≠ Routines.borrowKey plain 10 ∧
      Routines.borrowCall field path ∈ (compilation.functions.get? "main").getD [] ∧
      compilation.finish.functions.get? path = some (Routines.borrowCommands plain 10) ∧
      Routines.borrowCommands plain 10 ≠ Routines.borrowCommands field 10 := by
  intro ty field plain lowered declared compilation path
  have advances : Relation.ReflTransGen Advance (start {}) compilation :=
    (((Relation.ReflTransGen.refl.tail (.declare _ "s" ty [])).tail
      (.declare _ "s_x" (.decimal 1) [])).tail (.lower _ _ _ _)).tail (.lower _ _ _ _)
  exact ⟨advances, by decide, by decide +kernel, by decide +kernel, by decide⟩

end Compilation

end ScoreLowering
