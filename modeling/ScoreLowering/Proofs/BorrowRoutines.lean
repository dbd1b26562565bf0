import ScoreLowering.Proofs.OrderedMapLookup
import ScoreLowering.Routine

/-!
# What a borrow call does

A borrow call tests both parts of a value and runs the routine that was generated
for it.  If the function at the path of the call is that routine, the call moves
one unit between the parts of the value, whoever the value belongs to.
-/

namespace ScoreLowering

namespace Routines

theorem borrow_known {routines : Routines} {value : Value} {unit : Score} {routine : Routine}
    (found : routines.table.get? (borrowKey value unit) = some routine) :
    routines.borrow value unit = (routine.path, routines) := by
  simp [borrow, found]

theorem borrow_new {routines : Routines} {value : Value} {unit : Score}
    (missing : routines.table.get? (borrowKey value unit) = none) :
    routines.borrow value unit = (routines.nextPath value.name, { routines with
      table := routines.table.insert (borrowKey value unit)
        ⟨routines.nextPath value.name, borrowCommands value unit⟩ }) := by
  simp [borrow, missing]

/-- The function at the path of a value's routine is that routine. -/
def Serves (routines : Routines) (functions : String → List Command) (value : Value)
    (unit : Score) : Prop :=
  ∀ routine, routines.table.get? (borrowKey value unit) = some routine →
    functions routine.path = borrowCommands value unit

/-- Every routine keeps its place in the later table. -/
def Extends (earlier later : Routines) : Prop :=
  ∀ key routine, earlier.table.get? key = some routine → later.table.get? key = some routine

theorem Extends.refl (routines : Routines) : routines.Extends routines :=
  fun _ _ stored => stored

theorem Extends.trans {first second third : Routines} (left : first.Extends second)
    (right : second.Extends third) : first.Extends third :=
  fun key routine stored => right key routine (left key routine stored)

theorem Serves.of_extends {earlier later : Routines} {functions : String → List Command}
    {value : Value} {unit : Score} (serves : later.Serves functions value unit)
    (grown : earlier.Extends later) : earlier.Serves functions value unit :=
  fun routine stored => serves routine (grown _ _ stored)

theorem borrow_extends (routines : Routines) (value : Value) (unit : Score) :
    routines.Extends (routines.borrow value unit).2 := by
  intro key routine stored
  cases found : routines.table.get? (borrowKey value unit) with
  | some known => rwa [borrow_known found]
  | none =>
      have different : key ≠ borrowKey value unit := by
        rintro rfl
        rw [found] at stored
        cases stored
      rw [borrow_new found]
      exact (OrderedMap.get?_insert_of_ne _ _ different).trans stored

theorem borrow_stored (routines : Routines) (value : Value) (unit : Score) :
    ∃ routine, (routines.borrow value unit).2.table.get? (borrowKey value unit) = some routine ∧
      routine.path = (routines.borrow value unit).1 := by
  cases found : routines.table.get? (borrowKey value unit) with
  | some known =>
      rw [borrow_known found]
      exact ⟨known, found, rfl⟩
  | none =>
      rw [borrow_new found]
      exact ⟨_, OrderedMap.get?_insert_self _ _ _, rfl⟩

end Routines

namespace Value

theorem objective_fraction_ne_whole (value : Value) :
    value.objective .fraction ≠ value.objective .whole := by
  intro same
  have lengths : (value.name ++ Name.fractionSuffix).length = value.name.length :=
    congrArg String.length same
  have suffix : Name.fractionSuffix.length = 2 := rfl
  rw [String.length_append] at lengths
  omega

theorem objective_injective (value : Value) {first second : Part}
    (same : value.objective first = value.objective second) : first = second := by
  cases first <;> cases second
  · rfl
  · exact absurd same.symm value.objective_fraction_ne_whole
  · exact absurd same value.objective_fraction_ne_whole
  · rfl

end Value

namespace Range

theorem contains_atMost {max score : Score} : (atMost max).contains score ↔ score ≤ max := by
  simp [contains, inBounds, atMost]

theorem contains_atLeast {min score : Score} :
    (atLeast min).contains score ↔ min ≤ score := by
  simp [contains, inBounds, atLeast]

end Range

namespace Machine

theorem holder_self (executor : String) : holder executor self = executor :=
  if_pos rfl

/-- Tests are passed by the executor they started from, if all of them hold. -/
theorem follow_ifScores (scores : Scores) (executor : String) (tests : List (Register × Range)) :
    follow scores (tests.map fun test => .ifScore test.1 test.2) executor =
      if tests.all fun test => test.2.contains (scores.read (locate executor test.1)) then
        some executor
      else
        none := by
  induction tests with
  | nil => rfl
  | cons test rest ih =>
      by_cases passed : test.2.contains (scores.read (locate executor test.1))
      · rw [List.map_cons, follow, if_pos passed, List.all_cons, passed, Bool.true_and, ih]
      · simp [follow, passed]

/-- Who runs the borrow routine of a value. -/
def borrower (executor : String) : Address → String
  | .entity selector => holder executor selector
  | .player _ => executor

theorem locate_borrower (executor : String) (value : Value) (part : Part) :
    locate (borrower executor value.address)
        ⟨value.address.routineHolder, value.objective part⟩ =
      locate executor (value.register part) := by
  unfold Value.register
  cases value.address with
  | entity selector =>
      simp only [locate, borrower, Address.routineHolder, Address.holder, holder_self]
  | player name => rfl

theorem call_borrowCommands {functions : String → List Command} (depth : Nat) {value : Value}
    {unit : Score} {path : String} (executor : String) (scores : Scores)
    (stored : functions path = Routines.borrowCommands value unit) :
    call functions (depth + 1) path (borrower executor value.address) scores =
      let whole := locate executor (value.register .whole)
      let fraction := locate executor (value.register .fraction)
      (scores.write whole (scores.read whole + 1)).write fraction
        (scores.read fraction - unit) := by
  have apart : locate executor (value.register .fraction) ≠
      locate executor (value.register .whole) := by
    intro same
    exact value.objective_fraction_ne_whole (congrArg Register.objective same)
  simp only [call, stored, Routines.borrowCommands, runAll, List.foldl_cons, List.foldl_nil,
    step, locate_borrower]
  rw [Scores.read_write_other _ _ apart]

/-- A borrow call moves one unit if the parts disagree in sign. -/
theorem step_borrowCall {functions : String → List Command} (depth : Nat) {value : Value}
    {unit : Score} {path : String} (executor : String) (scores : Scores)
    (stored : functions path = Routines.borrowCommands value unit) :
    step (call functions (depth + 1)) (Routines.borrowCall value path) executor scores =
      let whole := locate executor (value.register .whole)
      let fraction := locate executor (value.register .fraction)
      if scores.read whole ≤ -1 ∧ 1 ≤ scores.read fraction then
        (scores.write whole (scores.read whole + 1)).write fraction
          (scores.read fraction - unit)
      else
        scores := by
  have tests : follow scores
      [.ifScore ⟨value.address.routineHolder, value.objective .whole⟩ (.atMost (-1)),
        .ifScore ⟨value.address.routineHolder, value.objective .fraction⟩ (.atLeast 1)]
      (borrower executor value.address) =
      if scores.read (locate executor (value.register .whole)) ≤ -1 ∧
          1 ≤ scores.read (locate executor (value.register .fraction)) then
        some (borrower executor value.address)
      else
        none := by
    have followed := follow_ifScores scores (borrower executor value.address)
      [(⟨value.address.routineHolder, value.objective .whole⟩, .atMost (-1)),
        (⟨value.address.routineHolder, value.objective .fraction⟩, .atLeast 1)]
    simpa only [List.map_cons, List.map_nil, List.all_cons, List.all_nil, Bool.and_true,
      Bool.and_eq_true, locate_borrower, Range.contains_atMost, Range.contains_atLeast]
      using followed
  have clauses : step (call functions (depth + 1)) (Routines.borrowCall value path) executor
      scores =
      (follow scores
        [.ifScore ⟨value.address.routineHolder, value.objective .whole⟩ (.atMost (-1)),
          .ifScore ⟨value.address.routineHolder, value.objective .fraction⟩ (.atLeast 1)]
        (borrower executor value.address)).elim scores
          fun runner => call functions (depth + 1) path runner scores := by
    have executed (clauses : List Clause) (runner : String) :
        step (call functions (depth + 1)) (.execute clauses (.call path)) runner scores =
          (follow scores clauses runner).elim scores
            fun runner => call functions (depth + 1) path runner scores := by
      rw [step]
      cases follow scores clauses runner <;> rfl
    cases addressEq : value.address with
    | entity selector =>
        simp only [Routines.borrowCall, addressEq, List.cons_append, List.nil_append, executed]
        rfl
    | player name =>
        simp only [Routines.borrowCall, addressEq, List.nil_append, executed]
        rfl
  rw [clauses, tests]
  by_cases disagree : scores.read (locate executor (value.register .whole)) ≤ -1 ∧
      1 ≤ scores.read (locate executor (value.register .fraction))
  · rw [if_pos disagree, Option.elim_some, call_borrowCommands depth executor scores stored]
    simp only [if_pos disagree]
  · rw [if_neg disagree, Option.elim_none]
    simp only [if_neg disagree]

end Machine

end ScoreLowering
