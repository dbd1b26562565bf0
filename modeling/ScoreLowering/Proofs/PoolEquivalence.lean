import ScoreLowering.Proofs.StatementExecution

/-!
# Both pools give equivalent commands

The pools name their scratch registers differently, and registers of different
types share names in one of them and not in the other.  None of this can be seen
from outside: a statement fails with one pool exactly if it fails with the other,
with the same error, and its commands do the same to all other registers.
-/

namespace ScoreLowering

namespace Statement

/-- The statement can be lowered with both pools, or with neither for the same
reason. -/
def SameOutcome (statement : Statement) (stacked counted : Workspace) : Prop :=
  (∃ commands others, (statement.lower .stacked stacked).1 = .ok commands ∧
      (statement.lower .counted counted).1 = .ok others) ∨
    ∃ error, (statement.lower .stacked stacked).1 = .error error ∧
      (statement.lower .counted counted).1 = .error error

/-- Executing the commands of either pool has the same effect on all registers
that neither pool can hand out. -/
def SameEffect (statement : Statement) (executor : String) (stacked counted : Workspace) :
    Prop :=
  ∀ scores stackedLater countedLater after countedAfter,
    statement.Executes .stacked executor (stacked, scores) (stackedLater, after) →
    statement.Executes .counted executor (counted, scores) (countedLater, countedAfter) →
    ∀ register, ¬ stacked.Unheld .stacked register.objective →
      ¬ counted.Unheld .counted register.objective →
      after.read register = countedAfter.read register

theorem sameOutcome (statement : Statement) (stacked counted : Workspace) :
    statement.SameOutcome stacked counted := by
  have first := (statement.failure?_eq_error? .stacked stacked).symm.trans
    (statement.failure?_eq_error? .counted counted)
  unfold SameOutcome
  cases stackedResult : (statement.lower .stacked stacked).1 with
  | ok commands =>
      cases countedResult : (statement.lower .counted counted).1 with
      | ok others => exact Or.inl ⟨commands, others, rfl, rfl⟩
      | error error =>
          rw [stackedResult, countedResult] at first
          cases first
  | error error =>
      cases countedResult : (statement.lower .counted counted).1 with
      | ok others =>
          rw [stackedResult, countedResult] at first
          cases first
      | error other =>
          rw [stackedResult, countedResult] at first
          cases first
          exact Or.inr ⟨error, rfl, rfl⟩

/-- It makes no difference which pool the scratch registers come from, nor what else it holds:
the statement fails with the same error, or else does the same to all registers that neither
pool can hand out. -/
theorem pools_equivalent (statement : Statement) (executor : String)
    (stacked counted : Workspace) (stackedStems : stacked.DefaultStems)
    (countedStems : counted.DefaultStems)
    (stackedFewer : stacked.HoldsFewerThan .stacked (10 ^ 6))
    (countedFewer : counted.HoldsFewerThan .counted (10 ^ 6))
    (stackedAvoids : statement.Avoids .stacked stacked)
    (countedAvoids : statement.Avoids .counted counted) :
    statement.SameOutcome stacked counted ∧ statement.SameEffect executor stacked counted := by
  refine ⟨statement.sameOutcome stacked counted, ?_⟩
  intro scores stackedLater countedLater after countedAfter stackedRun countedRun register
    notStacked notCounted
  calc
    after.read register =
        statement.plan.run executor (Memory.ofScores scores) (.fixed register) :=
      stackedRun.read_eq stackedStems stackedFewer stackedAvoids notStacked
    _ = countedAfter.read register :=
      (countedRun.read_eq countedStems countedFewer countedAvoids notCounted).symm

/-- Multiplying decimals of different precision while each pool holds a register. -/
theorem pools_equivalent_product :
    let workspace := (Compilation.start {}).workspace
    let stacked := (workspace.acquire .stacked .int .here).2
    let counted := (workspace.acquire .counted (.decimal 2) (.player "_")).2
    let statement : Statement :=
      .operate ⟨"a", .decimal 2, .here, []⟩ .mul ⟨"b", .decimal 4, .player "_", [.global]⟩
    (∀ pool workspace scores, ∃ later after,
        statement.Executes pool "Steve" (workspace, scores) (later, after)) ∧
      statement.SameOutcome stacked counted ∧
      statement.SameEffect "Steve" stacked counted := by
  intro workspace stacked counted statement
  have stems : workspace.DefaultStems := Compilation.start_defaultStems
  have stackedStems : stacked.DefaultStems := stems.acquire .stacked .int .here
  have countedStems : counted.DefaultStems := stems.acquire .counted (.decimal 2) (.player "_")
  have fewer (pool : Pool) : workspace.HoldsFewerThan pool (10 ^ 6 - 1) :=
    Compilation.start_holdsFewerThan {} pool (by decide)
  have plain : ∀ value ∈ statement.operands, ∀ objective ∈ value.objectives,
      objective.toList.head? ≠ some '_' := by decide
  refine ⟨fun pool => exists_executes rfl pool "Steve", ?_⟩
  exact pools_equivalent statement "Steve" stacked counted stackedStems countedStems
    ((fewer .stacked).acquire .int .here) ((fewer .counted).acquire (.decimal 2) (.player "_"))
    (avoids_of_head stackedStems .stacked plain) (avoids_of_head countedStems .counted plain)

end Statement

end ScoreLowering
