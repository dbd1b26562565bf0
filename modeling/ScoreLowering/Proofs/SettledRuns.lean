import ScoreLowering.Proofs.SettledDecimals

/-!
# Runs keep decimals settled

The plan of a statement leaves its targets settled, and nothing else is touched.
So after any sequence of statements all decimals are settled that were settled
before it.
-/

namespace ScoreLowering

namespace Operation

theorem isTransfer_eq_false {operation : Operation} (notSet : operation ≠ .set)
    (notSwap : operation ≠ .swap) : operation.isTransfer = false := by
  cases operation with
  | set => exact absurd rfl notSet
  | swap => exact absurd rfl notSwap
  | add | sub | mul | div | mod => rfl

end Operation

namespace Plan

variable {executor : String} {this other : Value} {operation : Operation} {memory : Memory}

/-- The value is settled in a memory, whatever precision it has. -/
def SettledIn (executor : String) (value : Value) (memory : Memory) : Prop :=
  ∀ precision, value.ty = .decimal precision → SettledAt executor value precision memory

/-- A plan that depends on a result and succeeds has one. -/
theorem exists_of_ofExcept {α : Type} {result : Except UserError α} {body : α → Plan}
    (succeeds : (ofExcept (result.map body)).failure? = none) :
    ∃ item, result = .ok item ∧ ofExcept (result.map body) = body item := by
  cases result with
  | error error => cases succeeds
  | ok item => exact ⟨item, rfl, rfl⟩

/-- Whatever is computed is settled, from any contents of either side. -/
theorem combineScalars_computes (computes : operation.isTransfer = false) {level : Nat}
    {source : Operand} (memory : Memory)
    (succeeds : (combineScalars level this operation source).failure? = none) :
    SettledIn executor this ((combineScalars level this operation source).run executor memory) := by
  intro precision tyEq
  cases sourceTy : source.ty with
  | int | time =>
      simp only [combineScalars, withUnit, tyEq, sourceTy] at succeeds ⊢
      obtain ⟨unitScore, scaled, planEq⟩ := exists_of_ofExcept succeeds
      rw [planEq]
      exact decimalByInteger_settles scaled level operation source memory
  | decimal otherPrecision =>
      simp only [combineScalars, withUnit, tyEq, sourceTy] at succeeds ⊢
      obtain ⟨unitScore, scaled, planEq⟩ := exists_of_ofExcept succeeds
      rw [planEq] at succeeds ⊢
      exact decimalByDecimal_computes scaled level computes source otherPrecision memory succeeds
  | bool | struct name fields =>
      simp only [combineScalars, tyEq, sourceTy] at succeeds
      cases succeeds

/-- The values are one, or have no register in common. -/
def Apart (executor : String) (first second : Value) : Prop :=
  first = second ∨ ∀ register ∈ first.located executor, register ∉ second.located executor

theorem locate_mem_located {value : Value} {precision : Nat}
    (tyEq : value.ty = .decimal precision) (executor : String) (part : Part) :
    Machine.locate executor (value.register part) ∈ value.located executor :=
  List.mem_map_of_mem (Value.register_mem_of_decimal tyEq part)

theorem Apart.disjoint {precision otherPrecision : Nat} (apart : Apart executor this other)
    (tyEq : this.ty = .decimal precision) (otherTy : other.ty = .decimal otherPrecision) :
    this = other ∨ Disjoint executor this other := by
  rcases apart with same | apart
  · exact Or.inl same
  · right
    intro part otherPart same
    apply apart _ (locate_mem_located tyEq executor part)
    rw [same]
    exact locate_mem_located otherTy executor otherPart

/-- Exchanging two decimals keeps both settled, also if they are one. -/
theorem decimalByDecimal_swap {precision otherPrecision : Nat} {unitScore : Score}
    (apart : Apart executor this other) (tyEq : this.ty = .decimal precision)
    (otherTy : other.ty = .decimal otherPrecision) (small : precision ≤ Ty.maxPrecision)
    (otherSmall : otherPrecision ≤ Ty.maxPrecision) (level : Nat)
    (settled : SettledAt executor this precision memory)
    (otherSettled : SettledAt executor other otherPrecision memory) :
    let after := (decimalByDecimal level this precision .swap other.operand otherPrecision
      unitScore).run executor memory
    SettledAt executor this precision after ∧ SettledAt executor other otherPrecision after := by
  have supported : isUnsupported .swap precision = false := rfl
  simp only [decimalByDecimal, supported, Bool.false_eq_true, if_false, if_true]
  rcases apart.disjoint tyEq otherTy with rfl | disjoint
  · rw [tyEq] at otherTy
    cases otherTy
    simp only [swapDecimals, if_true, SettledAt, run_exchange_self]
    exact ⟨settled, settled⟩
  · exact swapDecimals_settles disjoint small otherSmall level settled otherSettled

theorem combineScalars_settles (apart : Apart executor this other)
    (scalar : other.ty.isScalar)
    (succeeds : (combineScalars 0 this operation other.operand).failure? = none)
    (settled : SettledIn executor this memory) (otherSettled : SettledIn executor other memory) :
    SettledIn executor this
      ((combineScalars 0 this operation other.operand).run executor memory) := by
  cases moves : operation.isTransfer with
  | false => exact combineScalars_computes moves memory succeeds
  | true =>
      intro precision tyEq
      have sameTy : other.operand.ty = other.ty := rfl
      cases otherTy : other.ty with
      | int | time =>
          simp only [combineScalars, withUnit, tyEq, sameTy, otherTy] at succeeds ⊢
          obtain ⟨unitScore, scaled, planEq⟩ := exists_of_ofExcept succeeds
          rw [planEq]
          exact decimalByInteger_settles scaled 0 operation other.operand memory
      | decimal otherPrecision =>
          simp only [combineScalars, withUnit, tyEq, sameTy, otherTy] at succeeds ⊢
          obtain ⟨unitScore, scaled, planEq⟩ := exists_of_ofExcept succeeds
          have small := (Score.scale_toInt scaled).1
          have otherSmall : otherPrecision ≤ Ty.maxPrecision := by
            simpa [otherTy, Ty.isScalar] using scalar
          rw [planEq]
          cases operation with
          | set =>
              exact decimalByDecimal_set small otherSmall 0 (apart.disjoint tyEq otherTy)
                (otherSettled otherPrecision otherTy)
          | swap =>
              exact (decimalByDecimal_swap apart tyEq otherTy small otherSmall 0
                (settled precision tyEq) (otherSettled otherPrecision otherTy)).1
          | add | sub | mul | div | mod => cases moves
      | bool | struct name fields =>
          simp only [combineScalars, tyEq, sameTy, otherTy] at succeeds
          cases succeeds

/-- The right side of an exchange is settled as well. -/
theorem combineScalars_swap_settles (apart : Apart executor this other)
    (scalar : other.ty.isScalar)
    (succeeds : (combineScalars 0 this .swap other.operand).failure? = none)
    (settled : SettledIn executor this memory) (otherSettled : SettledIn executor other memory) :
    SettledIn executor other
      ((combineScalars 0 this .swap other.operand).run executor memory) := by
  intro otherPrecision otherTy
  have sameTy : other.operand.ty = other.ty := rfl
  cases tyEq : this.ty with
  | int | time =>
      simp only [combineScalars, withUnit, tyEq, sameTy, otherTy] at succeeds ⊢
      obtain ⟨unitScore, scaled, planEq⟩ := exists_of_ofExcept succeeds
      have fractionZero : (integerByDecimal 0 this.operand .swap other.operand unitScore).run
          executor memory (partSlot executor other .fraction) = 0 := by
        simp [integerByDecimal, Step.run, Value.operand, partSlot]
      rw [planEq, SettledAt, fractionZero]
      exact Score.settled_zero _ _
  | decimal precision =>
      have otherSmall : otherPrecision ≤ Ty.maxPrecision := by
        simpa [otherTy, Ty.isScalar] using scalar
      simp only [combineScalars, withUnit, tyEq, sameTy, otherTy] at succeeds ⊢
      obtain ⟨unitScore, scaled, planEq⟩ := exists_of_ofExcept succeeds
      rw [planEq]
      exact (decimalByDecimal_swap apart tyEq otherTy (Score.scale_toInt scaled).1 otherSmall 0
        (settled precision tyEq) (otherSettled otherPrecision otherTy)).2
  | bool | struct name fields =>
      simp only [combineScalars, tyEq, sameTy, otherTy] at succeeds
      cases succeeds

/-- Assigning a literal to a decimal stores settled parts. -/
theorem assignment_decimal {literal : Literal} {list : List Step} {precision : Nat}
    (tyEq : this.ty = .decimal precision) (assigned : assignment this literal = .ok list) :
    ∃ whole fraction, Score.Settled precision whole fraction ∧
      list = [.set this.operand.whole whole, .set this.operand.fraction fraction] := by
  have sameTy : this.operand.ty = this.ty := rfl
  unfold assignment at assigned
  split at assigned
  · cases assigned
    refine ⟨0, 0, Score.settled_zero precision 0, ?_⟩
    have simple : ∀ name fields, this.ty ≠ .struct name fields := by simp [tyEq]
    simp [clear, Value.objectives_eq_parts simple, tyEq, Ty.parts, Value.operand, Value.register]
  cases literal with
  | int score =>
      simp only [store, sameTy, tyEq, Except.ok.injEq] at assigned
      exact ⟨score, 0, Score.settled_zero precision score, assigned.symm⟩
  | decimal decimal =>
      simp only [store, sameTy, tyEq] at assigned
      split at assigned
      · rename_i whole fraction found
        cases assigned
        exact ⟨whole, fraction, Score.split?_settled found, rfl⟩
      · cases assigned
  | null | bool | time => simp [store, sameTy, tyEq] at assigned

theorem assignment_settles {literal : Literal} {list : List Step}
    (assigned : assignment this literal = .ok list) (memory : Memory) :
    SettledIn executor this ((steps list).run executor memory) := by
  intro precision tyEq
  have parts := locate_fraction_ne_whole executor this
  obtain ⟨whole, fraction, settled, rfl⟩ := assignment_decimal tyEq assigned
  simpa [SettledAt, Step.run, Value.operand, partSlot, parts.symm] using settled

/-- Computing with a literal stores it first. -/
theorem combineLiteral_decimal {literal : Literal} {precision : Nat}
    (tyEq : this.ty = .decimal precision) (notSet : operation ≠ .set)
    (succeeds : (combineLiteral this operation literal).failure? = none) :
    operation.isTransfer = false ∧
      combineLiteral this operation literal = combineStored this operation literal := by
  unfold combineLiteral at succeeds ⊢
  rw [if_neg notSet] at succeeds ⊢
  split at succeeds
  · cases succeeds
  rename_i divides
  rw [if_neg divides]
  split at succeeds
  case h_1 other | h_2 other | h_3 other | h_4 other | h_5 other | h_6 other =>
      rw [tyEq] at other
      cases other
  case h_7 | h_8 => cases succeeds
  case h_9 _ notSwap _ _ _ _ _ _ => exact ⟨Operation.isTransfer_eq_false notSet notSwap, rfl⟩

theorem combineLiteral_settles {literal : Literal}
    (succeeds : (combineLiteral this operation literal).failure? = none) (memory : Memory) :
    SettledIn executor this
      ((combineLiteral this operation literal).run executor memory) := by
  by_cases assigns : operation = .set
  · simp only [combineLiteral, if_pos assigns] at succeeds ⊢
    obtain ⟨list, assigned, planEq⟩ := exists_of_ofExcept succeeds
    rw [planEq]
    exact assignment_settles assigned memory
  intro precision tyEq
  obtain ⟨computes, planEq⟩ := combineLiteral_decimal tyEq assigns succeeds
  rw [planEq] at succeeds ⊢
  obtain ⟨ty, _, storedEq⟩ := exists_of_ofExcept succeeds
  rw [combineStored, storedEq] at succeeds ⊢
  obtain ⟨_, combines⟩ := Option.or_eq_none_iff.mp succeeds
  simp only [run_withScratch, run_append]
  exact combineScalars_computes computes _ combines precision tyEq

theorem combine_scalar (scalar : this.ty.isScalar) (operation : Operation) (other : Value) :
    combine this operation other = combineScalars 0 this operation other.operand := by
  unfold combine
  cases tyEq : this.ty with
  | struct name fields => exact absurd tyEq (Ty.not_struct_of_isScalar scalar name fields)
  | int | decimal precision | bool | time => rw [combineAt]

end Plan

namespace Value

/-- The value is settled on the board, if it is a decimal at all. -/
def Settled (executor : String) (scores : Scores) (value : Value) : Prop :=
  ∀ precision, value.ty = .decimal precision →
    Score.Settled precision (scores.read (Machine.locate executor (value.register .whole)))
      (scores.read (Machine.locate executor (value.register .fraction)))

end Value

namespace Statement

variable {statement : Statement} {pool : Pool} {executor : String}
variable {workspace later : Workspace} {scores after : Scores}

/-- The plan of a statement leaves its targets settled. -/
theorem plan_settles {memory : Memory}
    (scalar : ∀ value ∈ statement.operands, value.ty.isScalar)
    (apart : ∀ first ∈ statement.operands, ∀ second ∈ statement.operands,
      Plan.Apart executor first second)
    (succeeds : statement.plan.failure? = none)
    (settled : ∀ value ∈ statement.operands, Plan.SettledIn executor value memory) :
    ∀ value ∈ statement.targets,
      Plan.SettledIn executor value (statement.plan.run executor memory) := by
  intro value target
  cases statement with
  | assign this literal =>
      obtain rfl := List.mem_singleton.mp target
      obtain ⟨list, assigned, planEq⟩ := Plan.exists_of_ofExcept succeeds
      rw [plan, planEq]
      exact Plan.assignment_settles assigned memory
  | operateLiteral this operation literal =>
      obtain rfl := List.mem_singleton.mp target
      exact Plan.combineLiteral_settles succeeds memory
  | compare this comparison literal => exact absurd target List.not_mem_nil
  | operate this operation other =>
      have thisMem : this ∈ (operate this operation other).operands := by simp [operands]
      have otherMem : other ∈ (operate this operation other).operands := by simp [operands]
      have sides := apart this thisMem other otherMem
      have thisSettled := settled this thisMem
      have otherSettled := settled other otherMem
      have otherScalar := scalar other otherMem
      rw [plan, Plan.combine_scalar (scalar this thisMem)] at succeeds ⊢
      have left := Plan.combineScalars_settles sides otherScalar succeeds thisSettled
        otherSettled
      by_cases exchange : operation = .swap
      · subst exchange
        simp only [targets, if_true, List.mem_cons, List.not_mem_nil, or_false] at target
        rcases target with rfl | rfl
        · exact left
        · exact Plan.combineScalars_swap_settles sides otherScalar succeeds thisSettled
            otherSettled
      · simp only [targets, exchange, if_false, List.mem_singleton] at target
        subst target
        exact left

theorem Executes.sameScratch {before after : Workspace × Scores}
    (run : statement.Executes pool executor before after) :
    Workspace.SameScratch before.1 after.1 := by
  obtain ⟨commands, _, _, lowered, _, _⟩ := run
  have same := Plan.allocate_sameScratch pool statement.plan [] before.1
  rw [← lower_eq_allocate, lowered] at same
  exact same

end Statement

namespace Value

/-- Scalars with registers of their own. -/
structure KeptApart (executor : String) (values : List Value) : Prop where
  scalar : ∀ value ∈ values, value.ty.isScalar
  apart : ∀ first ∈ values, ∀ second ∈ values, first ≠ second →
    ∀ register ∈ first.located executor, register ∉ second.located executor

theorem KeptApart.apart_or_same {executor : String} {values : List Value}
    (keptApart : KeptApart executor values) {first second : Value} (firstMem : first ∈ values)
    (secondMem : second ∈ values) : Plan.Apart executor first second := by
  by_cases same : first = second
  · exact Or.inl same
  · exact Or.inr (keptApart.apart first firstMem second secondMem same)

/-- The register belongs to one of the values. -/
def Occupied (executor : String) (values : List Value) (register : Register) : Prop :=
  ∃ value ∈ values, register ∈ value.located executor

end Value

namespace Statement

variable {statement : Statement} {pool : Pool} {executor : String} {values : List Value}
variable {workspace : Workspace} {before after : Workspace × Scores}

/-- Every scratch register that is taken for the statement is a register of none of the
values and of no scratch register still held. -/
def TakesFreshAmong (statement : Statement) (pool : Pool) (executor : String)
    (values : List Value) (workspace : Workspace) : Prop :=
  statement.plan.TakesFresh pool executor (Value.Occupied executor values) [] workspace

/-- With the usual stems, it is enough that no value has a name that can be handed out. -/
theorem takesFreshAmong_of_unheld (stems : workspace.DefaultStems)
    (fewer : workspace.HoldsFewerThan pool (10 ^ 6))
    (unreached : ∀ value ∈ values, ∀ objective ∈ value.objectives,
      ¬ workspace.Unheld pool objective) :
    statement.TakesFreshAmong pool executor values workspace := by
  apply takesFresh_of_unreached stems fewer
  rintro register ⟨value, member, located⟩
  exact unreached value member register.objective (Value.objective_mem_objectives located)

/-- One statement keeps all values settled: its targets by its plan, and all others
because it does not touch them. -/
theorem Executes.settled (run : statement.Executes pool executor before after)
    (keptApart : Value.KeptApart executor values)
    (within : ∀ value ∈ statement.operands, value ∈ values)
    (fresh : statement.TakesFreshAmong pool executor values before.1)
    (settled : ∀ value ∈ values, value.Settled executor before.2) :
    ∀ value ∈ values, value.Settled executor after.2 := by
  intro value member precision tyEq
  have permits : Plan.Permits (Value.Occupied executor values ∘ Machine.locate executor)
      statement.permissions := by
    constructor
    · rintro register ⟨operand, operandMem, inside⟩
      exact ⟨operand, within operand operandMem, List.mem_map_of_mem inside⟩
    · rintro register ⟨target, targetMem, inside⟩
      exact ⟨target, within target (statement.targets_subset targetMem),
        List.mem_map_of_mem inside⟩
  have located (part : Part) := Plan.locate_mem_located tyEq executor part
  have read (part : Part) := run.read_tracked fresh permits ⟨value, member, located part⟩
  rw [read .whole, read .fraction]
  by_cases target : value ∈ statement.targets
  · have start : ∀ operand ∈ statement.operands,
        Plan.SettledIn executor operand (Memory.ofScores before.2) :=
      fun operand operandMem => settled operand (within operand operandMem)
    exact plan_settles
      (fun operand operandMem => keptApart.scalar operand (within operand operandMem))
      (fun first firstMem second secondMem =>
        keptApart.apart_or_same (within first firstMem) (within second secondMem))
      run.failure?_eq_none start value target precision tyEq
  · have notTarget (part : Part) : ∀ other ∈ statement.targets,
        Machine.locate executor (value.register part) ∉ other.located executor := by
      intro other otherTarget
      refine keptApart.apart value member other
        (within other (statement.targets_subset otherTarget)) ?_ _ (located part)
      rintro rfl
      exact target otherTarget
    rw [run_of_not_target run.failure?_eq_none _ (notTarget .whole),
      run_of_not_target run.failure?_eq_none _ (notTarget .fraction)]
    exact settled value member precision tyEq

/-- Statements executed one after the other, each with scratch registers from a
pool of its own choice. -/
inductive Run (executor : String) :
    List (Pool × Statement) → Workspace × Scores → Workspace × Scores → Prop
  | done (state : Workspace × Scores) : Run executor [] state state
  | next {pool : Pool} {statement : Statement} {rest : List (Pool × Statement)}
      {before middle after : Workspace × Scores}
      (step : statement.Executes pool executor before middle)
      (remaining : Run executor rest middle after) :
      Run executor ((pool, statement) :: rest) before after

theorem exists_run {program : List (Pool × Statement)}
    (succeeds : ∀ entry ∈ program, entry.2.plan.failure? = none) (executor : String)
    (before : Workspace × Scores) : ∃ after, Run executor program before after := by
  induction program generalizing before with
  | nil => exact ⟨before, .done before⟩
  | cons entry rest ih =>
      obtain ⟨pool, statement⟩ := entry
      obtain ⟨headSucceeds, restSucceeds⟩ := List.forall_mem_cons.mp succeeds
      obtain ⟨later, scores, step⟩ :=
        exists_executes headSucceeds pool executor before.1 before.2
      obtain ⟨after, remaining⟩ := ih restSucceeds (later, scores)
      exact ⟨after, .next step remaining⟩

/-- Decimals that are settled stay so through any run of statements, whatever the numbers are
and whether or not they wrap around.  The scratch registers have to be registers of their own:
they are taken from the same room again and again, so that it is enough to look at the start. -/
theorem decimals_stay_settled {program : List (Pool × Statement)}
    (keptApart : Value.KeptApart executor values)
    (within : ∀ entry ∈ program, ∀ value ∈ entry.2.operands, value ∈ values)
    (fresh : ∀ entry ∈ program, entry.2.TakesFreshAmong entry.1 executor values before.1)
    (run : Run executor program before after)
    (settled : ∀ value ∈ values, value.Settled executor before.2) :
    ∀ value ∈ values, value.Settled executor after.2 := by
  induction run with
  | done state => exact settled
  | next step remaining ih =>
      obtain ⟨headWithin, restWithin⟩ := List.forall_mem_cons.mp within
      obtain ⟨headFresh, restFresh⟩ := List.forall_mem_cons.mp fresh
      refine ih restWithin (fun entry member => ?_)
        (step.settled keptApart headWithin headFresh settled)
      exact (restFresh entry member).of_sameRoom (step.sameScratch.sameRoom entry.1)

/-- Decimals of two precisions, the first at the upper end of the numbers, are
multiplied, exchanged, doubled and divided. -/
theorem settled_at_upper_end :
    let wide : Value := ⟨"a", .decimal 2, .player "_", [.global]⟩
    let deep : Value := ⟨"b", .decimal 4, .here, []⟩
    let count : Value := ⟨"n", .int, .here, []⟩
    let scores : Scores := ⟨fun register =>
      if register.objective = "a" then 2147483647 else
      if register.objective = "a.d" then 99 else
      if register.objective = "b" then -3 else
      if register.objective = "b.d" then -5000 else 7⟩
    let program : List (Pool × Statement) :=
      [(.stacked, .operate wide .mul deep), (.counted, .operate wide .swap deep),
        (.stacked, .operate count .swap wide), (.counted, .operate deep .add deep),
        (.stacked, .operateLiteral deep .div (.int 3))]
    let before := ((Compilation.start {}).workspace, scores)
    (∀ value ∈ [wide, deep, count], value.Settled "Steve" scores) ∧
      (∀ entry ∈ program,
        entry.2.TakesFreshAmong entry.1 "Steve" [wide, deep, count] before.1) ∧
      ∃ after, Run "Steve" program before after ∧
        ∀ value ∈ [wide, deep, count], value.Settled "Steve" after.2 := by
  intro wide deep count scores program before
  have stems : before.1.DefaultStems := Compilation.start_defaultStems
  have plain : ∀ value ∈ [wide, deep, count], ∀ objective ∈ value.objectives,
      objective.toList.head? ≠ some '_' := by decide
  have keptApart : Value.KeptApart "Steve" [wide, deep, count] := ⟨by decide, by decide⟩
  have fresh : ∀ entry ∈ program,
      entry.2.TakesFreshAmong entry.1 "Steve" [wide, deep, count] before.1 :=
    fun entry _ => takesFreshAmong_of_unheld stems
      (Compilation.start_holdsFewerThan {} entry.1 (by decide))
      fun value member objective objectiveMem =>
        Workspace.not_unheld_of_head stems (plain value member objective objectiveMem)
  have settled : ∀ value ∈ [wide, deep, count], value.Settled "Steve" before.2 := by
    intro value member precision tyEq
    simp only [List.mem_cons, List.not_mem_nil, or_false] at member
    rcases member with rfl | rfl | rfl
    · cases tyEq
      exact ⟨by decide, by decide, by decide⟩
    · cases tyEq
      exact ⟨by decide, by decide, by decide⟩
    · cases tyEq
  have within : ∀ entry ∈ program, ∀ value ∈ entry.2.operands,
      value ∈ [wide, deep, count] := by decide
  have succeeds : ∀ entry ∈ program, entry.2.plan.failure? = none := by decide
  obtain ⟨after, run⟩ := exists_run succeeds "Steve" before
  exact ⟨settled, fresh, after, run, decimals_stay_settled keptApart within fresh run settled⟩

/-- With digests for names, two scratch registers of one statement can coincide.  Doubling 0.60
leaves 1 and 119 hundredths then, although no name of the value can be handed out. -/
theorem unsettled_with_shared_scratch :
    let value : Value := ⟨"a", .decimal 2, .here, []⟩
    let hashed := (Compilation.start { stackStem := "abcdefghijklmnopqrstu" }).workspace
    let scores : Scores := ⟨fun register => if register.objective = "a.d" then 60 else 0⟩
    Value.KeptApart "Steve" [value] ∧ value.Settled "Steve" scores ∧
      (∀ register ∈ value.located "Steve", ∀ pool, ¬ hashed.Spare pool "Steve" register) ∧
      ∃ after, Run "Steve" [(.stacked, .operate value .add value)] (hashed, scores) after ∧
        after.2.read ⟨"Steve", "a"⟩ = 1 ∧ after.2.read ⟨"Steve", "a.d"⟩ = 119 ∧
        ¬ value.Settled "Steve" after.2 := by
  intro value hashed scores
  have keptApart : Value.KeptApart "Steve" [value] := ⟨by decide, by decide⟩
  have settled : value.Settled "Steve" scores := by
    rintro precision ⟨⟩
    exact ⟨by decide, by decide, by decide⟩
  have short : ∀ register ∈ value.located "Steve", register.objective.length < 5 := by decide
  have unreached : ∀ register ∈ value.located "Steve", ∀ pool,
      ¬ hashed.Spare pool "Steve" register := fun register member pool spare =>
    Nat.not_le_of_lt (short register member)
      (spare.length_le (by decide) (by decide) (by decide))
  have succeeds : (operate value .add value).plan.failure? = none := rfl
  have run := executes_lowered succeeds .stacked "Steve" hashed scores
  refine ⟨keptApart, settled, unreached, _, .next run (.done _), by decide +kernel,
    by decide +kernel, fun stillSettled => ?_⟩
  exact absurd (stillSettled 2 rfl).small (by decide +kernel)

end Statement

end ScoreLowering
