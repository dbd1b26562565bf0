import ScoreLowering.Proofs.DecimalAmounts
import ScoreLowering.Proofs.SettledRuns

/-!
# Numbers on the board

Integers, times and decimals hold numbers, counted in units of their last digit.  This file
reads them off a memory and off the board, and reduces what a statement does to the numbers of
its operands to what its plan does to them.
-/

namespace ScoreLowering

namespace Ty

/-- Whether a value of the type holds a whole number to compute with. -/
def isCount : Ty → Bool
  | int | time => true
  | decimal _ | bool | struct _ _ => false

/-- Whether a value of the type holds a number. -/
def isNumeric : Ty → Bool
  | int | time => true
  | decimal precision => precision ≤ maxPrecision
  | bool | struct _ _ => false

/-- The number of digits after the point. -/
def digits (ty : Ty) : Nat :=
  ty.precision?.getD 0

/-- The number that the parts of a value stand for, in units of its last digit. -/
def numberOf (ty : Ty) (content : Part → Score) : Int :=
  match ty with
  | decimal precision => Score.amount precision (content .whole) (content .fraction)
  | int | bool | time | struct _ _ => (content .whole).toInt

variable {ty : Ty}

theorem isCount_or_decimal (numeric : ty.isNumeric) :
    ty.isCount ∨ ∃ precision ≤ maxPrecision, ty = decimal precision := by
  cases ty with
  | int | time => exact Or.inl rfl
  | decimal precision => exact Or.inr ⟨precision, of_decide_eq_true numeric, rfl⟩
  | bool | struct name fields => cases numeric

theorem isNumeric_of_isCount (count : ty.isCount) : ty.isNumeric := by
  cases ty with
  | int | time => rfl
  | decimal precision | bool | struct name fields => cases count

theorem isScalar_of_isNumeric (numeric : ty.isNumeric) : ty.isScalar := by
  cases ty with
  | int | time => rfl
  | decimal precision => exact numeric
  | bool | struct name fields => cases numeric

theorem digits_of_isCount (count : ty.isCount) : ty.digits = 0 := by
  cases ty with
  | int | time => rfl
  | decimal precision | bool | struct name fields => cases count

theorem numberOf_of_isCount (count : ty.isCount) (content : Part → Score) :
    ty.numberOf content = (content .whole).toInt := by
  cases ty with
  | int | time => rfl
  | decimal precision | bool | struct name fields => cases count

theorem fraction_not_mem_of_isCount (count : ty.isCount) : Part.fraction ∉ ty.parts := by
  cases ty with
  | int | time => simp [parts]
  | decimal precision | bool | struct name fields => cases count

theorem digits_le (numeric : ty.isNumeric) : ty.digits ≤ maxPrecision := by
  cases ty with
  | int | time => exact Nat.zero_le _
  | decimal precision => exact of_decide_eq_true numeric
  | bool | struct name fields => cases numeric

theorem ne_decimal_of_isCount (count : ty.isCount) (precision : Nat) : ty ≠ decimal precision := by
  rintro rfl
  cases count

end Ty

namespace Score

/-- A number has one way to be written as a settled decimal. -/
theorem Settled.unique {precision : Nat} {whole fraction otherWhole otherFraction : Score}
    (settled : Settled precision whole fraction)
    (otherSettled : Settled precision otherWhole otherFraction)
    (same : amount precision whole fraction = amount precision otherWhole otherFraction) :
    whole = otherWhole ∧ fraction = otherFraction := by
  have cut {whole fraction : Score} (settled : Settled precision whole fraction) :
      (amount precision whole fraction).tdiv (10 ^ precision) = whole.toInt := by
    have none : fraction.toInt.tdiv (10 ^ precision) = 0 := by
      apply Int.natAbs_eq_zero.mp
      rw [Int.natAbs_tdiv, Int.natAbs_pow]
      exact Nat.div_eq_of_lt settled.small
    rw [amount, add_mul_tdiv settled.agree (pow_ten_pos precision), none, Int.add_zero]
  have wholeEq : whole.toInt = otherWhole.toInt := by rw [← cut settled, same, cut otherSettled]
  have fractionEq : fraction.toInt = otherFraction.toInt := by
    rw [amount, amount, wholeEq] at same
    exact Int.add_left_cancel same
  exact ⟨Int32.toInt_inj.mp wholeEq, Int32.toInt_inj.mp fractionEq⟩

theorem rescaleAmount_zero (precision : Nat) (number : Int) :
    rescaleAmount precision 0 number = number * 10 ^ precision := by
  rw [rescaleAmount, Int.pow_zero, Int.tdiv_one]

end Score

namespace Operand

/-- No part of the operand is in a scratch register from this level on. -/
def Below (executor : String) (level : Nat) (operand : Operand) : Prop :=
  ∀ above, level ≤ above → operand.whole.located executor ≠ .scratch above .whole ∧
    operand.fraction.located executor ≠ .scratch above .whole

theorem Below.mono {executor : String} {level higher : Nat} {operand : Operand}
    (below : operand.Below executor level) (ordered : level ≤ higher) :
    operand.Below executor higher :=
  fun above reached => below above (Nat.le_trans ordered reached)

theorem below_operand (executor : String) (value : Value) (level : Nat) :
    value.operand.Below executor level := by
  simp [Below, Value.operand]

theorem below_scratch (executor : String) (level : Nat) (ty : Ty) (address : Address) :
    (scratch level ty address).Below executor (level + 1) := by
  intro above higher
  have apart : level ≠ above := Nat.ne_of_lt higher
  simp [scratch, apart]

end Operand

namespace Plan

variable {executor : String} {precision otherPrecision : Nat} {unitScore : Score}
variable {this other : Value}

/-- What a decimal in a memory amounts to. -/
def amountAt (executor : String) (value : Value) (precision : Nat) (memory : Memory) : Int :=
  Score.amount precision (memory (partSlot executor value .whole))
    (memory (partSlot executor value .fraction))

theorem amountAt_eq_partsOf (executor : String) (value : Value) (precision : Nat)
    (memory : Memory) :
    amountAt executor value precision memory =
      Score.amount precision (partsOf executor value memory).1 (partsOf executor value memory).2 :=
  rfl

/-- The number that a value in a memory holds. -/
def numberAt (executor : String) (value : Value) (memory : Memory) : Int :=
  value.ty.numberOf fun part => memory (partSlot executor value part)

theorem numberAt_decimal {value : Value} (tyEq : value.ty = .decimal precision)
    (memory : Memory) :
    numberAt executor value memory = amountAt executor value precision memory := by
  rw [numberAt, tyEq, Ty.numberOf, amountAt]

theorem numberAt_count {value : Value} (count : value.ty.isCount) (memory : Memory) :
    numberAt executor value memory = (memory (partSlot executor value .whole)).toInt :=
  Ty.numberOf_of_isCount count _

theorem withUnit_ok (scaled : Ty.scale precision = .ok unitScore) (body : Score → Plan) :
    withUnit precision body = body unitScore := by
  simp only [withUnit, scaled, Except.map, ofExcept]

theorem withUnit_error (large : Ty.maxPrecision < precision) (body : Score → Plan) :
    withUnit precision body = fail (.user (.invalidPrecision precision Ty.maxPrecision)) := by
  have failed : Ty.scale precision = .error (.invalidPrecision precision Ty.maxPrecision) :=
    if_neg (Nat.not_le.mpr large)
  simp only [withUnit, failed, Except.map, ofExcept]

/-- Holding a decimal in one register, in a memory that holds the unit. -/
theorem run_withCombined {level unitLevel : Nat} {value : Operand} (address : Address)
    (body : Slot → Plan) (memory : Memory) (unitApart : unitLevel ≠ level)
    (below : value.Below executor level) :
    (withCombined level value (.scratch unitLevel .whole) address body).run executor memory =
      (body (.scratch level .whole)).run executor
        (Function.update memory (.scratch level .whole)
          (memory (value.whole.located executor) * memory (.scratch unitLevel .whole) +
            memory (value.fraction.located executor))) := by
  have fractionApart := (below level (Nat.le_refl level)).2
  simp [withCombined, combineInto, Operand.scratch, Step.run, ScoreOperation.evaluate, unitApart,
    fractionApart]

/-! ### Plans between numbers -/

variable (operation : Operation)

theorem combine_decimal_count (tyEq : this.ty = .decimal precision)
    (scaled : Ty.scale precision = .ok unitScore) (count : other.ty.isCount) :
    combine this operation other = decimalByInteger 0 this operation other.operand unitScore := by
  have sameTy : other.operand.ty = other.ty := rfl
  rw [combine, tyEq, combineAt, combineScalars, tyEq, sameTy]
  cases otherTy : other.ty with
  | int | time => exact withUnit_ok scaled _
  | decimal otherPrecision | bool | struct name fields =>
      rw [otherTy] at count
      cases count

theorem combine_decimals (tyEq : this.ty = .decimal precision)
    (otherTy : other.ty = .decimal otherPrecision) (scaled : Ty.scale precision = .ok unitScore) :
    combine this operation other =
      decimalByDecimal 0 this precision operation other.operand otherPrecision unitScore := by
  have sameTy : other.operand.ty = other.ty := rfl
  rw [combine, tyEq, combineAt, combineScalars, tyEq, sameTy, otherTy]
  exact withUnit_ok scaled _

theorem combine_count_decimal (count : this.ty.isCount)
    (otherTy : other.ty = .decimal otherPrecision)
    (scaled : Ty.scale otherPrecision = .ok unitScore) :
    combine this operation other =
      integerByDecimal 0 this.operand operation other.operand unitScore := by
  have sameTy : other.operand.ty = other.ty := rfl
  rw [combine_scalar (Ty.isScalar_of_isNumeric (Ty.isNumeric_of_isCount count)), combineScalars,
    sameTy, otherTy]
  cases tyEq : this.ty with
  | int | time => exact withUnit_ok scaled _
  | decimal precision | bool | struct name fields =>
      rw [tyEq] at count
      cases count

theorem combine_counts (count : this.ty.isCount) (otherCount : other.ty.isCount) :
    combine this operation other = native this.operand operation other.operand := by
  have sameTy : other.operand.ty = other.ty := rfl
  rw [combine_scalar (Ty.isScalar_of_isNumeric (Ty.isNumeric_of_isCount count)), combineScalars,
    sameTy]
  cases tyEq : this.ty with
  | int | time =>
      cases otherTy : other.ty with
      | int | time => rfl
      | decimal precision | bool | struct name fields =>
          rw [otherTy] at otherCount
          cases otherCount
  | decimal precision | bool | struct name fields =>
      rw [tyEq] at count
      cases count

variable {operation}

/-- Decimals that can be stored are rescaled without a failure. -/
theorem decimalByDecimal_succeeds (this : Value)
    (supported : isUnsupported operation precision = false)
    (bounded : precision ≤ Ty.maxPrecision) (otherBounded : otherPrecision ≤ Ty.maxPrecision)
    (level : Nat) (other : Operand) (unitScore : Score) :
    (decimalByDecimal level this precision operation other otherPrecision unitScore).failure? =
      none := by
  obtain ⟨factor, factorScaled⟩ := Score.exists_scale (precisionGap_le bounded otherBounded)
  have balanced (level : Nat) (other : Operand) :
      (balancedDecimals level this operation other unitScore).failure? = none := by
    cases operation <;> rfl
  simp only [decimalByDecimal, supported, Bool.false_eq_true, if_false]
  split
  · simp only [swapDecimals, factorScaled, Except.map, ofExcept, withConstant, withScratch]
    split <;> rfl
  · split
    · exact balanced level other
    · simp only [withRescaled, factorScaled, Except.map, ofExcept, withConstant, withScratch,
        failure?_append, failure?, balanced]
      split <;> rfl

/-- The rescaled copy of a settled decimal is settled and amounts to what it should. -/
theorem run_withRescaled_amount (this : Value) (level : Nat) {other : Value}
    (bounded : precision ≤ Ty.maxPrecision) (otherBounded : otherPrecision ≤ Ty.maxPrecision)
    (body : Operand → Plan) {memory : Memory}
    (otherSettled : SettledAt executor other otherPrecision memory) :
    ∃ middle, (withRescaled level this precision other.operand otherPrecision body).run
          executor memory =
        (body (Operand.scratch level this.ty this.address)).run executor middle ∧
      Score.Settled precision (middle (.scratch level .whole))
        (middle (.scratch level .fraction)) ∧
      Score.amount precision (middle (.scratch level .whole))
          (middle (.scratch level .fraction)) =
        Score.rescaleAmount precision otherPrecision
          (amountAt executor other otherPrecision memory) ∧
      ∀ register, middle (.fixed register) = memory (.fixed register) := by
  obtain ⟨factor, scaled⟩ := Score.exists_scale (precisionGap_le bounded otherBounded)
  obtain ⟨middle, ranEq, wholeEq, fractionEq, kept⟩ := run_withRescaled this scaled memory body
    (Operand.below_operand executor other level level (Nat.le_refl level)).2
  refine ⟨middle, ranEq, ?_, ?_, kept⟩
  · rw [wholeEq, fractionEq]
    exact rescaled_settled bounded scaled otherSettled
  · rw [wholeEq, fractionEq]
    exact rescaled_amount bounded scaled otherSettled

end Plan

namespace Value

/-- What a decimal on the board amounts to. -/
def amount (executor : String) (scores : Scores) (precision : Nat) (value : Value) : Int :=
  Score.amount precision (scores.read (Machine.locate executor (value.register .whole)))
    (scores.read (Machine.locate executor (value.register .fraction)))

/-- The content of a part of a value on the board. -/
def content (executor : String) (scores : Scores) (value : Value) (part : Part) : Score :=
  scores.read (Machine.locate executor (value.register part))

/-- The number that a value on the board holds. -/
def number (executor : String) (scores : Scores) (value : Value) : Int :=
  value.ty.numberOf (value.content executor scores)

variable {executor : String} {scores after : Scores} {value : Value}

theorem exists_part_of_located (simple : ∀ name fields, value.ty ≠ .struct name fields)
    {register : Register} (member : register ∈ value.located executor) :
    ∃ part ∈ value.ty.parts, register = Machine.locate executor (value.register part) := by
  rw [located, registers, objectives_eq_parts simple, List.map_map, List.map_map] at member
  obtain ⟨part, partMem, rfl⟩ := List.mem_map.mp member
  exact ⟨part, partMem, rfl⟩

/-- Settled contents that stand for one number are the same. -/
theorem read_of_same_number (numeric : value.ty.isNumeric) (settled : value.Settled executor scores)
    (settledAfter : value.Settled executor after)
    (same : value.number executor after = value.number executor scores) {register : Register}
    (member : register ∈ value.located executor) :
    after.read register = scores.read register := by
  have simple := Ty.not_struct_of_isScalar (Ty.isScalar_of_isNumeric numeric)
  obtain ⟨part, partMem, rfl⟩ := exists_part_of_located simple member
  rcases Ty.isCount_or_decimal numeric with count | ⟨precision, _, tyEq⟩
  · rw [number, number, Ty.numberOf_of_isCount count, Ty.numberOf_of_isCount count] at same
    cases part with
    | whole => exact Int32.toInt_inj.mp same
    | fraction => exact absurd partMem (Ty.fraction_not_mem_of_isCount count)
  · rw [number, number, tyEq] at same
    obtain ⟨wholeEq, fractionEq⟩ :=
      (settledAfter precision tyEq).unique (settled precision tyEq) same
    cases part with
    | whole => exact wholeEq
    | fraction => exact fractionEq

end Value

namespace Statement

variable {statement : Statement} {pool : Pool} {executor : String}
variable {workspace later : Workspace} {scores after : Scores}

/-- At the start of a compilation, every scratch register is fresh for names without a leading
underscore. -/
theorem takesFresh_start (pool : Pool) (executor : String)
    (plain : ∀ value ∈ statement.operands, ∀ objective ∈ value.objectives,
      objective.toList.head? ≠ some '_') :
    statement.TakesFresh pool executor (Compilation.start {}).workspace :=
  takesFresh_of_avoids Compilation.start_defaultStems
    (Compilation.start_holdsFewerThan {} pool (by decide))
    (avoids_of_head Compilation.start_defaultStems pool plain)

/-- The statement can be executed, and each of its executions leaves scores as described. -/
def Ensures (statement : Statement) (pool : Pool) (executor : String)
    (before : Workspace × Scores) (described : Scores → Prop) : Prop :=
  (∃ after, statement.Executes pool executor before after) ∧
    ∀ after, statement.Executes pool executor before after → described after.2

theorem Ensures.mono {before : Workspace × Scores} {described other : Scores → Prop}
    (ensures : statement.Ensures pool executor before described)
    (implies : ∀ after, described after → other after) :
    statement.Ensures pool executor before other :=
  ⟨ensures.1, fun after run => implies after.2 (ensures.2 after run)⟩

theorem ensures_of_succeeds {described : Scores → Prop}
    (succeeds : statement.plan.failure? = none)
    (holds : ∀ later after, statement.Executes pool executor (workspace, scores) (later, after) →
      described after) :
    statement.Ensures pool executor (workspace, scores) described :=
  ⟨⟨_, executes_lowered succeeds pool executor workspace scores⟩,
    fun after run => holds after.1 after.2 run⟩

theorem Executes.content_eq
    (run : statement.Executes pool executor (workspace, scores) (later, after))
    (fresh : statement.TakesFresh pool executor workspace) {value : Value}
    (operand : value ∈ statement.operands)
    (simple : ∀ name fields, value.ty ≠ .struct name fields) {part : Part}
    (partMem : part ∈ value.ty.parts) :
    value.content executor after part =
      statement.plan.run executor (Memory.ofScores scores) (Plan.partSlot executor value part) :=
  run.read_operand fresh operand (Value.register_mem_registers simple partMem)

theorem Executes.amount_eq
    (run : statement.Executes pool executor (workspace, scores) (later, after))
    (fresh : statement.TakesFresh pool executor workspace) {value : Value}
    (operand : value ∈ statement.operands) {precision : Nat}
    (tyEq : value.ty = .decimal precision) :
    value.amount executor after precision = Plan.amountAt executor value precision
      (statement.plan.run executor (Memory.ofScores scores)) := by
  rw [Value.amount, run.read_part fresh operand tyEq, run.read_part fresh operand tyEq,
    Plan.amountAt]

/-- The number of an operand is the one that the plan gives to it. -/
theorem Executes.number_eq
    (run : statement.Executes pool executor (workspace, scores) (later, after))
    (fresh : statement.TakesFresh pool executor workspace) {value : Value}
    (operand : value ∈ statement.operands) (numeric : value.ty.isNumeric) :
    value.number executor after = Plan.numberAt executor value
      (statement.plan.run executor (Memory.ofScores scores)) := by
  have simple := Ty.not_struct_of_isScalar (Ty.isScalar_of_isNumeric numeric)
  rcases Ty.isCount_or_decimal numeric with count | ⟨precision, _, tyEq⟩
  · rw [Value.number, Ty.numberOf_of_isCount count,
      run.content_eq fresh operand simple (Ty.whole_mem_parts _), Plan.numberAt_count count]
  · rw [Plan.numberAt_decimal tyEq, ← run.amount_eq fresh operand tyEq, Value.number, tyEq,
      Ty.numberOf, Value.amount, Value.content, Value.content]

theorem Executes.settled_of_plan
    (run : statement.Executes pool executor (workspace, scores) (later, after))
    (fresh : statement.TakesFresh pool executor workspace) {value : Value}
    (operand : value ∈ statement.operands)
    (settled : Plan.SettledIn executor value
      (statement.plan.run executor (Memory.ofScores scores))) :
    value.Settled executor after := by
  intro precision tyEq
  rw [run.read_part fresh operand tyEq, run.read_part fresh operand tyEq]
  exact settled precision tyEq

end Statement

end ScoreLowering
