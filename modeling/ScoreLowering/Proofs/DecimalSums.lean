import ScoreLowering.Proofs.NumberReadings

/-!
# Sums with decimals

Whole parts and fractions are added each on their own and carried afterwards.  Fractions are far
too small to wrap around, and a whole part that does comes back with the carry if the sum fits.

The left side is written before all of the right side has been read.  This does no harm if the
sides are one value.  It does if the fraction on the right is in the register of the whole part
on the left, which decimals of one precision are not kept from.
-/

namespace ScoreLowering

namespace Operation

/-- What a sum or a difference comes to. -/
def total (operation : Operation) (first second : Int) : Int :=
  if operation = .sub then first - second else first + second

variable {operation : Operation}

/-- The board computes sums and differences up to wrapping around. -/
theorem evaluate_eq_total (sums : operation = .add ∨ operation = .sub) (first second : Score) :
    operation.native.evaluate first second =
      Int32.ofInt (operation.total first.toInt second.toInt) := by
  rcases sums with rfl | rfl
  · simp [native, ScoreOperation.evaluate, total, Int32.ofInt_add]
  · simp [native, ScoreOperation.evaluate, total, Int32.ofInt_sub]

theorem total_mul_add (operation : Operation) (whole part otherWhole otherPart unit : Int) :
    operation.total (whole * unit + part) (otherWhole * unit + otherPart) =
      operation.total whole otherWhole * unit + operation.total part otherPart := by
  unfold total
  split <;> ring

theorem natAbs_total_le (operation : Operation) (first second : Int) :
    (operation.total first second).natAbs ≤ first.natAbs + second.natAbs := by
  unfold total
  split <;> omega

end Operation

namespace Score

/-- Two fractions add up to a number that is far from wrapping around. -/
theorem evaluate_fractions {operation : Operation} (sums : operation = .add ∨ operation = .sub)
    {precision : Nat} (bounded : precision ≤ Ty.maxPrecision) {fraction otherFraction : Score}
    (small : fraction.toInt.natAbs < 10 ^ precision)
    (otherSmall : otherFraction.toInt.natAbs < 10 ^ precision) :
    (operation.native.evaluate fraction otherFraction).toInt =
      operation.total fraction.toInt otherFraction.toInt := by
  have digits : (10 : Nat) ^ precision ≤ 10 ^ 9 := Nat.pow_le_pow_right (by decide) bounded
  have sum := operation.natAbs_total_le fraction.toInt otherFraction.toInt
  rw [Operation.evaluate_eq_total sums]
  apply Int32.toInt_ofInt_of_le
  · omega
  · omega

/-- Carrying makes the exact sum of two settled decimals. -/
theorem carried_total {operation : Operation} (sums : operation = .add ∨ operation = .sub)
    {precision : Nat} {unit whole fraction otherWhole otherFraction : Score}
    (unitEq : unit.toInt = 10 ^ precision) (bounded : precision ≤ Ty.maxPrecision)
    (settled : Settled precision whole fraction)
    (otherSettled : Settled precision otherWhole otherFraction)
    (fits : Fits precision (operation.total (amount precision whole fraction)
      (amount precision otherWhole otherFraction))) :
    let result := carried unit (operation.native.evaluate whole otherWhole)
      (operation.native.evaluate fraction otherFraction)
    amount precision result.1 result.2 = operation.total (amount precision whole fraction)
      (amount precision otherWhole otherFraction) := by
  rw [amount, amount, operation.total_mul_add,
    ← evaluate_fractions sums bounded settled.small otherSettled.small] at fits ⊢
  exact carried_amount unitEq (Operation.evaluate_eq_total sums whole otherWhole) fits

end Score

namespace Plan

variable {executor : String} {precision otherPrecision : Nat} {unitScore : Score}
variable {this : Value} {operation : Operation}

/-- A sum of decimals of one precision.  The whole part is written before the fraction is
read. -/
theorem partsOf_balancedTotal (sums : operation = .add ∨ operation = .sub) (level : Nat)
    {other : Operand} (unitScore : Score) (memory : Memory)
    (apart : other.fraction.located executor ≠ partSlot executor this .whole) :
    partsOf executor this
        ((balancedDecimals level this operation other unitScore).run executor memory) =
      Score.carried unitScore
        (operation.native.evaluate (memory (partSlot executor this .whole))
          (memory (other.whole.located executor)))
        (operation.native.evaluate (memory (partSlot executor this .fraction))
          (memory (other.fraction.located executor))) := by
  have parts := locate_fraction_ne_whole executor this
  unfold partSlot at apart
  rcases sums with rfl | rfl <;>
  · simp only [balancedDecimals, run_append, run_withConstant]
    rw [partsOf_carry executor (level + 1) this (by omega) (Function.update_self ..)]
    simp [Step.run, Operation.native, Value.operand, partSlot, parts, parts.symm, apart]

/-- A sum of a decimal and a whole number. -/
theorem partsOf_countTotal (sums : operation = .add ∨ operation = .sub) (level : Nat)
    (other : Operand) (unitScore : Score) (memory : Memory) :
    partsOf executor this
        ((decimalByInteger level this operation other unitScore).run executor memory) =
      Score.carried unitScore
        (operation.native.evaluate (memory (partSlot executor this .whole))
          (memory (other.whole.located executor)))
        (memory (partSlot executor this .fraction)) := by
  have parts := locate_fraction_ne_whole executor this
  rcases sums with rfl | rfl <;>
  · simp only [decimalByInteger, native, run_append, run_withConstant]
    rw [partsOf_carry executor (level + 1) this (by omega) (Function.update_self ..)]
    simp [Step.run, Operation.native, Value.operand, partSlot, parts]

theorem balancedTotal_amount (sums : operation = .add ∨ operation = .sub)
    (scaled : Ty.scale precision = .ok unitScore) (level : Nat) {other : Operand}
    {memory : Memory} (apart : other.fraction.located executor ≠ partSlot executor this .whole)
    (settled : SettledAt executor this precision memory)
    (otherSettled : Score.Settled precision (memory (other.whole.located executor))
      (memory (other.fraction.located executor))) :
    let sum := operation.total (amountAt executor this precision memory)
      (Score.amount precision (memory (other.whole.located executor))
        (memory (other.fraction.located executor)))
    Score.Fits precision sum →
      amountAt executor this precision
        ((balancedDecimals level this operation other unitScore).run executor memory) = sum := by
  intro sum fits
  obtain ⟨bounded, unitEq⟩ := Score.scale_toInt scaled
  rw [amountAt_eq_partsOf, partsOf_balancedTotal sums level unitScore memory apart]
  exact Score.carried_total sums unitEq bounded settled otherSettled fits

theorem countTotal_amount (sums : operation = .add ∨ operation = .sub)
    (scaled : Ty.scale precision = .ok unitScore) (level : Nat) (other : Operand)
    {memory : Memory} (settled : SettledAt executor this precision memory) :
    let sum := operation.total (amountAt executor this precision memory)
      ((memory (other.whole.located executor)).toInt * 10 ^ precision)
    Score.Fits precision sum →
      amountAt executor this precision
        ((decimalByInteger level this operation other unitScore).run executor memory) = sum := by
  intro sum fits
  obtain ⟨bounded, unitEq⟩ := Score.scale_toInt scaled
  have whole : Score.amount precision (memory (other.whole.located executor)) 0 =
      (memory (other.whole.located executor)).toInt * 10 ^ precision := by
    rw [Score.amount, Int32.toInt_zero, Int.add_zero]
  have unchanged (fraction : Score) : operation.native.evaluate fraction 0 = fraction := by
    rcases sums with rfl | rfl <;> simp [Operation.native, ScoreOperation.evaluate]
  have exact := Score.carried_total sums unitEq bounded settled
    (Score.settled_zero precision (memory (other.whole.located executor)))
  rw [whole, unchanged] at exact
  rw [amountAt_eq_partsOf, partsOf_countTotal sums level other unitScore memory]
  exact exact fits

theorem decimalByDecimal_sum (sums : operation = .add ∨ operation = .sub) (level : Nat)
    (this : Value) (precision : Nat) (other : Operand) (otherPrecision : Nat)
    (unitScore : Score) :
    decimalByDecimal level this precision operation other otherPrecision unitScore =
      if precision = otherPrecision then
        balancedDecimals level this operation other unitScore
      else
        withRescaled level this precision other otherPrecision fun copy =>
          balancedDecimals (level + 1) this operation copy unitScore := by
  rcases sums with rfl | rfl <;> rfl

/-- A right side of another precision is rescaled first, and then nothing is shared any more. -/
theorem decimalTotal_amount {other : Value} (sums : operation = .add ∨ operation = .sub)
    (scaled : Ty.scale precision = .ok unitScore) (otherBounded : otherPrecision ≤ Ty.maxPrecision)
    (level : Nat) {memory : Memory}
    (apart : precision = otherPrecision →
      partSlot executor other .fraction ≠ partSlot executor this .whole)
    (settled : SettledAt executor this precision memory)
    (otherSettled : SettledAt executor other otherPrecision memory) :
    let sum := operation.total (amountAt executor this precision memory)
      (Score.rescaleAmount precision otherPrecision
        (amountAt executor other otherPrecision memory))
    Score.Fits precision sum →
      amountAt executor this precision
        ((decimalByDecimal level this precision operation other.operand otherPrecision
          unitScore).run executor memory) = sum := by
  intro sum fits
  rw [decimalByDecimal_sum sums]
  split
  · rename_i same
    subst same
    simp only [sum, Score.rescaleAmount_self] at fits ⊢
    exact balancedTotal_amount sums scaled level (apart rfl) settled otherSettled fits
  · obtain ⟨middle, ranEq, copySettled, copyAmount, kept⟩ := run_withRescaled_amount this level
      (Score.scale_toInt scaled).1 otherBounded
      (fun copy => balancedDecimals (level + 1) this operation copy unitScore) otherSettled
    have thisKept : amountAt executor this precision middle =
        amountAt executor this precision memory := by
      simp only [amountAt, partSlot, kept]
    have thisSettled : SettledAt executor this precision middle := by
      simpa only [SettledAt, partSlot, kept] using settled
    have copyApart : (Operand.scratch level this.ty this.address).fraction.located executor ≠
        partSlot executor this .whole := by
      simp [Operand.scratch, partSlot]
    simp only [sum] at fits ⊢
    rw [← thisKept, ← copyAmount] at fits ⊢
    rw [ranEq]
    exact balancedTotal_amount sums scaled (level + 1) copyApart thisSettled copySettled fits

end Plan

namespace Statement

variable {this other : Value} {operation : Operation} {precision : Nat}

/-- The plan of a sum, whatever holds the number on the right. -/
theorem plan_sum (tyEq : this.ty = .decimal precision) (bounded : precision ≤ Ty.maxPrecision)
    (numeric : other.ty.isNumeric) (sums : operation = .add ∨ operation = .sub)
    {executor : String}
    (apart : this.ty = other.ty → Machine.locate executor (other.register .fraction) ≠
      Machine.locate executor (this.register .whole)) :
    let plan := (operate this operation other).plan
    plan.failure? = none ∧ ∀ memory, Plan.SettledIn executor this memory →
      Plan.SettledIn executor other memory →
        Plan.SettledIn executor this (plan.run executor memory) ∧
        let sum := operation.total (Plan.numberAt executor this memory)
          (Score.rescaleAmount precision other.ty.digits (Plan.numberAt executor other memory))
        Score.Fits precision sum →
          Plan.numberAt executor this (plan.run executor memory) = sum := by
  intro plan
  obtain ⟨unitScore, scaled⟩ := Score.exists_scale bounded
  have computes : operation.isTransfer = false := by rcases sums with rfl | rfl <;> rfl
  rcases Ty.isCount_or_decimal numeric with count | ⟨otherPrecision, otherBounded, otherTy⟩
  · have planEq : plan = _ := Plan.combine_decimal_count operation tyEq scaled count
    rw [planEq, Ty.digits_of_isCount count]
    refine ⟨by rcases sums with rfl | rfl <;> rfl, fun memory settled _ => ⟨?_, ?_⟩⟩
    · intro found foundEq
      cases tyEq.symm.trans foundEq
      exact Plan.decimalByInteger_settles scaled 0 operation other.operand memory
    · rw [Score.rescaleAmount_zero, Plan.numberAt_decimal tyEq, Plan.numberAt_decimal tyEq,
        Plan.numberAt_count count]
      exact Plan.countTotal_amount sums scaled 0 other.operand (settled precision tyEq)
  · have planEq : plan = _ := Plan.combine_decimals operation tyEq otherTy scaled
    have supported : Plan.isUnsupported operation precision = false := by
      rcases sums with rfl | rfl <;> rfl
    have succeeds := Plan.decimalByDecimal_succeeds this supported bounded otherBounded 0
      other.operand unitScore
    have digitsEq : other.ty.digits = otherPrecision := by rw [otherTy]; rfl
    rw [planEq, digitsEq]
    refine ⟨succeeds, fun memory settled otherSettled => ⟨?_, ?_⟩⟩
    · intro found foundEq
      cases tyEq.symm.trans foundEq
      exact Plan.decimalByDecimal_computes scaled 0 computes _ _ memory succeeds
    · rw [Plan.numberAt_decimal tyEq, Plan.numberAt_decimal tyEq, Plan.numberAt_decimal otherTy]
      refine Plan.decimalTotal_amount sums scaled otherBounded 0 ?_ (settled precision tyEq)
        (otherSettled otherPrecision otherTy)
      rintro rfl same
      exact apart (tyEq.trans otherTy.symm) (Slot.fixed.inj same)

/-- Sums and differences are exact if they fit.  The other side is cut off to the digits of this
one first, and keeps what it holds. -/
theorem decimal_sum_exact (tyEq : this.ty = .decimal precision) (bounded : precision ≤ 9)
    (numeric : other.ty.isNumeric) (sums : operation = .add ∨ operation = .sub) {pool : Pool}
    {executor : String} {workspace : Workspace}
    (fresh : (operate this operation other).TakesFresh pool executor workspace)
    (apart : this.ty = other.ty → Machine.locate executor (other.register .fraction) ≠
      Machine.locate executor (this.register .whole))
    {scores : Scores} (settled : this.Settled executor scores)
    (otherSettled : other.Settled executor scores) :
    let sum := operation.total (this.number executor scores)
      (Score.rescaleAmount precision other.ty.digits (other.number executor scores))
    Score.Fits precision sum →
      (operate this operation other).Ensures pool executor (workspace, scores) fun after =>
        this.Settled executor after ∧ this.number executor after = sum ∧
          ∀ register ∈ other.located executor, register ∉ this.located executor →
            after.read register = scores.read register := by
  intro sum fits
  have thisNumeric : this.ty.isNumeric := by
    rw [tyEq]
    exact decide_eq_true bounded
  have isOperand : this ∈ (operate this operation other).operands := List.mem_cons_self
  have targetsEq : (operate this operation other).targets = [this] := by
    rcases sums with rfl | rfl <;> rfl
  obtain ⟨succeeds, computed⟩ := plan_sum tyEq bounded numeric sums apart
  obtain ⟨planSettled, planSum⟩ := computed (Memory.ofScores scores) settled otherSettled
  refine ensures_of_succeeds succeeds fun later after run => ⟨?_, ?_, ?_⟩
  · exact run.settled_of_plan fresh isOperand planSettled
  · rw [run.number_eq fresh isOperand thisNumeric]
    exact planSum fits
  · intro register member outside
    apply run.read_of_kept fresh
    · exact Or.inl ⟨other, by simp [operands], member⟩
    · intro value target
      rw [targetsEq, List.mem_singleton] at target
      rw [target]
      exact outside

/-- A decimal is doubled, which ends one digit below the greatest number there is of its
precision.  The least decimal of four digits gets rid of its fraction, and the greatest time is
taken from a negative fraction. -/
theorem decimal_sums_at_the_ends :
    let half : Value := ⟨"a", .decimal 2, .player "_", [.global]⟩
    let wide : Value := ⟨"b", .decimal 4, .here, []⟩
    let rest : Value := ⟨"c", .decimal 9, .here, []⟩
    let ticks : Value := ⟨"t", .time, .here, []⟩
    let scores : Scores := ⟨fun register =>
      if register.objective = "a" then 1073741823 else
      if register.objective = "a.d" then 99 else
      if register.objective = "b" then -2147483648 else
      if register.objective = "b.d" then -9999 else
      if register.objective = "c" then 0 else
      if register.objective = "c.d" then -999999999 else 2147483647⟩
    let before := ((Compilation.start {}).workspace, scores)
    (∃ after, (operate half .add half).Executes .stacked "Steve" before after ∧
        half.Settled "Steve" after.2 ∧ half.number "Steve" after.2 = 214748364798) ∧
      (∃ after, (operate wide .sub rest).Executes .counted "Steve" before after ∧
        wide.Settled "Steve" after.2 ∧ wide.number "Steve" after.2 = -21474836480000) ∧
      ∃ after, (operate rest .sub ticks).Executes .stacked "Steve" before after ∧
        rest.Settled "Steve" after.2 ∧ rest.number "Steve" after.2 = -2147483647999999999 := by
  intro half wide rest ticks scores before
  have doubleFresh : (operate half .add half).TakesFresh .stacked "Steve" before.1 :=
    takesFresh_start .stacked "Steve" (by decide)
  have differenceFresh : (operate wide .sub rest).TakesFresh .counted "Steve" before.1 :=
    takesFresh_start .counted "Steve" (by decide)
  have countFresh : (operate rest .sub ticks).TakesFresh .stacked "Steve" before.1 :=
    takesFresh_start .stacked "Steve" (by decide)
  have halfSettled : half.Settled "Steve" scores := by
    rintro precision ⟨⟩
    exact ⟨by decide, by decide, by decide⟩
  have wideSettled : wide.Settled "Steve" scores := by
    rintro precision ⟨⟩
    exact ⟨by decide, by decide, by decide⟩
  have restSettled : rest.Settled "Steve" scores := by
    rintro precision ⟨⟩
    exact ⟨by decide, by decide, by decide⟩
  have ticksSettled : ticks.Settled "Steve" scores := by rintro precision ⟨⟩
  obtain ⟨⟨_, doubleRun⟩, double⟩ := decimal_sum_exact rfl (by decide) (by decide) (Or.inl rfl)
    doubleFresh (by decide) halfSettled halfSettled (by decide)
  obtain ⟨⟨_, differenceRun⟩, difference⟩ := decimal_sum_exact rfl (by decide) (by decide)
    (Or.inr rfl) differenceFresh (by decide) wideSettled restSettled (by decide)
  obtain ⟨⟨_, countRun⟩, count⟩ := decimal_sum_exact rfl (by decide) (by decide) (Or.inr rfl)
    countFresh (by decide) restSettled ticksSettled (by decide)
  obtain ⟨doubleSettled, doubleNumber, _⟩ := double _ doubleRun
  obtain ⟨differenceSettled, differenceNumber, _⟩ := difference _ differenceRun
  obtain ⟨countSettled, countNumber, _⟩ := count _ countRun
  exact ⟨⟨_, doubleRun, doubleSettled, doubleNumber.trans (by decide)⟩,
    ⟨_, differenceRun, differenceSettled, differenceNumber.trans (by decide)⟩,
    ⟨_, countRun, countSettled, countNumber.trans (by decide)⟩⟩

/-- A value named like the fraction of another one shares a register with it.  Adding 1.02 to
2.30 makes 3.33 then, and 1.03 of the 1.02.  And if digests make scratch registers coincide,
doubling 3.50 makes 7.99. -/
theorem sums_with_shared_registers :
    let other : Value := ⟨"x", .decimal 2, .here, []⟩
    let this : Value := ⟨"x.d", .decimal 2, .here, []⟩
    let side : Value := ⟨"a", .decimal 2, .here, []⟩
    let scores : Scores := ⟨fun register =>
      if register.objective = "x" then 1 else
      if register.objective = "x.d" then 2 else
      if register.objective = "x.d.d" then 30 else
      if register.objective = "a" then 3 else 50⟩
    let workspace := (Compilation.start {}).workspace
    let hashed := (Compilation.start { stackStem := "abcdefghijklmnopqrstu" }).workspace
    (∀ value ∈ [this, other, side], value.Settled "Steve" scores) ∧
      [this, other, side].map (Value.number "Steve" scores) = [230, 102, 350] ∧
      (operate this .add other).TakesFresh .stacked "Steve" workspace ∧
      (∃ after, (operate this .add other).Executes .stacked "Steve" (workspace, scores) after ∧
        this.number "Steve" after.2 = 333 ∧ other.number "Steve" after.2 = 103) ∧
      (∀ objective ∈ side.objectives, ∀ position < 3,
        objective ∉ (hashed.scratchAt .stacked .int .here position).objectives) ∧
      ∃ after, (operate side .add side).Executes .stacked "Steve" (hashed, scores) after ∧
        side.number "Steve" after.2 = 799 := by
  intro other this side scores workspace hashed
  have settled : ∀ value ∈ [this, other, side], value.Settled "Steve" scores := by
    intro value member precision tyEq
    simp only [List.mem_cons, List.not_mem_nil, or_false] at member
    rcases member with rfl | rfl | rfl <;> cases tyEq <;>
      exact ⟨by decide, by decide, by decide⟩
  have fresh : (operate this .add other).TakesFresh .stacked "Steve" workspace :=
    takesFresh_start .stacked "Steve" (by decide)
  have sharedSucceeds : (operate this .add other).plan.failure? = none := rfl
  have hashedSucceeds : (operate side .add side).plan.failure? = none := rfl
  have sharedRun := executes_lowered sharedSucceeds .stacked "Steve" workspace scores
  have hashedRun := executes_lowered hashedSucceeds .stacked "Steve" hashed scores
  exact ⟨settled, by decide, fresh, ⟨_, sharedRun, by decide +kernel, by decide +kernel⟩,
    by decide +kernel, ⟨_, hashedRun, by decide +kernel⟩⟩

end Statement

end ScoreLowering
