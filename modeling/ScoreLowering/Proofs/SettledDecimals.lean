import ScoreLowering.Proofs.ScoreArithmetic
import ScoreLowering.Proofs.StatementFrame

/-!
# Decimals stay settled

A decimal is settled if its fraction is smaller than one and does not disagree
in sign with its whole part.  Whatever a statement does to a decimal, it leaves
it settled, also where numbers wrap around: carrying settles any two parts, and
all that does not end in a carry moves parts that are settled already.
-/

namespace ScoreLowering

namespace Score

/-- The parts of a decimal of this precision, with a fraction smaller than one
and no disagreement in sign. -/
structure Settled (precision : Nat) (whole fraction : Score) : Prop where
  small : fraction.toInt.natAbs < 10 ^ precision
  notAbove : ¬ (whole.toInt < 0 ∧ 0 < fraction.toInt)
  notBelow : ¬ (0 < whole.toInt ∧ fraction.toInt < 0)

theorem settled_zero (precision : Nat) (whole : Score) : Settled precision whole 0 := by
  refine ⟨?_, ?_, ?_⟩
  · exact Nat.pow_pos (by decide)
  · simp
  · simp

/-- A fraction may be replaced by a small one that has its sign or is zero. -/
theorem Settled.replace {precision other : Nat} {whole fraction replaced : Score}
    (settled : Settled other whole fraction) (small : replaced.toInt.natAbs < 10 ^ precision)
    (positive : 0 < replaced.toInt → 0 < fraction.toInt)
    (negative : replaced.toInt < 0 → fraction.toInt < 0) : Settled precision whole replaced where
  small := small
  notAbove opposed := settled.notAbove ⟨opposed.1, positive opposed.2⟩
  notBelow opposed := settled.notBelow ⟨opposed.1, negative opposed.2⟩

/-- A small fraction has room for more digits. -/
theorem mul_pow_toInt {precision other : Nat} {fraction factor : Score}
    (small : fraction.toInt.natAbs < 10 ^ other) (bounded : precision ≤ Ty.maxPrecision)
    (wider : other ≤ precision) (factorEq : factor.toInt = 10 ^ (precision - other)) :
    (fraction * factor).toInt = fraction.toInt * 10 ^ (precision - other) := by
  have productSmall := natAbs_mul_pow_lt small wider
  have inRange : (10 : Nat) ^ precision ≤ 10 ^ 9 := Nat.pow_le_pow_right (by decide) bounded
  rw [Int32.toInt_mul, factorEq, bmod_of_inRange (by omega) (by omega)]

theorem truncated_pow_toInt (fraction : Score) {factor : Score} {digits : Nat}
    (factorEq : factor.toInt = 10 ^ digits) :
    (truncated fraction factor).toInt = fraction.toInt.tdiv (10 ^ digits) := by
  have factorPositive : 0 < factor.toInt := by
    rw [factorEq]
    exact pow_ten_pos _
  rw [truncated_toInt factorPositive, factorEq]

theorem Settled.multiply {precision other : Nat} {whole fraction factor : Score}
    (settled : Settled other whole fraction) (bounded : precision ≤ Ty.maxPrecision)
    (wider : other ≤ precision) (factorEq : factor.toInt = 10 ^ (precision - other)) :
    Settled precision whole (fraction * factor) := by
  have small := natAbs_mul_pow_lt settled.small wider
  have product := mul_pow_toInt settled.small bounded wider factorEq
  obtain ⟨positive, negative⟩ := mul_sign (pow_ten_pos (precision - other))
  rw [← product] at small positive negative
  exact settled.replace small positive negative

theorem Settled.truncate {precision other : Nat} {whole fraction factor : Score}
    (settled : Settled other whole fraction) (narrower : precision ≤ other)
    (factorEq : factor.toInt = 10 ^ (other - precision)) :
    Settled precision whole (truncated fraction factor) := by
  have quotient := truncated_pow_toInt fraction factorEq
  have small := natAbs_tdiv_pow_lt settled.small narrower
  obtain ⟨positive, negative⟩ := tdiv_sign (pow_ten_pos (other - precision))
  rw [← quotient] at small positive negative
  exact settled.replace small positive negative

/-- What a borrow call makes of the parts of a decimal. -/
def borrowed (unit whole fraction : Score) : Score × Score :=
  if whole ≤ -1 ∧ 1 ≤ fraction then (whole + 1, fraction - unit) else (whole, fraction)

/-- What carrying makes of the parts of a decimal. -/
def carried (unit whole fraction : Score) : Score × Score :=
  borrowed unit (whole + fraction.floorDivide unit)
    (fraction - fraction.floorDivide unit * unit)

/-- Carrying settles any parts. -/
theorem carried_settled {precision : Nat} {unit : Score}
    (unitEq : unit.toInt = 10 ^ precision) (whole fraction : Score) :
    Settled precision (carried unit whole fraction).1 (carried unit whole fraction).2 := by
  have positive : 0 < unit.toInt := by
    rw [unitEq]
    exact Int.pow_pos (by decide)
  have remainder : (fraction - fraction.floorDivide unit * unit).toInt =
      fraction.toInt % unit.toInt := sub_floorDivide_mul_toInt positive
  have low := Int.emod_nonneg fraction.toInt (by omega : unit.toInt ≠ 0)
  have high := Int.emod_lt_of_pos fraction.toInt positive
  have bound := unit.toInt_lt
  have unitAbs : unit.toInt.natAbs = 10 ^ precision := by
    rw [unitEq, Int.natAbs_pow]
    rfl
  simp only [carried, borrowed, le_neg_one_iff, one_le_iff]
  split
  · rename_i disagree
    have wholeLow := (whole + fraction.floorDivide unit).le_toInt
    have wholeEq : (whole + fraction.floorDivide unit + 1).toInt =
        (whole + fraction.floorDivide unit).toInt + 1 := by
      rw [Int32.toInt_add _ 1, Int32.toInt_one, bmod_of_inRange (by omega) (by omega)]
    have fractionEq : (fraction - fraction.floorDivide unit * unit - unit).toInt =
        fraction.toInt % unit.toInt - unit.toInt := by
      rw [Int32.toInt_sub _ unit, remainder, bmod_of_inRange (by omega) (by omega)]
    rw [remainder] at disagree
    refine ⟨?_, ?_, ?_⟩ <;> simp only [wholeEq, fractionEq] <;> omega
  · rename_i agree
    refine ⟨?_, agree, ?_⟩ <;> simp only [remainder] <;> omega

theorem tenPower?_eq {exponent : Nat} {power : Int}
    (found : Decimal.tenPower? exponent = some power) : power = 10 ^ exponent := by
  unfold Decimal.tenPower? Decimal.wide? at found
  split at found
  · cases found
    exact Int.natCast_pow 10 exponent
  · cases found

theorem tenPower?_of_le {exponent : Nat} (short : exponent ≤ Decimal.maxDigits) :
    Decimal.tenPower? exponent = some (10 ^ exponent) := by
  have powerEq : ((Nat.pow 10 exponent : Nat) : Int) = 10 ^ exponent := Int.natCast_pow 10 exponent
  have below : (Nat.pow 10 exponent : Int) ≤ Nat.pow 10 Decimal.maxDigits :=
    Int.ofNat_le.mpr (Nat.pow_le_pow_right (by decide) short)
  have least : Int64.minValue.toInt ≤ 0 := by decide
  rw [← powerEq]
  exact if_pos ⟨Int.le_trans least (Int.natCast_nonneg _), Int.le_trans below (by decide)⟩

/-- The digits behind the point that are kept of a remainder. -/
theorem rescale?_eq {remainder digits : Int} {precision places : Nat}
    (found : Decimal.rescale? remainder precision places = some digits)
    (small : remainder.natAbs < 10 ^ precision) :
    digits.natAbs < 10 ^ places ∧ (0 < digits → 0 < remainder) ∧
      (digits < 0 → remainder < 0) := by
  unfold Decimal.rescale? at found
  split at found
  · rename_i wider
    obtain ⟨factor, factorFound, wideFound⟩ := Option.bind_eq_some_iff.mp found
    have digitsEq : digits = remainder * factor := by
      unfold Decimal.wide? at wideFound
      split at wideFound
      · exact (Option.some.inj wideFound).symm
      · cases wideFound
    rw [digitsEq, tenPower?_eq factorFound]
    exact ⟨natAbs_mul_pow_lt small wider, mul_sign (pow_ten_pos _)⟩
  · rename_i narrower
    obtain ⟨factor, factorFound, digitsEq⟩ := Option.map_eq_some_iff.mp found
    rw [← digitsEq, tenPower?_eq factorFound]
    exact ⟨natAbs_tdiv_pow_lt small (Nat.le_of_not_le narrower), tdiv_sign (pow_ten_pos _)⟩

/-- A literal is split into settled parts. -/
theorem split?_settled {decimal : Decimal} {places : Nat} {whole fraction : Score}
    (found : decimal.split? places = some (whole, fraction)) :
    Settled places whole fraction := by
  simp only [Decimal.split?, Option.bind_eq_bind, Option.bind_eq_some_iff, Option.pure_def,
    Option.some.injEq, Prod.mk.injEq] at found
  obtain ⟨denominator, denominatorFound, _, wholeFound, _, ⟨digits, digitsFound, fractionFound⟩,
    rfl, rfl⟩ := found
  have denominatorEq := tenPower?_eq denominatorFound
  subst denominatorEq
  obtain ⟨small, positive, negative⟩ := rescale?_eq digitsFound (natAbs_tmod_pow_lt _ _)
  -- both parts have the sign of the mantissa
  obtain ⟨wholePositive, wholeNegative⟩ :
      (0 < decimal.mantissa.toInt.tdiv (10 ^ decimal.precision) → 0 < decimal.mantissa.toInt) ∧
        (decimal.mantissa.toInt.tdiv (10 ^ decimal.precision) < 0 →
          decimal.mantissa.toInt < 0) := tdiv_sign (pow_ten_pos _)
  obtain ⟨restPositive, restNegative⟩ :
      (0 < decimal.mantissa.toInt.tmod (10 ^ decimal.precision) → 0 < decimal.mantissa.toInt) ∧
        (decimal.mantissa.toInt.tmod (10 ^ decimal.precision) < 0 →
          decimal.mantissa.toInt < 0) := tmod_sign _
  have wholeEq := toInt_of_ofInt? wholeFound
  have fractionEq := toInt_of_ofInt? fractionFound
  refine ⟨?_, ?_, ?_⟩
  · rwa [fractionEq]
  · rw [wholeEq, fractionEq]
    rintro ⟨below, above⟩
    have mantissaNegative := wholeNegative below
    have mantissaPositive := restPositive (positive above)
    omega
  · rw [wholeEq, fractionEq]
    rintro ⟨above, below⟩
    have mantissaPositive := wholePositive above
    have mantissaNegative := restNegative (negative below)
    omega

end Score

namespace Plan

theorem contains_nonZero {score : Score} : nonZero.contains score ↔ score ≠ 0 := by
  have outside : nonZero.contains score ↔ score < 0 ∨ 0 < score := by
    simp [nonZero, Range.contains, Range.inBounds, Range.exact, Range.between, Range.complement]
  rw [outside, Score.lt_zero_iff, Score.zero_lt_iff, ne_eq, ← Int32.toInt_inj, Int32.toInt_zero]
  omega

theorem run_truncatingDivide (executor : String) (level : Nat) {target divisor : Slot}
    (address : Address) (memory : Memory)
    (targetApart : target.located executor ≠ .scratch level .whole)
    (divisorApart : divisor.located executor ≠ .scratch level .whole)
    (apart : divisor.located executor ≠ target.located executor) :
    (truncatingDivide level target divisor address).run executor memory
        (target.located executor) =
      Score.truncated (memory (target.located executor)) (memory (divisor.located executor)) := by
  simp only [truncatingDivide, run_withScratch]
  simp [Step.run, Operand.scratch, ScoreOperation.evaluate, targetApart, targetApart.symm,
    divisorApart, apart]
  simp only [Range.contains_atMost, contains_nonZero, Score.truncated]
  split <;> simp

theorem run_truncatingDivide_of_ne {executor : String} {level : Nat} {target divisor : Slot}
    (address : Address) (memory : Memory) {slot : Slot}
    (notTarget : slot ≠ target.located executor)
    (notScratch : slot ≠ .scratch level .whole) :
    (truncatingDivide level target divisor address).run executor memory slot = memory slot := by
  apply run_of_not_mem_writes
  simp [writes, truncatingDivide, withScratch, Step.writes, Operand.scratch, notTarget, notScratch]

/-- The contents of both parts of a value. -/
def partsOf (executor : String) (value : Value) (memory : Memory) : Score × Score :=
  (memory (partSlot executor value .whole), memory (partSlot executor value .fraction))

theorem locate_fraction_ne_whole (executor : String) (value : Value) :
    Machine.locate executor (value.register .fraction) ≠
      Machine.locate executor (value.register .whole) := by
  intro same
  exact value.objective_fraction_ne_whole (congrArg Register.objective same)

theorem partsOf_borrow (executor : String) (value : Value) (unit : Score) (memory : Memory) :
    partsOf executor value ((borrow value unit).run executor memory) =
      Score.borrowed unit (memory (partSlot executor value .whole))
        (memory (partSlot executor value .fraction)) := by
  have apart := locate_fraction_ne_whole executor value
  by_cases disagree : memory (partSlot executor value .whole) ≤ -1 ∧
      1 ≤ memory (partSlot executor value .fraction)
  · simp only [run, partsOf, Score.borrowed, if_pos disagree]
    simp [partSlot, apart.symm]
  · simp only [run, partsOf, Score.borrowed, if_neg disagree]

/-- Carrying in a memory that holds the unit. -/
theorem partsOf_carry (executor : String) (level : Nat) (this : Value) {unitLevel : Nat}
    {unitScore : Score} {memory : Memory} (unitApart : unitLevel ≠ level)
    (unitEq : memory (.scratch unitLevel .whole) = unitScore) :
    partsOf executor this
        ((carry level this (.scratch unitLevel .whole) unitScore).run executor memory) =
      Score.carried unitScore (memory (partSlot executor this .whole))
        (memory (partSlot executor this .fraction)) := by
  have apart := locate_fraction_ne_whole executor this
  rw [carry, run_append, partsOf_borrow]
  simp [Step.run, Operand.scratch, Value.operand, ScoreOperation.evaluate, partSlot, apart,
    apart.symm, unitApart, unitEq, Score.carried]

theorem run_scratch_of_not_mem (executor : String) {plan : Plan} (memory : Memory)
    {level : Nat} {part : Part} (untouched : .scratch level part ∉ plan.writes) :
    plan.run executor memory (.scratch level part) = memory (.scratch level part) := by
  apply run_of_not_mem_writes
  intro written
  obtain ⟨slot, slotWritten, slotEq⟩ := List.mem_map.mp written
  cases slot with
  | fixed register => cases slotEq
  | scratch other otherPart =>
      cases slotEq
      exact untouched slotWritten

/-- The value is settled in a memory, if it is a decimal of this precision. -/
def SettledAt (executor : String) (value : Value) (precision : Nat) (memory : Memory) : Prop :=
  Score.Settled precision (memory (partSlot executor value .whole))
    (memory (partSlot executor value .fraction))

variable {executor : String} {precision : Nat} {unitScore : Score} {this : Value}

/-- Whatever came before, a carry leaves its value settled. -/
theorem carry_settles (scaled : Ty.scale precision = .ok unitScore) {level unitLevel : Nat}
    {memory : Memory} (unitApart : unitLevel ≠ level)
    (unitEq : memory (.scratch unitLevel .whole) = unitScore) :
    SettledAt executor this precision
      ((carry level this (.scratch unitLevel .whole) unitScore).run executor memory) := by
  have settled := Score.carried_settled (Score.scale_toInt scaled).2
    (memory (partSlot executor this .whole)) (memory (partSlot executor this .fraction))
  rw [← partsOf_carry executor level this unitApart unitEq] at settled
  exact settled

theorem decimalByInteger_settles (scaled : Ty.scale precision = .ok unitScore) (level : Nat)
    (operation : Operation) (other : Operand) (memory : Memory) :
    SettledAt executor this precision
      ((decimalByInteger level this operation other unitScore).run executor memory) := by
  have zeroed (before : Plan) : SettledAt executor this precision
      ((before ++ steps [.set this.operand.fraction 0]).run executor memory) := by
    have fractionZero : (before ++ steps [.set this.operand.fraction 0]).run executor memory
        (partSlot executor this .fraction) = 0 := by
      simp [Step.run, Value.operand, partSlot]
    unfold SettledAt
    rw [fractionZero]
    exact Score.settled_zero _ _
  cases operation with
  | set => exact zeroed _
  | swap => exact zeroed _
  | add | sub | mul =>
      simp only [decimalByInteger, run_append, run_withConstant]
      apply carry_settles scaled (by omega)
      rw [Function.update_self]
  | div =>
      simp only [decimalByInteger, run_append, run_withConstant, withCombined, run_withScratch,
        splitFrom]
      apply carry_settles scaled (by omega)
      rw [run_scratch_of_not_mem, run_scratch_of_not_mem, run_scratch_of_not_mem,
        Function.update_self]
      · simp [writes, combineInto, Step.writes, Operand.scratch]
      · simp [writes, truncatingDivide, withScratch, Step.writes, Operand.scratch]
      · simp [writes, Step.writes, Value.operand]
  | mod =>
      simp only [decimalByInteger, run_append, run_withConstant, withCombined, run_withScratch,
        splitFrom]
      apply carry_settles scaled (by omega)
      rw [run_scratch_of_not_mem, run_scratch_of_not_mem, run_scratch_of_not_mem,
        Function.update_self]
      · simp [writes, combineInto, Step.writes, Operand.scratch]
      · simp [writes, Step.writes, Operand.scratch]
      · simp [writes, Step.writes, Value.operand]

/-- Sums and products of decimals are carried. -/
theorem balancedDecimals_settles (scaled : Ty.scale precision = .ok unitScore) (level : Nat)
    {operation : Operation} (computes : operation = .add ∨ operation = .sub ∨ operation = .mul)
    (other : Operand) (memory : Memory) :
    SettledAt executor this precision
      ((balancedDecimals level this operation other unitScore).run executor memory) := by
  rcases computes with rfl | rfl | rfl
  · simp only [balancedDecimals, run_append, run_withConstant]
    exact carry_settles scaled (by omega) (Function.update_self _ _ _)
  · simp only [balancedDecimals, run_append, run_withConstant]
    exact carry_settles scaled (by omega) (Function.update_self _ _ _)
  · simp only [balancedDecimals, run_append, run_withConstant]
    apply carry_settles scaled (by omega)
    rw [run_scratch_of_not_mem, Function.update_self]
    simp [writes, multiply, truncatingDivide, withScratch, Step.writes, Operand.scratch,
      Value.operand, Nat.add_assoc]

/-- Copying both parts of a decimal. -/
theorem balancedDecimals_set (unitScore : Score) (level : Nat) {other : Operand} (memory : Memory)
    (apart : other.fraction.located executor ≠ partSlot executor this .whole) :
    let after := (balancedDecimals level this .set other unitScore).run executor memory
    after (partSlot executor this .whole) = memory (other.whole.located executor) ∧
      after (partSlot executor this .fraction) = memory (other.fraction.located executor) := by
  have parts := locate_fraction_ne_whole executor this
  unfold partSlot at apart
  simp [balancedDecimals, Step.run, ScoreOperation.evaluate, Value.operand, partSlot, apart,
    parts.symm]

/-- Rescaling a fraction that is held in a scratch register. -/
def rescaled (precision otherPrecision : Nat) (fraction factor : Score) : Score :=
  if precision < otherPrecision then Score.truncated fraction factor else fraction * factor

theorem rescaled_settled {otherPrecision : Nat} {whole fraction factor : Score}
    (small : precision ≤ Ty.maxPrecision)
    (scaled : Ty.scale (precisionGap precision otherPrecision) = .ok factor)
    (settled : Score.Settled otherPrecision whole fraction) :
    Score.Settled precision whole (rescaled precision otherPrecision fraction factor) := by
  have factorEq := (Score.scale_toInt scaled).2
  unfold precisionGap at factorEq
  unfold rescaled
  split
  · rename_i narrower
    rw [Nat.sub_eq_zero_of_le (Nat.le_of_lt narrower), Nat.zero_add] at factorEq
    exact settled.truncate (Nat.le_of_lt narrower) factorEq
  · rename_i notNarrower
    rw [Nat.sub_eq_zero_of_le (Nat.le_of_not_lt notNarrower), Nat.add_zero] at factorEq
    exact settled.multiply small (Nat.le_of_not_lt notNarrower) factorEq

theorem precisionGap_le {otherPrecision : Nat} (small : precision ≤ Ty.maxPrecision)
    (otherSmall : otherPrecision ≤ Ty.maxPrecision) :
    precisionGap precision otherPrecision ≤ Ty.maxPrecision := by
  unfold precisionGap
  omega

theorem precisionGap_comm (precision otherPrecision : Nat) :
    precisionGap precision otherPrecision = precisionGap otherPrecision precision :=
  Nat.add_comm _ _

/-- Without a change of precision the factor is one. -/
theorem rescaled_self {factor : Score}
    (scaled : Ty.scale (precisionGap precision precision) = .ok factor) (fraction : Score) :
    rescaled precision precision fraction factor = fraction := by
  rw [precisionGap, Nat.sub_self] at scaled
  cases scaled
  rw [rescaled, if_neg (Nat.lt_irrefl precision)]
  exact Int32.mul_one fraction

/-- The copy that a rescaled operand is made to. -/
theorem run_withRescaled (this : Value) {other : Operand} {level otherPrecision : Nat}
    {factorScore : Score}
    (scaled : Ty.scale (precisionGap precision otherPrecision) = .ok factorScore)
    (memory : Memory) (body : Operand → Plan)
    (apart : other.fraction.located executor ≠ .scratch level .whole) :
    ∃ middle, (withRescaled level this precision other otherPrecision body).run executor memory =
        (body (Operand.scratch level this.ty this.address)).run executor middle ∧
      middle (.scratch level .whole) = memory (other.whole.located executor) ∧
      middle (.scratch level .fraction) = rescaled precision otherPrecision
        (memory (other.fraction.located executor)) factorScore ∧
      ∀ register, middle (.fixed register) = memory (.fixed register) := by
  simp only [withRescaled, run_withScratch, run_append, scaled, Except.map, ofExcept,
    run_withConstant]
  refine ⟨_, rfl, ?_, ?_, fun register => ?_⟩
  · rw [run_scratch_of_not_mem]
    · simp [Step.run, Operand.scratch, ScoreOperation.evaluate]
    · split <;> simp [writes, truncatingDivide, withScratch, Step.writes, Operand.scratch]
  · unfold rescaled
    split
    · refine (run_truncatingDivide executor (level + 2) this.address _ ?_ ?_ ?_).trans ?_
      · simp [Operand.scratch]
      · simp
      · simp [Operand.scratch]
      · simp [Step.run, Operand.scratch, ScoreOperation.evaluate, apart]
    · simp [Step.run, Operand.scratch, ScoreOperation.evaluate, apart]
  · rw [run_of_not_mem_writes]
    · simp [Step.run, Operand.scratch]
    · split <;> simp [writes, truncatingDivide, withScratch, Step.writes, Operand.scratch]

/-- Two decimals without a register in common. -/
def Disjoint (executor : String) (first second : Value) : Prop :=
  ∀ part otherPart, Machine.locate executor (first.register part) ≠
    Machine.locate executor (second.register otherPart)

theorem Disjoint.symm {first second : Value} (disjoint : Disjoint executor first second) :
    Disjoint executor second first :=
  fun part otherPart => (disjoint otherPart part).symm

theorem run_exchange {other : Value} (disjoint : Disjoint executor this other)
    (memory : Memory) (part : Part) :
    let after := (steps [.operate this.operand.whole .swap other.operand.whole,
      .operate this.operand.fraction .swap other.operand.fraction]).run executor memory
    after (partSlot executor this part) = memory (partSlot executor other part) ∧
      after (partSlot executor other part) = memory (partSlot executor this part) := by
  have thisParts := locate_fraction_ne_whole executor this
  have otherParts := locate_fraction_ne_whole executor other
  have backward := disjoint.symm
  unfold Disjoint at disjoint backward
  cases part <;>
    simp [Step.run, ScoreOperation.evaluate, Value.operand, partSlot, disjoint, backward,
      thisParts, thisParts.symm, otherParts, otherParts.symm]

/-- After an exchange, the fraction of one side grows and that of the other one
shrinks. -/
theorem run_rescaleBoth {grows shrinks : Value} (disjoint : Disjoint executor grows shrinks)
    (level : Nat) (factorScore : Score) (address : Address) (memory : Memory) :
    let after := (withConstant level factorScore address fun factor =>
      steps [.operate grows.operand.fraction .multiply factor] ++
        truncatingDivide (level + 1) shrinks.operand.fraction factor
          shrinks.address).run executor memory
    after (partSlot executor grows .whole) = memory (partSlot executor grows .whole) ∧
      after (partSlot executor grows .fraction) =
        memory (partSlot executor grows .fraction) * factorScore ∧
      after (partSlot executor shrinks .whole) = memory (partSlot executor shrinks .whole) ∧
      after (partSlot executor shrinks .fraction) =
        Score.truncated (memory (partSlot executor shrinks .fraction)) factorScore := by
  have growsParts := locate_fraction_ne_whole executor grows
  have shrinksParts := locate_fraction_ne_whole executor shrinks
  have backward := disjoint.symm
  unfold Disjoint at disjoint backward
  have kept {register : Register} (elsewhere : register ≠
      Machine.locate executor (shrinks.register .fraction)) (before : Memory) :
      (truncatingDivide (level + 1) shrinks.operand.fraction (.scratch level .whole)
        shrinks.address).run executor before (.fixed register) = before (.fixed register) := by
    apply run_of_not_mem_writes
    simp [writes, truncatingDivide, withScratch, Step.writes, Operand.scratch, Value.operand,
      elsewhere]
  simp only [run_withConstant, run_append]
  refine ⟨?_, ?_, ?_, ?_⟩
  · rw [partSlot, kept (disjoint _ _)]
    simp [Step.run, Value.operand, growsParts.symm]
  · rw [partSlot, kept (disjoint _ _)]
    simp [Step.run, Value.operand, ScoreOperation.evaluate]
  · rw [partSlot, kept shrinksParts.symm]
    simp [Step.run, Value.operand, backward]
  · refine (run_truncatingDivide executor (level + 1) shrinks.address _ ?_ ?_ ?_).trans ?_
    · simp [Value.operand]
    · simp
    · simp [Value.operand]
    · simp [Step.run, Value.operand, partSlot, backward]

/-- An exchange brings each side to the precision of its new place. -/
theorem partsOf_swapDecimals {other : Value} {otherPrecision : Nat}
    (disjoint : Disjoint executor this other) {factor : Score}
    (scaled : Ty.scale (precisionGap precision otherPrecision) = .ok factor) (level : Nat)
    (memory : Memory) :
    let after := (swapDecimals level this.operand precision other.operand
      otherPrecision).run executor memory
    partsOf executor this after = (memory (partSlot executor other .whole),
        rescaled precision otherPrecision (memory (partSlot executor other .fraction)) factor) ∧
      partsOf executor other after = (memory (partSlot executor this .whole),
        rescaled otherPrecision precision (memory (partSlot executor this .fraction)) factor) := by
  have exchanged := run_exchange disjoint memory
  generalize exchangeEq : steps [.operate this.operand.whole .swap other.operand.whole,
    .operate this.operand.fraction .swap other.operand.fraction] = exchange at exchanged
  have sameAddress (value : Value) : value.operand.address = value.address := rfl
  simp only [swapDecimals, exchangeEq, scaled, Except.map, ofExcept]
  rcases Nat.lt_trichotomy precision otherPrecision with narrower | rfl | wider
  · -- the right side has room for more digits
    have different : precision ≠ otherPrecision := Nat.ne_of_lt narrower
    have notWider : ¬ otherPrecision < precision := Nat.lt_asymm narrower
    obtain ⟨otherWhole, otherFraction, thisWhole, thisFraction⟩ := run_rescaleBoth disjoint.symm
      level factor this.address (exchange.run executor memory)
    simp only [if_neg different, if_neg notWider, run_append, partsOf, rescaled, if_pos narrower,
      sameAddress, otherWhole, otherFraction, thisWhole, thisFraction, exchanged, and_self]
  · simp only [if_true, partsOf, exchanged, rescaled_self scaled, and_self]
  · have different : precision ≠ otherPrecision := Nat.ne_of_gt wider
    have notNarrower : ¬ precision < otherPrecision := Nat.lt_asymm wider
    obtain ⟨thisWhole, thisFraction, otherWhole, otherFraction⟩ := run_rescaleBoth disjoint
      level factor this.address (exchange.run executor memory)
    simp only [if_neg different, if_pos wider, run_append, partsOf, rescaled, if_neg notNarrower,
      sameAddress, otherWhole, otherFraction, thisWhole, thisFraction, exchanged, and_self]

theorem swapDecimals_settles {other : Value} {otherPrecision : Nat}
    (disjoint : Disjoint executor this other) (small : precision ≤ Ty.maxPrecision)
    (otherSmall : otherPrecision ≤ Ty.maxPrecision) (level : Nat) {memory : Memory}
    (settled : SettledAt executor this precision memory)
    (otherSettled : SettledAt executor other otherPrecision memory) :
    let after := (swapDecimals level this.operand precision other.operand
      otherPrecision).run executor memory
    SettledAt executor this precision after ∧ SettledAt executor other otherPrecision after := by
  intro after
  obtain ⟨factor, scaled⟩ := Score.exists_scale (precisionGap_le small otherSmall)
  obtain ⟨thisParts, otherParts⟩ := partsOf_swapDecimals disjoint scaled level memory
  have thisSettled := rescaled_settled small scaled otherSettled
  rw [precisionGap_comm] at scaled
  have otherSettled := rescaled_settled otherSmall scaled settled
  simp only [partsOf, Prod.mk.injEq] at thisParts otherParts
  rw [← thisParts.1, ← thisParts.2] at thisSettled
  rw [← otherParts.1, ← otherParts.2] at otherSettled
  exact ⟨thisSettled, otherSettled⟩

theorem run_exchange_self (memory : Memory) (part : Part) :
    (steps [.operate this.operand.whole .swap this.operand.whole,
      .operate this.operand.fraction .swap this.operand.fraction]).run executor memory
        (partSlot executor this part) = memory (partSlot executor this part) := by
  simp [Step.run, ScoreOperation.evaluate]

theorem decimalByDecimal_computes (scaled : Ty.scale precision = .ok unitScore) (level : Nat)
    {operation : Operation} (computes : operation.isTransfer = false) (other : Operand)
    (otherPrecision : Nat) (memory : Memory)
    (succeeds : (decimalByDecimal level this precision operation other otherPrecision
      unitScore).failure? = none) :
    SettledAt executor this precision
      ((decimalByDecimal level this precision operation other otherPrecision
        unitScore).run executor memory) := by
  have balanced : isUnsupported operation precision = false →
      operation = .add ∨ operation = .sub ∨ operation = .mul := by
    intro supported
    cases operation with
    | set | swap => cases computes
    | add | sub | mul => simp
    | div | mod => cases supported
  have notSwap : operation ≠ .swap := by
    rintro rfl
    cases computes
  unfold decimalByDecimal at succeeds ⊢
  by_cases unsupported : isUnsupported operation precision
  · rw [if_pos unsupported] at succeeds
    cases succeeds
  rw [if_neg unsupported, if_neg notSwap]
  have computed := balanced (eq_false_of_ne_true unsupported)
  split
  · exact balancedDecimals_settles scaled level computed other memory
  · simp only [withRescaled, run_withScratch, run_append]
    exact balancedDecimals_settles scaled (level + 1) computed _ _

/-- An assignment brings the right side to the precision of the left one. -/
theorem partsOf_decimalByDecimal_set {other : Value} {otherPrecision : Nat} {factor : Score}
    (scaled : Ty.scale (precisionGap precision otherPrecision) = .ok factor) (level : Nat)
    (unitScore : Score) (memory : Memory) (apart : this = other ∨ Disjoint executor this other) :
    partsOf executor this
        ((decimalByDecimal level this precision .set other.operand otherPrecision
          unitScore).run executor memory) =
      (memory (partSlot executor other .whole),
        rescaled precision otherPrecision (memory (partSlot executor other .fraction)) factor) := by
  have fractionApart : other.operand.fraction.located executor ≠ partSlot executor this .whole := by
    intro same
    rcases apart with rfl | disjoint
    · exact locate_fraction_ne_whole executor this (Slot.fixed.inj same)
    · exact disjoint .whole .fraction (Slot.fixed.inj same).symm
  have supported : isUnsupported .set precision = false := rfl
  simp only [decimalByDecimal, supported, Bool.false_eq_true, if_false, reduceCtorEq]
  by_cases same : precision = otherPrecision
  · subst same
    obtain ⟨wholeEq, fractionEq⟩ := balancedDecimals_set unitScore level memory fractionApart
    rw [if_pos rfl, partsOf, wholeEq, fractionEq, rescaled_self scaled]
    rfl
  · rw [if_neg same]
    have sourceApart : other.operand.fraction.located executor ≠ .scratch level .whole := by
      simp [Value.operand]
    obtain ⟨middle, ranEq, middleWhole, middleFraction, _⟩ :=
      run_withRescaled this scaled memory
        (fun copy => balancedDecimals (level + 1) this .set copy unitScore) sourceApart
    have copyApart : (Operand.scratch level this.ty this.address).fraction.located executor ≠
        partSlot executor this .whole := by
      simp [Operand.scratch, partSlot]
    obtain ⟨wholeEq, fractionEq⟩ :=
      balancedDecimals_set unitScore (level + 1) middle copyApart
    rw [ranEq, partsOf, wholeEq, fractionEq]
    simp only [Operand.scratch, Slot.located, middleWhole, middleFraction]
    rfl

theorem decimalByDecimal_set {other : Value} {otherPrecision : Nat}
    (small : precision ≤ Ty.maxPrecision) (otherSmall : otherPrecision ≤ Ty.maxPrecision)
    (level : Nat) {memory : Memory} (apart : this = other ∨ Disjoint executor this other)
    (otherSettled : SettledAt executor other otherPrecision memory) :
    SettledAt executor this precision
      ((decimalByDecimal level this precision .set other.operand otherPrecision
        unitScore).run executor memory) := by
  obtain ⟨factor, scaled⟩ := Score.exists_scale (precisionGap_le small otherSmall)
  have parts := partsOf_decimalByDecimal_set scaled level unitScore memory apart
  have settled := rescaled_settled small scaled otherSettled
  simp only [partsOf, Prod.mk.injEq] at parts
  rw [← parts.1, ← parts.2] at settled
  exact settled

end Plan

end ScoreLowering
