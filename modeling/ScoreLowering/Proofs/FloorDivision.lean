import Mathlib.Data.Rat.Floor
import ScoreLowering.Proofs.RangeText
import ScoreLowering.Proofs.ScoreArithmetic

/-!
# Division rounds down

The board's quotient is the floor of the exact one, and its remainder is what that floor leaves
over.  Only the least score divided by minus one is too large, and wraps around.

Both are made from the processor's division by one more step, where the signs call for it.
Whether the quotient is exact can be told by multiplying it by the divisor again.  The product
need not be a score, but then the quotient is the one that wrapped around, which is not
corrected.  The steps that correct need no such care: none of them leaves the range of a score.
-/

namespace ScoreLowering

namespace Score

/-- The quotient rounded down, if the step that corrects it stays in range.  It is exact if its
product with the divisor is the dividend, and left alone if that product is no score. -/
def floorDivide? (dividend divisor : Score) : Option Score :=
  if divisor = 0 then
    some dividend
  else
    match ofInt? (divisor.toInt * (dividend / divisor).toInt) with
    | none => some (dividend / divisor)
    | some product =>
        if dividend ≠ product ∧ decide (0 ≤ dividend) ≠ decide (0 ≤ divisor) then
          ofInt? ((dividend / divisor).toInt - 1)
        else
          some (dividend / divisor)

/-- The remainder with the sign of the divisor, if the step that corrects it stays in range. -/
def floorModulo? (dividend divisor : Score) : Option Score :=
  if divisor = 0 then
    some dividend
  else if dividend % divisor ≠ 0 ∧
      (decide (dividend % divisor < 0) ≠ decide (divisor < 0)) then
    ofInt? ((dividend % divisor).toInt + divisor.toInt)
  else
    some (dividend % divisor)

theorem floor_div_eq_fdiv (dividend divisor : Int) :
    ⌊(dividend : ℚ) / divisor⌋ = dividend.fdiv divisor := by
  obtain ⟨size, rfl | rfl⟩ := divisor.eq_nat_or_neg
  · rw [Int.cast_natCast, Rat.floor_intCast_div_natCast,
      Int.fdiv_eq_ediv_of_nonneg _ (Int.natCast_nonneg size)]
  · -- the dividend takes the sign over
    rw [Int.cast_neg, Int.cast_natCast, div_neg, ← neg_div, ← Int.cast_neg,
      Rat.floor_intCast_div_natCast, ← Int.fdiv_eq_ediv_of_nonneg _ (Int.natCast_nonneg size),
      ← Int.neg_fdiv_neg, Int.neg_neg]

theorem zero_le_iff {score : Score} : 0 ≤ score ↔ ¬ score.toInt < 0 := by
  rw [Int32.le_iff_toInt_le, Int32.toInt_zero, Int.not_lt]

/-- A quotient rounded toward zero times its divisor lies between zero and the dividend. -/
theorem inRange_mul_tdiv (dividend : Score) (divisor : Int) :
    InRange (divisor * dividend.toInt.tdiv divisor) := by
  have size := Int.natAbs_tmod dividend.toInt divisor
  have smaller := Nat.mod_le dividend.toInt.natAbs divisor.natAbs
  obtain ⟨positive, negative⟩ :
      (0 < dividend.toInt.tmod divisor → 0 < dividend.toInt) ∧
        (dividend.toInt.tmod divisor < 0 → dividend.toInt < 0) := tmod_sign divisor
  have sum := Int.mul_tdiv_add_tmod dividend.toInt divisor
  obtain ⟨low, high⟩ := toInt_inRange dividend
  have spans : least ≤ 0 ∧ 0 ≤ greatest := by decide
  constructor <;> omega

/-- Multiplying the quotient back tells whether it is exact, and correcting it stays in
range. -/
theorem floorDivide?_eq_some (dividend divisor : Score) :
    floorDivide? dividend divisor = some (dividend.floorDivide divisor) := by
  by_cases zero : divisor = 0
  · simp [floorDivide?, floorDivide, zero]
  by_cases wraps : dividend.toInt = least ∧ divisor.toInt = -1
  · -- the one product that is no score
    obtain rfl : dividend = Int32.minValue := Int32.toInt_inj.mp wraps.1
    obtain rfl : divisor = -1 := Int32.toInt_inj.mp wraps.2
    decide
  have quotient := div_toInt_of_fits wraps
  have productEq := toInt_ofInt (inRange_mul_tdiv dividend divisor.toInt)
  have found : ofInt? (divisor.toInt * dividend.toInt.tdiv divisor.toInt) =
      some (Int32.ofInt (divisor.toInt * dividend.toInt.tdiv divisor.toInt)) :=
    if_pos (inRange_mul_tdiv dividend divisor.toInt)
  have inexact : dividend ≠ Int32.ofInt (divisor.toInt * dividend.toInt.tdiv divisor.toInt) ↔
      ¬ divisor.toInt ∣ dividend.toInt := by
    rw [ne_eq, ← Int32.toInt_inj, productEq, Int.dvd_iff_tmod_eq_zero, Int.tmod_def]
    omega
  rw [floorDivide?, if_neg zero, quotient, found, floorDivide_eq_ite zero]
  simp only [inexact, ne_eq, decide_eq_decide, zero_le_iff, not_iff_not]
  split
  · rename_i corrected
    rw [← quotient, ← div_sub_one_toInt zero corrected.1, ofInt?_toInt]
  · rfl

/-- A remainder that is corrected moves toward the divisor from the other side of zero. -/
theorem floorModulo?_eq_some (dividend divisor : Score) :
    floorModulo? dividend divisor = some (dividend.floorModulo divisor) := by
  by_cases zero : divisor = 0
  · simp [floorModulo?, floorModulo, zero]
  rw [floorModulo?, if_neg zero, floorModulo, if_neg zero]
  split
  · rename_i corrected
    have opposed := corrected.2
    rw [ne_eq, decide_eq_decide, lt_zero_iff, lt_zero_iff] at opposed
    rw [← add_toInt_of_opposed opposed, ofInt?_toInt]
  · rfl

/-- What a quotient that is rounded down leaves over lies between zero and the divisor. -/
theorem fmod_toward_divisor (dividend : Int) {divisor : Int} (nonzero : divisor ≠ 0) :
    (dividend.fmod divisor = 0 ∨ (dividend.fmod divisor).sign = divisor.sign) ∧
      (dividend.fmod divisor).natAbs < divisor.natAbs := by
  rcases Int.lt_or_gt_of_ne nonzero with negative | positive
  · have mirrored := Int.neg_pos_of_neg negative
    have above := Int.fmod_nonneg_of_pos (-dividend) mirrored
    have below := Int.fmod_lt_of_pos (-dividend) mirrored
    rw [Int.neg_fmod_neg] at above below
    refine ⟨(Int.lt_or_eq_of_le (by omega)).symm.imp_right fun remainder => ?_, by omega⟩
    rw [Int.sign_eq_neg_one_of_neg remainder, Int.sign_eq_neg_one_of_neg negative]
  · have above := Int.fmod_nonneg_of_pos dividend positive
    have below := Int.fmod_lt_of_pos dividend positive
    refine ⟨(Int.lt_or_eq_of_le above).symm.imp Eq.symm fun remainder => ?_, by omega⟩
    rw [Int.sign_eq_one_of_pos remainder, Int.sign_eq_one_of_pos positive]

end Score

namespace ScoreOperation

/-- Quotients are floors and remainders are what they leave over, and none of the steps that
correct them wraps around. -/
theorem divisions_round_down (dividend divisor : Score) :
    let quotient := divide.evaluate dividend divisor
    let remainder := modulo.evaluate dividend divisor
    let floor := ⌊(dividend.toInt : ℚ) / divisor.toInt⌋
    (divisor ≠ 0 →
      quotient.toInt = floor.bmod (2 ^ 32) ∧
      remainder.toInt = dividend.toInt - divisor.toInt * floor ∧
      (remainder.toInt = 0 ∨ remainder.toInt.sign = divisor.toInt.sign) ∧
      remainder.toInt.natAbs < divisor.toInt.natAbs) ∧
    (divisor = 0 → quotient = dividend ∧ remainder = dividend) ∧
    Score.floorDivide? dividend divisor = some quotient ∧
    Score.floorModulo? dividend divisor = some remainder := by
  intro quotient remainder floor
  refine ⟨fun nonzero => ?_, ?_, Score.floorDivide?_eq_some _ _, Score.floorModulo?_eq_some _ _⟩
  · have floorEq : floor = dividend.toInt.fdiv divisor.toInt := Score.floor_div_eq_fdiv _ _
    have quotientEq : quotient.toInt = (dividend.toInt.fdiv divisor.toInt).bmod (2 ^ 32) :=
      Score.floorDivide_eq_fdiv nonzero
    have remainderEq : remainder.toInt = dividend.toInt.fmod divisor.toInt :=
      Score.floorModulo_eq_fmod dividend divisor
    rw [floorEq, quotientEq, remainderEq]
    exact ⟨rfl, Int.fmod_def _ _, Score.fmod_toward_divisor _ (Score.toInt_ne_zero nonzero)⟩
  · rintro rfl
    simp [quotient, remainder, evaluate, Score.floorDivide, Score.floorModulo]

/-- The least score divided by minus one wraps around, and divided by three it is rounded down
to leave one over. -/
theorem divisions_of_least_score :
    let exact (divisor : Score) : ℚ := (Int32.minValue.toInt : ℚ) / divisor.toInt
    ((-1 : Score) ≠ 0 ∧ (divide.evaluate Int32.minValue (-1)).toInt = -2 ^ 31 ∧
        ⌊exact (-1)⌋.bmod (2 ^ 32) = -2 ^ 31) ∧
      (3 : Score) ≠ 0 ∧ (divide.evaluate Int32.minValue 3).toInt = -715827883 ∧
        ⌊exact 3⌋.bmod (2 ^ 32) = -715827883 ∧
        Int32.minValue.toInt - (3 : Score).toInt * ⌊exact 3⌋ = 1 := by
  intro exact
  obtain ⟨byMinusOne, _⟩ := divisions_round_down Int32.minValue (-1)
  obtain ⟨byThree, _⟩ := divisions_round_down Int32.minValue 3
  obtain ⟨wrapped, _⟩ := byMinusOne (by decide)
  obtain ⟨rounded, left, _⟩ := byThree (by decide)
  exact ⟨⟨by decide, by decide, wrapped.symm⟩, by decide, by decide, rounded.symm, left.symm⟩

end ScoreOperation
end ScoreLowering
