import Mathlib.Algebra.Group.Int.Defs
import Mathlib.Algebra.Group.Nat.Defs
import Mathlib.Data.Int.Basic
import ScoreLowering.Score.Operation
import ScoreLowering.Value.Ty

/-!
# Scores as numbers

What the operations of the board come to for numbers in range: quotients and
remainders are those of whole numbers, and a result that is in range has been
computed exactly even if numbers on the way were not.
-/

namespace ScoreLowering
namespace Score

/-- Numbers in the range of a score do not wrap around. -/
theorem bmod_of_inRange {number : Int} (low : -2 ^ 31 ≤ number) (high : number < 2 ^ 31) :
    number.bmod (2 ^ 32) = number := by
  apply Int.bmod_eq_of_le_mul_two
  · omega
  · omega

theorem lt_zero_iff {score : Score} : score < 0 ↔ score.toInt < 0 := by
  rw [Int32.lt_iff_toInt_lt, Int32.toInt_zero]

theorem zero_lt_iff {score : Score} : 0 < score ↔ 0 < score.toInt := by
  rw [Int32.lt_iff_toInt_lt, Int32.toInt_zero]

theorem le_neg_one_iff {score : Score} : score ≤ -1 ↔ score.toInt < 0 := by
  have negOne : (-1 : Score).toInt = -1 := by decide
  rw [Int32.le_iff_toInt_le, negOne]
  omega

theorem one_le_iff {score : Score} : 1 ≤ score ↔ 0 < score.toInt := by
  rw [Int32.le_iff_toInt_le, Int32.toInt_one]
  omega

theorem ne_zero_of_pos {score : Score} (positive : 0 < score.toInt) : score ≠ 0 := by
  rintro rfl
  exact absurd positive (by decide)

theorem toInt_ne_zero {score : Score} (nonzero : score ≠ 0) : score.toInt ≠ 0 :=
  fun isZero => nonzero (Int32.toInt_inj.mp isZero)

theorem natAbs_toInt_le (score : Score) : score.toInt.natAbs ≤ 2 ^ 31 := by
  have low := score.le_toInt
  have high := score.toInt_lt
  omega

theorem tdiv_sign {dividend divisor : Int} (positive : 0 < divisor) :
    (0 < dividend.tdiv divisor → 0 < dividend) ∧
      (dividend.tdiv divisor < 0 → dividend < 0) := by
  constructor
  · intro quotientPositive
    by_contra notPositive
    have mirrored : 0 ≤ (-dividend).tdiv divisor :=
      Int.tdiv_nonneg (by omega) (Int.le_of_lt positive)
    rw [Int.neg_tdiv] at mirrored
    omega
  · intro quotientNegative
    by_contra notNegative
    have nonnegative : 0 ≤ dividend.tdiv divisor :=
      Int.tdiv_nonneg (by omega) (Int.le_of_lt positive)
    omega

theorem tmod_sign {dividend : Int} (divisor : Int) :
    (0 < dividend.tmod divisor → 0 < dividend) ∧
      (dividend.tmod divisor < 0 → dividend < 0) := by
  constructor
  · intro remainderPositive
    by_contra notPositive
    have mirrored : 0 ≤ (-dividend).tmod divisor := Int.tmod_nonneg divisor (by omega)
    rw [Int.neg_tmod] at mirrored
    omega
  · intro remainderNegative
    by_contra notNegative
    have nonnegative : 0 ≤ dividend.tmod divisor := Int.tmod_nonneg divisor (by omega)
    omega

theorem mul_sign {number factor : Int} (positive : 0 < factor) :
    (0 < number * factor → 0 < number) ∧ (number * factor < 0 → number < 0) := by
  refine ⟨fun product => Int.pos_of_mul_pos_left product positive, ?_⟩
  intro product
  by_contra notNegative
  have nonnegative : 0 ≤ number * factor :=
    Int.mul_nonneg (by omega) (Int.le_of_lt positive)
  omega

theorem natAbs_mul_pow_lt {number : Int} {fewer more : Nat}
    (small : number.natAbs < 10 ^ fewer) (ordered : fewer ≤ more) :
    (number * 10 ^ (more - fewer)).natAbs < 10 ^ more := by
  calc
    (number * 10 ^ (more - fewer)).natAbs = number.natAbs * 10 ^ (more - fewer) := by
      rw [Int.natAbs_mul, Int.natAbs_pow]
      rfl
    _ < 10 ^ fewer * 10 ^ (more - fewer) :=
      Nat.mul_lt_mul_of_pos_right small (Nat.pow_pos (by decide))
    _ = 10 ^ more := by rw [← Nat.pow_add, Nat.add_sub_cancel' ordered]

theorem natAbs_tdiv_pow_lt {number : Int} {fewer more : Nat}
    (small : number.natAbs < 10 ^ more) (ordered : fewer ≤ more) :
    (number.tdiv (10 ^ (more - fewer))).natAbs < 10 ^ fewer := by
  rw [Int.natAbs_tdiv, Int.natAbs_pow]
  apply Nat.div_lt_of_lt_mul
  calc
    number.natAbs < 10 ^ more := small
    _ = 10 ^ (more - fewer) * 10 ^ fewer := by
      rw [← Nat.pow_add, Nat.sub_add_cancel ordered]

theorem natAbs_tmod_pow_lt (number : Int) (digits : Nat) :
    (number.tmod (10 ^ digits)).natAbs < 10 ^ digits := by
  rw [Int.natAbs_tmod, Int.natAbs_pow]
  exact Nat.mod_lt _ (Nat.pow_pos (by decide))

theorem pow_ten_pos (exponent : Nat) : (0 : Int) < 10 ^ exponent :=
  Int.pow_pos (by decide)

theorem ediv_inRange (dividend : Score) {divisor : Int} (positive : 0 < divisor) :
    -2 ^ 31 ≤ dividend.toInt / divisor ∧ dividend.toInt / divisor < 2 ^ 31 := by
  have low := dividend.le_toInt
  have high := dividend.toInt_lt
  constructor
  · apply Int.le_ediv_of_mul_le positive
    omega
  · apply Int.ediv_lt_of_lt_mul positive
    omega

theorem mod_eq_zero_iff {dividend divisor : Score} :
    dividend % divisor = 0 ↔ divisor.toInt ∣ dividend.toInt := by
  rw [← Int32.toInt_inj, Int32.toInt_mod, Int32.toInt_zero, Int.dvd_iff_tmod_eq_zero]

/-- The quotient rounded down, from the one rounded toward zero. -/
theorem fdiv_eq_ite {dividend divisor : Int} (nonzero : divisor ≠ 0) :
    dividend.fdiv divisor =
      if ¬ divisor ∣ dividend ∧ ¬ (dividend < 0 ↔ divisor < 0) then
        dividend.tdiv divisor - 1
      else
        dividend.tdiv divisor := by
  rw [Int.fdiv_eq_ediv, Int.tdiv_eq_ediv]
  rcases Int.lt_or_gt_of_ne nonzero with negative | positive
  · rw [Int.sign_eq_neg_one_of_neg negative]
    split <;> split <;> split <;> omega
  · rw [Int.sign_eq_one_of_pos positive]
    split <;> split <;> split <;> omega

/-- Where the board corrects the quotient of the processor. -/
theorem floorDivide_eq_ite {dividend divisor : Score} (nonzero : divisor ≠ 0) :
    dividend.floorDivide divisor =
      if ¬ divisor.toInt ∣ dividend.toInt ∧ ¬ (dividend.toInt < 0 ↔ divisor.toInt < 0) then
        dividend / divisor - 1
      else
        dividend / divisor := by
  simp [floorDivide, nonzero, mod_eq_zero_iff, lt_zero_iff]

/-- The board's quotients are those of whole numbers, wrapped around, for every divisor but
zero. -/
theorem floorDivide_eq_fdiv {dividend divisor : Score} (nonzero : divisor ≠ 0) :
    (dividend.floorDivide divisor).toInt =
      (dividend.toInt.fdiv divisor.toInt).bmod (2 ^ 32) := by
  rw [floorDivide_eq_ite nonzero, fdiv_eq_ite (toInt_ne_zero nonzero)]
  split
  · rw [Int32.toInt_sub, Int32.toInt_div, Int32.toInt_one, Int.bmod_sub_bmod]
  · exact Int32.toInt_div dividend divisor

theorem floorDivide_toInt {dividend divisor : Score} (positive : 0 < divisor.toInt) :
    (dividend.floorDivide divisor).toInt = dividend.toInt / divisor.toInt := by
  obtain ⟨low, high⟩ := ediv_inRange dividend positive
  rw [floorDivide_eq_fdiv (ne_zero_of_pos positive),
    Int.fdiv_eq_ediv_of_nonneg _ (Int.le_of_lt positive), bmod_of_inRange low high]

/-- The remainder with the sign of the divisor, from the one with the sign of the dividend. -/
theorem fmod_eq_ite {dividend divisor : Int} (nonzero : divisor ≠ 0) :
    dividend.fmod divisor =
      if dividend.tmod divisor ≠ 0 ∧ ¬ (dividend.tmod divisor < 0 ↔ divisor < 0) then
        dividend.tmod divisor + divisor
      else
        dividend.tmod divisor := by
  have low := Int.emod_nonneg dividend nonzero
  have high := Int.emod_lt dividend nonzero
  rw [Int.fmod_eq_emod, Int.tmod_eq_emod]
  simp only [Int.dvd_iff_emod_eq_zero]
  split <;> split <;> split <;> omega

/-- Numbers that disagree in sign have a sum between them. -/
theorem add_toInt_of_opposed {first second : Score}
    (opposed : ¬ (first.toInt < 0 ↔ second.toInt < 0)) :
    (first + second).toInt = first.toInt + second.toInt := by
  have firstLow := first.le_toInt
  have firstHigh := first.toInt_lt
  have secondLow := second.le_toInt
  have secondHigh := second.toInt_lt
  rw [Int32.toInt_add, bmod_of_inRange (by omega) (by omega)]

/-- The board's remainders are those of whole numbers, for every divisor. -/
theorem floorModulo_eq_fmod (dividend divisor : Score) :
    (dividend.floorModulo divisor).toInt = dividend.toInt.fmod divisor.toInt := by
  by_cases zero : divisor = 0
  · simp [floorModulo, zero]
  have remainder := Int32.toInt_mod dividend divisor
  have corrects : (dividend % divisor ≠ 0 ∧
      decide (dividend % divisor < 0) ≠ decide (divisor < 0)) ↔
        dividend.toInt.tmod divisor.toInt ≠ 0 ∧
          ¬ (dividend.toInt.tmod divisor.toInt < 0 ↔ divisor.toInt < 0) := by
    rw [ne_eq, ne_eq, decide_eq_decide, lt_zero_iff, lt_zero_iff, mod_eq_zero_iff,
      Int.dvd_iff_tmod_eq_zero, remainder]
  rw [floorModulo, if_neg zero, fmod_eq_ite (toInt_ne_zero zero)]
  simp only [corrects]
  split
  · rename_i opposed
    rw [← remainder] at opposed ⊢
    exact add_toInt_of_opposed opposed.2
  · exact remainder

theorem floorModulo_toInt {dividend divisor : Score} (positive : 0 < divisor.toInt) :
    (dividend.floorModulo divisor).toInt = dividend.toInt % divisor.toInt := by
  rw [floorModulo_eq_fmod, Int.fmod_eq_emod_of_nonneg _ (Int.le_of_lt positive)]

theorem floorModulo_eq_zero_iff {dividend divisor : Score} :
    dividend.floorModulo divisor = 0 ↔ divisor.toInt ∣ dividend.toInt := by
  rw [← Int32.toInt_inj, floorModulo_eq_fmod, Int32.toInt_zero, Int.dvd_iff_fmod_eq_zero]

/-- The quotient rounded toward zero, made from the one rounded down. -/
def truncated (dividend divisor : Score) : Score :=
  let quotient := dividend.floorDivide divisor
  if quotient ≤ -1 ∧ dividend.floorModulo divisor ≠ 0 ∧ divisor ≠ 0 then
    quotient + 1
  else
    quotient

theorem truncated_zero (dividend : Score) : truncated dividend 0 = dividend := by
  simp [truncated, floorDivide]

theorem tdiv_nonpos_of_opposed {dividend divisor : Int} (opposed : ¬ (dividend < 0 ↔ divisor < 0)) :
    dividend.tdiv divisor ≤ 0 := by
  by_cases negative : dividend < 0
  · have mirrored : 0 ≤ (-dividend).tdiv divisor := Int.tdiv_nonneg (by omega) (by omega)
    rw [Int.neg_tdiv] at mirrored
    omega
  · exact Int.tdiv_nonpos_of_nonneg_of_nonpos (by omega) (by omega)

theorem tdiv_nonneg_of_agree {dividend divisor : Int} (agree : dividend < 0 ↔ divisor < 0) :
    0 ≤ dividend.tdiv divisor := by
  by_cases negative : dividend < 0
  · exact Int.tdiv_nonneg_of_nonpos_of_nonpos (by omega) (by omega)
  · exact Int.tdiv_nonneg (by omega) (by omega)

theorem div_toInt_of_fits {dividend divisor : Score}
    (fits : ¬ (dividend.toInt = least ∧ divisor.toInt = -1)) :
    (dividend / divisor).toInt = dividend.toInt.tdiv divisor.toInt := by
  by_cases lowest : dividend.toInt = least
  · apply Int32.toInt_div_of_ne_right
    rintro rfl
    exact fits ⟨lowest, rfl⟩
  · apply Int32.toInt_div_of_ne_left
    rintro rfl
    exact lowest rfl

/-- Only a division by minus one can wrap around, and that one is exact. -/
theorem div_toInt_of_not_dvd {dividend divisor : Score}
    (inexact : ¬ divisor.toInt ∣ dividend.toInt) :
    (dividend / divisor).toInt = dividend.toInt.tdiv divisor.toInt := by
  apply div_toInt_of_fits
  rintro ⟨_, minusOne⟩
  rw [minusOne] at inexact
  exact inexact (Int.neg_dvd.mpr (Int.one_dvd _))

theorem natAbs_div_lt_of_not_dvd {dividend divisor : Score} (nonzero : divisor ≠ 0)
    (inexact : ¬ divisor.toInt ∣ dividend.toInt) :
    (dividend / divisor).toInt.natAbs < 2 ^ 31 := by
  have notOne : divisor.toInt.natAbs ≠ 1 := by
    intro isOne
    exact inexact (Int.natAbs_dvd_natAbs.mp (isOne ▸ Nat.one_dvd _))
  have notZero := Int.natAbs_ne_zero.mpr (toInt_ne_zero nonzero)
  rw [div_toInt_of_not_dvd inexact, Int.natAbs_tdiv]
  calc
    dividend.toInt.natAbs / divisor.toInt.natAbs ≤ 2 ^ 31 / 2 :=
      Nat.div_le_div (natAbs_toInt_le dividend) (by omega) (by decide)
    _ < 2 ^ 31 := by decide

/-- The step that rounds a quotient down stays in range. -/
theorem div_sub_one_toInt {dividend divisor : Score} (nonzero : divisor ≠ 0)
    (inexact : ¬ divisor.toInt ∣ dividend.toInt) :
    (dividend / divisor - 1).toInt = (dividend / divisor).toInt - 1 := by
  have bound := natAbs_div_lt_of_not_dvd nonzero inexact
  rw [Int32.toInt_sub, Int32.toInt_one, bmod_of_inRange (by omega) (by omega)]

/-- Correcting the quotient that is rounded down gives the one that the processor rounds toward
zero, for every divisor but zero. -/
theorem truncated_eq_div {dividend divisor : Score} (nonzero : divisor ≠ 0) :
    truncated dividend divisor = dividend / divisor := by
  by_cases exact : divisor.toInt ∣ dividend.toInt
  · simp [truncated, floorDivide_eq_ite nonzero, floorModulo_eq_zero_iff.mpr exact, exact]
  · have quotient := div_toInt_of_not_dvd exact
    have remainder : dividend.floorModulo divisor ≠ 0 := floorModulo_eq_zero_iff.not.mpr exact
    have floored : dividend.floorDivide divisor =
        if ¬ (dividend.toInt < 0 ↔ divisor.toInt < 0) then dividend / divisor - 1
        else dividend / divisor := by
      simp [floorDivide_eq_ite nonzero, exact]
    simp only [truncated, floored, remainder, nonzero, ne_eq, not_false_iff, and_true,
      le_neg_one_iff]
    by_cases agree : dividend.toInt < 0 ↔ divisor.toInt < 0
    · have above := tdiv_nonneg_of_agree agree
      rw [if_neg (not_not.mpr agree), if_neg (by omega)]
    · have below := tdiv_nonpos_of_opposed agree
      have floor := div_sub_one_toInt nonzero exact
      rw [if_pos agree, if_pos (by omega), Int32.sub_add_cancel]

theorem truncated_toInt_of_fits {dividend divisor : Score} (nonzero : divisor ≠ 0)
    (fits : ¬ (dividend.toInt = least ∧ divisor.toInt = -1)) :
    (truncated dividend divisor).toInt = dividend.toInt.tdiv divisor.toInt := by
  rw [truncated_eq_div nonzero]
  exact div_toInt_of_fits fits

theorem truncated_toInt {dividend divisor : Score} (positive : 0 < divisor.toInt) :
    (truncated dividend divisor).toInt = dividend.toInt.tdiv divisor.toInt :=
  truncated_toInt_of_fits (ne_zero_of_pos positive) (by omega)

/-- Carrying takes the fraction to its remainder, although the product that is
subtracted may wrap around. -/
theorem sub_floorDivide_mul_toInt {dividend divisor : Score} (positive : 0 < divisor.toInt) :
    (dividend - dividend.floorDivide divisor * divisor).toInt =
      dividend.toInt % divisor.toInt := by
  have low := Int.emod_nonneg dividend.toInt (by omega : divisor.toInt ≠ 0)
  have high := Int.emod_lt_of_pos dividend.toInt positive
  have bound := divisor.toInt_lt
  rw [Int32.toInt_sub, Int32.toInt_mul, floorDivide_toInt positive, Int.sub_bmod_bmod,
    Int.mul_comm, ← Int.emod_def, bmod_of_inRange (by omega) (by omega)]

theorem toInt_of_ofInt? {number : Int} {score : Score} (found : ofInt? number = some score) :
    score.toInt = number := by
  unfold ofInt? at found
  split at found
  · rename_i inRange
    cases found
    exact Int32.toInt_ofInt_of_le inRange.1 (Int.lt_add_one_of_le inRange.2)
  · cases found

theorem outside_of_ofInt? {number : Int} (notFound : ofInt? number = none) :
    number < least ∨ greatest < number := by
  unfold ofInt? at notFound
  split at notFound
  · cases notFound
  · omega

/-- The number is that of a score. -/
def InRange (number : Int) : Prop :=
  least ≤ number ∧ number ≤ greatest

instance (number : Int) : Decidable (InRange number) :=
  inferInstanceAs (Decidable (_ ∧ _))

theorem toInt_ofInt {number : Int} (inRange : InRange number) :
    (Int32.ofInt number).toInt = number :=
  Int32.toInt_ofInt_of_le inRange.1 (Int.lt_add_one_of_le inRange.2)

theorem isSome_ofInt?_iff {number : Int} : (ofInt? number).isSome ↔ InRange number := by
  unfold ofInt? InRange
  split <;> simp_all

theorem toInt_inRange (score : Score) : least ≤ score.toInt ∧ score.toInt ≤ greatest :=
  ⟨score.le_toInt, Int.le_of_lt_add_one score.toInt_lt⟩

/-- The unit of a precision. -/
theorem scale_toInt {precision : Nat} {unit : Score} (scaled : Ty.scale precision = .ok unit) :
    precision ≤ Ty.maxPrecision ∧ unit.toInt = 10 ^ precision := by
  unfold Ty.scale at scaled
  split at scaled
  · rename_i small
    cases scaled
    refine ⟨small, ?_⟩
    have bound : Nat.pow 10 precision < 2 ^ 31 :=
      Nat.lt_of_le_of_lt (Nat.pow_le_pow_right (by decide) small) (by decide)
    rw [Int32.toInt_ofNat_of_lt bound]
    exact Int.natCast_pow 10 precision
  · cases scaled

theorem exists_scale {precision : Nat} (small : precision ≤ Ty.maxPrecision) :
    ∃ unit, Ty.scale precision = .ok unit :=
  ⟨_, if_pos small⟩

theorem unit_pos {precision : Nat} {unit : Score} (unitEq : unit.toInt = 10 ^ precision) :
    0 < unit.toInt := by
  rw [unitEq]
  exact pow_ten_pos precision

end Score
end ScoreLowering
