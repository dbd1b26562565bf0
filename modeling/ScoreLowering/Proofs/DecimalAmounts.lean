import Mathlib.Algebra.Order.Ring.Int
import Mathlib.Tactic.LinearCombination
import Mathlib.Tactic.Positivity
import Mathlib.Tactic.Ring
import ScoreLowering.Proofs.SettledDecimals

/-!
# What decimals amount to

Both parts of a decimal together stand for one number, counted in units of its last digit.
Carrying and borrowing keep it, and rescaling a fraction rescales it, cutting off toward zero.
The two parts of a settled decimal have no opposite signs, which is why cutting off digits of
the fraction cuts them off the number.

A product is put together from partial products.  Those that go to the whole part may wrap
around on the way: as long as the result fits, it is the exact one.
-/

namespace ScoreLowering
namespace Score

/-- The number that the parts of a decimal stand for, in units of the last digit. -/
def amount (precision : Nat) (whole fraction : Score) : Int :=
  whole.toInt * 10 ^ precision + fraction.toInt

/-- An amount at one precision brought to another one, without the digits that there is no
room for. -/
def rescaleAmount (precision otherPrecision : Nat) (amount : Int) : Int :=
  (amount * 10 ^ precision).tdiv (10 ^ otherPrecision)

/-- A decimal of this amount has a whole part that is a score. -/
def Fits (precision : Nat) (amount : Int) : Prop :=
  least ≤ amount / 10 ^ precision ∧ amount / 10 ^ precision ≤ greatest

instance (precision : Nat) (amount : Int) : Decidable (Fits precision amount) :=
  inferInstanceAs (Decidable (_ ∧ _))

theorem add_mul_tdiv {whole part unit : Int} (agree : 0 ≤ whole * part) (positive : 0 < unit) :
    (whole * unit + part).tdiv unit = whole + part.tdiv unit := by
  have nonnegative {whole part : Int} (wholeLow : 0 ≤ whole) (partLow : 0 ≤ part) :
      (whole * unit + part).tdiv unit = whole + part.tdiv unit := by
    have sumLow : 0 ≤ whole * unit + part := by positivity
    rw [Int.tdiv_eq_ediv_of_nonneg sumLow, Int.tdiv_eq_ediv_of_nonneg partLow, Int.add_comm,
      Int.add_mul_ediv_right _ _ (Int.ne_of_gt positive), Int.add_comm]
  rcases Int.lt_trichotomy part 0 with negative | zero | above
  · -- both are negated
    have wholeHigh : whole ≤ 0 := by
      by_contra wholeAbove
      have opposed : whole * part < 0 := mul_neg_of_pos_of_neg (by omega) negative
      omega
    have mirrored := nonnegative (neg_nonneg.mpr wholeHigh) (neg_nonneg.mpr negative.le)
    have negated : -whole * unit + -part = -(whole * unit + part) := by ring
    rw [negated, Int.neg_tdiv, Int.neg_tdiv] at mirrored
    omega
  · rw [zero, Int.add_zero, Int.mul_tdiv_cancel _ (Int.ne_of_gt positive), Int.zero_tdiv,
      Int.add_zero]
  · exact nonnegative (nonneg_of_mul_nonneg_left agree above) above.le

theorem Settled.agree {precision : Nat} {whole fraction : Score}
    (settled : Settled precision whole fraction) : 0 ≤ whole.toInt * fraction.toInt := by
  by_contra opposed
  rcases mul_neg_iff.mp (not_le.mp opposed) with ⟨above, below⟩ | ⟨below, above⟩
  · exact settled.notBelow ⟨above, below⟩
  · exact settled.notAbove ⟨below, above⟩

variable {precision otherPrecision : Nat} {unit whole fraction : Score}

theorem scaled_eq_ofInt (unitEq : unit.toInt = 10 ^ precision) (score : Score) :
    score * unit = Int32.ofInt (score.toInt * 10 ^ precision) := by
  rw [Int32.ofInt_mul, ← unitEq, Int32.ofInt_toInt, Int32.ofInt_toInt]

/-- The parts of a decimal are joined in one register up to wrapping around. -/
theorem join_eq_ofInt (unitEq : unit.toInt = 10 ^ precision) (whole fraction : Score) :
    whole * unit + fraction = Int32.ofInt (amount precision whole fraction) := by
  rw [scaled_eq_ofInt unitEq, amount, Int32.ofInt_add, Int32.ofInt_toInt]

theorem rescaleAmount_of_le (wider : otherPrecision ≤ precision) (number : Int) :
    rescaleAmount precision otherPrecision number =
      number * 10 ^ (precision - otherPrecision) := by
  have digits : (10 : Int) ^ precision =
      10 ^ (precision - otherPrecision) * 10 ^ otherPrecision := by
    rw [← pow_add, Nat.sub_add_cancel wider]
  rw [rescaleAmount, digits, ← Int.mul_assoc,
    Int.mul_tdiv_cancel _ (Int.ne_of_gt (pow_ten_pos otherPrecision))]

theorem rescaleAmount_of_ge (narrower : precision ≤ otherPrecision) (number : Int) :
    rescaleAmount precision otherPrecision number =
      number.tdiv (10 ^ (otherPrecision - precision)) := by
  have digits : (10 : Int) ^ otherPrecision =
      10 ^ (otherPrecision - precision) * 10 ^ precision := by
    rw [← pow_add, Nat.sub_add_cancel narrower]
  rw [rescaleAmount, digits, Int.mul_tdiv_mul_of_pos_left _ _ (pow_ten_pos precision)]

/-- Rescaling leaves a whole part alone that does not disagree in sign with the rest. -/
theorem rescaleAmount_add {whole part : Int} (agree : 0 ≤ whole * part)
    (precision otherPrecision : Nat) :
    rescaleAmount precision otherPrecision (whole * 10 ^ otherPrecision + part) =
      whole * 10 ^ precision + rescaleAmount precision otherPrecision part := by
  have agreeScaled : 0 ≤ whole * 10 ^ precision * (part * 10 ^ precision) := by
    have regrouped : whole * 10 ^ precision * (part * 10 ^ precision) =
        whole * part * (10 ^ precision * 10 ^ precision) := by ring
    rw [regrouped]
    positivity
  have regrouped : (whole * 10 ^ otherPrecision + part) * 10 ^ precision =
      whole * 10 ^ precision * 10 ^ otherPrecision + part * 10 ^ precision := by ring
  rw [rescaleAmount, regrouped, add_mul_tdiv agreeScaled (pow_ten_pos otherPrecision),
    rescaleAmount]

theorem rescaleAmount_self (precision : Nat) (number : Int) :
    rescaleAmount precision precision number = number :=
  Int.mul_tdiv_cancel number (Int.ne_of_gt (pow_ten_pos precision))

/-- A borrow call moves one unit between the parts. -/
theorem borrowed_amount (unitEq : unit.toInt = 10 ^ precision) (whole fraction : Score) :
    amount precision (borrowed unit whole fraction).1 (borrowed unit whole fraction).2 =
      amount precision whole fraction := by
  have unitPositive := unit_pos unitEq
  simp only [borrowed, le_neg_one_iff, one_le_iff]
  split
  · rename_i disagree
    have wholeLow := whole.le_toInt
    have fractionHigh := fraction.toInt_lt
    have unitHigh := unit.toInt_lt
    have wholeEq : (whole + 1).toInt = whole.toInt + 1 := by
      rw [Int32.toInt_add, Int32.toInt_one, bmod_of_inRange (by omega) (by omega)]
    have fractionEq : (fraction - unit).toInt = fraction.toInt - 10 ^ precision := by
      rw [Int32.toInt_sub, bmod_of_inRange (by omega) (by omega), unitEq]
    rw [amount, amount, wholeEq, fractionEq]
    ring
  · rfl

/-- Carrying makes the exact decimal of a whole part that wrapped around, as long as there
is room for it. -/
theorem carried_amount (unitEq : unit.toInt = 10 ^ precision) {exact : Int}
    (wraps : whole = Int32.ofInt exact)
    (fits : Fits precision (exact * 10 ^ precision + fraction.toInt)) :
    amount precision (carried unit whole fraction).1 (carried unit whole fraction).2 =
      exact * 10 ^ precision + fraction.toInt := by
  have unitPositive := unit_pos unitEq
  have quotient : (fraction.floorDivide unit).toInt = fraction.toInt / 10 ^ precision := by
    rw [floorDivide_toInt unitPositive, unitEq]
  have remainder : (fraction - fraction.floorDivide unit * unit).toInt =
      fraction.toInt % 10 ^ precision := by
    rw [sub_floorDivide_mul_toInt unitPositive, unitEq]
  have floored : (exact * 10 ^ precision + fraction.toInt) / 10 ^ precision =
      exact + fraction.toInt / 10 ^ precision := by
    rw [Int.add_comm, Int.add_mul_ediv_right _ _ (Int.ne_of_gt (pow_ten_pos precision)),
      Int.add_comm]
  rw [Fits, floored] at fits
  have sum : (whole + fraction.floorDivide unit).toInt =
      exact + fraction.toInt / 10 ^ precision := by
    rw [← Int32.ofInt_toInt (fraction.floorDivide unit), quotient, wraps, ← Int32.ofInt_add]
    exact Int32.toInt_ofInt_of_le fits.1 (Int.lt_add_one_of_le fits.2)
  have split := Int.mul_ediv_add_emod fraction.toInt (10 ^ precision)
  rw [carried, borrowed_amount unitEq, amount, sum, remainder]
  linear_combination split

/-- Whatever wraps around on the way, carrying loses multiples of all that the parts can hold. -/
theorem carried_dvd (unitEq : unit.toInt = 10 ^ precision) (whole fraction : Score) :
    (10 ^ precision * 2 ^ 32 : Int) ∣
      amount precision (carried unit whole fraction).1 (carried unit whole fraction).2 -
        amount precision whole fraction := by
  have unitPositive := unit_pos unitEq
  have remainder : (fraction - fraction.floorDivide unit * unit).toInt =
      fraction.toInt % 10 ^ precision := by
    rw [sub_floorDivide_mul_toInt unitPositive, unitEq]
  obtain ⟨turns, wholeEq⟩ : (2 ^ 32 : Int) ∣ (whole + fraction.floorDivide unit).toInt -
      (whole.toInt + fraction.toInt / 10 ^ precision) := by
    rw [Int32.toInt_add, floorDivide_toInt unitPositive, unitEq]
    exact Int.dvd_bmod_sub_self
  have split := Int.mul_ediv_add_emod fraction.toInt (10 ^ precision)
  refine ⟨turns, ?_⟩
  rw [carried, borrowed_amount unitEq, amount, amount, remainder]
  linear_combination 10 ^ precision * wholeEq + split

/-! ### Products -/

/-- The fraction of a product before it is carried. -/
def productFraction (unit whole fraction otherWhole otherFraction : Score) : Score :=
  truncated (fraction * otherFraction) unit + otherWhole.floorModulo unit * fraction +
    whole.floorModulo unit * otherFraction

/-- The whole part of a product before the fraction is carried to it. -/
def productWhole (unit whole fraction otherWhole otherFraction : Score) : Score :=
  whole * otherWhole +
    (otherWhole.floorDivide unit * fraction + whole.floorDivide unit * otherFraction)

variable {otherWhole otherFraction : Score}

theorem productWhole_eq (unitEq : unit.toInt = 10 ^ precision) :
    productWhole unit whole fraction otherWhole otherFraction =
      Int32.ofInt (whole.toInt * otherWhole.toInt +
        (otherWhole.toInt / 10 ^ precision * fraction.toInt +
          whole.toInt / 10 ^ precision * otherFraction.toInt)) := by
  have unitPositive := unit_pos unitEq
  rw [← unitEq, Int32.ofInt_add, Int32.ofInt_add, Int32.ofInt_mul, Int32.ofInt_mul,
    Int32.ofInt_mul, ← floorDivide_toInt unitPositive, ← floorDivide_toInt unitPositive]
  simp only [Int32.ofInt_toInt]
  rfl

/-- Numbers of at most four digits have a product that is far from wrapping around. -/
theorem natAbs_mul_lt {first second : Int} (firstSmall : first.natAbs < 10 ^ 4)
    (secondSmall : second.natAbs < 10 ^ 4) : (first * second).natAbs < 10 ^ 8 := by
  calc
    (first * second).natAbs = first.natAbs * second.natAbs := Int.natAbs_mul first second
    _ < 10 ^ 4 * 10 ^ 4 := Nat.mul_lt_mul'' firstSmall secondSmall
    _ = 10 ^ 8 := by decide

theorem mul_toInt {first second : Score} (firstSmall : first.toInt.natAbs < 10 ^ 4)
    (secondSmall : second.toInt.natAbs < 10 ^ 4) :
    (first * second).toInt = first.toInt * second.toInt := by
  have bound := natAbs_mul_lt firstSmall secondSmall
  rw [Int32.toInt_mul, bmod_of_inRange (by omega) (by omega)]

theorem productFraction_toInt (unitEq : unit.toInt = 10 ^ precision) (small : precision ≤ 4)
    (fractionSmall : fraction.toInt.natAbs < 10 ^ precision)
    (otherSmall : otherFraction.toInt.natAbs < 10 ^ precision) :
    (productFraction unit whole fraction otherWhole otherFraction).toInt =
      (fraction.toInt * otherFraction.toInt).tdiv (10 ^ precision) +
        otherWhole.toInt % 10 ^ precision * fraction.toInt +
        whole.toInt % 10 ^ precision * otherFraction.toInt := by
  have unitPositive := unit_pos unitEq
  have digits : (10 : Nat) ^ precision ≤ 10 ^ 4 := Nat.pow_le_pow_right (by decide) small
  have fractionDigits := Nat.lt_of_lt_of_le fractionSmall digits
  have otherDigits := Nat.lt_of_lt_of_le otherSmall digits
  have remainder (score : Score) :
      (score.floorModulo unit).toInt = score.toInt % 10 ^ precision := by
    rw [floorModulo_toInt unitPositive, unitEq]
  have remainderDigits (score : Score) : (score.floorModulo unit).toInt.natAbs < 10 ^ 4 := by
    rw [remainder]
    have low := Int.emod_nonneg score.toInt (Int.ne_of_gt (pow_ten_pos precision))
    have high := Int.emod_lt_of_pos score.toInt (pow_ten_pos precision)
    have wide : (10 : Int) ^ precision ≤ 10 ^ 4 := by exact_mod_cast digits
    omega
  have quotient : (truncated (fraction * otherFraction) unit).toInt =
      (fraction.toInt * otherFraction.toInt).tdiv (10 ^ precision) := by
    rw [truncated_pow_toInt _ unitEq, mul_toInt fractionDigits otherDigits]
  have quotientBound : ((fraction.toInt * otherFraction.toInt).tdiv (10 ^ precision)).natAbs <
      10 ^ 8 := by
    rw [Int.natAbs_tdiv]
    exact Nat.lt_of_le_of_lt (Nat.div_le_self _ _) (natAbs_mul_lt fractionDigits otherDigits)
  have left := mul_toInt (remainderDigits otherWhole) fractionDigits
  have right := mul_toInt (remainderDigits whole) otherDigits
  have leftBound := natAbs_mul_lt (remainderDigits otherWhole) fractionDigits
  have rightBound := natAbs_mul_lt (remainderDigits whole) otherDigits
  rw [remainder] at left right leftBound rightBound
  -- none of the sums comes near the ends of the numbers
  have sum : (truncated (fraction * otherFraction) unit +
      otherWhole.floorModulo unit * fraction).toInt =
        (fraction.toInt * otherFraction.toInt).tdiv (10 ^ precision) +
          otherWhole.toInt % 10 ^ precision * fraction.toInt := by
    rw [Int32.toInt_add, quotient, left, bmod_of_inRange (by omega) (by omega)]
  rw [productFraction, Int32.toInt_add, sum, right, bmod_of_inRange (by omega) (by omega)]

/-- The partial products make up the product. -/
theorem product_amount {whole fraction otherWhole otherFraction unit : Int}
    (agree : 0 ≤ whole * fraction) (otherAgree : 0 ≤ otherWhole * otherFraction)
    (positive : 0 < unit) :
    ((whole * unit + fraction) * (otherWhole * unit + otherFraction)).tdiv unit =
      (whole * otherWhole + (otherWhole / unit * fraction + whole / unit * otherFraction)) * unit +
        ((fraction * otherFraction).tdiv unit + otherWhole % unit * fraction +
          whole % unit * otherFraction) := by
  have signs : 0 ≤ (whole * otherWhole * unit + whole * otherFraction + otherWhole * fraction) *
      (fraction * otherFraction) := by
    have regrouped :
        (whole * otherWhole * unit + whole * otherFraction + otherWhole * fraction) *
            (fraction * otherFraction) =
          whole * fraction * (otherWhole * otherFraction) * unit +
            whole * fraction * otherFraction ^ 2 + otherWhole * otherFraction * fraction ^ 2 := by
      ring
    rw [regrouped]
    positivity
  have expanded : (whole * unit + fraction) * (otherWhole * unit + otherFraction) =
      (whole * otherWhole * unit + whole * otherFraction + otherWhole * fraction) * unit +
        fraction * otherFraction := by ring
  have split := Int.mul_ediv_add_emod whole unit
  have otherSplit := Int.mul_ediv_add_emod otherWhole unit
  rw [expanded, add_mul_tdiv signs positive]
  linear_combination (-otherFraction) * split - fraction * otherSplit

/-- The product of two amounts, without the digits that there is no room for. -/
def multiplyAmounts (precision : Nat) (first second : Int) : Int :=
  (first * second).tdiv (10 ^ precision)

theorem carried_product (unitEq : unit.toInt = 10 ^ precision) (small : precision ≤ 4)
    (settled : Settled precision whole fraction)
    (otherSettled : Settled precision otherWhole otherFraction)
    (fits : Fits precision (multiplyAmounts precision (amount precision whole fraction)
      (amount precision otherWhole otherFraction))) :
    let result := carried unit (productWhole unit whole fraction otherWhole otherFraction)
      (productFraction unit whole fraction otherWhole otherFraction)
    amount precision result.1 result.2 = multiplyAmounts precision
      (amount precision whole fraction) (amount precision otherWhole otherFraction) := by
  have parts := product_amount settled.agree otherSettled.agree (pow_ten_pos precision)
  rw [← productFraction_toInt unitEq small settled.small otherSettled.small] at parts
  rw [multiplyAmounts, amount, amount, parts] at fits ⊢
  exact carried_amount unitEq (productWhole_eq unitEq) fits

end Score

namespace Plan

theorem rescaled_amount {precision otherPrecision : Nat} {whole fraction factor : Score}
    (small : precision ≤ Ty.maxPrecision)
    (scaled : Ty.scale (precisionGap precision otherPrecision) = .ok factor)
    (settled : Score.Settled otherPrecision whole fraction) :
    Score.amount precision whole (rescaled precision otherPrecision fraction factor) =
      Score.rescaleAmount precision otherPrecision
        (Score.amount otherPrecision whole fraction) := by
  have factorEq := (Score.scale_toInt scaled).2
  unfold precisionGap at factorEq
  rw [Score.amount, Score.amount, Score.rescaleAmount_add settled.agree, Int.add_right_inj]
  unfold rescaled
  split
  · rename_i narrower
    rw [Nat.sub_eq_zero_of_le (Nat.le_of_lt narrower), Nat.zero_add] at factorEq
    rw [Score.truncated_pow_toInt fraction factorEq,
      Score.rescaleAmount_of_ge (Nat.le_of_lt narrower)]
  · rename_i notNarrower
    have wider := Nat.le_of_not_lt notNarrower
    rw [Nat.sub_eq_zero_of_le wider, Nat.add_zero] at factorEq
    rw [Score.mul_pow_toInt settled.small small wider factorEq, Score.rescaleAmount_of_le wider]

end Plan
end ScoreLowering
