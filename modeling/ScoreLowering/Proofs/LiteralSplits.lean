import Mathlib.Data.Rat.Floor
import Mathlib.Tactic.FieldSimp
import ScoreLowering.Proofs.DecimalAmounts

/-!
# Splitting literals

A literal is split into the parts of a decimal before the program runs, with 64 bits, and every
step on the way is checked.  As long as the power of ten of the literal can be written down, only
one of the checks can fail, and that is the one that it is all about: the whole part has to be a
score.  The parts stand for the literal without the digits that there is no room for.
-/

namespace ScoreLowering

namespace Score

variable {precision otherPrecision : Nat}

theorem natAbs_rescaleAmount_lt {number : Int} (small : number.natAbs < 10 ^ otherPrecision)
    (precision : Nat) :
    (rescaleAmount precision otherPrecision number).natAbs < 10 ^ precision := by
  rw [rescaleAmount, Int.natAbs_tdiv, Int.natAbs_mul, Int.natAbs_pow, Int.natAbs_pow]
  apply Nat.div_lt_of_lt_mul
  exact Nat.mul_lt_mul_of_pos_right small (Nat.pow_pos (by decide))

theorem inRange_of_natAbs_lt {number : Int} (small : number.natAbs < 10 ^ precision)
    (bounded : precision ≤ 9) : InRange number := by
  have powerSmall : (10 : Nat) ^ precision ≤ 10 ^ 9 := Nat.pow_le_pow_right (by decide) bounded
  have leastEq : least = -2 ^ 31 := rfl
  have greatestEq : greatest = 2 ^ 31 - 1 := rfl
  constructor <;> omega

/-- Quotient and remainder of a cut-off division have no opposite signs. -/
theorem tdiv_mul_tmod_nonneg (number : Int) (digits : Nat) :
    0 ≤ number.tdiv (10 ^ digits) * number.tmod (10 ^ digits) := by
  obtain ⟨quotientPositive, quotientNegative⟩ :
      (0 < number.tdiv (10 ^ digits) → 0 < number) ∧
        (number.tdiv (10 ^ digits) < 0 → number < 0) := tdiv_sign (pow_ten_pos digits)
  obtain ⟨restPositive, restNegative⟩ :
      (0 < number.tmod (10 ^ digits) → 0 < number) ∧
        (number.tmod (10 ^ digits) < 0 → number < 0) := tmod_sign _
  rcases lt_or_ge number 0 with negative | nonnegative
  · exact mul_nonneg_of_nonpos_of_nonpos (by omega) (by omega)
  · exact mul_nonneg (by omega) (by omega)

/-- A number is rescaled by rescaling what is left of it behind the point. -/
theorem rescaleAmount_split (number : Int) (precision otherPrecision : Nat) :
    number.tdiv (10 ^ otherPrecision) * 10 ^ precision +
        rescaleAmount precision otherPrecision (number.tmod (10 ^ otherPrecision)) =
      rescaleAmount precision otherPrecision number := by
  rw [← rescaleAmount_add (tdiv_mul_tmod_nonneg number otherPrecision), Int.tdiv_mul_add_tmod]

end Score

namespace Decimal

open Score (InRange)

variable {decimal : Decimal} {places : Nat}

/-- What is no further from zero than a number of 64 bits, on the same side, has 64 bits. -/
theorem wide?_of_shrunk {number : Int} (mantissa : Int64)
    (shrunk : number.natAbs ≤ mantissa.toInt.natAbs)
    (positive : 0 < number → 0 < mantissa.toInt) : wide? number = some number := by
  have low := mantissa.le_toInt
  have high := mantissa.toInt_lt
  have least : Int64.minValue.toInt = -2 ^ 63 := by decide
  have greatest : Int64.maxValue.toInt = 2 ^ 63 - 1 := by decide
  -- the least number is the only one that could not change its side
  apply if_pos
  omega

theorem wide?_of_natAbs_lt {number : Int} (small : number.natAbs < 10 ^ places)
    (bounded : places ≤ 9) : wide? number = some number := by
  have powerSmall : (10 : Nat) ^ places ≤ 10 ^ 9 := Nat.pow_le_pow_right (by decide) bounded
  have greatest : Int64.maxValue.toInt = 2 ^ 63 - 1 := by decide
  apply wide?_of_shrunk Int64.maxValue <;> omega

theorem tenPower?_eq_none {exponent : Nat} (long : maxDigits < exponent) :
    tenPower? exponent = none := by
  have above : ((10 ^ (maxDigits + 1) : Nat) : Int) ≤ (10 ^ exponent : Nat) :=
    Int.ofNat_le.mpr (Nat.pow_le_pow_right (by decide) long)
  have greatest : Int64.maxValue.toInt < (10 ^ (maxDigits + 1) : Nat) := by decide
  exact if_neg fun inRange => absurd inRange.2 (not_le.mpr (greatest.trans_le above))

/-- Digits behind the point can be rescaled in 64 bits. -/
theorem rescale?_of_small {remainder : Int} {precision : Nat} (short : precision ≤ maxDigits)
    (bounded : places ≤ 9) (small : remainder.natAbs < 10 ^ precision) :
    rescale? remainder precision places =
      some (Score.rescaleAmount places precision remainder) := by
  have maxDigitsEq : maxDigits = 18 := rfl
  rw [rescale?]
  split
  · rename_i wider
    have factorFound := Score.tenPower?_of_le (by omega : places - precision ≤ maxDigits)
    rw [factorFound, Option.bind_some, Score.rescaleAmount_of_le wider]
    exact wide?_of_natAbs_lt (Score.natAbs_mul_pow_lt small wider) bounded
  · rename_i notWider
    have factorFound := Score.tenPower?_of_le (by omega : precision - places ≤ maxDigits)
    rw [factorFound, Option.map_some, Score.rescaleAmount_of_ge (Nat.le_of_not_le notWider)]

/-- Only the range of the whole part decides whether there is a split. -/
theorem split?_eq_map (short : decimal.precision ≤ maxDigits) (bounded : places ≤ 9) :
    decimal.split? places =
      (Score.ofInt? (decimal.mantissa.toInt.tdiv (10 ^ decimal.precision))).map fun whole =>
        (whole, Int32.ofInt (Score.rescaleAmount places decimal.precision
          (decimal.mantissa.toInt.tmod (10 ^ decimal.precision)))) := by
  have remainderSmall := Score.natAbs_tmod_pow_lt decimal.mantissa.toInt decimal.precision
  have fractionSmall := Score.natAbs_rescaleAmount_lt remainderSmall places
  have denominatorFound : decimal.denominator? = some (10 ^ decimal.precision) :=
    Score.tenPower?_of_le short
  have digitsFound := rescale?_of_small short bounded remainderSmall
  have fractionFound : Score.ofInt? (Score.rescaleAmount places decimal.precision
      (decimal.mantissa.toInt.tmod (10 ^ decimal.precision))) = some (Int32.ofInt _) :=
    if_pos (Score.inRange_of_natAbs_lt fractionSmall bounded)
  simp only [split?, denominatorFound, Option.bind_eq_bind, Option.bind_some, digitsFound,
    fractionFound, Option.pure_def]
  rw [Option.map_eq_bind]
  rfl

theorem split?_eq_none (long : maxDigits < decimal.precision) : decimal.split? places = none := by
  simp [split?, denominator?, tenPower?_eq_none long]

theorem short_of_split? {parts : Score × Score} (found : decimal.split? places = some parts) :
    decimal.precision ≤ maxDigits := by
  by_contra long
  rw [split?_eq_none (Nat.lt_of_not_le long)] at found
  cases found

theorem isSome_split?_iff (decimal : Decimal) (bounded : places ≤ 9) :
    (decimal.split? places).isSome ↔ decimal.precision ≤ maxDigits ∧
      InRange (decimal.mantissa.toInt.tdiv (10 ^ decimal.precision)) := by
  by_cases short : decimal.precision ≤ maxDigits
  · rw [split?_eq_map short bounded, Option.isSome_map, Score.isSome_ofInt?_iff]
    exact (and_iff_right short).symm
  · rw [split?_eq_none (Nat.lt_of_not_le short)]
    simp [short]

/-- The parts of a literal stand for it. -/
theorem split?_amount {whole fraction : Score} (bounded : places ≤ 9)
    (found : decimal.split? places = some (whole, fraction)) :
    Score.amount places whole fraction =
      Score.rescaleAmount places decimal.precision decimal.mantissa.toInt := by
  have fractionSmall := Score.natAbs_rescaleAmount_lt
    (Score.natAbs_tmod_pow_lt decimal.mantissa.toInt decimal.precision) places
  rw [split?_eq_map (short_of_split? found) bounded] at found
  obtain ⟨found, wholeFound, partsEq⟩ := Option.map_eq_some_iff.mp found
  cases partsEq
  rw [Score.amount, Score.toInt_of_ofInt? wholeFound,
    Score.toInt_ofInt (Score.inRange_of_natAbs_lt fractionSmall bounded),
    Score.rescaleAmount_split]

theorem truncate?_toInt {whole : Score} (found : decimal.truncate? = some whole) :
    whole.toInt = Score.rescaleAmount 0 decimal.precision decimal.mantissa.toInt := by
  obtain ⟨⟨whole, fraction⟩, splits, rfl⟩ := Option.map_eq_some_iff.mp found
  have nothing : fraction.toInt = 0 := by
    have small := (Score.split?_settled splits).small
    rw [Nat.pow_zero] at small
    omega
  rw [← split?_amount (by decide) splits, Score.amount, nothing, Int.pow_zero, Int.mul_one,
    Int.add_zero]

/-- With room for all digits, the parts are the literal itself. -/
theorem split?_rational {whole fraction : Score} (bounded : places ≤ 9)
    (found : decimal.split? places = some (whole, fraction)) (wider : decimal.precision ≤ places) :
    (whole.toInt : ℚ) + fraction.toInt / 10 ^ places =
      decimal.mantissa.toInt / 10 ^ decimal.precision := by
  have joined := split?_amount bounded found
  rw [Score.amount, Score.rescaleAmount_of_le wider] at joined
  have joinedRational := congrArg (Int.cast : Int → ℚ) joined
  push_cast at joinedRational
  have digits : (10 : ℚ) ^ places = 10 ^ (places - decimal.precision) * 10 ^ decimal.precision := by
    rw [← pow_add, Nat.sub_add_cancel wider]
  calc
    (whole.toInt : ℚ) + fraction.toInt / 10 ^ places =
        (whole.toInt * 10 ^ places + fraction.toInt) / 10 ^ places := by field_simp
    _ = decimal.mantissa.toInt / 10 ^ decimal.precision := by
      rw [joinedRational, digits]
      field_simp

theorem wide?_tdiv (mantissa : Int64) (digits : Nat) :
    wide? (mantissa.toInt.tdiv (10 ^ digits)) = some (mantissa.toInt.tdiv (10 ^ digits)) := by
  apply wide?_of_shrunk mantissa
  · rw [Int.natAbs_tdiv]
    exact Nat.div_le_self _ _
  · exact (Score.tdiv_sign (Score.pow_ten_pos digits)).1

theorem wide?_tmod (mantissa : Int64) (digits : Nat) :
    wide? (mantissa.toInt.tmod (10 ^ digits)) = some (mantissa.toInt.tmod (10 ^ digits)) := by
  apply wide?_of_shrunk mantissa
  · rw [Int.natAbs_tmod]
    exact Nat.mod_le _ _
  · exact (Score.tmod_sign _).1

/-- A literal has parts exactly if its whole part fits into a register.  The parts are settled
and make up the literal, cut off toward zero, and nothing overflows on the way. -/
theorem split?_exact_iff (decimal : Decimal) (bounded : places ≤ 9) :
    let mantissa := decimal.mantissa.toInt
    let denominator : Int := 10 ^ decimal.precision
    ((decimal.split? places).isSome ↔
      decimal.precision ≤ 18 ∧ InRange (mantissa.tdiv denominator)) ∧
    (∀ whole fraction, decimal.split? places = some (whole, fraction) →
      whole.toInt * 10 ^ places + fraction.toInt = (mantissa * 10 ^ places).tdiv denominator ∧
      Score.Settled places whole fraction ∧
      (decimal.precision ≤ places →
        (whole.toInt : ℚ) + fraction.toInt / 10 ^ places = mantissa / denominator)) ∧
    (decimal.precision ≤ 18 →
      decimal.denominator? = some denominator ∧
      wide? (mantissa.tdiv denominator) = some (mantissa.tdiv denominator) ∧
      wide? (mantissa.tmod denominator) = some (mantissa.tmod denominator) ∧
      ∃ digits, rescale? (mantissa.tmod denominator) decimal.precision places = some digits ∧
        wide? digits = some digits ∧ (Score.ofInt? digits).isSome) := by
  intro mantissa denominator
  have remainderSmall := Score.natAbs_tmod_pow_lt mantissa decimal.precision
  have fractionSmall := Score.natAbs_rescaleAmount_lt remainderSmall places
  have inRange := Score.inRange_of_natAbs_lt fractionSmall bounded
  have denominatorEq : (denominator : ℚ) = 10 ^ decimal.precision := Int.cast_pow 10 _
  refine ⟨isSome_split?_iff decimal bounded, fun whole fraction found => ⟨?_, ?_, ?_⟩,
    fun short => ⟨Score.tenPower?_of_le short, wide?_tdiv _ _, wide?_tmod _ _, _,
      rescale?_of_small short bounded remainderSmall, ?_, Score.isSome_ofInt?_iff.mpr inRange⟩⟩
  · exact split?_amount bounded found
  · exact Score.split?_settled found
  · intro wider
    rw [split?_rational bounded found wider, denominatorEq]
  · exact wide?_of_natAbs_lt fractionSmall bounded

/-- The least mantissa loses nine of its 18 digits behind the point.  With nine of them its whole
part is no score.  The least score can be followed by a digit, which is kept, and with 19 digits
behind the point not even zero is split. -/
theorem splits_at_the_ends :
    let deep : Decimal := ⟨Int64.minValue, 18⟩
    let large : Decimal := ⟨Int64.minValue, 9⟩
    let edge : Decimal := ⟨-21474836489, 1⟩
    let long : Decimal := ⟨0, 19⟩
    (∃ whole fraction, deep.split? 9 = some (whole, fraction) ∧
        whole.toInt * 10 ^ 9 + fraction.toInt = -9223372036 ∧
        Score.Settled 9 whole fraction) ∧
      deep.denominator? = some (10 ^ 18) ∧
      ¬ (large.split? 9).isSome ∧
      (∃ whole fraction, edge.split? 9 = some (whole, fraction) ∧
        (whole.toInt : ℚ) + fraction.toInt / 10 ^ 9 = -21474836489 / 10) ∧
      ¬ (long.split? 9).isSome := by
  intro deep large edge long
  obtain ⟨deepSome, deepParts, deepChecks⟩ := split?_exact_iff deep (Nat.le_refl 9)
  obtain ⟨largeSome, _⟩ := split?_exact_iff large (Nat.le_refl 9)
  obtain ⟨edgeSome, edgeParts, _⟩ := split?_exact_iff edge (Nat.le_refl 9)
  obtain ⟨longSome, _⟩ := split?_exact_iff long (Nat.le_refl 9)
  obtain ⟨⟨whole, fraction⟩, found⟩ := Option.isSome_iff_exists.mp (deepSome.mpr (by decide))
  obtain ⟨⟨edgeWhole, edgeFraction⟩, edgeFound⟩ :=
    Option.isSome_iff_exists.mp (edgeSome.mpr (by decide))
  obtain ⟨joined, settled, _⟩ := deepParts whole fraction found
  obtain ⟨_, _, exact⟩ := edgeParts edgeWhole edgeFraction edgeFound
  have mantissaEq : edge.mantissa.toInt = -21474836489 := by decide
  refine ⟨⟨whole, fraction, found, joined.trans (by decide), settled⟩,
    (deepChecks (by decide)).1, largeSome.not.mpr (by decide),
    ⟨edgeWhole, edgeFraction, edgeFound, ?_⟩, longSome.not.mpr (by decide)⟩
  rw [exact (by decide), mantissaEq]
  norm_num

end Decimal
end ScoreLowering
