import ScoreLowering.Proofs.LiteralComparisons
import ScoreLowering.Proofs.LiteralSplits

/-!
# Comparing whole numbers with literals

An integer or a time is compared in its own register.  The range that is tested is found by exact
arithmetic, with fractions that 128 bits have room for, so the test is right for every content of
the register and for every literal: also for fractions between two scores and for numbers that no
score comes near to.  The opposite comparison gives the opposite answer.
-/

namespace ScoreLowering

theorem Comparison.holds_negate (comparison : Comparison) (left right : ℚ) :
    comparison.negate.Holds left right ↔ ¬ comparison.Holds left right := by
  cases comparison with
  | equal => exact Iff.rfl
  | notEqual => exact not_not.symm
  | greater => exact not_lt.symm
  | greaterOrEqual => exact not_le.symm
  | less => exact not_lt.symm
  | lessOrEqual => exact not_le.symm

namespace Literal

/-- The number that a value of the type is compared with.  Times are told apart: they can be
compared with times and whole numbers, and nothing else can be compared with a time. -/
def comparand? (ty : Ty) (literal : Literal) : Option ℚ :=
  match ty, literal with
  | .time, .time score => some score.toInt
  | .time, .decimal _ => none
  | _, literal => literal.number?

theorem comparand?_of_ne_time {ty : Ty} (notTime : ty ≠ .time) (literal : Literal) :
    literal.comparand? ty = literal.number? := by
  unfold comparand?
  split
  case h_1 => exact absurd rfl notTime
  case h_2 => exact absurd rfl notTime
  case h_3 => rfl

end Literal

namespace Filter

variable {ty : Ty} {literal : Literal} {precision : Nat}

/-- A literal that can be compared with becomes a fraction of its number. -/
theorem exists_rational_comparand {number : ℚ} (comparable : literal.comparand? ty = some number) :
    ∃ numerator : Int, ∃ denominator : Nat, 0 < denominator ∧
      rational ty literal 0 = .ok (numerator, denominator) ∧
      (numerator / denominator : ℚ) = number := by
  by_cases time : ty = .time
  · subst time
    have wholeEq (score : Score) : ((score.toInt * 1 : Int) : ℚ) / (1 : Nat) = score.toInt := by
      rw [Int.mul_one, Nat.cast_one, div_one]
    cases literal with
    | int score | time score =>
        cases comparable
        exact ⟨score.toInt * 1, 1, Nat.one_pos, rfl, wholeEq score⟩
    | null | bool _ | decimal _ => cases comparable
  · rw [Literal.comparand?_of_ne_time time] at comparable
    have scaled : Ty.scale 0 = .ok 1 := rfl
    obtain ⟨numerator, denominator, positive, rationalEq, fractionEq⟩ :=
      exists_rational time scaled comparable
    rw [pow_zero, mul_one] at fractionEq
    exact ⟨numerator, denominator, positive, rationalEq, fractionEq⟩

theorem rational_of_incomparable (incomparable : literal.comparand? ty = none) :
    rational ty literal 0 = .error (Plan.incompatibleLiteral ty literal) := by
  by_cases time : ty = .time
  · subst time
    cases literal with
    | int score | time score => cases incomparable
    | null | bool _ => rfl
    | decimal value =>
        cases denominatorEq : value.denominator? <;> simp only [rational, denominatorEq] <;> rfl
  · rw [Literal.comparand?_of_ne_time time] at incomparable
    cases literal with
    | int score => cases incomparable
    | null | bool _ => rfl
    | time score =>
        simp only [rational, time, if_false]
        rfl
    | decimal value =>
        have long : Decimal.maxDigits < value.precision := by
          by_contra short
          rw [Literal.number?, if_pos (Nat.le_of_not_lt short)] at incomparable
          cases incomparable
        simp only [rational, Decimal.denominator?, Decimal.tenPower?_eq_none long]
        rfl

/-- The fractions to compare with have room in 128 bits. -/
structure Bounded (fraction : Int × Int) : Prop where
  numerator : fraction.1.natAbs ≤ 2 ^ 63 * 10 ^ 9
  positive : 0 < fraction.2
  denominator : fraction.2 ≤ 10 ^ 18

theorem bounded_of_rational {fraction : Int × Int}
    (found : rational ty literal precision = .ok fraction) : Bounded fraction := by
  unfold rational at found
  cases scaled : Ty.scale precision with
  | error error =>
      rw [scaled] at found
      cases found
  | ok unit =>
      rw [scaled] at found
      obtain ⟨small, unitEq⟩ := Score.scale_toInt scaled
      have unitSmall : unit.toInt.natAbs ≤ 10 ^ 9 := by
        rw [unitEq, Int.natAbs_pow]
        exact Nat.pow_le_pow_right (by decide) small
      have wholeBounded (score : Score) : Bounded (score.toInt * unit.toInt, 1) := by
        refine ⟨?_, Int.zero_lt_one, one_le_pow₀ (by decide)⟩
        rw [Int.natAbs_mul]
        exact Nat.mul_le_mul ((Score.natAbs_toInt_le score).trans (by decide)) unitSmall
      cases literal with
      | null | bool _ => cases found
      | int score =>
          cases found
          exact wholeBounded score
      | time score =>
          by_cases time : ty = .time
          · simp only [time, if_true] at found
            cases found
            exact wholeBounded score
          · simp only [time, if_false] at found
            cases found
      | decimal value =>
          by_cases short : value.precision ≤ Decimal.maxDigits
          · have denominatorEq : value.denominator? = some (10 ^ value.precision) :=
              Score.tenPower?_of_le short
            simp only [denominatorEq] at found
            by_cases time : ty = .time
            · simp only [time, if_true] at found
              cases found
            · simp only [time, if_false] at found
              cases found
              refine ⟨?_, Score.pow_ten_pos _, ?_⟩
              · have low := value.mantissa.le_toInt
                have high := value.mantissa.toInt_lt
                rw [Int.natAbs_mul]
                exact Nat.mul_le_mul (by omega) unitSmall
              · exact pow_le_pow_right₀ (by decide) short
          · have denominatorEq : value.denominator? = none :=
              Decimal.tenPower?_eq_none (Nat.lt_of_not_le short)
            simp only [denominatorEq] at found
            cases found

end Filter

namespace Value

/-- Comparing with the literal succeeds with a filter that tests the register of the value
itself, without commands and without a lease, and gives this answer for every content. -/
def TestsDirectly (pool : Pool) (this : Value) (comparison : Comparison) (literal : Literal)
    (workspace : Workspace) (answer : Score → Prop) : Prop :=
  ∃ range, this.compare pool comparison literal workspace =
      (.ok { entries := [⟨this.name, range⟩], commands := [], lease := none }, workspace) ∧
    ∀ score, range.contains score ↔ answer score

variable {this : Value} {literal : Literal}

theorem compare_of_isCount (count : this.ty.isCount) (pool : Pool) (comparison : Comparison)
    (workspace : Workspace) :
    this.compare pool comparison literal workspace =
      match Filter.rational this.ty literal 0 with
      | .error error => (.error (.user error), workspace)
      | .ok fraction => (.ok (Filter.direct this comparison fraction), workspace) := by
  unfold compare
  cases tyEq : this.ty with
  | int | time => rfl
  | decimal _ | bool | struct _ _ =>
      rw [tyEq] at count
      cases count

theorem testsDirectly_comparand (count : this.ty.isCount) {number : ℚ}
    (comparable : literal.comparand? this.ty = some number) (pool : Pool)
    (comparison : Comparison) (workspace : Workspace) :
    this.TestsDirectly pool comparison literal workspace fun score =>
      comparison.Holds score.toInt number := by
  obtain ⟨numerator, denominator, positive, rationalEq, rfl⟩ :=
    Filter.exists_rational_comparand comparable
  refine ⟨Filter.rangeFor comparison numerator denominator, ?_, fun score => ?_⟩
  · rw [compare_of_isCount count, rationalEq]
    rfl
  · exact Filter.contains_rangeFor comparison positive

/-- A range for a fraction holds exactly the scores that compare with it so.  Hence an integer
is tested directly, a literal that fits its type decides as its number does, and every other
literal is refused. -/
theorem whole_comparisons_exact (comparison : Comparison) :
    (∀ (numerator denominator : Int) (score : Score), 0 < denominator →
      ((Filter.rangeFor comparison numerator denominator).contains score ↔
        comparison.Holds score.toInt ((numerator : ℚ) / denominator))) ∧
    (∀ ty literal precision fraction, Filter.rational ty literal precision = .ok fraction →
      Filter.Bounded fraction) ∧
    ∀ (pool : Pool) (this : Value) (literal : Literal) (workspace : Workspace),
      this.ty.isCount →
        (∀ number, literal.comparand? this.ty = some number →
          (this.TestsDirectly pool comparison literal workspace fun score =>
            comparison.Holds score.toInt number) ∧
          (this.TestsDirectly pool comparison.negate literal workspace fun score =>
            ¬ comparison.Holds score.toInt number)) ∧
        (literal.comparand? this.ty = none →
          this.compare pool comparison literal workspace =
            (.error (.user (Plan.incompatibleLiteral this.ty literal)), workspace)) := by
  refine ⟨fun numerator denominator score positive => ?_,
    fun ty literal precision fraction => Filter.bounded_of_rational,
    fun pool this literal workspace count => ⟨fun number comparable => ⟨?_, ?_⟩, ?_⟩⟩
  · obtain ⟨denominator, rfl⟩ := Int.eq_ofNat_of_zero_le positive.le
    rw [Int.cast_natCast]
    exact Filter.contains_rangeFor comparison (Int.natCast_pos.mp positive)
  · exact testsDirectly_comparand count comparable pool comparison workspace
  · obtain ⟨range, compared, decides⟩ :=
      testsDirectly_comparand count comparable pool comparison.negate workspace
    exact ⟨range, compared, fun score => (decides score).trans (comparison.holds_negate _ _)⟩
  · intro incomparable
    rw [compare_of_isCount count, Filter.rational_of_incomparable incomparable]

/-- No score is -1.5, and -2 is the next one below.  The least mantissa can be compared with even
if all but one of its digits are behind the point, and in both ways.  A time is not compared with
a decimal. -/
theorem whole_comparisons_between_scores :
    let number : Value := ⟨"n", .int, .here, []⟩
    let ticks : Value := ⟨"t", .time, .player "_", [.global]⟩
    let deep : Literal := .decimal ⟨Int64.minValue, 18⟩
    let workspace := (Compilation.start {}).workspace
    (Filter.rangeFor .less (-15) 10).contains (-2) ∧
      ¬ (Filter.rangeFor .less (-15) 10).contains (-1) ∧
      Filter.Bounded (Int64.minValue.toInt, 10 ^ 18) ∧
      (number.TestsDirectly .stacked .less deep workspace fun score =>
        (score.toInt : ℚ) < Int64.minValue.toInt / 10 ^ 18) ∧
      (number.TestsDirectly .stacked .greaterOrEqual deep workspace fun score =>
        ¬ (score.toInt : ℚ) < Int64.minValue.toInt / 10 ^ 18) ∧
      ticks.compare .counted .less deep workspace =
        (.error (.user (Plan.incompatibleLiteral .time deep)), workspace) := by
  intro number ticks deep workspace
  obtain ⟨ranges, bounds, filters⟩ := whole_comparisons_exact .less
  have below (score : Score) : (Filter.rangeFor .less (-15) 10).contains score ↔
      (score.toInt : ℚ) < (-15 : Int) / (10 : Int) := ranges (-15) 10 score (by decide)
  have nextBelow : (-2 : Score).toInt = -2 := rfl
  have nextAbove : (-1 : Score).toInt = -1 := rfl
  have fraction : Filter.rational .int deep 0 = .ok (Int64.minValue.toInt, 10 ^ 18) := rfl
  obtain ⟨tests, testsOpposite⟩ := (filters .stacked number deep workspace rfl).1 _ rfl
  refine ⟨(below _).mpr ?_, (below _).not.mpr ?_, bounds _ _ _ _ fraction, tests, testsOpposite,
    (filters .counted ticks deep workspace rfl).2 rfl⟩
  · rw [nextBelow]
    norm_num
  · rw [nextAbove]
    norm_num

end Value
end ScoreLowering
