import Mathlib.Data.Rat.Floor
import ScoreLowering.Proofs.NumberReadings

/-!
# Comparing decimals with literals

The range of a filter holds the scores that compare to a fraction as asked for, as exact
numbers.  A decimal is not tested itself, though: its parts are joined in a scratch register
first, and there they may wrap around.  So what is compared with the literal is the number of
the decimal up to a multiple of `2 ^ 32` of its last digit, and a comparison of any kind is
right for all literals if and only if that number is a score.
-/

namespace ScoreLowering

namespace Comparison

/-- The comparison between exact numbers. -/
def Holds (comparison : Comparison) (left right : ℚ) : Prop :=
  match comparison with
  | equal => left = right
  | notEqual => left ≠ right
  | greater => right < left
  | greaterOrEqual => right ≤ left
  | less => left < right
  | lessOrEqual => left ≤ right

theorem holds_mul_right (comparison : Comparison) {factor : ℚ} (positive : 0 < factor)
    (left right : ℚ) :
    comparison.Holds left (right * factor) ↔ comparison.Holds (left / factor) right := by
  cases comparison with
  | equal => exact (div_eq_iff positive.ne').symm
  | notEqual => exact (div_eq_iff positive.ne').symm.not
  | greater => exact (lt_div_iff₀ positive).symm
  | greaterOrEqual => exact (le_div_iff₀ positive).symm
  | less => exact (div_lt_iff₀ positive).symm
  | lessOrEqual => exact (div_le_iff₀ positive).symm

/-- Two numbers that no comparison with either of them tells apart are the same. -/
theorem eq_of_holds_iff (comparison : Comparison) {left right : ℚ}
    (withLeft : comparison.Holds left left ↔ comparison.Holds right left)
    (withRight : comparison.Holds left right ↔ comparison.Holds right right) : left = right := by
  cases comparison with
  | equal => exact (withLeft.mp rfl).symm
  | notEqual => exact not_not.mp fun different => withRight.mp different rfl
  | greater =>
      exact le_antisymm (not_lt.mp (withRight.not.mpr (lt_irrefl right)))
        (not_lt.mp (withLeft.not.mp (lt_irrefl left)))
  | greaterOrEqual => exact le_antisymm (withLeft.mp le_rfl) (withRight.mpr le_rfl)
  | less =>
      exact le_antisymm (not_lt.mp (withLeft.not.mp (lt_irrefl left)))
        (not_lt.mp (withRight.not.mpr (lt_irrefl right)))
  | lessOrEqual => exact le_antisymm (withRight.mpr le_rfl) (withLeft.mp le_rfl)

end Comparison

namespace Range

variable {range : Range} {score wanted : Score}

theorem contains_always (score : Score) : always.contains score := by
  simp [always, contains, inBounds, atLeast]

theorem contains_complement : range.complement.contains score ↔ ¬ range.contains score := by
  have sameBounds : range.complement.inBounds score = range.inBounds score := rfl
  have opposite : range.complement.inverted = !range.inverted := rfl
  rw [contains, contains, sameBounds, opposite]
  cases range.inBounds score <;> cases range.inverted <;> decide

theorem not_contains_never (score : Score) : ¬ never.contains score := by
  rw [never, contains_complement, not_not]
  exact contains_always score

theorem contains_exact : (exact wanted).contains score ↔ score = wanted := by
  have bounds : (exact wanted).contains score ↔ wanted ≤ score ∧ score ≤ wanted := by
    simp [contains, inBounds, exact, between]
  rw [bounds, Int32.le_iff_toInt_le, Int32.le_iff_toInt_le, ← Int32.toInt_inj]
  omega

end Range

namespace Filter

variable {score : Score} {bound numerator : Int} {denominator : Nat}

theorem contains_atMost : (atMost bound).contains score ↔ score.toInt ≤ bound := by
  have inRange := Score.toInt_inRange score
  unfold atMost
  split
  case h_1 found =>
      rw [Range.contains_atMost, Int32.le_iff_toInt_le, Score.toInt_of_ofInt? found]
  case h_2 notFound =>
      have outside := Score.outside_of_ofInt? notFound
      split
      · exact iff_of_false (Range.not_contains_never score) (by omega)
      · exact iff_of_true (Range.contains_always score) (by omega)

theorem contains_atLeast : (atLeast bound).contains score ↔ bound ≤ score.toInt := by
  have inRange := Score.toInt_inRange score
  unfold atLeast
  split
  case h_1 found =>
      rw [Range.contains_atLeast, Int32.le_iff_toInt_le, Score.toInt_of_ofInt? found]
  case h_2 notFound =>
      have outside := Score.outside_of_ofInt? notFound
      split
      · exact iff_of_false (Range.not_contains_never score) (by omega)
      · exact iff_of_true (Range.contains_always score) (by omega)

theorem contains_equalTo (positive : 0 < denominator) :
    (equalTo numerator denominator).contains score ↔ score.toInt * denominator = numerator := by
  have divided := Int.emod_add_mul_ediv numerator denominator
  unfold equalTo
  split
  case h_1 wanted found =>
      rw [← Score.toInt_of_ofInt? found] at divided
      split
      case isTrue whole =>
          rw [Range.contains_exact, ← Int32.toInt_inj, ← divided, whole, Int.zero_add,
            Int.mul_comm, Int.mul_eq_mul_left_iff (by omega)]
      case isFalse rest =>
          refine iff_of_false (Range.not_contains_never score) ?_
          rintro rfl
          exact rest (Int.mul_emod_left _ _)
  case h_2 notFound =>
      have outside := Score.outside_of_ofInt? notFound
      refine iff_of_false (Range.not_contains_never score) ?_
      rintro rfl
      rw [Int.mul_ediv_cancel _ (by omega)] at outside
      have inRange := Score.toInt_inRange score
      omega

/-- The scores in the range are those that compare to the fraction as asked for. -/
theorem contains_rangeFor (comparison : Comparison) (positive : 0 < denominator) :
    (rangeFor comparison numerator denominator).contains score ↔
      comparison.Holds score.toInt ((numerator : ℚ) / denominator) := by
  have equality : (equalTo numerator denominator).contains score ↔
      (score.toInt : ℚ) = numerator / denominator := by
    rw [contains_equalTo positive, eq_div_iff (by positivity)]
    exact_mod_cast Iff.rfl
  unfold rangeFor
  rw [← Rat.floor_intCast_div_natCast, ← Rat.ceil_intCast_div_natCast]
  cases comparison with
  | equal => exact equality
  | notEqual => exact Range.contains_complement.trans equality.not
  | greater => exact contains_atLeast.trans (Int.add_one_le_iff.trans Int.floor_lt)
  | greaterOrEqual => exact contains_atLeast.trans Int.ceil_le
  | less => exact contains_atMost.trans (Int.le_sub_one_iff.trans Int.lt_ceil)
  | lessOrEqual => exact contains_atMost.trans Int.le_floor

end Filter

namespace Literal

/-- The number that a literal stands for, if it has one to compare a decimal with. -/
def number? : Literal → Option ℚ
  | int score => some score.toInt
  | decimal value =>
      if value.precision ≤ Decimal.maxDigits then
        some ((value.mantissa.toInt : ℚ) / 10 ^ value.precision)
      else
        none
  | null | bool _ | time _ => none

/-- Every number of 64 bits can be written with any number of digits after the point. -/
theorem number?_ofInt {mantissa : Int} (wide : mantissa.natAbs < 2 ^ 63) {precision : Nat}
    (short : precision ≤ Decimal.maxDigits) :
    (decimal ⟨Int64.ofInt mantissa, precision⟩).number? =
      some ((mantissa : ℚ) / 10 ^ precision) := by
  rw [number?, if_pos short, Int64.toInt_ofInt_of_le (by omega) (by omega)]

end Literal

namespace Filter

variable {precision : Nat} {unit : Score} {literal : Literal} {number : ℚ}

/-- A literal with a number becomes an exact fraction: its number in units of the last digit. -/
theorem exists_rational {ty : Ty} (notTime : ty ≠ .time) (scaled : Ty.scale precision = .ok unit)
    (numberEq : literal.number? = some number) :
    ∃ numerator : Int, ∃ denominator : Nat, 0 < denominator ∧
      rational ty literal precision = .ok (numerator, denominator) ∧
      (numerator / denominator : ℚ) = number * 10 ^ precision := by
  have unitEq := (Score.scale_toInt scaled).2
  cases literal with
  | int score =>
      cases numberEq
      refine ⟨score.toInt * unit.toInt, 1, Nat.one_pos, by rw [rational, scaled]; rfl, ?_⟩
      rw [unitEq]
      push_cast
      rw [div_one]
  | decimal value =>
      simp only [Literal.number?] at numberEq
      split at numberEq
      case isTrue short =>
          cases numberEq
          refine ⟨value.mantissa.toInt * unit.toInt, 10 ^ value.precision, by positivity, ?_, ?_⟩
          · simp only [rational, scaled, Decimal.denominator?, Score.tenPower?_of_le short, notTime,
              if_false]
            rfl
          · rw [unitEq]
            push_cast
            ring
      case isFalse => cases numberEq
  | null | bool _ | time _ => cases numberEq

theorem contains_rangeFor_literal (comparison : Comparison) {ty : Ty} (notTime : ty ≠ .time)
    (scaled : Ty.scale precision = .ok unit) (numberEq : literal.number? = some number) :
    ∃ fraction, rational ty literal precision = .ok fraction ∧
      ∀ score : Score, (rangeFor comparison fraction.1 fraction.2).contains score ↔
        comparison.Holds ((score.toInt : ℚ) / 10 ^ precision) number := by
  obtain ⟨numerator, denominator, positive, rationalEq, fractionEq⟩ :=
    exists_rational notTime scaled numberEq
  refine ⟨_, rationalEq, fun score => ?_⟩
  rw [contains_rangeFor comparison positive, fractionEq]
  exact comparison.holds_mul_right (by positivity) _ _

end Filter

namespace Plan

variable {executor : String} {this : Value} {precision : Nat} {unitScore : Score}

theorem joinPlan_run (scaled : Ty.scale precision = .ok unitScore) (memory : Memory) :
    (Filter.joinPlan this precision).run executor memory (.scratch 0 .whole) =
      memory (partSlot executor this .whole) * unitScore +
        memory (partSlot executor this .fraction) := by
  simp [Filter.joinPlan, withUnit_ok scaled, combineInto, Step.run, ScoreOperation.evaluate,
    Value.operand, partSlot]

theorem joinPlan_run_fixed (scaled : Ty.scale precision = .ok unitScore) (memory : Memory)
    (register : Register) :
    (Filter.joinPlan this precision).run executor memory (.fixed register) =
      memory (.fixed register) := by
  simp [Filter.joinPlan, withUnit_ok scaled, combineInto, Step.run]

/-- The commands for joining a decimal leave the joined number in the register that they were
given, and change nothing that is tracked. -/
theorem joinPlan_simulates {pool : Pool} {tracked : Register → Prop} {permissions : Permissions}
    (permits : Permits (tracked ∘ Machine.locate executor) permissions)
    (readable : ∀ part, permissions.readable (this.register part))
    (scaled : Ty.scale precision = .ok unitScore) {value : Value} (valueTy : value.ty = .int)
    (valueFresh : Fresh executor tracked [] value) {workspace later : Workspace}
    (fresh : (Filter.joinPlan this precision).TakesFresh pool executor tracked [value] workspace)
    {commands : List Command}
    (allocated : (Filter.joinPlan this precision).allocate pool [value] workspace =
      (.ok commands, later))
    (functions : String → List Command) (depth : Nat) (scores : Scores) :
    let after := Machine.runAll (Machine.call functions (depth + 1)) commands executor scores
    value.content executor after .whole =
        this.content executor scores .whole * unitScore + this.content executor scores .fraction ∧
      ∀ register, tracked register → after.read register = scores.read register := by
  intro after
  -- the register starts out as known, so that its content is known in the end
  let memory : Memory := Function.update (Memory.ofScores scores) (.scratch 0 .whole)
    (value.content executor scores .whole)
  have wholePart : Part.whole ∈ value.ty.parts := Ty.whole_mem_parts value.ty
  have start : Agrees executor tracked [value] [.scratch 0 .whole] scores memory := by
    refine ⟨fun register _ => rfl, fun slot member => ?_⟩
    rw [List.mem_singleton.mp member]
    have content : memory (.scratch 0 .whole) = value.content executor scores .whole :=
      Function.update_self ..
    exact ⟨_, ⟨value, rfl, wholePart, rfl⟩, content.symm⟩
  have serves : ∀ pair ∈ (Filter.joinPlan this precision).borrowers,
      later.routines.Serves functions pair.1 pair.2 := by
    rw [Filter.joinPlan, withUnit_ok scaled]
    exact fun _ member => absurd member List.not_mem_nil
  have finish := allocate_simulates depth permits _
    ((separated_nil executor tracked).open valueFresh) fresh (by simp [valueTy])
    (joinPlan_wellScoped readable) allocated serves start
  constructor
  · obtain ⟨place, denotes, content⟩ :=
      finish.known (.scratch 0 .whole) (List.mem_append_right _ (List.mem_singleton_self _))
    rw [place_of_denotes denotes] at content
    exact content.trans (joinPlan_run scaled memory)
  · intro register isTracked
    exact (finish.fixed register isTracked).trans (joinPlan_run_fixed scaled memory register)

end Plan

namespace Value

/-- Comparing with the literal succeeds with a filter that gives this answer: after its commands,
its one range holds the content of the leased register just in case.  The commands leave the
value itself as it is. -/
def Decides (pool : Pool) (executor : String) (this : Value) (comparison : Comparison)
    (literal : Literal) (before : Workspace × Scores) (answer : Prop) : Prop :=
  ∃ filter later lease range,
    this.compare pool comparison literal before.1 = (.ok filter, later) ∧
      filter.lease = some lease ∧ filter.entries = [⟨lease.value.name, range⟩] ∧
      ∀ functions depth,
        let after := Machine.runAll (Machine.call functions (depth + 1)) filter.commands executor
          before.2
        (range.contains (lease.value.content executor after .whole) ↔ answer) ∧
          ∀ register ∈ this.located executor, after.read register = before.2.read register

variable {pool : Pool} {executor : String} {this : Value} {comparison : Comparison}
variable {literal : Literal} {workspace : Workspace} {scores : Scores} {precision : Nat}

theorem Decides.iff {answer other : Prop}
    (first : this.Decides pool executor comparison literal (workspace, scores) answer)
    (second : this.Decides pool executor comparison literal (workspace, scores) other) :
    answer ↔ other := by
  obtain ⟨filter, later, lease, range, found, leaseEq, entriesEq, holds⟩ := first
  obtain ⟨_, _, _, _, otherFound, otherLease, otherEntries, otherHolds⟩ := second
  cases found.symm.trans otherFound
  cases leaseEq.symm.trans otherLease
  cases entriesEq.symm.trans otherEntries
  exact (holds (fun _ => []) 0).1.symm.trans (otherHolds (fun _ => []) 0).1

theorem decides_joined {unitScore : Score} (tyEq : this.ty = .decimal precision)
    (scaled : Ty.scale precision = .ok unitScore) {fraction : Int × Int}
    (rationalEq : Filter.rational (.decimal precision) literal precision = .ok fraction)
    (fresh : (Statement.compare this comparison literal).TakesFresh pool executor workspace)
    (scores : Scores) :
    this.Decides pool executor comparison literal (workspace, scores)
      ((Filter.rangeFor comparison fraction.1 fraction.2).contains
        (this.content executor scores .whole * unitScore +
          this.content executor scores .fraction)) := by
  have planEq : (Statement.compare this comparison literal).plan =
      Plan.withScratch 0 .int this.address fun _ => Filter.joinPlan this precision := by
    simp only [Statement.plan, Statement.comparePlan, tyEq, rationalEq, Except.map, Plan.ofExcept]
  rcases acquired : workspace.acquire pool .int this.address with ⟨lease, opened⟩
  rw [Statement.TakesFresh, planEq, Plan.withScratch, Plan.TakesFresh, acquired] at fresh
  obtain ⟨leaseFresh, joinFresh⟩ := fresh
  have valueTy : lease.value.ty = .int := by
    have valueEq := workspace.acquire_value pool .int this.address
    rw [acquired] at valueEq
    rw [valueEq, Workspace.scratchAt_ty]
  have succeeds : (Filter.joinPlan this precision).failure? = none := by
    rw [Filter.joinPlan, Plan.withUnit_ok scaled]
    rfl
  obtain ⟨commands, later, allocated⟩ := Plan.exists_allocate succeeds pool [lease.value] opened
  have compared : this.compare pool comparison literal workspace =
      (.ok ⟨[⟨lease.value.name, Filter.rangeFor comparison fraction.1 fraction.2⟩], commands,
        some lease⟩, later) := by
    simp only [compare, tyEq, rationalEq, Filter.joined, acquired, allocated]
  refine ⟨_, _, _, _, compared, rfl, rfl, ?_⟩
  intro functions depth
  obtain ⟨joined, kept⟩ := Plan.joinPlan_simulates
    ((Statement.compare this comparison literal).permits_uses executor)
    (fun part => ⟨this, List.mem_singleton_self this, Value.register_mem_of_decimal tyEq part⟩)
    scaled valueTy leaseFresh joinFresh allocated functions depth scores
  refine ⟨by rw [joined], fun register member => ?_⟩
  exact kept register ⟨this, List.mem_singleton_self this, member⟩

/-- What is compared with the literal is the number of the decimal after wrapping around. -/
theorem decides_wrapped (tyEq : this.ty = .decimal precision) (bounded : precision ≤ 9)
    (fresh : (Statement.compare this comparison literal).TakesFresh pool executor workspace)
    (scores : Scores) {number : ℚ} (numberEq : literal.number? = some number) :
    this.Decides pool executor comparison literal (workspace, scores)
      (comparison.Holds (((this.number executor scores).bmod (2 ^ 32) : ℚ) / 10 ^ precision)
        number) := by
  obtain ⟨unitScore, scaled⟩ := Score.exists_scale bounded
  have notTime : Ty.decimal precision ≠ .time := nofun
  obtain ⟨fraction, rationalEq, contains⟩ :=
    Filter.contains_rangeFor_literal comparison notTime scaled numberEq
  have joined : (this.content executor scores .whole * unitScore +
      this.content executor scores .fraction).toInt =
        (this.number executor scores).bmod (2 ^ 32) := by
    rw [Value.number, tyEq, Ty.numberOf, Score.join_eq_ofInt (Score.scale_toInt scaled).2,
      Int32.toInt_ofInt]
    rfl
  have decides := decides_joined tyEq scaled rationalEq fresh scores
  rw [contains, joined] at decides
  exact decides

theorem natAbs_number_lt (tyEq : this.ty = .decimal precision) (bounded : precision ≤ 9)
    (executor : String) (scores : Scores) : (this.number executor scores).natAbs < 2 ^ 63 := by
  have unitSmall : (10 ^ precision : Int).natAbs ≤ 10 ^ 9 := by
    rw [Int.natAbs_pow]
    exact Nat.pow_le_pow_right (by decide) bounded
  have wholeSmall : ((this.content executor scores .whole).toInt * 10 ^ precision).natAbs ≤
      2 ^ 31 * 10 ^ 9 := by
    rw [Int.natAbs_mul]
    exact Nat.mul_le_mul (Score.natAbs_toInt_le _) unitSmall
  have fractionSmall := Score.natAbs_toInt_le (this.content executor scores .fraction)
  rw [number, tyEq, Ty.numberOf, Score.amount]
  omega

/-- A decimal is compared by the number of its units, which wraps around in a register.  So all
comparisons with literals are right exactly if that number fits. -/
theorem literal_comparison_exact_iff (tyEq : this.ty = .decimal precision)
    (bounded : precision ≤ 9) (comparison : Comparison)
    (fresh : ∀ literal,
      (Statement.compare this comparison literal).TakesFresh pool executor workspace)
    (scores : Scores) :
    let total := this.number executor scores
    (∀ literal number, literal.number? = some number →
        this.Decides pool executor comparison literal (workspace, scores)
          (comparison.Holds ((total.bmod (2 ^ 32) : ℚ) / 10 ^ precision) number)) ∧
      ((∀ literal number, literal.number? = some number →
          this.Decides pool executor comparison literal (workspace, scores)
            (comparison.Holds ((total : ℚ) / 10 ^ precision) number)) ↔
        Score.least ≤ total ∧ total ≤ Score.greatest) := by
  intro total
  have wrapped (literal : Literal) (number : ℚ) (numberEq : literal.number? = some number) :=
    decides_wrapped tyEq bounded (fresh literal) scores numberEq
  refine ⟨wrapped, ?_, ?_⟩
  · intro exact
    have wide : total.natAbs < 2 ^ 63 := natAbs_number_lt tyEq bounded executor scores
    have low : -(2 ^ 31) ≤ total.bmod (2 ^ 32) := Int.le_bmod (by decide)
    have high : total.bmod (2 ^ 32) < 2 ^ 31 := Int.bmod_lt (by decide)
    have agree {mantissa : Int} (fits : mantissa.natAbs < 2 ^ 63) :
        comparison.Holds (total / 10 ^ precision) (mantissa / 10 ^ precision) ↔
          comparison.Holds (total.bmod (2 ^ 32) / 10 ^ precision) (mantissa / 10 ^ precision) := by
      have numberEq := Literal.number?_ofInt fits (bounded.trans (by decide))
      exact (exact _ _ numberEq).iff (wrapped _ _ numberEq)
    have same : total = total.bmod (2 ^ 32) := by
      have scaledSame := comparison.eq_of_holds_iff (agree wide) (agree (by omega))
      rw [div_left_inj' (by positivity)] at scaledSame
      exact_mod_cast scaledSame
    rw [same]
    exact ⟨low, Int.le_of_lt_add_one high⟩
  · rintro ⟨low, high⟩ literal number numberEq
    have decides := wrapped literal number numberEq
    rw [Score.bmod_of_inRange low (Int.lt_add_one_of_le high)] at decides
    exact decides

/-- The least decimal with two digits that is compared as it should be, and the next one below,
which is not. -/
theorem comparisons_at_the_edge :
    let this : Value := ⟨"d", .decimal 2, .here, []⟩
    let board (fraction : Score) : Scores := ⟨fun register =>
      if register.objective = "d" then -21474836 else fraction⟩
    let workspace := (Compilation.start {}).workspace
    this.Decides .stacked "Steve" .less (.decimal ⟨-2147483647, 2⟩) (workspace, board (-48)) True ∧
      ¬ ∀ literal number, literal.number? = some number →
        this.Decides .counted "Steve" .greater literal (workspace, board (-49))
          (Comparison.greater.Holds (-2147483649 / 10 ^ 2) number) := by
  intro this board workspace
  have fresh (pool : Pool) (comparison : Comparison) (literal : Literal) :
      (Statement.compare this comparison literal).TakesFresh pool "Steve" workspace := by
    apply Statement.takesFresh_start
    intro value member
    cases List.mem_singleton.mp member
    decide
  have last : this.number "Steve" (board (-48)) = -2147483648 := by decide
  have next : this.number "Steve" (board (-49)) = -2147483649 := by decide
  obtain ⟨_, lastExact⟩ := literal_comparison_exact_iff rfl (by decide) .less
    (fresh .stacked .less) (board (-48))
  obtain ⟨_, nextExact⟩ := literal_comparison_exact_iff rfl (by decide) .greater
    (fresh .counted .greater) (board (-49))
  rw [last] at lastExact
  rw [next] at nextExact
  constructor
  · have numberEq : (Literal.decimal ⟨-2147483647, 2⟩).number? =
        some (((-2147483647 : Int) : ℚ) / 10 ^ 2) := rfl
    have holds : Comparison.less.Holds (((-2147483648 : Int) : ℚ) / 10 ^ 2)
        (((-2147483647 : Int) : ℚ) / 10 ^ 2) := by
      norm_num [Comparison.Holds]
    have decides := lastExact.mpr (by decide) _ _ numberEq
    rwa [iff_true_intro holds] at decides
  · intro every
    have inRange := nextExact.mp (by simpa using every)
    exact absurd inRange.1 (by decide)

/-- Thirty million is at least one, but the filter for `30000000.00 >= 1` says that it is not. -/
theorem comparison_wraps_around :
    let this : Value := ⟨"d", .decimal 2, .here, []⟩
    let scores : Scores := ⟨fun register => if register.objective = "d" then 30000000 else 0⟩
    let workspace := (Compilation.start {}).workspace
    this.Settled "Steve" scores ∧ this.number "Steve" scores = 3000000000 ∧
      (Literal.int 1).number? = some 1 ∧
      (Statement.compare this .greaterOrEqual (.int 1)).TakesFresh .stacked "Steve" workspace ∧
      Comparison.greaterOrEqual.Holds (3000000000 / 10 ^ 2) 1 ∧
      this.Decides .stacked "Steve" .greaterOrEqual (.int 1) (workspace, scores) False := by
  intro this scores workspace
  have settled : this.Settled "Steve" scores := by
    rintro precision ⟨⟩
    exact ⟨by decide, by decide, by decide⟩
  have total : this.number "Steve" scores = 3000000000 := by decide
  have fresh : (Statement.compare this .greaterOrEqual (.int 1)).TakesFresh .stacked "Steve"
      workspace :=
    Statement.takesFresh_start .stacked "Steve" (by decide)
  have numberEq : (Literal.int 1).number? = some 1 := rfl
  have wrapped : (3000000000 : Int).bmod (2 ^ 32) = -1294967296 := by decide
  have fails : ¬ Comparison.greaterOrEqual.Holds (((-1294967296 : Int) : ℚ) / 10 ^ 2) 1 := by
    norm_num [Comparison.Holds]
  have decides := decides_wrapped rfl (by decide) fresh scores numberEq
  rw [total, wrapped, iff_false_intro fails] at decides
  exact ⟨settled, total, numberEq, fresh, by norm_num [Comparison.Holds], decides⟩

end Value
end ScoreLowering
