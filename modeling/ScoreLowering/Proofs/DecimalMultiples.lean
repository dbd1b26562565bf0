import ScoreLowering.Proofs.NumberReadings

/-!
# Multiples of decimals

A decimal is multiplied by a whole number part by part, and then it is carried.  A whole part
that wraps around comes back with the carry.  A fraction that wraps around does not, since the
carry cannot know of it: the product is exact if and only if the fraction's own product is a
score.
-/

namespace ScoreLowering

namespace Score

variable {precision : Nat} {whole fraction factor : Score}

/-- What wrapping around takes from the product of a fraction is less than all that the parts
of a decimal can hold. -/
theorem natAbs_lost_lt (small : fraction.toInt.natAbs < 10 ^ precision) (factor : Score) :
    (fraction.toInt * factor.toInt - (fraction * factor).toInt).natAbs <
      10 ^ precision * 2 ^ 32 := by
  have wrappedSmall := natAbs_toInt_le (fraction * factor)
  have productSmall : (fraction.toInt * factor.toInt).natAbs ≤ (10 ^ precision - 1) * 2 ^ 31 := by
    rw [Int.natAbs_mul]
    exact Nat.mul_le_mul (Nat.le_sub_one_of_lt small) (natAbs_toInt_le factor)
  omega

/-- A multiple that fits is exact just in case the fraction does not wrap around. -/
theorem carried_multiple_iff {unit : Score} (unitEq : unit.toInt = 10 ^ precision)
    (small : fraction.toInt.natAbs < 10 ^ precision)
    (fits : Fits precision (amount precision whole fraction * factor.toInt)) :
    let result := carried unit (whole * factor) (fraction * factor)
    amount precision result.1 result.2 = amount precision whole fraction * factor.toInt ↔
      least ≤ fraction.toInt * factor.toInt ∧ fraction.toInt * factor.toInt ≤ greatest := by
  have regrouped : amount precision whole fraction * factor.toInt =
      whole.toInt * factor.toInt * 10 ^ precision + fraction.toInt * factor.toInt := by
    rw [amount]
    ring
  rw [regrouped] at fits ⊢
  intro result
  constructor
  · intro exact
    obtain ⟨turns, carriedEq⟩ := carried_dvd unitEq (whole * factor) (fraction * factor)
    obtain ⟨wholeTurns, wholeEq⟩ : (2 ^ 32 : Int) ∣
        (whole * factor).toInt - whole.toInt * factor.toInt := by
      rw [Int32.toInt_mul]
      exact Int.dvd_bmod_sub_self
    -- up to full turns of the whole part, all that is missing is what the fraction lost
    have lost : (10 ^ precision * 2 ^ 32 : Int) ∣
        fraction.toInt * factor.toInt - (fraction * factor).toInt := by
      refine ⟨turns + wholeTurns, ?_⟩
      rw [exact, amount] at carriedEq
      linear_combination carriedEq + 10 ^ precision * wholeEq
    have nothing := Int.eq_zero_of_dvd_of_natAbs_lt_natAbs lost (by
      rw [Int.natAbs_mul, Int.natAbs_pow, Int.natAbs_pow]
      exact natAbs_lost_lt small factor)
    rw [Int.sub_eq_zero.mp nothing]
    exact toInt_inRange (fraction * factor)
  · rintro ⟨low, high⟩
    have fractionEq : (fraction * factor).toInt = fraction.toInt * factor.toInt := by
      rw [Int32.toInt_mul, bmod_of_inRange low (Int.lt_add_one_of_le high)]
    have wholeEq : whole * factor = Int32.ofInt (whole.toInt * factor.toInt) := by
      rw [Int32.ofInt_mul, Int32.ofInt_toInt, Int32.ofInt_toInt]
    rw [← fractionEq] at fits ⊢
    exact carried_amount unitEq wholeEq fits

end Score

namespace Plan

variable {executor : String} {this : Value}

theorem partsOf_multiple (level : Nat) {other : Operand} (unitScore : Score) (memory : Memory)
    (apart : other.whole.located executor ≠ partSlot executor this .whole) :
    partsOf executor this
        ((decimalByInteger level this .mul other unitScore).run executor memory) =
      Score.carried unitScore
        (memory (partSlot executor this .whole) * memory (other.whole.located executor))
        (memory (partSlot executor this .fraction) * memory (other.whole.located executor)) := by
  have parts := locate_fraction_ne_whole executor this
  unfold partSlot at apart
  simp only [decimalByInteger, run_append, run_withConstant]
  rw [partsOf_carry executor (level + 1) this (by omega) (Function.update_self ..)]
  simp [Step.run, ScoreOperation.evaluate, Value.operand, partSlot, parts, parts.symm, apart]

theorem multiple_exact_iff {precision : Nat} {unitScore : Score}
    (scaled : Ty.scale precision = .ok unitScore) (level : Nat) {other : Operand}
    {memory : Memory} (apart : other.whole.located executor ≠ partSlot executor this .whole)
    (settled : SettledAt executor this precision memory) :
    let factor := (memory (other.whole.located executor)).toInt
    let product := amountAt executor this precision memory * factor
    let fraction := (memory (partSlot executor this .fraction)).toInt * factor
    Score.Fits precision product →
      (amountAt executor this precision
          ((decimalByInteger level this .mul other unitScore).run executor memory) = product ↔
        Score.least ≤ fraction ∧ fraction ≤ Score.greatest) := by
  intro factor product fraction fits
  rw [amountAt_eq_partsOf, partsOf_multiple level unitScore memory apart]
  exact Score.carried_multiple_iff (Score.scale_toInt scaled).2 settled.small fits

end Plan

namespace Statement

variable {this other : Value} {precision : Nat}

/-- A multiple that fits is settled in any case.  It is exact exactly if the product with the
fraction alone fits into a register. -/
theorem decimal_multiple_exact_iff (tyEq : this.ty = .decimal precision) (bounded : precision ≤ 9)
    (count : other.ty.isCount) {pool : Pool} {executor : String} {workspace : Workspace}
    (fresh : (operate this .mul other).TakesFresh pool executor workspace)
    (disjoint : ∀ register ∈ this.located executor, register ∉ other.located executor)
    {scores : Scores} (settled : this.Settled executor scores) :
    let product := this.number executor scores * other.number executor scores
    let fraction := (this.content executor scores .fraction).toInt * other.number executor scores
    Score.Fits precision product →
      (operate this .mul other).Ensures pool executor (workspace, scores) fun after =>
        this.Settled executor after ∧ (this.number executor after = product ↔
          Score.least ≤ fraction ∧ fraction ≤ Score.greatest) := by
  intro product fraction fits
  obtain ⟨unitScore, scaled⟩ := Score.exists_scale bounded
  have planEq : (operate this .mul other).plan = _ :=
    Plan.combine_decimal_count .mul tyEq scaled count
  have isOperand : this ∈ (operate this .mul other).operands := List.mem_cons_self
  have numeric : this.ty.isNumeric := by
    rw [tyEq]
    exact decide_eq_true bounded
  have otherSimple := Ty.not_struct_of_isScalar
    (Ty.isScalar_of_isNumeric (Ty.isNumeric_of_isCount count))
  have apart : other.operand.whole.located executor ≠ Plan.partSlot executor this .whole := by
    intro same
    apply disjoint _ (Plan.locate_mem_located tyEq executor .whole)
    rw [← Slot.fixed.inj same]
    exact List.mem_map_of_mem
      (Value.register_mem_registers otherSimple (Ty.whole_mem_parts other.ty))
  have numberEq : this.number executor scores =
      Plan.amountAt executor this precision (Memory.ofScores scores) :=
    Plan.numberAt_decimal tyEq (Memory.ofScores scores)
  have otherEq : other.number executor scores = (other.content executor scores .whole).toInt :=
    Ty.numberOf_of_isCount count _
  refine ensures_of_succeeds (by rw [planEq]; rfl) fun later after run => ⟨?_, ?_⟩
  · apply run.settled_of_plan fresh isOperand
    intro found foundEq
    cases tyEq.symm.trans foundEq
    rw [planEq]
    exact Plan.decimalByInteger_settles scaled 0 .mul other.operand _
  · simp only [product, fraction, numberEq, otherEq] at fits ⊢
    rw [run.number_eq fresh isOperand numeric, Plan.numberAt_decimal tyEq, planEq]
    exact Plan.multiple_exact_iff scaled 0 apart (settled precision tyEq) fits

/-- The greatest multiple of 0.99 that is exact, and the next one, which is not. -/
theorem last_exact_multiple :
    let this : Value := ⟨"d", .decimal 2, .here, []⟩
    let last : Value := ⟨"i", .int, .player "_", [.global]⟩
    let next : Value := ⟨"t", .time, .here, []⟩
    let scores : Scores := ⟨fun register =>
      if register.objective = "d" then 0 else
      if register.objective = "d.d" then 99 else
      if register.objective = "i" then 21691754 else 21691755⟩
    let before := ((Compilation.start {}).workspace, scores)
    (∃ after, (operate this .mul last).Executes .stacked "Steve" before after ∧
        this.Settled "Steve" after.2 ∧ this.number "Steve" after.2 = 2147483646) ∧
      ∃ after, (operate this .mul next).Executes .counted "Steve" before after ∧
        this.Settled "Steve" after.2 ∧ this.number "Steve" after.2 ≠ 2147483745 := by
  intro this last next scores before
  have lastFresh : (operate this .mul last).TakesFresh .stacked "Steve" before.1 :=
    takesFresh_start .stacked "Steve" (by decide)
  have nextFresh : (operate this .mul next).TakesFresh .counted "Steve" before.1 :=
    takesFresh_start .counted "Steve" (by decide)
  have settled : this.Settled "Steve" scores := by
    rintro precision ⟨⟩
    exact ⟨by decide, by decide, by decide⟩
  obtain ⟨⟨_, lastRun⟩, lastHolds⟩ := decimal_multiple_exact_iff rfl (by decide) (by decide)
    lastFresh (by decide) settled (by decide)
  obtain ⟨⟨_, nextRun⟩, nextHolds⟩ := decimal_multiple_exact_iff rfl (by decide) (by decide)
    nextFresh (by decide) settled (by decide)
  obtain ⟨lastSettled, lastExact⟩ := lastHolds _ lastRun
  obtain ⟨nextSettled, nextExact⟩ := nextHolds _ nextRun
  have lastProduct : this.number "Steve" scores * last.number "Steve" scores = 2147483646 := by
    decide
  have nextProduct : this.number "Steve" scores * next.number "Steve" scores = 2147483745 := by
    decide
  rw [lastProduct] at lastExact
  rw [nextProduct] at nextExact
  exact ⟨⟨_, lastRun, lastSettled, lastExact.mpr (by decide)⟩,
    ⟨_, nextRun, nextSettled, nextExact.not.mpr (by decide)⟩⟩

/-- 0.99 times thirty million would be 29700000.00, and comes out as -13249672.96. -/
theorem multiple_wraps_around :
    let this : Value := ⟨"d", .decimal 2, .here, []⟩
    let other : Value := ⟨"i", .int, .here, []⟩
    let scores : Scores := ⟨fun register =>
      if register.objective = "d" then 0 else
      if register.objective = "d.d" then 99 else 30000000⟩
    let workspace := (Compilation.start {}).workspace
    this.Settled "Steve" scores ∧ this.number "Steve" scores = 99 ∧
      other.number "Steve" scores = 30000000 ∧ Score.Fits 2 (99 * 30000000) ∧
      (operate this .mul other).TakesFresh .stacked "Steve" workspace ∧
      ∃ after, (operate this .mul other).Executes .stacked "Steve" (workspace, scores) after ∧
        this.number "Steve" after.2 = -1324967296 := by
  intro this other scores workspace
  have settled : this.Settled "Steve" scores := by
    rintro precision ⟨⟩
    exact ⟨by decide, by decide, by decide⟩
  have fresh : (operate this .mul other).TakesFresh .stacked "Steve" workspace :=
    takesFresh_start .stacked "Steve" (by decide)
  have succeeds : (operate this .mul other).plan.failure? = none := rfl
  have run := executes_lowered succeeds .stacked "Steve" workspace scores
  exact ⟨settled, by decide, by decide, by decide, fresh, _, run, by decide +kernel⟩

end Statement

end ScoreLowering
