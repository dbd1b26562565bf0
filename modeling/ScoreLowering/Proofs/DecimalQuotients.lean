import ScoreLowering.Proofs.NumberReadings

/-!
# Decimals divided by whole numbers

To divide a decimal or to take its remainder, both parts are joined in one register, and the
result is split into parts again.  Splitting loses nothing.  So the result is that of the board
for the joined numbers, which is the exact one as long as these are scores.
-/

namespace ScoreLowering

namespace Score

variable {precision : Nat} {unit : Score}

/-- A number that is split into parts stays the same. -/
theorem carried_zero_amount (unitEq : unit.toInt = 10 ^ precision) (number : Score) :
    amount precision (carried unit 0 number).1 (carried unit 0 number).2 = number.toInt := by
  have wraps : (0 : Score) = Int32.ofInt 0 := rfl
  have whole := ediv_inRange number (pow_ten_pos precision)
  have fits : Fits precision (0 * 10 ^ precision + number.toInt) := by
    rw [Int.zero_mul, Int.zero_add]
    exact ⟨whole.1, Int.le_of_lt_add_one whole.2⟩
  rw [carried_amount unitEq wraps fits, Int.zero_mul, Int.zero_add]

end Score

namespace Plan

variable {executor : String} {precision : Nat} {unitScore : Score} {this : Value}

theorem partsOf_splitFrom (executor : String) (level : Nat) (this : Value)
    {joinedLevel unitLevel : Nat} {memory : Memory} (unitApart : unitLevel ≠ level)
    (unitEq : memory (.scratch unitLevel .whole) = unitScore) :
    partsOf executor this ((splitFrom level this (.scratch joinedLevel .whole)
        (.scratch unitLevel .whole) unitScore).run executor memory) =
      Score.carried unitScore 0 (memory (.scratch joinedLevel .whole)) := by
  have parts := locate_fraction_ne_whole executor this
  rw [splitFrom, run_append, partsOf_carry executor level this unitApart]
  · simp [Step.run, ScoreOperation.evaluate, Value.operand, partSlot, parts.symm]
  · simpa [Step.run, Value.operand] using unitEq

/-- The parts of a decimal joined in one register. -/
def joinedAt (executor : String) (value : Operand) (unitScore : Score) (memory : Memory) : Score :=
  memory (value.whole.located executor) * unitScore + memory (value.fraction.located executor)

theorem partsOf_quotient {level : Nat} {other : Operand} (unitScore : Score) (memory : Memory)
    (below : other.Below executor level) :
    partsOf executor this
        ((decimalByInteger level this .div other unitScore).run executor memory) =
      Score.carried unitScore 0 (Score.truncated (joinedAt executor this.operand unitScore memory)
        (memory (other.whole.located executor))) := by
  have notUnit := (below level (Nat.le_refl level)).1
  have notJoined := (below (level + 1) (by omega)).1
  have notRemainder := (below (level + 2) (by omega)).1
  simp only [decimalByInteger, run_withConstant]
  rw [run_withCombined _ _ _ (by omega) (Operand.below_operand executor this (level + 1)),
    run_append, partsOf_splitFrom executor (level + 2) this (by omega)]
  · congr 1
    refine (run_truncatingDivide executor (level + 2) this.address _ ?_ notRemainder ?_).trans ?_
    · simp
    · exact notJoined
    · simp [Value.operand, joinedAt, notUnit, notJoined]
  · rw [run_truncatingDivide_of_ne _ _ (by simp) (by simp)]
    simp

theorem partsOf_remainder {level : Nat} {other : Operand} (unitScore : Score) (memory : Memory)
    (below : other.Below executor level) :
    partsOf executor this
        ((decimalByInteger level this .mod other unitScore).run executor memory) =
      Score.carried unitScore 0 ((joinedAt executor this.operand unitScore memory).floorModulo
        (memory (other.whole.located executor) * unitScore)) := by
  have notUnit := (below level (Nat.le_refl level)).1
  have notJoined := (below (level + 1) (by omega)).1
  simp only [decimalByInteger, run_withConstant]
  rw [run_withCombined _ _ _ (by omega) (Operand.below_operand executor this (level + 1)),
    run_withScratch, run_append, partsOf_splitFrom executor (level + 3) this (by omega)]
  · congr 1
    simp [Step.run, ScoreOperation.evaluate, Operand.scratch, Value.operand, joinedAt, notUnit,
      notJoined]
  · simp [Step.run, Operand.scratch]

theorem joinedAt_eq_ofInt (scaled : Ty.scale precision = .ok unitScore) (memory : Memory) :
    joinedAt executor this.operand unitScore memory =
      Int32.ofInt (amountAt executor this precision memory) :=
  Score.join_eq_ofInt (Score.scale_toInt scaled).2 _ _

theorem joinedAt_toInt (scaled : Ty.scale precision = .ok unitScore) {memory : Memory}
    (inRange : Score.InRange (amountAt executor this precision memory)) :
    (joinedAt executor this.operand unitScore memory).toInt =
      amountAt executor this precision memory := by
  rw [joinedAt_eq_ofInt scaled, Score.toInt_ofInt inRange]

theorem amountAt_quotient (scaled : Ty.scale precision = .ok unitScore) {level : Nat}
    {other : Operand} (memory : Memory) (below : other.Below executor level) :
    amountAt executor this precision
        ((decimalByInteger level this .div other unitScore).run executor memory) =
      (Score.truncated (joinedAt executor this.operand unitScore memory)
        (memory (other.whole.located executor))).toInt := by
  rw [amountAt_eq_partsOf, partsOf_quotient unitScore memory below,
    Score.carried_zero_amount (Score.scale_toInt scaled).2]

/-- A quotient is cut off toward zero. -/
theorem quotient_amount (scaled : Ty.scale precision = .ok unitScore) {level : Nat}
    {other : Operand} {memory : Memory} (below : other.Below executor level)
    (inRange : Score.InRange (amountAt executor this precision memory))
    (nonzero : (memory (other.whole.located executor)).toInt ≠ 0)
    (fits : ¬ (amountAt executor this precision memory = Score.least ∧
      (memory (other.whole.located executor)).toInt = -1)) :
    amountAt executor this precision
        ((decimalByInteger level this .div other unitScore).run executor memory) =
      (amountAt executor this precision memory).tdiv
        (memory (other.whole.located executor)).toInt := by
  have notZero : memory (other.whole.located executor) ≠ 0 :=
    fun isZero => nonzero (congrArg Int32.toInt isZero)
  rw [← joinedAt_toInt scaled inRange] at fits ⊢
  rw [amountAt_quotient scaled memory below, Score.truncated_toInt_of_fits notZero fits]

theorem quotient_amount_zero (scaled : Ty.scale precision = .ok unitScore) {level : Nat}
    {other : Operand} {memory : Memory} (below : other.Below executor level)
    (inRange : Score.InRange (amountAt executor this precision memory))
    (zero : (memory (other.whole.located executor)).toInt = 0) :
    amountAt executor this precision
        ((decimalByInteger level this .div other unitScore).run executor memory) =
      amountAt executor this precision memory := by
  have isZero : memory (other.whole.located executor) = 0 := Int32.toInt_inj.mp zero
  rw [amountAt_quotient scaled memory below, isZero, Score.truncated_zero,
    joinedAt_toInt scaled inRange]

/-- A remainder has the sign of the divisor.  A divisor of zero leaves everything. -/
theorem remainder_amount (scaled : Ty.scale precision = .ok unitScore) {level : Nat}
    {other : Operand} {memory : Memory} (below : other.Below executor level)
    (inRange : Score.InRange (amountAt executor this precision memory))
    (divisorInRange : Score.InRange
      ((memory (other.whole.located executor)).toInt * 10 ^ precision)) :
    amountAt executor this precision
        ((decimalByInteger level this .mod other unitScore).run executor memory) =
      (amountAt executor this precision memory).fmod
        ((memory (other.whole.located executor)).toInt * 10 ^ precision) := by
  have unitEq := (Score.scale_toInt scaled).2
  have divisorEq : (memory (other.whole.located executor) * unitScore).toInt =
      (memory (other.whole.located executor)).toInt * 10 ^ precision := by
    rw [Score.scaled_eq_ofInt unitEq, Score.toInt_ofInt divisorInRange]
  rw [amountAt_eq_partsOf, partsOf_remainder unitScore memory below,
    Score.carried_zero_amount unitEq, Score.floorModulo_eq_fmod, joinedAt_toInt scaled inRange,
    divisorEq]

end Plan

namespace Statement

variable {this other : Value} {precision : Nat} {pool : Pool} {executor : String}
variable {workspace : Workspace} {scores : Scores}

/-- A decimal that is combined with a whole number is settled and gets the number that the plan
gives to it, and the whole number stays. -/
theorem ensures_decimal_by_count {operation : Operation} (computes : operation.isTransfer = false)
    (tyEq : this.ty = .decimal precision) {unitScore : Score}
    (scaled : Ty.scale precision = .ok unitScore) (count : other.ty.isCount)
    (fresh : (operate this operation other).TakesFresh pool executor workspace)
    (disjoint : ∀ register ∈ this.located executor, register ∉ other.located executor) :
    (operate this operation other).Ensures pool executor (workspace, scores) fun after =>
      this.Settled executor after ∧
        this.number executor after = Plan.amountAt executor this precision
          ((Plan.decimalByInteger 0 this operation other.operand unitScore).run executor
            (Memory.ofScores scores)) ∧
        ∀ register ∈ other.located executor, after.read register = scores.read register := by
  have planEq : (operate this operation other).plan = _ :=
    Plan.combine_decimal_count operation tyEq scaled count
  have isOperand : this ∈ (operate this operation other).operands := List.mem_cons_self
  have numeric : this.ty.isNumeric := by
    rw [tyEq]
    exact decide_eq_true (Score.scale_toInt scaled).1
  have succeeds : (operate this operation other).plan.failure? = none := by
    rw [planEq]
    cases operation with
    | add | sub | mul | div | mod => rfl
    | set | swap => cases computes
  have notSwap : operation ≠ .swap := by
    rintro rfl
    cases computes
  refine ensures_of_succeeds succeeds fun later after run => ⟨?_, ?_, ?_⟩
  · apply run.settled_of_plan fresh isOperand
    intro found foundEq
    cases tyEq.symm.trans foundEq
    rw [planEq]
    exact Plan.decimalByInteger_settles scaled 0 operation other.operand _
  · rw [run.number_eq fresh isOperand numeric, Plan.numberAt_decimal tyEq, planEq]
  · intro register member
    exact run.read_right fresh notSwap member fun inside => disjoint register inside member

/-- A decimal that fits into a register as a whole is divided exactly, quotients cut off toward
zero and remainders taken from the floor.  A divisor of zero changes nothing. -/
theorem decimal_quotient_truncates (tyEq : this.ty = .decimal precision) (bounded : precision ≤ 9)
    (count : other.ty.isCount)
    (fresh : ∀ operation ∈ [Operation.div, .mod],
      (operate this operation other).TakesFresh pool executor workspace)
    (disjoint : ∀ register ∈ this.located executor, register ∉ other.located executor)
    (settled : this.Settled executor scores)
    (inRange : Score.InRange (this.number executor scores)) :
    let number := this.number executor scores
    let divisor := other.number executor scores
    (operate this .div other).Ensures pool executor (workspace, scores) (fun after =>
        this.Settled executor after ∧
          (divisor ≠ 0 → ¬ (number = Score.least ∧ divisor = -1) →
            this.number executor after = number.tdiv divisor) ∧
          (divisor = 0 → ∀ register ∈ this.located executor,
            after.read register = scores.read register) ∧
          ∀ register ∈ other.located executor, after.read register = scores.read register) ∧
      (operate this .mod other).Ensures pool executor (workspace, scores) fun after =>
        this.Settled executor after ∧
          (Score.InRange (divisor * 10 ^ precision) → divisor ≠ 0 →
            this.number executor after = number.fmod (divisor * 10 ^ precision)) ∧
          (divisor = 0 → ∀ register ∈ this.located executor,
            after.read register = scores.read register) ∧
          ∀ register ∈ other.located executor, after.read register = scores.read register := by
  intro number divisor
  obtain ⟨unitScore, scaled⟩ := Score.exists_scale bounded
  have numeric : this.ty.isNumeric := by
    rw [tyEq]
    exact decide_eq_true bounded
  have numberEq : number = Plan.amountAt executor this precision (Memory.ofScores scores) :=
    Plan.numberAt_decimal tyEq (Memory.ofScores scores)
  have divisorEq : divisor = (Memory.ofScores scores
      (other.operand.whole.located executor)).toInt := Ty.numberOf_of_isCount count _
  have below := Operand.below_operand executor other 0
  have inRangeAt : Score.InRange
      (Plan.amountAt executor this precision (Memory.ofScores scores)) := numberEq ▸ inRange
  have quotient := Plan.quotient_amount scaled below inRangeAt
  have undivided := Plan.quotient_amount_zero scaled below inRangeAt
  have remainder := Plan.remainder_amount scaled below inRangeAt
  rw [← numberEq, ← divisorEq] at quotient undivided remainder
  refine ⟨(ensures_decimal_by_count rfl tyEq scaled count (fresh .div (by simp)) disjoint).mono ?_,
    (ensures_decimal_by_count rfl tyEq scaled count (fresh .mod (by simp)) disjoint).mono ?_⟩
  · rintro after ⟨settledAfter, afterEq, kept⟩
    rw [← afterEq] at quotient undivided
    refine ⟨settledAfter, quotient, fun zero register member => ?_, kept⟩
    exact Value.read_of_same_number numeric settled settledAfter (undivided zero) member
  · rintro after ⟨settledAfter, afterEq, kept⟩
    rw [← afterEq] at remainder
    refine ⟨settledAfter, fun divisorInRange _ => remainder divisorInRange,
      fun zero register member => ?_, kept⟩
    have nothing : divisor * 10 ^ precision = 0 := by rw [zero, Int.zero_mul]
    rw [nothing, Int.fmod_zero] at remainder
    exact Value.read_of_same_number numeric settled settledAfter (remainder (by decide)) member

/-- The least number of two digits that can be joined in one register, divided with a rest, and
reduced by a divisor next to it.  Without a divisor it stays. -/
theorem decimal_quotients_at_the_ends :
    let this : Value := ⟨"d", .decimal 2, .here, []⟩
    let three : Value := ⟨"i", .int, .player "_", [.global]⟩
    let ticks : Value := ⟨"t", .time, .here, []⟩
    let nothing : Value := ⟨"n", .int, .here, []⟩
    let scores : Scores := ⟨fun register =>
      if register.objective = "d" then -21474836 else
      if register.objective = "d.d" then -48 else
      if register.objective = "i" then 3 else
      if register.objective = "t" then -21474836 else 0⟩
    let before := ((Compilation.start {}).workspace, scores)
    (∃ after, (operate this .div three).Executes .stacked "Steve" before after ∧
        this.Settled "Steve" after.2 ∧ this.number "Steve" after.2 = -715827882 ∧
        ∀ register ∈ three.located "Steve", after.2.read register = scores.read register) ∧
      (∃ after, (operate this .mod ticks).Executes .counted "Steve" before after ∧
        this.Settled "Steve" after.2 ∧ this.number "Steve" after.2 = -48) ∧
      ∃ after, (operate this .div nothing).Executes .stacked "Steve" before after ∧
        ∀ register ∈ this.located "Steve", after.2.read register = scores.read register := by
  intro this three ticks nothing scores before
  have settled : this.Settled "Steve" scores := by
    rintro precision ⟨⟩
    exact ⟨by decide, by decide, by decide⟩
  have inRange : Score.InRange (this.number "Steve" scores) := by decide
  have plain : ∀ other ∈ [three, ticks, nothing], ∀ value ∈ [this, other],
      ∀ objective ∈ value.objectives, objective.toList.head? ≠ some '_' := by decide
  have fresh (pool : Pool) (other : Value) (member : other ∈ [three, ticks, nothing])
      (operation : Operation) (_ : operation ∈ [Operation.div, .mod]) :
      (operate this operation other).TakesFresh pool "Steve" before.1 :=
    takesFresh_start pool "Steve" (plain other member)
  obtain ⟨⟨⟨_, quotientRun⟩, quotient⟩, _⟩ := decimal_quotient_truncates rfl (by decide)
    (by decide) (fresh .stacked three (by simp)) (by decide) settled inRange
  obtain ⟨_, ⟨_, remainderRun⟩, remainder⟩ := decimal_quotient_truncates rfl (by decide)
    (by decide) (fresh .counted ticks (by simp)) (by decide) settled inRange
  obtain ⟨⟨⟨_, undividedRun⟩, undivided⟩, _⟩ := decimal_quotient_truncates rfl (by decide)
    (by decide) (fresh .stacked nothing (by simp)) (by decide) settled inRange
  obtain ⟨quotientSettled, quotientNumber, _, kept⟩ := quotient _ quotientRun
  obtain ⟨remainderSettled, remainderNumber, _⟩ := remainder _ remainderRun
  obtain ⟨_, _, unchanged, _⟩ := undivided _ undividedRun
  exact ⟨⟨_, quotientRun, quotientSettled,
      (quotientNumber (by decide) (by decide)).trans (by decide), kept⟩,
    ⟨_, remainderRun, remainderSettled,
      (remainderNumber (by decide) (by decide)).trans (by decide)⟩,
    ⟨_, undividedRun, unchanged (by decide)⟩⟩

/-- If digests make scratch registers coincide, the unit is lost before the parts are joined:
3.50 divided by two becomes nothing, and so does what is left of 3.50 modulo two. -/
theorem quotient_with_shared_scratch :
    let this : Value := ⟨"a", .decimal 2, .here, []⟩
    let other : Value := ⟨"i", .int, .here, []⟩
    let scores : Scores := ⟨fun register =>
      if register.objective = "a" then 3 else if register.objective = "a.d" then 50 else 2⟩
    let workspace := (Compilation.start { stackStem := "abcdefghijklmnopqrstu" }).workspace
    this.Settled "Steve" scores ∧ this.number "Steve" scores = 350 ∧
      other.number "Steve" scores = 2 ∧
      (∀ register ∈ this.located "Steve", register ∉ other.located "Steve") ∧
      (∀ value ∈ [this, other], ∀ objective ∈ value.objectives, ∀ position < 4,
        objective ∉ (workspace.scratchAt .stacked .int .here position).objectives) ∧
      (∃ after, (operate this .div other).Executes .stacked "Steve" (workspace, scores) after ∧
        this.number "Steve" after.2 = 0) ∧
      ∃ after, (operate this .mod other).Executes .stacked "Steve" (workspace, scores) after ∧
        this.number "Steve" after.2 = 0 := by
  intro this other scores workspace
  have settled : this.Settled "Steve" scores := by
    rintro precision ⟨⟩
    exact ⟨by decide, by decide, by decide⟩
  have quotientSucceeds : (operate this .div other).plan.failure? = none := rfl
  have remainderSucceeds : (operate this .mod other).plan.failure? = none := rfl
  have quotientRun := executes_lowered quotientSucceeds .stacked "Steve" workspace scores
  have remainderRun := executes_lowered remainderSucceeds .stacked "Steve" workspace scores
  exact ⟨settled, by decide, by decide, by decide, by decide +kernel,
    ⟨_, quotientRun, by decide +kernel⟩, ⟨_, remainderRun, by decide +kernel⟩⟩

end Statement
end ScoreLowering
