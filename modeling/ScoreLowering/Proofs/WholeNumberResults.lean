import ScoreLowering.Proofs.DecimalQuotients

/-!
# Whole numbers combined with decimals

Both sides are brought to the unit of the decimal, and the result is cut off toward zero.
Registers may wrap around on the way to a sum, a difference or a product: what counts is that
the number that is cut off is a score.  A quotient and a remainder are taken from both sides, so
each of them has to be a score.
-/

namespace ScoreLowering

namespace Operation

/-- What becomes of a whole number that is combined with a decimal, which is counted in units of
its last digit.  A zero divisor leaves it. -/
def wholeResult (operation : Operation) (unit left right : Int) : Int :=
  match operation with
  | set | swap => right.tdiv unit
  | add => (left * unit + right).tdiv unit
  | sub => (left * unit - right).tdiv unit
  | mul => (left * right).tdiv unit
  | div => if right = 0 then left else (left * unit).tdiv right
  | mod => if right = 0 then left else ((left * unit).fmod right).tdiv unit

/-- Where the result depends on it, no number wraps around. -/
def StaysInRange (operation : Operation) (unit left right : Int) : Prop :=
  match operation with
  | set | swap => True
  | add => Score.InRange (left * unit + right)
  | sub => Score.InRange (left * unit - right)
  | mul => Score.InRange (left * right)
  | div =>
      right = 0 ∨ Score.InRange (left * unit) ∧ Score.InRange right ∧
        ¬ (left * unit = Score.least ∧ right = -1)
  | mod => Score.InRange (left * unit) ∧ Score.InRange right

instance (operation : Operation) (unit left right : Int) :
    Decidable (operation.StaysInRange unit left right) :=
  match operation with
  | set | swap => inferInstanceAs (Decidable True)
  | add | sub | mul => inferInstanceAs (Decidable (Score.InRange _))
  | div => inferInstanceAs (Decidable (_ ∨ _))
  | mod => inferInstanceAs (Decidable (_ ∧ _))

end Operation

namespace Score

variable {precision : Nat} {unit : Score}

/-- Sums and differences with a scaled number are cut off exactly, also if one of the sides has
wrapped around, and remainders if none has. -/
theorem scaledResult_toInt (unitEq : unit.toInt = 10 ^ precision) {operation : Operation}
    (scales : operation ∈ [Operation.add, .sub, .mod]) (left : Score) {right : Int}
    (inRange : operation.StaysInRange (10 ^ precision) left.toInt right) :
    (truncated (operation.native.evaluate (left * unit) (Int32.ofInt right)) unit).toInt =
      operation.wholeResult (10 ^ precision) left.toInt right := by
  rw [truncated_pow_toInt _ unitEq, scaled_eq_ofInt unitEq]
  cases operation with
  | add =>
      rw [Operation.native, ScoreOperation.evaluate, ← Int32.ofInt_add, toInt_ofInt inRange,
        Operation.wholeResult]
  | sub =>
      rw [Operation.native, ScoreOperation.evaluate, ← Int32.ofInt_sub, toInt_ofInt inRange,
        Operation.wholeResult]
  | mod =>
      rw [Operation.native, ScoreOperation.evaluate, floorModulo_eq_fmod,
        toInt_ofInt inRange.1, toInt_ofInt inRange.2, Operation.wholeResult]
      split
      · -- the scaled number is left, and it is a multiple of the unit
        rename_i zero
        rw [zero, Int.fmod_zero, Int.mul_tdiv_cancel _ (Int.ne_of_gt (pow_ten_pos precision))]
      · rfl
  | set | swap | mul | div => simp at scales

theorem productResult_toInt (unitEq : unit.toInt = 10 ^ precision) (left : Score) {right : Int}
    (inRange : InRange (left.toInt * right)) :
    (truncated (Int32.ofInt right * left) unit).toInt =
      Operation.mul.wholeResult (10 ^ precision) left.toInt right := by
  have product : Int32.ofInt right * left = Int32.ofInt (left.toInt * right) := by
    rw [Int32.ofInt_mul, Int32.ofInt_toInt, Int32.mul_comm]
  rw [truncated_pow_toInt _ unitEq, product, toInt_ofInt inRange, Operation.wholeResult]

theorem quotientResult_toInt (unitEq : unit.toInt = 10 ^ precision) (left : Score) {right : Int}
    (inRange : Operation.div.StaysInRange (10 ^ precision) left.toInt right) :
    (if Int32.ofInt right = 0 then left
      else truncated (left * unit) (Int32.ofInt right)).toInt =
      Operation.div.wholeResult (10 ^ precision) left.toInt right := by
  rw [Operation.wholeResult]
  by_cases zero : right = 0
  · have isZero : Int32.ofInt right = 0 := congrArg Int32.ofInt zero
    rw [if_pos zero, if_pos isZero]
  · obtain ⟨dividendInRange, divisorInRange, fits⟩ := inRange.resolve_left zero
    have dividendEq := toInt_ofInt dividendInRange
    have divisorEq := toInt_ofInt divisorInRange
    have nonzero : Int32.ofInt right ≠ 0 := by
      intro isZero
      rw [isZero] at divisorEq
      exact zero divisorEq.symm
    rw [if_neg zero, if_neg nonzero, scaled_eq_ofInt unitEq,
      truncated_toInt_of_fits nonzero (by rwa [dividendEq, divisorEq]), dividendEq, divisorEq]

end Score

namespace Plan

variable {executor : String} {precision : Nat} {unitScore : Score} {level : Nat}
variable {this other : Operand}

theorem run_withScaled {unitLevel : Nat} (body : Slot → Plan) (memory : Memory)
    (unitApart : unitLevel ≠ level) :
    (withScaled level this (.scratch unitLevel .whole) body).run executor memory =
      (body (.scratch level .whole)).run executor (Function.update memory (.scratch level .whole)
        (memory (this.whole.located executor) * memory (.scratch unitLevel .whole))) := by
  simp [withScaled, Operand.scratch, Step.run, ScoreOperation.evaluate, unitApart]

section Results

variable (executor) {resultLevel divisorLevel : Nat} (address : Address) (memory : Memory)
variable (resultApart : resultLevel ≠ level) (divisorApart : divisorLevel ≠ level)
variable (apart : divisorLevel ≠ resultLevel)

include resultApart divisorApart apart

theorem run_truncatingDivide_scratch :
    (truncatingDivide level (.scratch resultLevel .whole) (.scratch divisorLevel .whole)
        address).run executor memory (.scratch resultLevel .whole) =
      Score.truncated (memory (.scratch resultLevel .whole))
        (memory (.scratch divisorLevel .whole)) :=
  run_truncatingDivide executor level address memory (by simpa using resultApart)
    (by simpa using divisorApart) (by simpa using apart)

/-- A result is cut off in its register before it is stored. -/
theorem run_storeTruncated :
    (truncatingDivide level (.scratch resultLevel .whole) (.scratch divisorLevel .whole) address ++
        steps [.operate this.whole .copy (.scratch resultLevel .whole)]).run executor memory
          (this.whole.located executor) =
      Score.truncated (memory (.scratch resultLevel .whole))
        (memory (.scratch divisorLevel .whole)) := by
  have result :=
    run_truncatingDivide_scratch executor address memory resultApart divisorApart apart
  simpa [Step.run, ScoreOperation.evaluate] using result

/-- A quotient is stored only if there is a divisor. -/
theorem run_storeQuotient (below : this.Below executor (min level resultLevel)) :
    (truncatingDivide level (.scratch resultLevel .whole) (.scratch divisorLevel .whole) address ++
        steps [.guarded [(.scratch divisorLevel .whole, nonZero)]
          (.operate this.whole .copy (.scratch resultLevel .whole))]).run executor memory
            (this.whole.located executor) =
      if memory (.scratch divisorLevel .whole) = 0 then memory (this.whole.located executor)
      else Score.truncated (memory (.scratch resultLevel .whole))
        (memory (.scratch divisorLevel .whole)) := by
  have result :=
    run_truncatingDivide_scratch executor address memory resultApart divisorApart apart
  have divisor : (truncatingDivide level (.scratch resultLevel .whole)
      (.scratch divisorLevel .whole) address).run executor memory (.scratch divisorLevel .whole) =
        memory (.scratch divisorLevel .whole) :=
    run_truncatingDivide_of_ne address memory (by simpa using apart) (by simpa using divisorApart)
  have unstored : (truncatingDivide level (.scratch resultLevel .whole)
      (.scratch divisorLevel .whole) address).run executor memory (this.whole.located executor) =
        memory (this.whole.located executor) :=
    run_truncatingDivide_of_ne address memory (below resultLevel (Nat.min_le_right _ _)).1
      (below level (Nat.min_le_left _ _)).1
  -- the guard sees the divisor as it was before the division
  rw [run_append, run_steps_cons, Step.run_guarded_one, Slot.located_scratch, divisor]
  by_cases zero : memory (.scratch divisorLevel .whole) = 0
  · have skipped : ¬ nonZero.contains (memory (.scratch divisorLevel .whole)) :=
      contains_nonZero.not.mpr (not_not.mpr zero)
    rw [if_neg skipped, if_pos zero]
    exact unstored
  · rw [if_pos (contains_nonZero.mpr zero), if_neg zero]
    simpa [Step.run, ScoreOperation.evaluate] using result

end Results

/-- Sums, differences and remainders are taken of the scaled number and the joined decimal. -/
theorem run_scaledResult {operation : Operation}
    (scales : operation ∈ [Operation.add, .sub, .mod]) (memory : Memory)
    (below : this.Below executor level) (otherBelow : other.Below executor level) :
    (integerByDecimal level this operation other unitScore).run executor memory
        (this.whole.located executor) =
      Score.truncated (operation.native.evaluate
        (memory (this.whole.located executor) * unitScore)
        (joinedAt executor other unitScore memory)) unitScore := by
  have notUnit := (below level (Nat.le_refl level)).1
  have otherNotUnit := otherBelow level (Nat.le_refl level)
  have otherNotScaled := otherBelow (level + 1) (by omega)
  have notSwap : operation.native ≠ .swap := by
    intro exchange
    cases operation with
    | swap => simp at scales
    | set | add | sub | mul | div | mod => cases exchange
  have planEq : integerByDecimal level this operation other unitScore =
      withConstant level unitScore this.address fun unit =>
      withScaled (level + 1) this unit fun scaled =>
      withCombined (level + 2) other unit this.address fun combined =>
        steps [.operate scaled operation.native combined] ++
        truncatingDivide (level + 3) scaled unit this.address ++
        steps [.operate this.whole .copy scaled] := by
    cases operation with
    | add | sub | mod => rfl
    | set | swap | mul | div => simp at scales
  rw [planEq, run_withConstant, run_withScaled _ _ (by omega),
    run_withCombined _ _ _ (by omega) (otherBelow.mono (by omega))]
  refine (run_storeTruncated executor this.address _ (by omega) (by omega) (by omega)).trans ?_
  simp [Step.run, notSwap, joinedAt, notUnit, otherNotUnit, otherNotScaled]

theorem run_productResult (memory : Memory) (below : this.Below executor level)
    (otherBelow : other.Below executor level) :
    (integerByDecimal level this .mul other unitScore).run executor memory
        (this.whole.located executor) =
      Score.truncated (joinedAt executor other unitScore memory *
        memory (this.whole.located executor)) unitScore := by
  have notUnit := (below level (Nat.le_refl level)).1
  have notJoined := (below (level + 1) (by omega)).1
  have otherNotUnit := otherBelow level (Nat.le_refl level)
  rw [integerByDecimal, run_withConstant,
    run_withCombined _ _ _ (by omega) (otherBelow.mono (by omega))]
  refine (run_storeTruncated executor this.address _ (by omega) (by omega) (by omega)).trans ?_
  simp [Step.run, ScoreOperation.evaluate, joinedAt, notUnit, notJoined, otherNotUnit]

theorem run_quotientResult (memory : Memory) (below : this.Below executor level)
    (otherBelow : other.Below executor level) :
    (integerByDecimal level this .div other unitScore).run executor memory
        (this.whole.located executor) =
      if joinedAt executor other unitScore memory = 0 then memory (this.whole.located executor)
      else Score.truncated (memory (this.whole.located executor) * unitScore)
        (joinedAt executor other unitScore memory) := by
  have notUnit := (below level (Nat.le_refl level)).1
  have notScaled := (below (level + 1) (by omega)).1
  have notJoined := (below (level + 2) (by omega)).1
  have otherNotUnit := otherBelow level (Nat.le_refl level)
  have otherNotScaled := otherBelow (level + 1) (by omega)
  rw [integerByDecimal, run_withConstant, run_withScaled _ _ (by omega),
    run_withCombined _ _ _ (by omega) (otherBelow.mono (by omega))]
  refine (run_storeQuotient executor this.address _ (by omega) (by omega) (by omega)
    (below.mono (by omega))).trans ?_
  unfold joinedAt
  simp [notUnit, notScaled, notJoined, otherNotUnit, otherNotScaled]

theorem integerByDecimal_toInt {this other : Value} {operation : Operation}
    (computes : operation.isTransfer = false) (scaled : Ty.scale precision = .ok unitScore)
    (level : Nat) {memory : Memory}
    (inRange : operation.StaysInRange (10 ^ precision)
      (memory (partSlot executor this .whole)).toInt (amountAt executor other precision memory)) :
    ((integerByDecimal level this.operand operation other.operand unitScore).run executor memory
        (partSlot executor this .whole)).toInt =
      operation.wholeResult (10 ^ precision) (memory (partSlot executor this .whole)).toInt
        (amountAt executor other precision memory) := by
  have unitEq := (Score.scale_toInt scaled).2
  have joined : joinedAt executor other.operand unitScore memory = _ :=
    joinedAt_eq_ofInt scaled memory
  have below := Operand.below_operand executor this level
  have otherBelow := Operand.below_operand executor other level
  have target : partSlot executor this .whole = this.operand.whole.located executor := rfl
  rw [target] at inRange ⊢
  cases operation with
  | add | sub | mod =>
      rw [run_scaledResult (by simp) memory below otherBelow, joined]
      exact Score.scaledResult_toInt unitEq (by simp) _ inRange
  | mul =>
      rw [run_productResult memory below otherBelow, joined]
      exact Score.productResult_toInt unitEq _ inRange
  | div =>
      rw [run_quotientResult memory below otherBelow, joined]
      exact Score.quotientResult_toInt unitEq _ inRange
  | set | swap => cases computes

end Plan

namespace Statement

variable {this other : Value} {precision : Nat} {pool : Pool} {executor : String}
variable {workspace : Workspace} {scores : Scores}

/-- A count combined with a decimal is computed in units of the decimal and turned back into a
count, as long as no number on the way is too great.  The decimal keeps what it holds. -/
theorem whole_results_truncate {operation : Operation} (computes : operation.isTransfer = false)
    (count : this.ty.isCount) (otherTy : other.ty = .decimal precision) (bounded : precision ≤ 9)
    (fresh : (operate this operation other).TakesFresh pool executor workspace)
    (disjoint : ∀ register ∈ this.located executor, register ∉ other.located executor) :
    let number := this.number executor scores
    let decimal := other.number executor scores
    (operate this operation other).Ensures pool executor (workspace, scores) fun after =>
      (operation.StaysInRange (10 ^ precision) number decimal →
        this.number executor after = operation.wholeResult (10 ^ precision) number decimal) ∧
      ∀ register ∈ other.located executor, after.read register = scores.read register := by
  intro number decimal
  obtain ⟨unitScore, scaled⟩ := Score.exists_scale bounded
  have planEq : (operate this operation other).plan = _ :=
    Plan.combine_count_decimal operation count otherTy scaled
  have numberEq : number = _ := Plan.numberAt_count count (Memory.ofScores scores)
  have decimalEq : decimal = _ := Plan.numberAt_decimal otherTy (Memory.ofScores scores)
  have succeeds : (operate this operation other).plan.failure? = none := by
    rw [planEq]
    cases operation with
    | add | sub | mul | div | mod => rfl
    | set | swap => cases computes
  have notSwap : operation ≠ .swap := by
    rintro rfl
    cases computes
  refine ensures_of_succeeds succeeds fun later after run => ⟨fun inRange => ?_, ?_⟩
  · rw [run.number_eq fresh List.mem_cons_self (Ty.isNumeric_of_isCount count),
      Plan.numberAt_count count, planEq]
    rw [numberEq, decimalEq] at inRange ⊢
    exact Plan.integerByDecimal_toInt computes scaled 0 inRange
  · intro register member
    exact run.read_right fresh notSwap member fun inside => disjoint register inside member

/-- Both sides of a sum are out of range at nine digits, but the sum is not.  A remainder has the
sign of the divisor before it is cut off, and without a divisor a quotient is not stored. -/
theorem whole_results_at_the_ends :
    let this : Value := ⟨"i", .int, .player "_", [.global]⟩
    let ticks : Value := ⟨"t", .time, .here, []⟩
    let deep : Value := ⟨"d", .decimal 9, .here, []⟩
    let half : Value := ⟨"h", .decimal 2, .here, []⟩
    let nothing : Value := ⟨"n", .decimal 2, .here, []⟩
    let scores : Scores := ⟨fun register =>
      if register.objective = "i" then 2147483647 else
      if register.objective = "t" then -7 else
      if register.objective = "d" then -2147483648 else
      if register.objective = "d.d" then -999999999 else
      if register.objective = "h" then 2 else
      if register.objective = "h.d" then 50 else 0⟩
    let before := ((Compilation.start {}).workspace, scores)
    (∃ after, (operate this .add deep).Executes .stacked "Steve" before after ∧
        this.number "Steve" after.2 = -1 ∧
        ∀ register ∈ deep.located "Steve", after.2.read register = scores.read register) ∧
      (∃ after, (operate ticks .mod half).Executes .counted "Steve" before after ∧
        ticks.number "Steve" after.2 = 0) ∧
      ∃ after, (operate ticks .div nothing).Executes .stacked "Steve" before after ∧
        ticks.number "Steve" after.2 = -7 := by
  intro this ticks deep half nothing scores before
  have sumEnsured : (operate this .add deep).Ensures .stacked "Steve" before _ :=
    whole_results_truncate rfl rfl rfl (by decide)
      (takesFresh_start .stacked "Steve" (by decide)) (by decide)
  have remainderEnsured : (operate ticks .mod half).Ensures .counted "Steve" before _ :=
    whole_results_truncate rfl rfl rfl (by decide)
      (takesFresh_start .counted "Steve" (by decide)) (by decide)
  have quotientEnsured : (operate ticks .div nothing).Ensures .stacked "Steve" before _ :=
    whole_results_truncate rfl rfl rfl (by decide)
      (takesFresh_start .stacked "Steve" (by decide)) (by decide)
  obtain ⟨⟨_, sumRun⟩, sum⟩ := sumEnsured
  obtain ⟨⟨_, remainderRun⟩, remainder⟩ := remainderEnsured
  obtain ⟨⟨_, quotientRun⟩, quotient⟩ := quotientEnsured
  obtain ⟨sumNumber, kept⟩ := sum _ sumRun
  obtain ⟨remainderNumber, _⟩ := remainder _ remainderRun
  obtain ⟨quotientNumber, _⟩ := quotient _ quotientRun
  exact ⟨⟨_, sumRun, (sumNumber (by decide)).trans (by decide), kept⟩,
    ⟨_, remainderRun, (remainderNumber (by decide)).trans (by decide)⟩,
    ⟨_, quotientRun, (quotientNumber (by decide)).trans (by decide)⟩⟩

/-- If digests make scratch registers coincide, the unit is lost before the sides are scaled: the
sum of five and 1.50 becomes nothing. -/
theorem whole_result_with_shared_scratch :
    let this : Value := ⟨"i", .int, .here, []⟩
    let other : Value := ⟨"d", .decimal 2, .here, []⟩
    let scores : Scores := ⟨fun register =>
      if register.objective = "i" then 5 else if register.objective = "d" then 1 else 50⟩
    let workspace := (Compilation.start { stackStem := "abcdefghijklmnopqrstu" }).workspace
    this.number "Steve" scores = 5 ∧ other.number "Steve" scores = 150 ∧
      other.Settled "Steve" scores ∧
      (∀ register ∈ this.located "Steve", register ∉ other.located "Steve") ∧
      (∀ value ∈ [this, other], ∀ objective ∈ value.objectives, ∀ position < 4,
        objective ∉ (workspace.scratchAt .stacked .int .here position).objectives) ∧
      Operation.add.StaysInRange (10 ^ 2) 5 150 ∧ Operation.add.wholeResult (10 ^ 2) 5 150 = 6 ∧
      ∃ after, (operate this .add other).Executes .stacked "Steve" (workspace, scores) after ∧
        this.number "Steve" after.2 = 0 := by
  intro this other scores workspace
  have settled : other.Settled "Steve" scores := by
    rintro precision ⟨⟩
    exact ⟨by decide, by decide, by decide⟩
  have succeeds : (operate this .add other).plan.failure? = none := rfl
  have run := executes_lowered succeeds .stacked "Steve" workspace scores
  exact ⟨by decide, by decide, settled, by decide, by decide +kernel, by decide, by decide,
    ⟨_, run, by decide +kernel⟩⟩

end Statement
end ScoreLowering
