import ScoreLowering.Proofs.NumberReadings

/-!
# Products of decimals

The steps of a multiplication compute the partial products of `Score.productWhole` and
`Score.productFraction`, whatever the scratch registers held before.  Carrying then makes
the product exact, up to the digits that are cut off, as long as it fits.

All reads of the right side come before the left side is written.  So the two sides may be
one value, and they may share registers in any other way.
-/

namespace ScoreLowering

namespace Plan

variable {executor : String} {precision otherPrecision : Nat} {unitScore : Score} {this : Value}

theorem run_steps_append (executor : String) (first next : List Step) (memory : Memory) :
    (steps (first ++ next)).run executor memory =
      (steps next).run executor ((steps first).run executor memory) :=
  List.foldl_append

/-- A partial product: of what `operation` takes out of a whole part, and a fraction. -/
def partialProduct (target source unit factor : Slot) (operation : ScoreOperation) : List Step :=
  [.operate target .copy source, .operate target operation unit,
    .operate target .multiply factor]

theorem run_partialProduct {operation : ScoreOperation} (notSwap : operation ≠ .swap)
    {target unit factor : Slot} (source : Slot) (memory : Memory)
    (unitApart : unit.located executor ≠ target.located executor)
    (factorApart : factor.located executor ≠ target.located executor) :
    (steps (partialProduct target source unit factor operation)).run executor memory =
      Function.update memory (target.located executor)
        (operation.evaluate (memory (source.located executor)) (memory (unit.located executor)) *
          memory (factor.located executor)) := by
  simp [partialProduct, Step.run, ScoreOperation.evaluate, notSwap, unitApart, factorApart]

theorem run_addPartialProduct {operation : ScoreOperation} (notSwap : operation ≠ .swap)
    {part target unit factor : Slot} (source : Slot) (memory : Memory)
    (unitApart : unit.located executor ≠ part.located executor)
    (factorApart : factor.located executor ≠ part.located executor)
    (targetApart : target.located executor ≠ part.located executor) :
    (steps (partialProduct part source unit factor operation ++
        [.operate target .add part])).run executor memory =
      let product := operation.evaluate (memory (source.located executor))
        (memory (unit.located executor)) * memory (factor.located executor)
      Function.update (Function.update memory (part.located executor) product)
        (target.located executor) (memory (target.located executor) + product) := by
  rw [run_steps_append, run_partialProduct notSwap source memory unitApart factorApart]
  simp [Step.run, ScoreOperation.evaluate, targetApart]

/-- The first product of a multiplication, cut off, and what is left untouched by it. -/
theorem run_fractionProduct (this : Value) {level unitLevel : Nat} {other : Operand}
    (address : Address) (memory : Memory) (unitBelow : unitLevel < level)
    (below : other.Below executor level) :
    let after := (steps
        [.operate (.scratch level .whole) .copy this.operand.fraction,
         .operate (.scratch level .whole) .multiply other.fraction] ++
      truncatingDivide (level + 3) (.scratch level .whole) (.scratch unitLevel .whole)
        address).run executor memory
    after (.scratch level .whole) = Score.truncated
        (memory (partSlot executor this .fraction) * memory (other.fraction.located executor))
        (memory (.scratch unitLevel .whole)) ∧
      ∀ slot : Slot, slot ≠ .scratch level .whole → slot ≠ .scratch (level + 3) .whole →
        after slot = memory slot := by
  intro after
  have fractionBelow := (below level (Nat.le_refl level)).2
  have product : (steps
      [.operate (.scratch level .whole) .copy this.operand.fraction,
       .operate (.scratch level .whole) .multiply other.fraction]).run executor memory =
      Function.update memory (.scratch level .whole)
        (memory (partSlot executor this .fraction) * memory (other.fraction.located executor)) := by
    simp [Step.run, ScoreOperation.evaluate, Value.operand, partSlot, fractionBelow]
  simp only [after, run_append, product]
  constructor
  · refine (run_truncatingDivide executor (level + 3) address _ ?_ ?_ ?_).trans ?_
    · simp
    · simp
      omega
    · simp
      omega
    · have unitApart : unitLevel ≠ level := Nat.ne_of_lt unitBelow
      simp [unitApart]
  · intro slot notProduct notRemainder
    rw [run_of_not_mem_writes, Function.update_of_ne notProduct]
    simp [writes, truncatingDivide, withScratch, Step.writes, Operand.scratch, notProduct,
      notRemainder]

/-- The remaining products of a multiplication.  Those with a remainder of a whole part are
added to the first one, those with a quotient to the product of the whole parts. -/
def remainingProducts (level : Nat) (this other : Operand) (unit : Slot) : List Step :=
  let fraction := .scratch level .whole
  let whole := .scratch (level + 1) .whole
  let part := .scratch (level + 2) .whole
  partialProduct part other.whole unit this.fraction .modulo ++ [.operate fraction .add part] ++
    ((partialProduct part this.whole unit other.fraction .modulo ++
      [.operate fraction .add part]) ++
    (partialProduct whole other.whole unit this.fraction .divide ++
    ((partialProduct part this.whole unit other.fraction .divide ++
      [.operate whole .add part]) ++
    [.operate this.whole .multiply other.whole, .operate this.whole .add whole,
      .operate this.fraction .copy fraction])))

theorem run_multiply_eq (executor : String) (level : Nat) (this other : Operand) (unit : Slot)
    (memory : Memory) :
    (multiply level this other unit).run executor memory =
      (steps (remainingProducts level this other unit)).run executor
        ((steps
          [.operate (.scratch level .whole) .copy this.fraction,
           .operate (.scratch level .whole) .multiply other.fraction] ++
        truncatingDivide (level + 3) (.scratch level .whole) unit this.address).run
          executor memory) :=
  rfl

theorem run_remainingProducts (this : Value) {level unitLevel : Nat} {other : Operand}
    (memory : Memory) (unitBelow : unitLevel < level)
    (below : other.Below executor level) :
    let after := (steps (remainingProducts level this.operand other
      (.scratch unitLevel .whole))).run executor memory
    let unit := memory (.scratch unitLevel .whole)
    let whole := memory (partSlot executor this .whole)
    let fraction := memory (partSlot executor this .fraction)
    let otherWhole := memory (other.whole.located executor)
    let otherFraction := memory (other.fraction.located executor)
    after (partSlot executor this .whole) =
        Score.productWhole unit whole fraction otherWhole otherFraction ∧
      after (partSlot executor this .fraction) =
        memory (.scratch level .whole) + otherWhole.floorModulo unit * fraction +
          whole.floorModulo unit * otherFraction := by
  intro after unit whole fraction otherWhole otherFraction
  have apart := locate_fraction_ne_whole executor this
  obtain ⟨whole0, fraction0⟩ := below level (Nat.le_refl level)
  obtain ⟨whole1, fraction1⟩ := below (level + 1) (by omega)
  obtain ⟨whole2, fraction2⟩ := below (level + 2) (by omega)
  have unit0 : unitLevel ≠ level := by omega
  have unit1 : unitLevel ≠ level + 1 := by omega
  have unit2 : unitLevel ≠ level + 2 := by omega
  have unitApart {above : Nat} (higher : unitLevel ≠ above) :
      (Slot.scratch unitLevel .whole).located executor ≠
        (Slot.scratch above .whole).located executor := by simp [higher]
  have fractionApart (above : Nat) : this.operand.fraction.located executor ≠
      (Slot.scratch above .whole).located executor := by simp [Value.operand]
  have sumApart {above : Nat} (higher : above ≠ level + 2) :
      (Slot.scratch above .whole).located executor ≠
        (Slot.scratch (level + 2) .whole).located executor := by simp [higher]
  simp only [after, remainingProducts]
  rw [run_steps_append, run_addPartialProduct (by decide) _ _ (unitApart unit2)
      (fractionApart _) (sumApart (by omega)),
    run_steps_append, run_addPartialProduct (by decide) _ _ (unitApart unit2) fraction2
      (sumApart (by omega)),
    run_steps_append, run_partialProduct (by decide) _ _ (unitApart unit1) (fractionApart _),
    run_steps_append, run_addPartialProduct (by decide) _ _ (unitApart unit2) fraction2
      (sumApart (by omega))]
  constructor
  · simp [Step.run, ScoreOperation.evaluate, Value.operand, partSlot, whole0, whole1, whole2,
      fraction0, fraction1, fraction2, unit0, unit1, unit2, apart.symm]
    rfl
  · simp [Step.run, ScoreOperation.evaluate, Value.operand, partSlot, whole0, whole1, whole2,
      fraction0, fraction1, fraction2, unit0, unit1, unit2]
    rfl

theorem run_multiply (this : Value) {level unitLevel : Nat} {other : Operand} (memory : Memory)
    (unitBelow : unitLevel < level) (below : other.Below executor level) :
    let after := (multiply level this.operand other (.scratch unitLevel .whole)).run executor memory
    let unit := memory (.scratch unitLevel .whole)
    let whole := memory (partSlot executor this .whole)
    let fraction := memory (partSlot executor this .fraction)
    let otherWhole := memory (other.whole.located executor)
    let otherFraction := memory (other.fraction.located executor)
    after (partSlot executor this .whole) =
        Score.productWhole unit whole fraction otherWhole otherFraction ∧
      after (partSlot executor this .fraction) =
        Score.productFraction unit whole fraction otherWhole otherFraction := by
  intro after unit whole fraction otherWhole otherFraction
  obtain ⟨cutOff, untouched⟩ :=
    run_fractionProduct this this.operand.address memory unitBelow below
  simp only [after, run_multiply_eq]
  generalize (steps _ ++ truncatingDivide _ _ _ _).run executor memory = middle
    at cutOff untouched ⊢
  have unitKept : middle (.scratch unitLevel .whole) = unit :=
    untouched _ (by simp; omega) (by simp; omega)
  have thisKept (part : Part) :
      middle (partSlot executor this part) = memory (partSlot executor this part) :=
    untouched _ (by simp [partSlot]) (by simp [partSlot])
  have wholeKept : middle (other.whole.located executor) = otherWhole :=
    untouched _ (below level (Nat.le_refl level)).1 (below (level + 3) (by omega)).1
  have fractionKept : middle (other.fraction.located executor) = otherFraction :=
    untouched _ (below level (Nat.le_refl level)).2 (below (level + 3) (by omega)).2
  obtain ⟨wholeEq, fractionEq⟩ := run_remainingProducts this middle unitBelow below
  rw [unitKept, thisKept, thisKept, wholeKept, fractionKept] at wholeEq
  rw [cutOff, unitKept, thisKept, thisKept, wholeKept, fractionKept] at fractionEq
  exact ⟨wholeEq, fractionEq⟩

/-- A product of decimals of one precision, in a memory that need not hold the unit yet. -/
theorem partsOf_product {level : Nat} {other : Operand} (unitScore : Score) (memory : Memory)
    (below : other.Below executor level) :
    let whole := memory (partSlot executor this .whole)
    let fraction := memory (partSlot executor this .fraction)
    let otherWhole := memory (other.whole.located executor)
    let otherFraction := memory (other.fraction.located executor)
    partsOf executor this
        ((balancedDecimals level this .mul other unitScore).run executor memory) =
      Score.carried unitScore
        (Score.productWhole unitScore whole fraction otherWhole otherFraction)
        (Score.productFraction unitScore whole fraction otherWhole otherFraction) := by
  intro whole fraction otherWhole otherFraction
  have higher : other.Below executor (level + 1) := fun above le => below above (by omega)
  have start (slot : Slot) (apart : slot ≠ .scratch level .whole) :
      Function.update memory (.scratch level .whole) unitScore slot = memory slot :=
    Function.update_of_ne apart unitScore memory
  obtain ⟨wholeEq, fractionEq⟩ := run_multiply this
    (Function.update memory (.scratch level .whole) unitScore) (Nat.lt_succ_self level) higher
  rw [Function.update_self, start _ (by simp [partSlot]), start _ (by simp [partSlot]),
    start _ (below level (Nat.le_refl level)).1, start _ (below level (Nat.le_refl level)).2]
    at wholeEq fractionEq
  simp only [balancedDecimals, run_withConstant, run_append]
  rw [partsOf_carry executor (level + 1) this (by omega), wholeEq, fractionEq]
  rw [run_scratch_of_not_mem, Function.update_self]
  simp [writes, multiply, truncatingDivide, withScratch, Step.writes, Operand.scratch,
    Value.operand, Nat.add_assoc]

/-- Decimals of one precision are multiplied exactly, up to the digits cut off. -/
theorem balancedProduct_amount (scaled : Ty.scale precision = .ok unitScore)
    (small : precision ≤ maxMultiplyPrecision) {level : Nat} {other : Operand} {memory : Memory}
    (below : other.Below executor level) (settled : SettledAt executor this precision memory)
    (otherSettled : Score.Settled precision (memory (other.whole.located executor))
      (memory (other.fraction.located executor))) :
    let product := Score.multiplyAmounts precision (amountAt executor this precision memory)
      (Score.amount precision (memory (other.whole.located executor))
        (memory (other.fraction.located executor)))
    Score.Fits precision product →
      amountAt executor this precision
        ((balancedDecimals level this .mul other unitScore).run executor memory) = product := by
  intro product fits
  rw [amountAt_eq_partsOf, partsOf_product unitScore memory below]
  exact Score.carried_product (Score.scale_toInt scaled).2 small settled otherSettled fits

theorem decimalByDecimal_mul (small : precision ≤ maxMultiplyPrecision) (level : Nat)
    (other : Operand) (otherPrecision : Nat) (unitScore : Score) :
    decimalByDecimal level this precision .mul other otherPrecision unitScore =
      if precision = otherPrecision then
        balancedDecimals level this .mul other unitScore
      else
        withRescaled level this precision other otherPrecision fun copy =>
          balancedDecimals (level + 1) this .mul copy unitScore := by
  have supported : isUnsupported .mul precision = false := decide_eq_false (Nat.not_lt.mpr small)
  simp only [decimalByDecimal, supported, Bool.false_eq_true, if_false, reduceCtorEq]

/-- The right side is brought to the precision of the left side before the product. -/
theorem decimalProduct_amount {other : Value} (scaled : Ty.scale precision = .ok unitScore)
    (small : precision ≤ maxMultiplyPrecision) (otherSmall : otherPrecision ≤ Ty.maxPrecision)
    (level : Nat) {memory : Memory} (settled : SettledAt executor this precision memory)
    (otherSettled : SettledAt executor other otherPrecision memory) :
    let product := Score.multiplyAmounts precision (amountAt executor this precision memory)
      (Score.rescaleAmount precision otherPrecision
        (amountAt executor other otherPrecision memory))
    Score.Fits precision product →
      amountAt executor this precision
        ((decimalByDecimal level this precision .mul other.operand otherPrecision
          unitScore).run executor memory) = product := by
  intro product fits
  have bounded := (Score.scale_toInt scaled).1
  rw [decimalByDecimal_mul small]
  split
  · rename_i same
    subst same
    simp only [product, Score.rescaleAmount_self] at fits ⊢
    exact balancedProduct_amount scaled small (Operand.below_operand executor other level) settled
      otherSettled fits
  · obtain ⟨middle, ranEq, copySettled, copyAmount, kept⟩ := run_withRescaled_amount this level
      bounded otherSmall (fun copy => balancedDecimals (level + 1) this .mul copy unitScore)
      otherSettled
    have thisKept : amountAt executor this precision middle =
        amountAt executor this precision memory := by
      simp only [amountAt, partSlot, kept]
    have thisSettled : SettledAt executor this precision middle := by
      simpa only [SettledAt, partSlot, kept] using settled
    have productEq : product = Score.multiplyAmounts precision
        (amountAt executor this precision middle)
        (Score.amount precision (middle (.scratch level .whole))
          (middle (.scratch level .fraction))) := by
      rw [thisKept, copyAmount]
    rw [productEq] at fits
    rw [ranEq, productEq]
    exact balancedProduct_amount scaled small
      (Operand.below_scratch executor level this.ty this.address) thisSettled copySettled fits

theorem decimalProduct_succeeds (this : Value) (small : precision ≤ maxMultiplyPrecision)
    (otherSmall : otherPrecision ≤ Ty.maxPrecision) (level : Nat) (other : Operand)
    (unitScore : Score) :
    (decimalByDecimal level this precision .mul other otherPrecision unitScore).failure? =
      none := by
  have supported : isUnsupported .mul precision = false := decide_eq_false (Nat.not_lt.mpr small)
  exact decimalByDecimal_succeeds this supported (Nat.le_trans small (by decide)) otherSmall level
    other unitScore

end Plan

namespace Statement

variable {this other : Value} {precision otherPrecision : Nat}

/-- The plan of a product, once its types are known. -/
theorem plan_product (tyEq : this.ty = .decimal precision)
    (otherTy : other.ty = .decimal otherPrecision) :
    (operate this .mul other).plan = Plan.withUnit precision
      (Plan.decimalByDecimal 0 this precision .mul other.operand otherPrecision) := by
  have sameTy : other.operand.ty = other.ty := rfl
  simp only [plan, Plan.combine, tyEq, Plan.combineAt, Plan.combineScalars, sameTy, otherTy]

/-- Decimals of up to four digits are multiplied by any decimal, the other side cut off to the
digits of this one and the product cut off toward zero.  With more digits the operation is
refused, with more than nine as no precision at all. -/
theorem decimal_product_truncates (tyEq : this.ty = .decimal precision)
    (otherTy : other.ty = .decimal otherPrecision) (pool : Pool) (executor : String)
    (workspace : Workspace) :
    let statement := operate this .mul other
    (precision ≤ 4 → otherPrecision ≤ 9 → statement.TakesFresh pool executor workspace →
        ∀ scores, this.Settled executor scores → other.Settled executor scores →
          let product := Score.multiplyAmounts precision (this.amount executor scores precision)
            (Score.rescaleAmount precision otherPrecision
              (other.amount executor scores otherPrecision))
          Score.Fits precision product →
            (∃ later after, statement.Executes pool executor (workspace, scores) (later, after)) ∧
              ∀ later after, statement.Executes pool executor (workspace, scores) (later, after) →
                this.Settled executor after ∧ this.amount executor after precision = product) ∧
      (4 < precision → precision ≤ 9 → (statement.lower pool workspace).1 =
        .error (.user (.unsupportedOperation "*=" this.ty.text other.ty.text))) ∧
      (9 < precision → (statement.lower pool workspace).1 =
        .error (.user (.invalidPrecision precision 9))) := by
  intro statement
  have planEq : statement.plan = _ := plan_product tyEq otherTy
  refine ⟨?_, ?_, ?_⟩
  · intro small otherSmall fresh scores settled otherSettled product fits
    have bounded : precision ≤ Ty.maxPrecision := Nat.le_trans small (by decide)
    obtain ⟨unitScore, scaled⟩ := Score.exists_scale bounded
    rw [Plan.withUnit_ok scaled] at planEq
    have succeeds := Plan.decimalProduct_succeeds this small otherSmall 0 other.operand unitScore
    rw [← planEq] at succeeds
    have isOperand : this ∈ statement.operands := List.mem_cons_self
    refine ⟨exists_executes succeeds pool executor workspace scores, ?_⟩
    intro later after run
    constructor
    · apply run.settled_of_plan fresh isOperand
      rw [planEq] at succeeds ⊢
      intro found foundEq
      cases tyEq.symm.trans foundEq
      exact Plan.decimalByDecimal_computes scaled 0 rfl _ _ _ succeeds
    · rw [run.amount_eq fresh isOperand tyEq, planEq]
      exact Plan.decimalProduct_amount scaled small otherSmall 0 (settled precision tyEq)
        (otherSettled otherPrecision otherTy) fits
  · intro deep bounded
    obtain ⟨unitScore, scaled⟩ := Score.exists_scale bounded
    have unsupported : Plan.isUnsupported .mul precision := decide_eq_true deep
    apply lower_of_failure
    rw [planEq, Plan.withUnit_ok scaled, Plan.decimalByDecimal, if_pos unsupported]
    rfl
  · intro large
    apply lower_of_failure
    rw [planEq, Plan.withUnit_error large]
    rfl

/-- A decimal is squared to almost the greatest number there is.  Another one, the least of its
precision, is multiplied by a decimal of more digits. -/
theorem decimal_products_at_the_ends :
    let side : Value := ⟨"a", .decimal 2, .player "_", [.global]⟩
    let wide : Value := ⟨"b", .decimal 4, .here, []⟩
    let rate : Value := ⟨"c", .decimal 9, .here, []⟩
    let scores : Scores := ⟨fun register =>
      if register.objective = "a" then -46340 else
      if register.objective = "a.d" then -95 else
      if register.objective = "b" then -2147483648 else
      if register.objective = "b.d" then -9999 else
      if register.objective = "c" then 0 else 999999999⟩
    let before := ((Compilation.start {}).workspace, scores)
    (∃ after, (operate side .mul side).Executes .stacked "Steve" before after ∧
        side.Settled "Steve" after.2 ∧ side.amount "Steve" after.2 2 = 214748364690) ∧
      ∃ after, (operate wide .mul rate).Executes .counted "Steve" before after ∧
        wide.Settled "Steve" after.2 ∧ wide.amount "Steve" after.2 4 = -21472689006350 := by
  intro side wide rate scores before
  have stems : before.1.DefaultStems := Compilation.start_defaultStems
  have fewer (pool : Pool) : before.1.HoldsFewerThan pool (10 ^ 6) :=
    Compilation.start_holdsFewerThan {} pool (by decide)
  have squareFresh : (operate side .mul side).TakesFresh .stacked "Steve" before.1 :=
    takesFresh_of_avoids stems (fewer .stacked) (avoids_of_head stems .stacked (by decide))
  have productFresh : (operate wide .mul rate).TakesFresh .counted "Steve" before.1 :=
    takesFresh_of_avoids stems (fewer .counted) (avoids_of_head stems .counted (by decide))
  have sideSettled : side.Settled "Steve" scores := by
    rintro precision ⟨⟩
    exact ⟨by decide, by decide, by decide⟩
  have wideSettled : wide.Settled "Steve" scores := by
    rintro precision ⟨⟩
    exact ⟨by decide, by decide, by decide⟩
  have rateSettled : rate.Settled "Steve" scores := by
    rintro precision ⟨⟩
    exact ⟨by decide, by decide, by decide⟩
  obtain ⟨⟨_, _, squareRun⟩, square⟩ :=
    (decimal_product_truncates rfl rfl .stacked "Steve" before.1).1 (by decide) (by decide)
      squareFresh scores sideSettled sideSettled (by decide)
  obtain ⟨⟨_, _, productRun⟩, product⟩ :=
    (decimal_product_truncates rfl rfl .counted "Steve" before.1).1 (by decide) (by decide)
      productFresh scores wideSettled rateSettled (by decide)
  obtain ⟨squareSettled, squareAmount⟩ := square _ _ squareRun
  obtain ⟨productSettled, productAmount⟩ := product _ _ productRun
  exact ⟨⟨_, squareRun, squareSettled, squareAmount.trans (by decide)⟩,
    ⟨_, productRun, productSettled, productAmount.trans (by decide)⟩⟩

/-- A decimal that cannot be stored is refused before its product is.  And if digests make
scratch registers coincide, a product is not what it should be: 3.5 squared is 110.99 then. -/
theorem products_refused_or_garbled :
    let deep : Value := ⟨"a", .decimal 10, .here, []⟩
    let side : Value := ⟨"a", .decimal 2, .here, []⟩
    let scores : Scores := ⟨fun register => if register.objective = "a" then 3 else 50⟩
    let workspace := (Compilation.start { stackStem := "abcdefghijklmnopqrstu" }).workspace
    ((operate deep .mul deep).lower .stacked (Compilation.start {}).workspace).1 =
        .error (.user (.invalidPrecision 10 9)) ∧
      side.Settled "Steve" scores ∧ side.amount "Steve" scores 2 = 350 ∧
      Score.Fits 2 (Score.multiplyAmounts 2 350 350) ∧
      (∀ position < 5, (workspace.scratchAt .stacked .int .here position).objectives =
        ["QAlI09sK"]) ∧
      ∃ after, (operate side .mul side).Executes .stacked "Steve" (workspace, scores) after ∧
        side.amount "Steve" after.2 2 = 11099 := by
  intro deep side scores workspace
  have settled : side.Settled "Steve" scores := by
    rintro precision ⟨⟩
    exact ⟨by decide, by decide, by decide⟩
  have succeeds : (operate side .mul side).plan.failure? = none := rfl
  have run := executes_lowered succeeds .stacked "Steve" workspace scores
  exact ⟨rfl, settled, by decide, by decide, by decide +kernel, _, run, by decide +kernel⟩

end Statement

end ScoreLowering
