import ScoreLowering.Proofs.NumberReadings

/-!
# Assigning and exchanging numbers

An assignment and an exchange bring a number to the precision of its new place and cut off the
digits that there is no room for.  A whole number is a decimal without digits here: it has no
fraction, and what it gets of one is cut off.  Whole parts are moved as they are, and fractions
only become smaller or get more digits, so nothing can wrap around.
-/

namespace ScoreLowering

namespace Plan

variable {executor : String} {precision otherPrecision : Nat} {unitScore factor : Score}
variable {this other : Value} {operation : Operation} {memory : Memory}

/-- Both parts of a number in a memory, where a whole number has no fraction. -/
def pairAt (executor : String) (value : Value) (memory : Memory) : Score × Score :=
  (memory (partSlot executor value .whole),
    if value.ty.isCount then 0 else memory (partSlot executor value .fraction))

theorem pairAt_count {value : Value} (count : value.ty.isCount) (memory : Memory) :
    pairAt executor value memory = (memory (partSlot executor value .whole), 0) := by
  rw [pairAt, if_pos count]

theorem pairAt_decimal {value : Value} (tyEq : value.ty = .decimal precision) (memory : Memory) :
    pairAt executor value memory = partsOf executor value memory := by
  rw [pairAt, tyEq]
  rfl

theorem numberAt_eq_amount {value : Value} (numeric : value.ty.isNumeric) (memory : Memory) :
    numberAt executor value memory = Score.amount value.ty.digits
      (pairAt executor value memory).1 (pairAt executor value memory).2 := by
  rcases Ty.isCount_or_decimal numeric with count | ⟨precision, _, tyEq⟩
  · rw [numberAt_count count, pairAt_count count, Ty.digits_of_isCount count, Score.amount,
      Int32.toInt_zero, Int.pow_zero, Int.mul_one, Int.add_zero]
  · rw [numberAt_decimal tyEq, pairAt_decimal tyEq, tyEq]
    rfl

theorem SettledIn.pair {value : Value} (settled : SettledIn executor value memory)
    (numeric : value.ty.isNumeric) :
    Score.Settled value.ty.digits (pairAt executor value memory).1
      (pairAt executor value memory).2 := by
  rcases Ty.isCount_or_decimal numeric with count | ⟨precision, _, tyEq⟩
  · rw [pairAt_count count]
    exact Score.settled_zero _ _
  · rw [pairAt_decimal tyEq, tyEq]
    exact settled precision tyEq

theorem settledIn_of_pair {value : Value} (settled : Score.Settled value.ty.digits
      (pairAt executor value memory).1 (pairAt executor value memory).2) :
    SettledIn executor value memory := by
  intro precision tyEq
  rw [pairAt_decimal tyEq, tyEq] at settled
  exact settled

/-- The parts that a number gets in a place of another precision. -/
def movedPair (precision otherPrecision : Nat) (factor : Score) (pair : Score × Score) :
    Score × Score :=
  (pair.1, rescaled precision otherPrecision pair.2 factor)

theorem movedPair_to_count
    (scaled : Ty.scale (precisionGap 0 otherPrecision) = .ok factor) (pair : Score × Score)
    (settled : Score.Settled otherPrecision pair.1 pair.2) :
    movedPair 0 otherPrecision factor pair = (pair.1, 0) := by
  -- less than one in units of one is nothing
  have small := (rescaled_settled (by decide) scaled settled).small
  have nothing : (rescaled 0 otherPrecision pair.2 factor).toInt = 0 := by
    rw [Nat.pow_zero] at small
    omega
  rw [movedPair, ← Int32.toInt_inj.mp (nothing.trans Int32.toInt_zero.symm)]

theorem movedPair_of_count (precision : Nat) (factor whole : Score) :
    movedPair precision 0 factor (whole, 0) = (whole, 0) := by
  rw [movedPair, rescaled, if_neg (Nat.not_lt_zero precision), Int32.zero_mul]

/-- The left side gets what the right side held and, in an exchange, the other way round. -/
structure Transfers (executor : String) (this : Value) (operation : Operation) (other : Value)
    (factor : Score) (memory after : Memory) : Prop where
  left : pairAt executor this after =
    movedPair this.ty.digits other.ty.digits factor (pairAt executor other memory)
  right : operation = .swap → pairAt executor other after =
    movedPair other.ty.digits this.ty.digits factor (pairAt executor this memory)

/-- Single registers are copied and exchanged, also a register with itself. -/
theorem run_native_transfer (executor : String) (moves : operation.isTransfer)
    (this other : Operand) (memory : Memory) :
    let after := (native this operation other).run executor memory
    after (this.whole.located executor) = memory (other.whole.located executor) ∧
      (operation = .swap →
        after (other.whole.located executor) = memory (this.whole.located executor)) := by
  cases operation with
  | set => simp [native, Operation.native, Step.run, ScoreOperation.evaluate]
  | swap =>
      by_cases same : this.whole.located executor = other.whole.located executor
      · simp [native, Operation.native, Step.run, ScoreOperation.evaluate, same]
      · simp [native, Operation.native, Step.run, ScoreOperation.evaluate, same]
  | add | sub | mul | div | mod => cases moves

theorem Apart.symm (apart : Apart executor this other) : Apart executor other this := by
  rcases apart with same | disjoint
  · exact Or.inl same.symm
  · exact Or.inr fun register member inside => disjoint register inside member

/-- A decimal and a whole number are two values. -/
theorem Apart.locate_ne (apart : Apart executor this other) (tyEq : this.ty = .decimal precision)
    (count : other.ty.isCount) (part : Part) :
    Machine.locate executor (this.register part) ≠
      Machine.locate executor (other.register .whole) := by
  rcases apart with rfl | disjoint
  · exact absurd tyEq (Ty.ne_decimal_of_isCount count precision)
  · intro same
    apply disjoint _ (locate_mem_located tyEq executor part)
    rw [same]
    have simple := Ty.not_struct_of_isScalar
      (Ty.isScalar_of_isNumeric (Ty.isNumeric_of_isCount count))
    exact List.mem_map_of_mem (Value.register_mem_registers simple (Ty.whole_mem_parts _))

theorem partsOf_clearFraction (executor : String) (value : Value) (memory : Memory) :
    partsOf executor value ((steps [.set value.operand.fraction 0]).run executor memory) =
      (memory (partSlot executor value .whole), 0) := by
  have parts := locate_fraction_ne_whole executor value
  simp [partsOf, Step.run, Value.operand, partSlot, parts.symm]

theorem run_clearFraction_of_ne (value : Value) (memory : Memory) {register : Register}
    (apart : register ≠ Machine.locate executor (value.register .fraction)) :
    (steps [.set value.operand.fraction 0]).run executor memory (.fixed register) =
      memory (.fixed register) := by
  simp [Step.run, Value.operand, apart]

theorem counts_transfer (moves : operation.isTransfer) (count : this.ty.isCount)
    (otherCount : other.ty.isCount) (factor : Score) (memory : Memory) :
    Transfers executor this operation other factor memory
      ((native this.operand operation other.operand).run executor memory) := by
  obtain ⟨left, right⟩ :=
    run_native_transfer executor moves this.operand other.operand memory
  constructor
  · rw [Ty.digits_of_isCount otherCount, pairAt_count count, pairAt_count otherCount,
      movedPair_of_count]
    exact congrArg (·, 0) left
  · intro exchange
    rw [Ty.digits_of_isCount count, pairAt_count count, pairAt_count otherCount,
      movedPair_of_count]
    exact congrArg (·, 0) (right exchange)

/-- A whole number comes to a decimal without a fraction, and an exchange takes back the
whole part. -/
theorem decimal_count_transfer (moves : operation.isTransfer)
    (tyEq : this.ty = .decimal precision) (count : other.ty.isCount)
    (apart : Apart executor this other)
    (scaled : Ty.scale (precisionGap precision 0) = .ok factor) (unitScore : Score)
    (settled : operation = .swap → SettledAt executor this precision memory) :
    Transfers executor this operation other factor memory
      ((decimalByInteger 0 this operation other.operand unitScore).run executor memory) := by
  have planEq : decimalByInteger 0 this operation other.operand unitScore =
      native this.operand operation other.operand ++ steps [.set this.operand.fraction 0] := by
    cases operation with
    | set | swap => rfl
    | add | sub | mul | div | mod => cases moves
  have digitsEq : this.ty.digits = precision := by
    rw [tyEq]
    rfl
  obtain ⟨left, right⟩ :=
    run_native_transfer executor moves this.operand other.operand memory
  rw [planEq, run_append]
  constructor
  · rw [Ty.digits_of_isCount count, pairAt_count count, movedPair_of_count, pairAt_decimal tyEq,
      partsOf_clearFraction]
    exact congrArg (·, 0) left
  · intro exchange
    rw [precisionGap_comm] at scaled
    rw [Ty.digits_of_isCount count, digitsEq, pairAt_count count, pairAt_decimal tyEq, partSlot,
      run_clearFraction_of_ne this _ (apart.locate_ne tyEq count .fraction).symm,
      movedPair_to_count scaled (partsOf executor this memory) (settled exchange)]
    exact congrArg (·, 0) (right exchange)

/-- A whole number gets the whole part of a decimal, and an exchange leaves no fraction. -/
theorem count_decimal_transfer (moves : operation.isTransfer) (count : this.ty.isCount)
    (otherTy : other.ty = .decimal otherPrecision) (apart : Apart executor this other)
    (scaled : Ty.scale (precisionGap 0 otherPrecision) = .ok factor) (unitScore : Score)
    (otherSettled : SettledAt executor other otherPrecision memory) :
    Transfers executor this operation other factor memory
      ((integerByDecimal 0 this.operand operation other.operand unitScore).run executor
        memory) := by
  have digitsEq : other.ty.digits = otherPrecision := by
    rw [otherTy]
    rfl
  obtain ⟨left, right⟩ :=
    run_native_transfer executor moves this.operand other.operand memory
  have moved : movedPair this.ty.digits other.ty.digits factor (pairAt executor other memory) =
      (memory (partSlot executor other .whole), 0) := by
    rw [Ty.digits_of_isCount count, digitsEq, pairAt_decimal otherTy,
      movedPair_to_count scaled (partsOf executor other memory) otherSettled]
    rfl
  cases operation with
  | set =>
      refine ⟨?_, nofun⟩
      rw [moved, pairAt_count count]
      exact congrArg (·, 0) left
  | swap =>
      have planEq : integerByDecimal 0 this.operand .swap other.operand unitScore =
          native this.operand .swap other.operand ++ steps [.set other.operand.fraction 0] := rfl
      rw [planEq, run_append]
      refine ⟨?_, fun _ => ?_⟩
      · rw [moved, pairAt_count count, partSlot,
          run_clearFraction_of_ne other _ (apart.symm.locate_ne otherTy count .fraction).symm]
        exact congrArg (·, 0) left
      · rw [Ty.digits_of_isCount count, pairAt_count count, movedPair_of_count,
          pairAt_decimal otherTy, partsOf_clearFraction]
        exact congrArg (·, 0) (right rfl)
  | add | sub | mul | div | mod => cases moves

theorem decimals_transfer (moves : operation.isTransfer) (tyEq : this.ty = .decimal precision)
    (otherTy : other.ty = .decimal otherPrecision) (apart : Apart executor this other)
    (scaled : Ty.scale (precisionGap precision otherPrecision) = .ok factor) (unitScore : Score)
    (memory : Memory) :
    Transfers executor this operation other factor memory
      ((decimalByDecimal 0 this precision operation other.operand otherPrecision
        unitScore).run executor memory) := by
  have digitsEq : this.ty.digits = precision := by
    rw [tyEq]
    rfl
  have otherDigits : other.ty.digits = otherPrecision := by
    rw [otherTy]
    rfl
  have sides := apart.disjoint tyEq otherTy
  cases operation with
  | set =>
      refine ⟨?_, nofun⟩
      rw [pairAt_decimal tyEq, pairAt_decimal otherTy, digitsEq, otherDigits,
        partsOf_decimalByDecimal_set scaled 0 unitScore memory sides]
      rfl
  | swap =>
      have planEq : decimalByDecimal 0 this precision .swap other.operand otherPrecision
          unitScore = swapDecimals 0 this.operand precision other.operand otherPrecision := rfl
      rw [planEq]
      rcases sides with rfl | disjoint
      · -- an exchange with itself changes nothing
        rw [tyEq] at otherTy
        cases otherTy
        have unchanged (part : Part) : (swapDecimals 0 this.operand precision this.operand
            precision).run executor memory (partSlot executor this part) =
              memory (partSlot executor this part) := by
          simp only [swapDecimals, if_true, run_exchange_self]
        have moved : pairAt executor this ((swapDecimals 0 this.operand precision this.operand
            precision).run executor memory) =
              movedPair precision precision factor (pairAt executor this memory) := by
          rw [pairAt_decimal tyEq, pairAt_decimal tyEq, partsOf, unchanged, unchanged, movedPair,
            rescaled_self scaled]
          rfl
        rw [← digitsEq] at moved ⊢
        exact ⟨moved, fun _ => moved⟩
      · obtain ⟨left, right⟩ := partsOf_swapDecimals disjoint scaled 0 memory
        rw [← pairAt_decimal tyEq] at left
        rw [← pairAt_decimal otherTy] at right
        refine ⟨?_, fun _ => ?_⟩
        · rw [digitsEq, otherDigits, left, pairAt_decimal otherTy]
          rfl
        · rw [digitsEq, otherDigits, right, pairAt_decimal tyEq]
          rfl
  | add | sub | mul | div | mod => cases moves

/-- Numbers of all kinds are transferred without a failure.  What the left side held matters
only if it is exchanged. -/
theorem combine_moves (moves : operation.isTransfer) (numeric : this.ty.isNumeric)
    (otherNumeric : other.ty.isNumeric) (apart : Apart executor this other)
    (scaled : Ty.scale (precisionGap this.ty.digits other.ty.digits) = .ok factor)
    (settled : operation = .swap → SettledIn executor this memory)
    (otherSettled : SettledIn executor other memory) :
    (combine this operation other).failure? = none ∧
      Transfers executor this operation other factor memory
        ((combine this operation other).run executor memory) := by
  rcases Ty.isCount_or_decimal numeric with count | ⟨precision, bounded, tyEq⟩ <;>
    rcases Ty.isCount_or_decimal otherNumeric with
      otherCount | ⟨otherPrecision, otherBounded, otherTy⟩
  · rw [combine_counts operation count otherCount]
    exact ⟨rfl, counts_transfer moves count otherCount factor memory⟩
  · obtain ⟨unitScore, unitScaled⟩ := Score.exists_scale otherBounded
    rw [Ty.digits_of_isCount count, otherTy] at scaled
    have succeeds : (integerByDecimal 0 this.operand operation other.operand
        unitScore).failure? = none := by
      cases operation with
      | set | swap => rfl
      | add | sub | mul | div | mod => cases moves
    rw [combine_count_decimal operation count otherTy unitScaled]
    exact ⟨succeeds, count_decimal_transfer moves count otherTy apart scaled unitScore
      (otherSettled otherPrecision otherTy)⟩
  · obtain ⟨unitScore, unitScaled⟩ := Score.exists_scale bounded
    rw [Ty.digits_of_isCount otherCount, tyEq] at scaled
    have succeeds : (decimalByInteger 0 this operation other.operand unitScore).failure? =
        none := by
      cases operation with
      | set | swap => rfl
      | add | sub | mul | div | mod => cases moves
    rw [combine_decimal_count operation tyEq unitScaled otherCount]
    exact ⟨succeeds, decimal_count_transfer moves tyEq otherCount apart scaled unitScore
      fun exchange => settled exchange precision tyEq⟩
  · obtain ⟨unitScore, unitScaled⟩ := Score.exists_scale bounded
    have supported : isUnsupported operation precision = false := by
      cases operation with
      | set | swap => rfl
      | add | sub | mul | div | mod => cases moves
    rw [tyEq, otherTy] at scaled
    rw [combine_decimals operation tyEq otherTy unitScaled]
    exact ⟨decimalByDecimal_succeeds this supported bounded otherBounded 0 other.operand unitScore,
      decimals_transfer moves tyEq otherTy apart scaled unitScore memory⟩

theorem combine_transfers (moves : operation.isTransfer) (numeric : this.ty.isNumeric)
    (otherNumeric : other.ty.isNumeric) (apart : Apart executor this other)
    (scaled : Ty.scale (precisionGap this.ty.digits other.ty.digits) = .ok factor)
    (settled : SettledIn executor this memory) (otherSettled : SettledIn executor other memory) :
    (combine this operation other).failure? = none ∧
      Transfers executor this operation other factor memory
        ((combine this operation other).run executor memory) :=
  combine_moves moves numeric otherNumeric apart scaled (fun _ => settled) otherSettled

/-- The parts that a number gets in a new place are settled and stand for it. -/
theorem settled_number_of_moved {value source : Value} {after : Memory}
    (numeric : value.ty.isNumeric) (sourceNumeric : source.ty.isNumeric)
    (scaled : Ty.scale (precisionGap value.ty.digits source.ty.digits) = .ok factor)
    (settled : SettledIn executor source memory)
    (moved : pairAt executor value after =
      movedPair value.ty.digits source.ty.digits factor (pairAt executor source memory)) :
    SettledIn executor value after ∧ numberAt executor value after =
      Score.rescaleAmount value.ty.digits source.ty.digits
        (numberAt executor source memory) := by
  have bounded := Ty.digits_le numeric
  have sourceSettled := settled.pair sourceNumeric
  constructor
  · apply settledIn_of_pair
    rw [moved]
    exact rescaled_settled bounded scaled sourceSettled
  · rw [numberAt_eq_amount numeric, numberAt_eq_amount sourceNumeric, moved]
    exact rescaled_amount bounded scaled sourceSettled

end Plan

namespace Value

/-- The value holds, settled, the number that a source held before, without the digits that it
has no room for.  A whole number has come to it without a fraction. -/
structure Receives (executor : String) (value source : Value) (scores after : Scores) : Prop where
  settled : value.Settled executor after
  number : value.number executor after = Score.rescaleAmount value.ty.digits source.ty.digits
    (source.number executor scores)
  plain : source.ty.isCount →
    value.content executor after .whole = source.content executor scores .whole ∧
      (¬ value.ty.isCount → value.content executor after .fraction = 0)

end Value

namespace Statement

variable {statement : Statement} {pool : Pool} {executor : String}
variable {workspace later : Workspace} {scores after : Scores}

theorem Executes.receives
    (run : statement.Executes pool executor (workspace, scores) (later, after))
    (fresh : statement.TakesFresh pool executor workspace) {value source : Value}
    (operand : value ∈ statement.operands) (numeric : value.ty.isNumeric)
    (sourceNumeric : source.ty.isNumeric) {factor : Score}
    (scaled : Ty.scale (Plan.precisionGap value.ty.digits source.ty.digits) = .ok factor)
    (settled : source.Settled executor scores)
    (moved : Plan.pairAt executor value
        (statement.plan.run executor (Memory.ofScores scores)) =
      Plan.movedPair value.ty.digits source.ty.digits factor
        (Plan.pairAt executor source (Memory.ofScores scores))) :
    value.Receives executor source scores after := by
  have simple := Ty.not_struct_of_isScalar (Ty.isScalar_of_isNumeric numeric)
  have start : Plan.SettledIn executor source (Memory.ofScores scores) := settled
  obtain ⟨planSettled, planNumber⟩ :=
    Plan.settled_number_of_moved numeric sourceNumeric scaled start moved
  refine ⟨run.settled_of_plan fresh operand planSettled, ?_, ?_⟩
  · rw [run.number_eq fresh operand numeric]
    exact planNumber
  · intro count
    rw [Ty.digits_of_isCount count, Plan.pairAt_count count, Plan.movedPair_of_count, Plan.pairAt,
      Prod.mk.injEq] at moved
    refine ⟨?_, fun notCount => ?_⟩
    · rw [run.content_eq fresh operand simple (Ty.whole_mem_parts _)]
      exact moved.1
    · obtain ⟨precision, _, tyEq⟩ := (Ty.isCount_or_decimal numeric).resolve_left notCount
      rw [run.content_eq fresh operand simple (by simp [tyEq, Ty.parts])]
      simpa [notCount] using moved.2

/-- Assigning and exchanging keep numbers as far as the types have room for them, and touch
nothing but the values and scratch registers. -/
theorem transfers_keep_numbers {this other : Value} {operation : Operation}
    (moves : operation = .set ∨ operation = .swap) (numeric : this.ty.isNumeric)
    (otherNumeric : other.ty.isNumeric) (apart : Plan.Apart executor this other)
    (fresh : (operate this operation other).TakesFresh pool executor workspace)
    (settled : this.Settled executor scores) (otherSettled : other.Settled executor scores) :
    (operate this operation other).Ensures pool executor (workspace, scores) fun after =>
      this.Receives executor other scores after ∧
      (if operation = .swap then
        other.Receives executor this scores after
      else
        ∀ register ∈ other.located executor, after.read register = scores.read register) ∧
      ∀ register, after.read register ≠ scores.read register →
        register ∈ this.located executor ∨
          operation = .swap ∧ register ∈ other.located executor ∨
          workspace.Spare pool executor register := by
  have transfer : operation.isTransfer := by rcases moves with rfl | rfl <;> rfl
  obtain ⟨factor, scaled⟩ := Score.exists_scale
    (Plan.precisionGap_le (Ty.digits_le numeric) (Ty.digits_le otherNumeric))
  have start : Plan.SettledIn executor this (Memory.ofScores scores) := settled
  have otherStart : Plan.SettledIn executor other (Memory.ofScores scores) := otherSettled
  obtain ⟨succeeds, left, right⟩ :=
    Plan.combine_transfers transfer numeric otherNumeric apart scaled start otherStart
  refine ensures_of_succeeds succeeds fun later after run => ?_
  have received : this.Receives executor other scores after :=
    run.receives fresh (by simp [operands]) numeric otherNumeric scaled otherSettled left
  refine ⟨received, ?_, fun register changed => ?_⟩
  · split
    · rename_i exchange
      rw [Plan.precisionGap_comm] at scaled
      exact run.receives fresh (by simp [operands]) otherNumeric numeric scaled settled
        (right exchange)
    · rename_i notSwap
      intro register member
      rcases apart with rfl | disjoint
      · -- a number that is assigned to itself is written the same way again
        refine Value.read_of_same_number numeric settled received.settled ?_ member
        rw [received.number, Score.rescaleAmount_self]
      · apply run.read_of_kept fresh (Or.inl ⟨other, by simp [operands], member⟩)
        intro value target
        rw [targets, if_neg notSwap, List.mem_singleton] at target
        rw [target]
        exact fun inside => disjoint register inside member
  · by_contra untouched
    simp only [not_or, not_and] at untouched
    obtain ⟨notThis, notOther, notSpare⟩ := untouched
    apply changed
    apply run.read_of_kept fresh (Or.inr notSpare)
    intro value target
    by_cases exchange : operation = .swap
    · rw [targets, if_pos exchange, List.mem_cons, List.mem_singleton] at target
      rcases target with rfl | rfl
      · exact notThis
      · exact notOther exchange
    · rw [targets, if_neg exchange, List.mem_singleton] at target
      rw [target]
      exact notThis

/-- The greatest decimal of nine digits and the least one of two change places.  A time gets
the decimal and leaves a whole number behind, and a decimal is exchanged with itself. -/
theorem transfers_at_the_ends :
    let wide : Value := ⟨"a", .decimal 2, .player "_", [.global]⟩
    let deep : Value := ⟨"b", .decimal 9, .here, []⟩
    let ticks : Value := ⟨"t", .time, .here, []⟩
    let scores : Scores := ⟨fun register =>
      if register.objective = "a" then -2147483648 else
      if register.objective = "a.d" then -99 else
      if register.objective = "b" then 2147483647 else
      if register.objective = "b.d" then 999999999 else -5⟩
    let before := ((Compilation.start {}).workspace, scores)
    (∃ after, (operate wide .swap deep).Executes .stacked "Steve" before after ∧
        wide.Settled "Steve" after.2 ∧ wide.number "Steve" after.2 = 214748364799 ∧
        deep.Settled "Steve" after.2 ∧ deep.number "Steve" after.2 = -2147483648990000000) ∧
      (∃ after, (operate ticks .swap deep).Executes .counted "Steve" before after ∧
        ticks.number "Steve" after.2 = 2147483647 ∧ deep.content "Steve" after.2 .whole = -5 ∧
        deep.content "Steve" after.2 .fraction = 0) ∧
      (∃ after, (operate wide .set deep).Executes .counted "Steve" before after ∧
        wide.number "Steve" after.2 = 214748364799 ∧
        ∀ register ∈ deep.located "Steve", after.2.read register = scores.read register) ∧
      ∃ after, (operate deep .swap deep).Executes .stacked "Steve" before after ∧
        deep.number "Steve" after.2 = 2147483647999999999 := by
  intro wide deep ticks scores before
  have wideSettled : wide.Settled "Steve" scores := by
    rintro precision ⟨⟩
    exact ⟨by decide, by decide, by decide⟩
  have deepSettled : deep.Settled "Steve" scores := by
    rintro precision ⟨⟩
    exact ⟨by decide, by decide, by decide⟩
  have ticksSettled : ticks.Settled "Steve" scores := by rintro precision ⟨⟩
  obtain ⟨⟨_, exchangeRun⟩, exchange⟩ := transfers_keep_numbers (Or.inr rfl) (by decide)
    (by decide) (Or.inr (by decide)) (takesFresh_start .stacked "Steve" (by decide)) wideSettled
    deepSettled
  obtain ⟨⟨_, timeRun⟩, time⟩ := transfers_keep_numbers (Or.inr rfl) (by decide)
    (by decide) (Or.inr (by decide)) (takesFresh_start .counted "Steve" (by decide)) ticksSettled
    deepSettled
  obtain ⟨⟨_, assignRun⟩, assign⟩ := transfers_keep_numbers (Or.inl rfl) (by decide)
    (by decide) (Or.inr (by decide)) (takesFresh_start .counted "Steve" (by decide)) wideSettled
    deepSettled
  obtain ⟨⟨_, selfRun⟩, self⟩ := transfers_keep_numbers (Or.inr rfl) (by decide)
    (by decide) (Or.inl rfl) (takesFresh_start .stacked "Steve" (by decide)) deepSettled
    deepSettled
  obtain ⟨wideReceived, deepReceived, _⟩ := exchange _ exchangeRun
  obtain ⟨ticksReceived, wholeReceived, _⟩ := time _ timeRun
  obtain ⟨assigned, kept, _⟩ := assign _ assignRun
  obtain ⟨selfReceived, _⟩ := self _ selfRun
  refine ⟨⟨_, exchangeRun, wideReceived.settled, wideReceived.number.trans (by decide),
      deepReceived.settled, deepReceived.number.trans (by decide)⟩,
    ⟨_, timeRun, ticksReceived.number.trans (by decide),
      (wholeReceived.plain rfl).1.trans (by decide), (wholeReceived.plain rfl).2 (by decide)⟩,
    ⟨_, assignRun, assigned.number.trans (by decide), kept⟩,
    ⟨_, selfRun, selfReceived.number.trans (by decide)⟩⟩

/-- If digests make scratch registers coincide, the divisor is lost before digits are cut off:
0.5000 becomes a decimal of two digits with the fraction 5000. -/
theorem transfer_with_shared_scratch :
    let this : Value := ⟨"a", .decimal 2, .here, []⟩
    let other : Value := ⟨"b", .decimal 4, .here, []⟩
    let scores : Scores := ⟨fun register => if register.objective = "b.d" then 5000 else 0⟩
    let workspace := (Compilation.start { stackStem := "abcdefghijklmnopqrstu" }).workspace
    this.Settled "Steve" scores ∧ other.Settled "Steve" scores ∧
      Plan.Apart "Steve" this other ∧
      (∀ value ∈ [this, other], ∀ objective ∈ value.objectives, ∀ position < 3,
        ∀ ty ∈ [Ty.int, .decimal 2],
          objective ∉ (workspace.scratchAt .stacked ty .here position).objectives) ∧
      ∃ after, (operate this .set other).Executes .stacked "Steve" (workspace, scores) after ∧
        this.content "Steve" after.2 .fraction = 5000 ∧ ¬ this.Settled "Steve" after.2 := by
  intro this other scores workspace
  have settled : this.Settled "Steve" scores := by
    rintro precision ⟨⟩
    exact ⟨by decide, by decide, by decide⟩
  have otherSettled : other.Settled "Steve" scores := by
    rintro precision ⟨⟩
    exact ⟨by decide, by decide, by decide⟩
  have succeeds : (operate this .set other).plan.failure? = none := rfl
  have run := executes_lowered succeeds .stacked "Steve" workspace scores
  refine ⟨settled, otherSettled, Or.inr (by decide), by decide +kernel, _, run, by decide +kernel,
    fun stays => ?_⟩
  exact absurd (stays 2 rfl).small (by decide +kernel)

end Statement

end ScoreLowering
