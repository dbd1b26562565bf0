import ScoreLowering.Proofs.PlanExecution

/-!
# Plans that mind their scratch registers

A plan is well scoped if it never reads a scratch register before writing it,
mentions only scratch registers that are open, and keeps to the registers of
its operands otherwise.  All of this can be read off the plan alone: `types`
are the types of the scratch registers that are open, and `known` are the slots
that have been written for certain.

The lemmas below follow the way plans are put together, one for each building
block.
-/

namespace ScoreLowering

namespace Ty

/-- The parts that a value of a type consists of. -/
def parts : Ty → List Part
  | decimal _ => [.whole, .fraction]
  | _ => [.whole]

/-- Whether a value of the type takes one or two registers of its own. -/
def isScalar : Ty → Bool
  | int | bool | time => true
  | decimal precision => precision ≤ maxPrecision
  | struct _ _ => false

@[simp]
theorem whole_mem_parts (ty : Ty) : Part.whole ∈ ty.parts := by
  cases ty <;> simp [parts]

end Ty

/-- The registers outside of the scratch registers that a plan may use. -/
structure Permissions where
  readable : Register → Prop
  writable : Register → Prop

namespace Permissions

/-- Both parts of the value may be read and changed. -/
def Owns (permissions : Permissions) (value : Value) : Prop :=
  ∀ part, permissions.readable (value.register part) ∧
    permissions.writable (value.register part)

end Permissions

namespace Slot

/-- A slot whose content can be relied on. -/
def Readable (permissions : Permissions) (known : List Slot) (slot : Slot) : Prop :=
  slot ∈ known ∨ ∃ register, slot = fixed register ∧ permissions.readable register

/-- A slot that may be changed. -/
def Writable (permissions : Permissions) (types : List Ty) : Slot → Prop
  | fixed register => permissions.writable register
  | scratch level part => ∃ ty, types[level]? = some ty ∧ part ∈ ty.parts

variable {permissions : Permissions} {known : List Slot} {types : List Ty}

theorem readable_fixed {register : Register} (allowed : permissions.readable register) :
    (fixed register).Readable permissions known :=
  Or.inr ⟨register, rfl, allowed⟩

@[simp]
theorem readable_cons (slot first : Slot) :
    slot.Readable permissions (first :: known) ↔
      slot = first ∨ slot.Readable permissions known := by
  simp [Readable, or_assoc]

@[simp]
theorem readable_append (slot : Slot) (others : List Slot) :
    slot.Readable permissions (others ++ known) ↔
      slot ∈ others ∨ slot.Readable permissions known := by
  simp [Readable, or_assoc]

@[simp]
theorem writable_fixed (register : Register) :
    (fixed register).Writable permissions types ↔ permissions.writable register :=
  Iff.rfl

@[simp]
theorem writable_scratch (level : Nat) (part : Part) :
    (scratch level part).Writable permissions types ↔
      ∃ ty, types[level]? = some ty ∧ part ∈ ty.parts :=
  Iff.rfl

theorem Writable.append {slot : Slot} (writable : slot.Writable permissions types)
    (more : List Ty) : slot.Writable permissions (types ++ more) := by
  cases slot with
  | fixed register => exact writable
  | scratch level part =>
      obtain ⟨ty, present, partMem⟩ := writable
      have inside : level < types.length := (List.getElem?_eq_some_iff.mp present).1
      refine ⟨ty, ?_, partMem⟩
      rw [List.getElem?_append_left inside, present]

end Slot

namespace Step

/-- The step reads only what is readable and writes only what is writable.
Behind a guard the target keeps its content if the guard fails, so it has to be
readable as well. -/
def WellScoped (permissions : Permissions) (types : List Ty) (known : List Slot) :
    Step → Prop
  | set target _ => target.Writable permissions types
  | add target _ => target.Readable permissions known ∧ target.Writable permissions types
  | remove target _ => target.Readable permissions known ∧ target.Writable permissions types
  | operate target operation source =>
      (operation ≠ .copy → target.Readable permissions known) ∧
        target.Writable permissions types ∧ source.Readable permissions known ∧
        (operation = .swap → source.Writable permissions types)
  | guarded tests step =>
      (∀ test ∈ tests, test.1.Readable permissions known) ∧
        step.WellScoped permissions types known ∧
        ∀ slot ∈ step.writes, slot.Readable permissions known

end Step

namespace Plan

/-- The most scratch registers that a plan holds at once. -/
def maxNesting : Nat := 8

/-- The error that a plan runs into first, if it runs into any. -/
def failure? : Plan → Option LowerError
  | steps _ | borrow _ _ => none
  | fail error => some error
  | sequence first next => first.failure?.or next.failure?
  | scratch _ _ body => body.failure?

/-- The slots that a plan has written for certain once it is through. -/
def gains : Plan → List Slot
  | steps list => list.flatMap Step.writes
  | sequence first next => next.gains ++ first.gains
  | borrow _ _ | fail _ | scratch _ _ _ => []

/-- A row of steps, each of which may rely on those before it. -/
def StepsWellScoped (permissions : Permissions) (types : List Ty) :
    List Slot → List Step → Prop
  | _, [] => True
  | known, step :: rest =>
      step.WellScoped permissions types known ∧
        StepsWellScoped permissions types (step.writes ++ known) rest

/-- A plan that may be carried out while scratch registers of these types are
open, and these slots are known.  What comes after a failure does not matter. -/
def WellScoped (permissions : Permissions) : Plan → List Ty → List Slot → Prop
  | steps list, types, known => StepsWellScoped permissions types known list
  | borrow value _, _, _ =>
      ∀ part, permissions.readable (value.register part) ∧
        permissions.writable (value.register part)
  | fail _, _, _ => True
  | sequence first next, types, known =>
      first.WellScoped permissions types known ∧
        (first.failure? = none →
          next.WellScoped permissions types (first.gains ++ known))
  | scratch ty _ body, types, known =>
      ty.isScalar ∧ types.length < maxNesting ∧
        body.WellScoped permissions (types ++ [ty]) known

variable {permissions : Permissions} {types : List Ty} {known : List Slot}

@[simp]
theorem gains_append (first next : Plan) :
    (first ++ next).gains = next.gains ++ first.gains :=
  rfl

@[simp]
theorem failure?_append (first next : Plan) :
    (first ++ next).failure? = first.failure?.or next.failure? :=
  rfl

theorem wellScoped_append {first next : Plan}
    (firstScoped : first.WellScoped permissions types known)
    (nextScoped : next.WellScoped permissions types (first.gains ++ known)) :
    (first ++ next).WellScoped permissions types known :=
  ⟨firstScoped, fun _ => nextScoped⟩

theorem withScratch_wellScoped {level : Nat} {ty : Ty} {address : Address}
    {body : Operand → Plan} (scalar : ty.isScalar) (room : types.length < maxNesting)
    (bodyScoped : (body (Operand.scratch level ty address)).WellScoped permissions
      (types ++ [ty]) known) :
    (withScratch level ty address body).WellScoped permissions types known :=
  ⟨scalar, room, bodyScoped⟩

theorem withConstant_wellScoped {level : Nat} {score : Score} {address : Address}
    {body : Slot → Plan} (levelEq : level = types.length)
    (room : types.length < maxNesting)
    (bodyScoped : (body (.scratch level .whole)).WellScoped permissions
      (types ++ [.int]) (.scratch level .whole :: known)) :
    (withConstant level score address body).WellScoped permissions types known := by
  apply withScratch_wellScoped rfl room
  refine wellScoped_append ?_ bodyScoped
  simp [WellScoped, StepsWellScoped, Step.WellScoped, Operand.scratch, levelEq]

theorem truncatingDivide_wellScoped {level : Nat} {target divisor : Slot}
    {address : Address} (levelEq : level = types.length) (room : types.length < maxNesting)
    (targetReadable : target.Readable permissions known)
    (targetWritable : target.Writable permissions types)
    (divisorReadable : divisor.Readable permissions known) :
    (truncatingDivide level target divisor address).WellScoped permissions types known := by
  apply withScratch_wellScoped rfl room
  simp [WellScoped, StepsWellScoped, Step.WellScoped, Step.writes, Operand.scratch,
    targetReadable, divisorReadable, targetWritable.append, levelEq]

theorem combineInto_wellScoped {target unit : Slot} {value : Operand}
    (targetWritable : target.Writable permissions types)
    (wholeReadable : value.whole.Readable permissions known)
    (fractionReadable : value.fraction.Readable permissions known)
    (unitReadable : unit.Readable permissions known) :
    (steps (combineInto target value unit)).WellScoped permissions types known := by
  simp [WellScoped, combineInto, StepsWellScoped, Step.WellScoped, Step.writes,
    targetWritable, wholeReadable, fractionReadable, unitReadable]

theorem withCombined_wellScoped {level : Nat} {value : Operand} {unit : Slot}
    {address : Address} {body : Slot → Plan} (levelEq : level = types.length)
    (room : types.length < maxNesting)
    (wholeReadable : value.whole.Readable permissions known)
    (fractionReadable : value.fraction.Readable permissions known)
    (unitReadable : unit.Readable permissions known)
    (bodyScoped : (body (.scratch level .whole)).WellScoped permissions (types ++ [.int])
      ((steps (combineInto (.scratch level .whole) value unit)).gains ++ known)) :
    (withCombined level value unit address body).WellScoped permissions types known := by
  apply withScratch_wellScoped rfl room
  refine wellScoped_append ?_ bodyScoped
  exact combineInto_wellScoped (by simp [Operand.scratch, levelEq]) wholeReadable
    fractionReadable unitReadable

theorem withScaled_wellScoped {level : Nat} {this : Operand} {unit : Slot}
    {body : Slot → Plan} (levelEq : level = types.length)
    (room : types.length < maxNesting)
    (wholeReadable : this.whole.Readable permissions known)
    (unitReadable : unit.Readable permissions known)
    (bodyScoped : (body (.scratch level .whole)).WellScoped permissions (types ++ [.int])
      (.scratch level .whole :: .scratch level .whole :: known)) :
    (withScaled level this unit body).WellScoped permissions types known := by
  apply withScratch_wellScoped rfl room
  refine wellScoped_append ?_ bodyScoped
  simp [WellScoped, StepsWellScoped, Step.WellScoped, Step.writes, Operand.scratch,
    wholeReadable, unitReadable, levelEq]

theorem carry_wellScoped {level : Nat} {this : Value} {unit : Slot} {unitScore : Score}
    (owned : permissions.Owns this) (levelEq : level = types.length)
    (room : types.length < maxNesting) (unitReadable : unit.Readable permissions known) :
    (carry level this unit unitScore).WellScoped permissions types known := by
  refine wellScoped_append (withScratch_wellScoped rfl room ?_) owned
  have readable (part : Part) (known : List Slot) :
      (Slot.fixed (this.register part)).Readable permissions known :=
    Slot.readable_fixed (owned part).1
  simp [WellScoped, StepsWellScoped, Step.WellScoped, Step.writes, Operand.scratch,
    Value.operand, unitReadable, readable, (owned _).2, levelEq]

theorem splitFrom_wellScoped {level : Nat} {this : Value} {combined unit : Slot}
    {unitScore : Score} (owned : permissions.Owns this) (levelEq : level = types.length)
    (room : types.length < maxNesting) (unitReadable : unit.Readable permissions known)
    (combinedReadable : combined.Readable permissions known) :
    (splitFrom level this combined unit unitScore).WellScoped permissions types known := by
  refine wellScoped_append ?_ (carry_wellScoped owned levelEq room (by simp [unitReadable]))
  simp [WellScoped, StepsWellScoped, Step.WellScoped, Step.writes, Value.operand,
    combinedReadable, (owned _).2]

theorem decimalByInteger_wellScoped {level : Nat} {this : Value} (operation : Operation)
    {other : Operand} {unitScore : Score} (owned : permissions.Owns this)
    (levelEq : level = types.length) (room : types.length + 3 < maxNesting)
    (otherReadable : other.whole.Readable permissions known)
    (otherWritable : operation = .swap → other.whole.Writable permissions types) :
    (decimalByInteger level this operation other unitScore).WellScoped permissions
      types known := by
  have readable (part : Part) (known : List Slot) :
      (Slot.fixed (this.register part)).Readable permissions known :=
    Slot.readable_fixed (owned part).1
  cases operation with
  | set =>
      refine wellScoped_append ?_ ?_ <;>
        simp [native, WellScoped, StepsWellScoped, Step.WellScoped, Value.operand,
          Operation.native, (owned _).2, otherReadable]
  | swap =>
      refine wellScoped_append ?_ ?_ <;>
        simp [native, WellScoped, StepsWellScoped, Step.WellScoped, Value.operand,
          Operation.native, readable, (owned _).2, otherReadable, otherWritable]
  | add | sub =>
      refine wellScoped_append ?_ (withConstant_wellScoped levelEq (by omega)
        (carry_wellScoped owned (by simp [levelEq]) (by simp; omega) (by simp)))
      simp [native, WellScoped, StepsWellScoped, Step.WellScoped, Value.operand,
        Operation.native, readable, (owned _).2, otherReadable]
  | mul =>
      refine wellScoped_append ?_ (withConstant_wellScoped levelEq (by omega)
        (carry_wellScoped owned (by simp [levelEq]) (by simp; omega) (by simp)))
      simp [WellScoped, StepsWellScoped, Step.WellScoped, Step.writes, Value.operand,
        readable, (owned _).2, otherReadable]
  | div =>
      simp only [decimalByInteger]
      apply withConstant_wellScoped levelEq (by omega)
      apply withCombined_wellScoped (by simp [levelEq]) (by simp; omega)
        (readable _ _) (readable _ _) (by simp)
      refine wellScoped_append ?_ ?_
      · apply truncatingDivide_wellScoped (by simp [levelEq]) (by simp; omega)
        · simp [gains, combineInto, Step.writes]
        · simp [levelEq]
        · simp [otherReadable]
      · apply splitFrom_wellScoped owned (by simp [levelEq]) (by simp; omega)
        · simp
        · simp [gains, combineInto, Step.writes]
  | mod =>
      simp only [decimalByInteger]
      apply withConstant_wellScoped levelEq (by omega)
      apply withCombined_wellScoped (by simp [levelEq]) (by simp; omega)
        (readable _ _) (readable _ _) (by simp)
      apply withScratch_wellScoped rfl (by simp; omega)
      refine wellScoped_append ?_ (splitFrom_wellScoped owned (by simp [levelEq])
        (by simp; omega) (by simp) (by simp [gains, combineInto, Step.writes]))
      simp [WellScoped, StepsWellScoped, Step.WellScoped, Operand.scratch, gains,
        combineInto, Step.writes, otherReadable, levelEq]

theorem integerByDecimal_wellScoped {level : Nat} {this : Operand} (operation : Operation)
    {other : Operand} {unitScore : Score} (levelEq : level = types.length)
    (room : types.length + 3 < maxNesting)
    (thisReadable : this.whole.Readable permissions known)
    (thisWritable : this.whole.Writable permissions types)
    (wholeReadable : other.whole.Readable permissions known)
    (fractionReadable : other.fraction.Readable permissions known)
    (otherWritable : operation = .swap →
      other.whole.Writable permissions types ∧ other.fraction.Writable permissions types) :
    (integerByDecimal level this operation other unitScore).WellScoped permissions
      types known := by
  cases operation with
  | set =>
      simp [integerByDecimal, native, WellScoped, StepsWellScoped, Step.WellScoped,
        Operation.native, thisWritable, wholeReadable]
  | swap =>
      obtain ⟨wholeWritable, fractionWritable⟩ := otherWritable rfl
      refine wellScoped_append ?_ ?_
      · simp [native, WellScoped, StepsWellScoped, Step.WellScoped, Operation.native,
          thisReadable, thisWritable, wholeReadable, wholeWritable]
      · simp [WellScoped, StepsWellScoped, Step.WellScoped, fractionWritable]
  | add | sub | mod =>
      simp only [integerByDecimal]
      apply withConstant_wellScoped levelEq (by omega)
      apply withScaled_wellScoped (by simp [levelEq]) (by simp; omega)
        (by simp [thisReadable]) (by simp)
      apply withCombined_wellScoped (by simp [levelEq]) (by simp; omega)
        (by simp [wholeReadable]) (by simp [fractionReadable]) (by simp)
      refine wellScoped_append (wellScoped_append ?_ ?_) ?_
      · simp [WellScoped, StepsWellScoped, Step.WellScoped, gains, combineInto, Step.writes,
          Operation.native, levelEq]
      · apply truncatingDivide_wellScoped (by simp [levelEq]) (by simp; omega)
        · simp
        · simp [levelEq]
        · simp
      · simp [WellScoped, StepsWellScoped, Step.WellScoped, thisWritable.append]
  | mul =>
      simp only [integerByDecimal]
      apply withConstant_wellScoped levelEq (by omega)
      apply withCombined_wellScoped (by simp [levelEq]) (by simp; omega)
        (by simp [wholeReadable]) (by simp [fractionReadable]) (by simp)
      refine wellScoped_append (wellScoped_append ?_ ?_) ?_
      · simp [WellScoped, StepsWellScoped, Step.WellScoped, gains, combineInto, Step.writes,
          thisReadable, levelEq]
      · apply truncatingDivide_wellScoped (by simp [levelEq]) (by simp; omega)
        · simp [gains, combineInto, Step.writes]
        · simp [levelEq]
        · simp
      · simp [WellScoped, StepsWellScoped, Step.WellScoped, gains, combineInto, Step.writes,
          thisWritable.append]
  | div =>
      simp only [integerByDecimal]
      apply withConstant_wellScoped levelEq (by omega)
      apply withScaled_wellScoped (by simp [levelEq]) (by simp; omega)
        (by simp [thisReadable]) (by simp)
      apply withCombined_wellScoped (by simp [levelEq]) (by simp; omega)
        (by simp [wholeReadable]) (by simp [fractionReadable]) (by simp)
      refine wellScoped_append ?_ ?_
      · apply truncatingDivide_wellScoped (by simp [levelEq]) (by simp; omega)
        · simp
        · simp [levelEq]
        · simp [gains, combineInto, Step.writes]
      · simp [WellScoped, StepsWellScoped, Step.WellScoped, gains, combineInto, Step.writes,
          thisWritable.append, thisReadable]

theorem ofExcept_wellScoped {result : Except UserError Plan}
    (planScoped : ∀ plan, result = .ok plan → plan.WellScoped permissions types known) :
    (ofExcept result).WellScoped permissions types known := by
  cases result with
  | ok plan => exact planScoped plan rfl
  | error error => trivial

theorem ofExcept_map_wellScoped {α : Type} {result : Except UserError α} {body : α → Plan}
    (bodyScoped : ∀ item, (body item).WellScoped permissions types known) :
    (ofExcept (result.map body)).WellScoped permissions types known := by
  cases result with
  | ok item => exact bodyScoped item
  | error error => trivial

/-- A plan that needs a unit is only there for precisions that have one. -/
theorem ofExcept_scale_wellScoped {precision : Nat} {body : Score → Plan}
    (bodyScoped : precision ≤ Ty.maxPrecision →
      ∀ unitScore, (body unitScore).WellScoped permissions types known) :
    (ofExcept ((Ty.scale precision).map body)).WellScoped permissions types known := by
  by_cases small : precision ≤ Ty.maxPrecision
  · simpa [Ty.scale, small, Except.map, ofExcept] using bodyScoped small _
  · simp [Ty.scale, small, Except.map, ofExcept, WellScoped]

theorem withRescaled_wellScoped {level : Nat} {this : Value} {precision : Nat}
    {other : Operand} {otherPrecision : Nat} {body : Operand → Plan}
    (tyEq : this.ty = .decimal precision) (small : precision ≤ Ty.maxPrecision)
    (levelEq : level = types.length) (room : types.length + 2 < maxNesting)
    (wholeReadable : other.whole.Readable permissions known)
    (fractionReadable : other.fraction.Readable permissions known)
    (bodyScoped : ∀ more, (body (Operand.scratch level this.ty this.address)).WellScoped
      permissions (types ++ [this.ty])
      (more ++ .scratch level .whole :: .scratch level .fraction :: known)) :
    (withRescaled level this precision other otherPrecision body).WellScoped permissions
      types known := by
  apply withScratch_wellScoped (by simpa [tyEq, Ty.isScalar] using small) (by omega)
  have fractionMem : Part.fraction ∈ this.ty.parts := by simp [tyEq, Ty.parts]
  refine wellScoped_append (wellScoped_append ?_ (ofExcept_scale_wellScoped ?_)) ?_
  · simp [WellScoped, StepsWellScoped, Step.WellScoped, Step.writes, Operand.scratch,
      wholeReadable, fractionReadable, fractionMem, levelEq]
  · intro _ factorScore
    apply withConstant_wellScoped (by simp [levelEq]) (by simp; omega)
    split
    · apply truncatingDivide_wellScoped (by simp [levelEq]) (by simp; omega)
      · simp [gains, Step.writes, Operand.scratch]
      · simp [Operand.scratch, fractionMem, levelEq]
      · simp
    · simp [WellScoped, StepsWellScoped, Step.WellScoped, gains, Step.writes,
        Operand.scratch, fractionMem, levelEq]
  · simpa [gains, Step.writes, Operand.scratch] using bodyScoped _

theorem swapDecimals_wellScoped {level : Nat} {this other : Operand}
    {precision otherPrecision : Nat} (levelEq : level = types.length)
    (room : types.length + 1 < maxNesting)
    (thisWhole : this.whole.Readable permissions known ∧ this.whole.Writable permissions types)
    (thisFraction :
      this.fraction.Readable permissions known ∧ this.fraction.Writable permissions types)
    (otherWhole :
      other.whole.Readable permissions known ∧ other.whole.Writable permissions types)
    (otherFraction :
      other.fraction.Readable permissions known ∧ other.fraction.Writable permissions types) :
    (swapDecimals level this precision other otherPrecision).WellScoped permissions
      types known := by
  have exchangeScoped : (steps [.operate this.whole .swap other.whole,
      .operate this.fraction .swap other.fraction]).WellScoped permissions types known := by
    simp [WellScoped, StepsWellScoped, Step.WellScoped, thisWhole, thisFraction, otherWhole,
      otherFraction]
  by_cases samePrecision : precision = otherPrecision
  · simpa only [swapDecimals, samePrecision, if_true] using exchangeScoped
  by_cases wider : otherPrecision < precision
  all_goals
    simp only [swapDecimals, samePrecision, wider, if_true, if_false]
    refine wellScoped_append exchangeScoped (ofExcept_scale_wellScoped ?_)
    intro _ factorScore
    apply withConstant_wellScoped levelEq (by omega)
    refine wellScoped_append ?_ (truncatingDivide_wellScoped (by simp [levelEq])
      (by simp; omega) ?_ ?_ (by simp))
    · simp [WellScoped, StepsWellScoped, Step.WellScoped, thisFraction, otherFraction,
        thisFraction.2.append, otherFraction.2.append]
    · simp [thisFraction, otherFraction]
    · simp [thisFraction.2.append, otherFraction.2.append]

theorem multiply_wellScoped {level : Nat} {this other : Operand} {unit : Slot}
    (levelEq : level = types.length) (room : types.length + 3 < maxNesting)
    (thisWhole : this.whole.Readable permissions known ∧ this.whole.Writable permissions types)
    (thisFraction :
      this.fraction.Readable permissions known ∧ this.fraction.Writable permissions types)
    (otherWhole : other.whole.Readable permissions known)
    (otherFraction : other.fraction.Readable permissions known)
    (unitReadable : unit.Readable permissions known) :
    (multiply level this other unit).WellScoped permissions types known := by
  simp only [multiply]
  apply withScratch_wellScoped rfl (by omega)
  apply withScratch_wellScoped rfl (by simp; omega)
  apply withScratch_wellScoped rfl (by simp; omega)
  refine wellScoped_append (wellScoped_append ?_ (truncatingDivide_wellScoped
    (by simp [levelEq]) (by simp; omega) ?_ ?_ ?_)) ?_
  · simp [WellScoped, StepsWellScoped, Step.WellScoped, Step.writes, Operand.scratch,
      thisFraction, otherFraction, levelEq]
  · simp [gains, Step.writes, Operand.scratch]
  · simp [Operand.scratch, levelEq]
  · simp [unitReadable]
  · simp [WellScoped, StepsWellScoped, Step.WellScoped, gains, Step.writes, Operand.scratch,
      thisWhole, thisFraction, otherWhole, otherFraction, unitReadable,
      thisWhole.2.append, thisFraction.2.append, levelEq]

end Plan
end ScoreLowering
