import ScoreLowering.Proofs.PlanScope
import ScoreLowering.Filter

/-!
# The plans of all statements are well scoped

Whatever the types of the two sides are, the plan of a statement reads and
writes the registers of its left side, reads those of its right side, writes
them only if the two are exchanged, and never depends on what it finds in a
scratch register.
-/

namespace ScoreLowering

namespace Operand

/-- The slot of a part. -/
def slot (operand : Operand) : Part → Slot
  | .whole => operand.whole
  | .fraction => operand.fraction

end Operand

namespace Plan

variable {permissions : Permissions} {types : List Ty} {known : List Slot}

theorem balancedDecimals_wellScoped {level : Nat} {this : Value} (operation : Operation)
    {other : Operand} {unitScore : Score} (owned : permissions.Owns this)
    (levelEq : level = types.length) (room : types.length + 4 < maxNesting)
    (otherWhole : other.whole.Readable permissions known)
    (otherFraction : other.fraction.Readable permissions known) :
    (balancedDecimals level this operation other unitScore).WellScoped permissions
      types known := by
  have readable (part : Part) (known : List Slot) :
      (Slot.fixed (this.register part)).Readable permissions known :=
    Slot.readable_fixed (owned part).1
  cases operation with
  | set | swap | div | mod =>
      simp [balancedDecimals, WellScoped, StepsWellScoped, Step.WellScoped, Step.writes,
        Value.operand, otherWhole, otherFraction, (owned _).2]
  | add | sub =>
      refine wellScoped_append ?_ (withConstant_wellScoped levelEq (by omega)
        (carry_wellScoped owned (by simp [levelEq]) (by simp; omega) (by simp)))
      simp [WellScoped, StepsWellScoped, Step.WellScoped, Step.writes, Value.operand,
        Operation.native, readable, otherWhole, otherFraction, (owned _).2]
  | mul =>
      simp only [balancedDecimals]
      apply withConstant_wellScoped levelEq (by omega)
      refine wellScoped_append ?_ (carry_wellScoped owned (by simp [levelEq])
        (by simp; omega) (by simp))
      exact multiply_wellScoped (by simp [levelEq]) (by simp; omega)
        ⟨readable _ _, (owned _).2⟩ ⟨readable _ _, (owned _).2⟩ (by simp [otherWhole])
        (by simp [otherFraction]) (by simp)

theorem decimalByDecimal_wellScoped {level : Nat} {this : Value} {precision : Nat}
    (operation : Operation) {other : Operand} {otherPrecision : Nat} {unitScore : Score}
    (tyEq : this.ty = .decimal precision) (small : precision ≤ Ty.maxPrecision)
    (owned : permissions.Owns this) (levelEq : level = types.length)
    (room : types.length + 5 < maxNesting)
    (otherReadable : ∀ part, (other.slot part).Readable permissions known)
    (otherWritable : operation = .swap →
      ∀ part, (other.slot part).Writable permissions types) :
    (decimalByDecimal level this precision operation other otherPrecision
      unitScore).WellScoped permissions types known := by
  have readable (part : Part) (known : List Slot) :
      (Slot.fixed (this.register part)).Readable permissions known :=
    Slot.readable_fixed (owned part).1
  unfold decimalByDecimal
  split
  · trivial
  split
  · rename_i exchange
    have writable := otherWritable exchange
    exact swapDecimals_wellScoped levelEq (by omega)
      ⟨readable _ _, (owned _).2⟩ ⟨readable _ _, (owned _).2⟩
      ⟨otherReadable .whole, writable .whole⟩ ⟨otherReadable .fraction, writable .fraction⟩
  split
  · exact balancedDecimals_wellScoped operation owned levelEq (by omega)
      (otherReadable .whole) (otherReadable .fraction)
  · apply withRescaled_wellScoped tyEq small levelEq (by omega) (otherReadable .whole)
      (otherReadable .fraction)
    intro more
    exact balancedDecimals_wellScoped operation owned (by simp [levelEq])
      (by simp; omega) (by simp [Operand.scratch]) (by simp [Operand.scratch])

/-- Operations between single values.  The right side may be a value or a
scratch register. -/
theorem combineScalars_wellScoped {level : Nat} {this : Value} (operation : Operation)
    {other : Operand} (levelEq : level = types.length)
    (room : types.length + 5 < maxNesting)
    (owned : ∀ part ∈ this.ty.parts, permissions.readable (this.register part) ∧
      permissions.writable (this.register part))
    (otherReadable : ∀ part ∈ other.ty.parts, (other.slot part).Readable permissions known)
    (otherWritable : operation = .swap →
      ∀ part ∈ other.ty.parts, (other.slot part).Writable permissions types) :
    (combineScalars level this operation other).WellScoped permissions types known := by
  obtain ⟨wholeReadable, wholeWritable⟩ := owned .whole (Ty.whole_mem_parts _)
  have otherWhole := otherReadable .whole (Ty.whole_mem_parts _)
  have nativeScoped :
      (native this.operand operation other).WellScoped permissions types known := by
    have thisReadable :
        (Slot.fixed (this.register .whole)).Readable permissions known :=
      Slot.readable_fixed wholeReadable
    have otherSwaps (exchange : operation = .swap) :
        other.whole.Writable permissions types :=
      otherWritable exchange .whole (Ty.whole_mem_parts _)
    have nativeSwap : operation.native = .swap → operation = .swap := by
      cases operation <;> simp [Operation.native]
    simp only [native, WellScoped, StepsWellScoped, Step.WellScoped, Value.operand]
    exact ⟨⟨fun _ => thisReadable, wholeWritable, otherWhole,
      fun exchange => otherSwaps (nativeSwap exchange)⟩, trivial⟩
  have allParts {ty : Ty} {precision : Nat} (tyEq : ty = .decimal precision) (part : Part) :
      part ∈ ty.parts := by
    cases part <;> simp [tyEq, Ty.parts]
  unfold combineScalars
  split
  case h_1 | h_2 | h_3 | h_4 => exact nativeScoped
  case h_5 precision _ otherEq | h_6 precision _ otherEq =>
      apply ofExcept_scale_wellScoped
      intro _ unitScore
      exact integerByDecimal_wellScoped operation levelEq (by omega)
        (Slot.readable_fixed wholeReadable) wholeWritable otherWhole
        (otherReadable .fraction (allParts otherEq _))
        fun exchange => ⟨otherWritable exchange .whole (Ty.whole_mem_parts _),
          otherWritable exchange .fraction (allParts otherEq _)⟩
  case h_7 precision thisEq _ | h_8 precision thisEq _ =>
      apply ofExcept_scale_wellScoped
      intro _ unitScore
      exact decimalByInteger_wellScoped operation (fun part => owned part (allParts thisEq _))
        levelEq (by omega) otherWhole
        fun exchange => otherWritable exchange .whole (Ty.whole_mem_parts _)
  case h_9 precision otherPrecision thisEq otherEq =>
      apply ofExcept_scale_wellScoped
      intro small unitScore
      exact decimalByDecimal_wellScoped operation thisEq small
        (fun part => owned part (allParts thisEq _)) levelEq room
        (fun part => otherReadable part (allParts otherEq _))
        fun exchange part => otherWritable exchange part (allParts otherEq _)
  case h_10 =>
      split
      · exact nativeScoped
      · trivial
  case h_11 => trivial

end Plan

namespace Value

/-- Every register of the value. -/
def registers (value : Value) : List Register :=
  value.objectives.map fun objective => ⟨value.address.holder, objective⟩

/-- A value that is no struct has one register for each of its parts. -/
theorem objectives_eq_parts {value : Value}
    (simple : ∀ name fields, value.ty ≠ .struct name fields) :
    value.objectives = value.ty.parts.map value.objective := by
  obtain ⟨ident, ty, address, attributes⟩ := value
  cases ty with
  | struct name fields => exact absurd rfl (simple name fields)
  | _ => simp [objectives, layout, Ty.parts, objective, name]

theorem register_mem_registers {value : Value}
    (simple : ∀ name fields, value.ty ≠ .struct name fields) {part : Part}
    (partMem : part ∈ value.ty.parts) : value.register part ∈ value.registers := by
  rw [registers, objectives_eq_parts simple, List.map_map]
  exact List.mem_map_of_mem partMem

theorem register_mem_of_decimal {value : Value} {precision : Nat}
    (tyEq : value.ty = .decimal precision) (part : Part) :
    value.register part ∈ value.registers := by
  apply register_mem_registers
  · simp [tyEq]
  · cases part <;> simp [tyEq, Ty.parts]

@[simp]
theorem slot_operand (value : Value) (part : Part) :
    value.operand.slot part = .fixed (value.register part) := by
  cases part <;> rfl

end Value

namespace Plan

/-- The left side may be used freely, the right side only be read unless it is
exchanged. -/
structure Grants (permissions : Permissions) (operation : Operation)
    (this other : List Register) : Prop where
  left : ∀ register ∈ this, permissions.readable register ∧ permissions.writable register
  right : ∀ register ∈ other, permissions.readable register
  exchange : operation = .swap → ∀ register ∈ other, permissions.writable register

variable {permissions : Permissions} {operation : Operation} {known : List Slot}

/-- No single value combines with a struct. -/
theorem combineScalars_struct_left {level : Nat} {this : Value} {other : Operand}
    {name : String} {fields : List (String × Ty)} (thisEq : this.ty = .struct name fields) :
    combineScalars level this operation other =
      fail (incompatibleOperands this.ty operation other.ty) := by
  unfold combineScalars
  split <;> simp_all

theorem combineScalars_struct_right {level : Nat} {this : Value} {other : Operand}
    {name : String} {fields : List (String × Ty)} (otherEq : other.ty = .struct name fields) :
    combineScalars level this operation other =
      fail (incompatibleOperands this.ty operation other.ty) := by
  unfold combineScalars
  split <;> simp_all

theorem combineScalars_values_wellScoped {this other : Value}
    (simple : ∀ name fields, this.ty ≠ .struct name fields)
    (granted : Grants permissions operation this.registers other.registers) :
    (combineScalars 0 this operation other.operand).WellScoped permissions [] known := by
  by_cases otherSimple : ∀ name fields, other.ty ≠ .struct name fields
  · apply combineScalars_wellScoped operation List.length_nil.symm (by decide)
    · intro part partMem
      exact granted.left _ (Value.register_mem_registers simple partMem)
    · intro part partMem
      rw [Value.slot_operand]
      exact Slot.readable_fixed
        (granted.right _ (Value.register_mem_registers otherSimple partMem))
    · intro exchange part partMem
      rw [Value.slot_operand]
      exact granted.exchange exchange _ (Value.register_mem_registers otherSimple partMem)
  · simp only [ne_eq, not_forall, not_not] at otherSimple
    obtain ⟨name, fields, otherEq⟩ := otherSimple
    rw [combineScalars_struct_right otherEq]
    trivial

mutual

theorem combineAt_wellScoped :
    (ty : Ty) → (this other : Value) → this.ty = ty → (known : List Slot) →
      Grants permissions operation this.registers other.registers →
      (combineAt operation ty this other).WellScoped permissions [] known
  | .struct name fields, this, other, thisEq, known, granted => by
      rw [combineAt]
      split
      · rename_i sameStruct
        apply combineFields_wellScoped fields this other known
        have thisRegisters : this.registers = (Value.layoutFields this.ident fields).map
            fun objective => ⟨this.address.holder, objective⟩ := by
          rw [Value.registers, Value.objectives, thisEq, Value.layout]
        have otherRegisters : other.registers = (Value.layoutFields other.ident fields).map
            fun objective => ⟨other.address.holder, objective⟩ := by
          rw [Value.registers, Value.objectives, sameStruct.1, Value.layout]
        rwa [thisRegisters, otherRegisters] at granted
      · trivial
  | .int, this, other, thisEq, _, granted => by
      rw [combineAt]
      exact combineScalars_values_wellScoped (by simp [thisEq]) granted
  | .decimal precision, this, other, thisEq, _, granted => by
      rw [combineAt]
      exact combineScalars_values_wellScoped (by simp [thisEq]) granted
  | .bool, this, other, thisEq, _, granted => by
      rw [combineAt]
      exact combineScalars_values_wellScoped (by simp [thisEq]) granted
  | .time, this, other, thisEq, _, granted => by
      rw [combineAt]
      exact combineScalars_values_wellScoped (by simp [thisEq]) granted

theorem combineFields_wellScoped :
    (fields : List (String × Ty)) → (this other : Value) → (known : List Slot) →
      Grants permissions operation
        ((Value.layoutFields this.ident fields).map
          fun objective => ⟨this.address.holder, objective⟩)
        ((Value.layoutFields other.ident fields).map
          fun objective => ⟨other.address.holder, objective⟩) →
      (combineFields operation fields this other).WellScoped permissions [] known
  | [], _, _, _, _ => by
      rw [combineFields]
      trivial
  | (name, ty) :: rest, this, other, known, granted => by
      rw [combineFields]
      simp only [Value.layoutFields, List.map_append] at granted
      refine wellScoped_append ?_ ?_
      · apply combineAt_wellScoped ty _ _ rfl
        exact ⟨fun register member => granted.left register (List.mem_append_left _ member),
          fun register member => granted.right register (List.mem_append_left _ member),
          fun exchange register member =>
            granted.exchange exchange register (List.mem_append_left _ member)⟩
      · apply combineFields_wellScoped rest
        exact ⟨fun register member => granted.left register (List.mem_append_right _ member),
          fun register member => granted.right register (List.mem_append_right _ member),
          fun exchange register member =>
            granted.exchange exchange register (List.mem_append_right _ member)⟩

end

theorem store_ty_ne_struct {target : Operand} {literal : Literal} {list : List Step}
    (stored : store target literal = .ok list) (name : String)
    (fields : List (String × Ty)) : target.ty ≠ .struct name fields := by
  intro tyEq
  unfold store at stored
  split at stored <;> simp_all

theorem store_wellScoped {types : List Ty} {target : Operand} {literal : Literal}
    {list : List Step} (stored : store target literal = .ok list)
    (writable : ∀ part ∈ target.ty.parts, (target.slot part).Writable permissions types) :
    (steps list).WellScoped permissions types known := by
  have whole : target.whole.Writable permissions types :=
    writable .whole (Ty.whole_mem_parts _)
  have fraction (precision : Nat) (tyEq : target.ty = .decimal precision) :
      target.fraction.Writable permissions types :=
    writable .fraction (by simp [tyEq, Ty.parts])
  unfold store at stored
  split at stored
  all_goals try split at stored
  all_goals simp only [Except.ok.injEq, reduceCtorEq] at stored
  all_goals subst stored
  all_goals simp_all [WellScoped, StepsWellScoped, Step.WellScoped]

/-- Storing a literal fills every part of the target. -/
theorem store_writes {target : Operand} {literal : Literal} {list : List Step}
    (stored : store target literal = .ok list) {part : Part}
    (partMem : part ∈ target.ty.parts) : target.slot part ∈ (steps list).gains := by
  unfold store at stored
  split at stored
  all_goals try split at stored
  all_goals simp only [Except.ok.injEq, reduceCtorEq] at stored
  all_goals subst stored
  all_goals cases part <;> simp_all [gains, Step.writes, Operand.slot, Ty.parts]

theorem clear_wellScoped {this : Value}
    (owned : ∀ register ∈ this.registers, permissions.writable register) :
    (steps (clear this)).WellScoped permissions [] known := by
  have rows (objectives : List String) (known : List Slot)
      (writable : ∀ objective ∈ objectives,
        permissions.writable ⟨this.address.holder, objective⟩) :
      StepsWellScoped permissions [] known (objectives.map fun objective =>
        .set (.fixed ⟨this.address.holder, objective⟩) 0) := by
    induction objectives generalizing known with
    | nil => trivial
    | cons objective rest ih =>
        exact ⟨writable objective (List.mem_cons_self ..),
          ih _ fun other member => writable other (List.mem_cons_of_mem _ member)⟩
  exact rows this.objectives known fun objective member =>
    owned _ (List.mem_map_of_mem member)

theorem assignment_wellScoped {this : Value} {literal : Literal}
    (owned : ∀ register ∈ this.registers, permissions.writable register) :
    (ofExcept ((assignment this literal).map steps)).WellScoped permissions [] known := by
  apply ofExcept_wellScoped
  intro plan planEq
  unfold assignment at planEq
  split at planEq
  · simp only [Except.map, Except.ok.injEq] at planEq
    subst planEq
    exact clear_wellScoped owned
  · cases stored : store this.operand literal with
    | error error => simp [stored, Except.map] at planEq
    | ok list =>
        simp only [stored, Except.map, Except.ok.injEq] at planEq
        subst planEq
        apply store_wellScoped stored
        intro part partMem
        rw [Value.slot_operand]
        exact owned _ (Value.register_mem_registers (store_ty_ne_struct stored) partMem)

theorem isScalar_of_literal {literal : Literal} {ty : Ty} (typed : literal.ty = .ok ty) :
    ty.isScalar := by
  cases literal with
  | null => simp [Literal.ty] at typed
  | bool value => simp only [Literal.ty, Except.ok.injEq] at typed; subst typed; rfl
  | int value => simp only [Literal.ty, Except.ok.injEq] at typed; subst typed; rfl
  | time value => simp only [Literal.ty, Except.ok.injEq] at typed; subst typed; rfl
  | decimal value =>
      by_cases small : value.precision ≤ Ty.maxPrecision
      · simp only [Literal.ty, Ty.decimal?, Ty.scale, small, if_true, Except.map,
          Except.ok.injEq] at typed
        subst typed
        simpa [Ty.isScalar] using small
      · simp [Literal.ty, Ty.decimal?, Ty.scale, small, Except.map] at typed

theorem combineStored_wellScoped {this : Value} {literal : Literal}
    (notSwap : operation ≠ .swap)
    (owned : ∀ register ∈ this.registers,
      permissions.readable register ∧ permissions.writable register) :
    (combineStored this operation literal).WellScoped permissions [] known := by
  apply ofExcept_wellScoped
  intro plan planEq
  cases typed : literal.ty with
  | error error => simp [typed, Except.map] at planEq
  | ok ty =>
      simp only [typed, Except.map, Except.ok.injEq] at planEq
      subst planEq
      apply withScratch_wellScoped (isScalar_of_literal typed) (by decide)
      cases stored : store (Operand.scratch 0 ty this.address) literal with
      | error error => exact ⟨trivial, fun succeeds => nomatch succeeds⟩
      | ok list =>
          refine wellScoped_append ?_ ?_
          · apply store_wellScoped stored
            intro part partMem
            cases part with
            | whole => simp [Operand.slot, Operand.scratch]
            | fraction => simpa [Operand.slot, Operand.scratch] using partMem
          · by_cases simple : ∀ name fields, this.ty ≠ .struct name fields
            · apply combineScalars_wellScoped operation (by simp) (by simp [maxNesting])
              · intro part partMem
                exact owned _ (Value.register_mem_registers simple partMem)
              · intro part partMem
                exact Or.inl (List.mem_append_left _ (store_writes stored partMem))
              · exact fun exchange => absurd exchange notSwap
            · simp only [ne_eq, not_forall, not_not] at simple
              obtain ⟨name, fields, thisEq⟩ := simple
              rw [combineScalars_struct_left thisEq]
              trivial

/-- The plan of every statement with a literal. -/
theorem combineLiteral_wellScoped {this : Value} {literal : Literal}
    (owned : ∀ register ∈ this.registers,
      permissions.readable register ∧ permissions.writable register) :
    (combineLiteral this operation literal).WellScoped permissions [] known := by
  have direct (simple : ∀ name fields, this.ty ≠ .struct name fields) :
      permissions.readable (this.register .whole) ∧
        permissions.writable (this.register .whole) :=
    owned _ (Value.register_mem_registers simple (Ty.whole_mem_parts _))
  unfold combineLiteral
  split
  · exact assignment_wellScoped fun register member => (owned register member).2
  split
  · trivial
  split
  case h_1 thisEq _ _ | h_2 thisEq _ _ | h_3 thisEq _ _ | h_4 thisEq _ _ |
      h_5 thisEq _ _ | h_6 thisEq _ _ =>
      obtain ⟨readable, writable⟩ := direct (by simp [thisEq])
      exact ⟨⟨Slot.readable_fixed readable, writable⟩, trivial⟩
  case h_7 | h_8 => trivial
  case h_9 => exact combineStored_wellScoped (by assumption) owned

/-- Joining the parts of a decimal in a scratch register. -/
theorem joinPlan_wellScoped {this : Value} {precision : Nat}
    (readable : ∀ part, permissions.readable (this.register part)) :
    (Filter.joinPlan this precision).WellScoped permissions [.int] known := by
  apply ofExcept_scale_wellScoped
  intro _ unitScore
  apply withConstant_wellScoped (by simp) (by decide)
  exact combineInto_wellScoped (by simp) (Slot.readable_fixed (readable .whole))
    (Slot.readable_fixed (readable .fraction)) (by simp)

end Plan
end ScoreLowering
