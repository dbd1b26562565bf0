import ScoreLowering.Proofs.ScratchNames
import ScoreLowering.Proofs.ScratchSessions

/-!
# When registers of the stacks overlap

The name of a register puts scope, type and position one right behind the other.
For single values it can always be read back.  A struct brings a name of its own
into it, and there the position may be mistaken for the end of the name, two
definitions may go by the same name, or the identifiers of the fields are so long
that digests take their place, which need not be different.

This file says exactly which registers have an objective in common, and that
digests are the only reason among types that can be told apart.
-/

namespace ScoreLowering

/-- A position on one of the stacks. -/
structure Place where
  key : StackKey
  index : Nat
  deriving DecidableEq, Repr

def Lease.place (lease : Lease) : Place :=
  ⟨lease.key, lease.index⟩

namespace Ty

/-- Whether a name ends before a number and before a dot. -/
def isPlainName (name : String) : Bool :=
  !name.toList.contains '.' && name.toList.getLast?.all fun last => !last.isDigit

/-- Whether names tell registers of two types apart.  Structs have to have plain
names, and the same name stands for the same fields. -/
def toldApart : Ty → Ty → Bool
  | struct name fields, struct other others =>
      isPlainName name && isPlainName other && (name ≠ other || fields = others)
  | first, second => first.isStorable && second.isStorable

theorem isScalar_of_isStorable {ty : Ty} (storable : ty.isStorable)
    (single : ∀ name fields, ty ≠ struct name fields) : ty.isScalar := by
  cases ty with
  | struct name fields => exact absurd rfl (single name fields)
  | decimal precision => simpa [isScalar, isStorable] using storable
  | _ => rfl

theorem toldApart_of_isScalar {first second : Ty} (scalar : first.isScalar)
    (storable : second.isStorable) : first.toldApart second := by
  have own := isStorable_of_isScalar scalar
  cases first with
  | struct name fields => exact absurd rfl (not_struct_of_isScalar scalar name fields)
  | _ => simp_all [toldApart]

theorem plainName_toDigits_inj {first second : String} (plain : isPlainName first)
    (otherPlain : isPlainName second) {position other : Nat} {rest others : List Char}
    (dotted : Value.Dotted rest) (othersDotted : Value.Dotted others)
    (equal : first.toList ++ (Nat.toDigits 10 position ++ rest) =
      second.toList ++ (Nat.toDigits 10 other ++ others)) :
    first = second ∧ position = other := by
  simp only [isPlainName, Bool.and_eq_true, Bool.not_eq_true', List.contains_eq_mem,
    decide_eq_false_iff_not] at plain otherPlain
  have noDot {name : String} (nameDotless : '.' ∉ name.toList) (number : Nat) :
      ∀ char ∈ name.toList ++ Nat.toDigits 10 number, (char != '.') = true := by
    intro char member
    rcases List.mem_append.mp member with inName | inNumber
    · exact bne_iff_ne.mpr fun dot => nameDotless (dot ▸ inName)
    · have digit := Nat.isDigit_of_mem_toDigits (by decide) (by decide) inNumber
      exact bne_iff_ne.mpr fun dot => absurd (dot ▸ digit) (by decide)
  have stops {tail : List Char} (tailDotted : Value.Dotted tail) :
      ∀ char ∈ tail.head?, (char != '.') = false := by
    intro char head
    simp [tailDotted char head]
  have lastNotDigit {name : String} (ends : name.toList.getLast?.all fun last => !last.isDigit) :
      ∀ char ∈ name.toList.getLast?, char.isDigit = false := by
    intro char last
    rw [Option.mem_def.mp last] at ends
    simpa using ends
  -- the first dot ends the number, and the last letter ends the name
  rw [← List.append_assoc, ← List.append_assoc] at equal
  obtain ⟨fronts, _⟩ := append_inj_of_run (noDot plain.1 position) (noDot otherPlain.1 other)
    (stops dotted) (stops othersDotted) equal
  obtain ⟨names, positions⟩ :=
    append_toDigits_inj (lastNotDigit plain.2) (lastNotDigit otherPlain.2) fronts
  exact ⟨String.toList_inj.mp names, positions⟩

theorem code_toDigits_inj_of_toldApart {first second : Ty} (apart : first.toldApart second)
    {position other : Nat} {rest others : List Char} (dotted : Value.Dotted rest)
    (othersDotted : Value.Dotted others)
    (equal : first.code.toList ++ (Nat.toDigits 10 position ++ rest) =
      second.code.toList ++ (Nat.toDigits 10 other ++ others)) :
    first = second ∧ position = other := by
  have storable : first.isStorable ∧ second.isStorable := by
    cases first <;> cases second <;> simp_all [toldApart, isStorable]
  cases firstEq : first with
  | struct name fields =>
      cases secondEq : second with
      | struct otherName otherFields =>
          rw [firstEq, secondEq, code_struct, code_struct, List.cons_append, List.cons_append,
            List.cons.injEq] at equal
          rw [firstEq, secondEq] at apart
          simp only [toldApart, Bool.and_eq_true, Bool.or_eq_true, decide_eq_true_eq] at apart
          obtain ⟨names, positions⟩ :=
            plainName_toDigits_inj apart.1.1 apart.1.2 dotted othersDotted equal.2
          have fieldsEq := apart.2.resolve_left (not_not_intro names)
          exact ⟨by rw [names, fieldsEq], positions⟩
      | _ =>
          have scalar := isScalar_of_isStorable storable.2 (by simp [secondEq])
          obtain ⟨types, positions⟩ :=
            code_toDigits_inj scalar storable.1 othersDotted dotted equal.symm
          exact ⟨by rw [← firstEq, ← secondEq, types], positions.symm⟩
  | _ =>
      have scalar := isScalar_of_isStorable storable.1 (by simp [firstEq])
      rw [← firstEq]
      exact code_toDigits_inj scalar storable.2 dotted othersDotted equal

end Ty

theorem Leaf.SpelledAlike.exists_append {first second : Leaf} (alike : first.SpelledAlike second) :
    ∃ rest others, Value.Dotted rest ∧ Value.Dotted others ∧
      first.ident.toList ++ rest = second.ident.toList ++ others := by
  have suffixDotted : Value.Dotted Name.fractionSuffix.toList := by
    simp [Value.Dotted, Name.fractionSuffix]
  obtain ⟨_, _, same | ⟨_, same⟩ | ⟨_, same⟩⟩ := alike
  · exact ⟨[], [], Value.dotted_nil, Value.dotted_nil, by rw [same]⟩
  · exact ⟨_, [], suffixDotted, Value.dotted_nil, by rw [same]; simp⟩
  · exact ⟨[], _, Value.dotted_nil, suffixDotted, by rw [same]; simp⟩

namespace StackPool

@[simp]
theorem isGlobal_scopeAddress (pool : StackPool) (global : Bool) :
    (pool.scopeAddress global).isGlobal = global := by
  cases global <;> rfl

end StackPool

namespace Workspace

/-- The register at a place, whether it is held or not. -/
def registerOf (workspace : Workspace) (place : Place) : Value :=
  workspace.scratchAt .stacked place.key.ty (workspace.stacked.scopeAddress place.key.global)
    place.index

variable {workspace : Workspace}

theorem registerOf_ident_congr {before after : Workspace}
    (stemEq : after.stacked.stem = before.stacked.stem) (place : Place) :
    (after.registerOf place).ident = (before.registerOf place).ident := by
  simp [registerOf, scratchAt, StackPool.registerAt, stemEq]

theorem registerOf_underscore (stems : DefaultStems workspace) (place : Place) :
    ∃ chars, (workspace.registerOf place).ident.toList = '_' :: chars := by
  rw [registerOf, scratchAt_ident stems]
  exact ⟨_, rfl⟩

theorem place_eq_of_spelledAlike (stems : DefaultStems workspace) {first second : Place}
    (apart : first.key.ty.toldApart second.key.ty) {leaf other : Leaf}
    (member : leaf ∈ (workspace.registerOf first).leaves)
    (otherMember : other ∈ (workspace.registerOf second).leaves)
    (alike : leaf.SpelledAlike other) : first = second := by
  obtain ⟨tail, otherTail, tailDotted, otherTailDotted, equal⟩ := alike.exists_append
  obtain ⟨rest, spelled, restDotted⟩ := Value.ident_of_mem_leavesOf _ _ member
  obtain ⟨others, otherSpelled, othersDotted⟩ := Value.ident_of_mem_leavesOf _ _ otherMember
  rw [spelled, otherSpelled, registerOf, registerOf, scratchAt_ident stems, scratchAt_ident stems]
    at equal
  simp only [List.append_assoc] at equal
  obtain ⟨scopes, behind⟩ := stemChars_append_inj equal
  obtain ⟨types, positions⟩ := Ty.code_toDigits_inj_of_toldApart apart
    (restDotted.append tailDotted) (othersDotted.append otherTailDotted) behind
  rw [StackPool.isGlobal_scopeAddress, StackPool.isGlobal_scopeAddress] at scopes
  obtain ⟨⟨firstScope, firstTy⟩, firstIndex⟩ := first
  obtain ⟨⟨secondScope, secondTy⟩, secondIndex⟩ := second
  simp_all

/-- Single values have short names for millions of registers. -/
theorem isLong_eq_false_of_isScalar (stems : DefaultStems workspace) {place : Place}
    (scalar : place.key.ty.isScalar) (named : place.index < namedPositions) {leaf : Leaf}
    (member : leaf ∈ (workspace.registerOf place).leaves) : leaf.isLong = false := by
  have short : (workspace.registerOf place).ident.length ≤ place.key.ty.nameLimit :=
    scratchAt_ident_length_le stems scalar named
  rw [Value.leaves, registerOf, scratchAt_ty, ← registerOf] at member
  refine decide_eq_false (Nat.not_lt.mpr ?_)
  cases tyEq : place.key.ty with
  | struct name fields => exact absurd tyEq (Ty.not_struct_of_isScalar scalar name fields)
  | _ =>
      -- the only leaf is the register itself, and has the same limit
      rw [tyEq] at short member
      rw [Value.leavesOf, List.mem_singleton] at member
      rw [member]
      exact short

theorem registerOf_overlaps_iff (stems : DefaultStems workspace) (first second : Place) :
    (workspace.registerOf first).Overlaps (workspace.registerOf second) ↔
      ∃ leaf ∈ (workspace.registerOf first).leaves,
        ∃ other ∈ (workspace.registerOf second).leaves,
          leaf.SpelledAlike other ∨ leaf.SameDigest other :=
  Value.overlaps_iff (registerOf_underscore stems first) (registerOf_underscore stems second)

theorem registerOf_overlaps_iff_sameDigest (stems : DefaultStems workspace)
    {first second : Place} (different : first ≠ second)
    (apart : first.key.ty.toldApart second.key.ty) :
    (workspace.registerOf first).Overlaps (workspace.registerOf second) ↔
      ∃ leaf ∈ (workspace.registerOf first).leaves,
        ∃ other ∈ (workspace.registerOf second).leaves, leaf.SameDigest other := by
  rw [registerOf_overlaps_iff stems]
  constructor
  · rintro ⟨leaf, member, other, otherMember, alike | same⟩
    · exact absurd (place_eq_of_spelledAlike stems apart member otherMember alike) different
    · exact ⟨leaf, member, other, otherMember, same⟩
  · rintro ⟨leaf, member, other, otherMember, same⟩
    exact ⟨leaf, member, other, otherMember, Or.inr same⟩

theorem not_overlaps_of_isScalar (stems : DefaultStems workspace) {first second : Place}
    (different : first ≠ second) (scalar : first.key.ty.isScalar)
    (named : first.index < namedPositions) (storable : second.key.ty.isStorable) :
    ¬ (workspace.registerOf first).Overlaps (workspace.registerOf second) := by
  rw [registerOf_overlaps_iff_sameDigest stems different
    (Ty.toldApart_of_isScalar scalar storable)]
  rintro ⟨leaf, member, _, _, long, _⟩
  rw [isLong_eq_false_of_isScalar stems scalar named member] at long
  cases long

end Workspace

namespace Session

open Workspace

theorem step_stems (session : Session) (event : Event) :
    (session.step event).workspace.stacked.stem = session.workspace.stacked.stem ∧
      (session.step event).workspace.counted.stem = session.workspace.counted.stem := by
  cases event with
  | acquire pool ty address => exact acquire_stems session.workspace pool ty address
  | release lease | drop lease =>
      simp only [step]
      split
      · rcases session.workspace.discard_cases lease with same | popped
        · rw [same]
          exact ⟨rfl, rfl⟩
        · rw [popped]
          rcases session.workspace.pop_cases lease with after | after <;> rw [after] <;>
            exact ⟨rfl, rfl⟩
      · exact ⟨rfl, rfl⟩
  | popStack key =>
      by_cases empty : (session.workspace.stacked.stack key).isEmpty
      · simp only [step, StackPool.popHeld, if_pos empty, and_self]
      · simp only [step, StackPool.popHeld, if_neg empty]
        exact ⟨rfl, rfl⟩
  | restoreStacks serial =>
      simp only [step]
      split <;> exact ⟨rfl, rfl⟩
  | restoreCounter =>
      cases saved : session.workspace.counted.saved with
      | nil => simp only [step, CounterPool.restore, saved, and_self]
      | cons count earlier =>
          simp only [step, CounterPool.restore, saved]
          exact ⟨rfl, rfl⟩
  | detach _ | popCounter | saveStacks | saveCounter | borrow _ _ | pushHead _ => exact ⟨rfl, rfl⟩

theorem defaultStems_run (events : List Event) :
    ((start {}).run events).workspace.DefaultStems := by
  refine run_keeps (motive := fun session => session.workspace.DefaultStems) ?_
    Compilation.start_defaultStems events
  intro session event stems
  obtain ⟨stackStem, counterStem⟩ := session.step_stems event
  exact ⟨stackStem.trans stems.stacked, counterStem.trans stems.counted⟩

/-- The leases on the stacks have the registers of their places. -/
def LeasesPlaced (session : Session) : Prop :=
  ∀ lease ∈ session.leases, lease.pool = .stacked →
    lease.value.ident = (session.workspace.registerOf lease.place).ident ∧
      lease.value.ty = lease.key.ty

theorem LeasesPlaced.step {session : Session} (placed : session.LeasesPlaced) (event : Event) :
    (session.step event).LeasesPlaced := by
  intro lease inHand onStacks
  rw [registerOf_ident_congr (session.step_stems event).1]
  rcases session.step_leases event with fewer | ⟨pool, ty, address, rfl, after⟩
  · exact placed lease (fewer.subset inHand) onStacks
  · rw [after] at inHand
    rcases List.mem_cons.mp inHand with rfl | old
    · cases pool with
      | stacked =>
          refine ⟨?_, rfl⟩
          simp [registerOf, scratchAt, StackPool.registerAt, Workspace.acquire,
            StackPool.acquire, Lease.place]
      | counted => cases onStacks
    · exact placed lease old onStacks

theorem leasesPlaced_run (settings : Settings) (events : List Event) :
    ((start settings).run events).LeasesPlaced :=
  run_keeps (fun _ event placed => placed.step event) (fun _ inHand => by cases inHand) events

/-- Leases have the registers of their places, and these registers overlap exactly
if leaves of them are spelled alike or have the same digest.  The former never
happens if the types can be told apart, and the latter never with single values. -/
theorem registers_overlap_iff (events : List Event) :
    let session := (start {}).run events
    (∀ lease ∈ session.leases, lease.pool = .stacked →
        lease.value.objectives = (session.workspace.registerOf lease.place).objectives) ∧
      ∀ first second : Place, first ≠ second →
        let register := session.workspace.registerOf first
        let other := session.workspace.registerOf second
        (register.Overlaps other ↔ ∃ leaf ∈ register.leaves, ∃ otherLeaf ∈ other.leaves,
            leaf.SpelledAlike otherLeaf ∨ leaf.SameDigest otherLeaf) ∧
          (first.key.ty.toldApart second.key.ty →
            (register.Overlaps other ↔ ∃ leaf ∈ register.leaves, ∃ otherLeaf ∈ other.leaves,
              leaf.SameDigest otherLeaf)) ∧
          (first.key.ty.isScalar → first.index < namedPositions → second.key.ty.isStorable →
            ¬ register.Overlaps other) := by
  intro session
  have stems : session.workspace.DefaultStems := defaultStems_run events
  constructor
  · intro lease inHand onStacks
    obtain ⟨identEq, tyEq⟩ := leasesPlaced_run {} events lease inHand onStacks
    rw [Value.objectives, Value.objectives, identEq, tyEq, registerOf, scratchAt_ty]
    rfl
  · intro first second different register other
    exact ⟨registerOf_overlaps_iff stems first second,
      registerOf_overlaps_iff_sameDigest stems different,
      not_overlaps_of_isScalar stems different⟩

/-- Two structs of one type with short names, and a decimal. -/
theorem registers_disjoint_of_plain_structs :
    let point : Ty := .struct "Point" [("x", .int), ("y", .decimal 2)]
    let session := (start {}).run [.acquire .stacked point .here, .acquire .stacked point .here,
      .acquire .stacked (.decimal 9) .here]
    let register (ty : Ty) (index : Nat) := session.workspace.registerOf ⟨⟨false, ty⟩, index⟩
    point.toldApart point ∧ (register point 0).objectives = ["_tmpLsPoint0.x", "_tmpLsPoint0.y",
        "_tmpLsPoint0.y.d"] ∧
      ¬ (register point 0).Overlaps (register point 1) ∧
      ¬ (register (.decimal 9) 0).Overlaps (register point 0) := by
  intro point session register
  obtain ⟨_, overlap⟩ := registers_overlap_iff [.acquire .stacked point .here,
    .acquire .stacked point .here, .acquire .stacked (.decimal 9) .here]
  have short : ¬ ∃ leaf ∈ (register point 0).leaves, ∃ other ∈ (register point 1).leaves,
      leaf.SameDigest other := by decide +kernel
  refine ⟨by decide, by decide +kernel, ?_, ?_⟩
  · rwa [((overlap ⟨⟨false, point⟩, 0⟩ ⟨⟨false, point⟩, 1⟩ (by decide)).2.1 (by decide))]
  · exact (overlap ⟨⟨false, .decimal 9⟩, 0⟩ ⟨⟨false, point⟩, 0⟩ (by decide)).2.2 (by decide)
      (by decide) (by decide)

/-- A digest is shared by the first two registers of a struct, and a number is
mistaken for the end of a name. -/
theorem held_registers_overlap :
    let positions : Ty := .struct "PlayerPositions" [("x", .int)]
    let session := (start {}).run [.acquire .stacked positions .here,
      .acquire .stacked positions .here]
    let plain : Ty := .struct "P" [("x", .int)]
    let numbered : Ty := .struct "P1" [("x", .int)]
    let crowded := (start {}).run (List.replicate 11 (.acquire .stacked plain .here) ++
      [.acquire .stacked numbered .here])
    (session.workspace.held .stacked ⟨false, positions⟩ = [0, 1] ∧
        session.leases.map (fun lease => lease.value.objectives) =
          [["L5jsptnJ"], ["L5jsptnJ"]]) ∧
      (crowded.workspace.held .stacked ⟨false, plain⟩).getLast? = some 10 ∧
        crowded.workspace.held .stacked ⟨false, numbered⟩ = [11] ∧
        (crowded.leases.take 2).map (fun lease => lease.value.objectives) =
          [["_tmpLsP10.x"], ["_tmpLsP10.x"]] := by
  decide +kernel

end Session

end ScoreLowering
