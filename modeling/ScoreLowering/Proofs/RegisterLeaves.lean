import ScoreLowering.Value.Basic

/-!
# The single values within a value

A struct is laid out field by field, so that its objectives are those of its
leaves: single values with dotted identifiers.  Two leaves share an objective in
two ways only.  Either both names are written out and one of them is the other
or its fraction, or else a digest takes the place of an identifier that is too
long, and the other one has the same digest or happens to be spelled like it.
-/

namespace ScoreLowering

namespace Name

theorem symbol_isAlphanum (index : Nat) : (symbol index).isAlphanum := by
  have all : symbols.all Char.isAlphanum := by decide
  have inside : index % symbols.length < symbols.length :=
    Nat.mod_lt _ (by decide)
  unfold symbol
  rw [List.getD_eq_getElem?_getD, List.getElem?_eq_getElem inside, Option.getD_some]
  exact List.all_eq_true.mp all _ (List.getElem_mem inside)

theorem byteSymbols_isAlphanum (byte : Nat) {char : Char} (member : char ∈ byteSymbols byte) :
    char.isAlphanum := by
  rw [byteSymbols, List.mem_cons, List.mem_singleton] at member
  rcases member with rfl | rfl
  · exact symbol_isAlphanum _
  · exact symbol_isAlphanum _

theorem digest_isAlphanum (ident : String) {char : Char}
    (member : char ∈ (digest ident).toList) : char.isAlphanum := by
  unfold digest at member
  rw [String.toList_ofList, List.mem_append, List.mem_append, List.mem_append] at member
  rcases member with ((first | second) | third) | fourth
  · exact byteSymbols_isAlphanum _ first
  · exact byteSymbols_isAlphanum _ second
  · exact byteSymbols_isAlphanum _ third
  · exact byteSymbols_isAlphanum _ fourth

theorem length_digest (ident : String) : (digest ident).length = 8 := by
  rw [← String.length_toList, digest, String.toList_ofList]
  rfl

theorem digest_ne_nil (ident : String) : (digest ident).toList ≠ [] := by
  rw [← List.length_pos_iff, String.length_toList, length_digest]
  decide

/-- No name that starts with an underscore is a digest. -/
theorem digest_append_ne (ident : String) (rest chars : List Char) :
    (digest ident).toList ++ rest ≠ '_' :: chars := by
  intro equal
  cases digits : (digest ident).toList with
  | nil => exact digest_ne_nil ident digits
  | cons first others =>
      have alphanum : first.isAlphanum := digest_isAlphanum ident (by simp [digits])
      rw [digits, List.cons_append, List.cons.injEq] at equal
      rw [equal.1] at alphanum
      exact absurd alphanum (by decide)

theorem digest_ne_fraction (ident other : String) : digest ident ≠ other ++ fractionSuffix := by
  intro equal
  have dot : '.' ∈ (digest ident).toList := by
    rw [equal, String.toList_append]
    exact List.mem_append_right _ (by decide)
  exact absurd (digest_isAlphanum ident dot) (by decide)

end Name

namespace Ty

/-- Whether a value of the type has no fields. -/
def isSingle : Ty → Bool
  | struct _ _ => false
  | int | decimal _ | bool | time => true

theorem ne_struct_of_isSingle {ty : Ty} (single : ty.isSingle) (name : String)
    (fields : List (String × Ty)) : ty ≠ struct name fields := by
  rintro rfl
  cases single

end Ty

/-- A single value that is part of another one. -/
structure Leaf where
  ident : String
  /-- Whether there is a fraction besides the whole part. -/
  isDecimal : Bool
  deriving DecidableEq, Repr

namespace Leaf

def limit (leaf : Leaf) : Nat :=
  if leaf.isDecimal then Name.maxLength - Name.fractionSuffix.length else Name.maxLength

/-- Whether a digest takes the place of the identifier. -/
def isLong (leaf : Leaf) : Bool :=
  leaf.limit < leaf.ident.length

def name (leaf : Leaf) : String :=
  Name.objective leaf.ident leaf.limit

def objectives (leaf : Leaf) : List String :=
  if leaf.isDecimal then [leaf.name, leaf.name ++ Name.fractionSuffix] else [leaf.name]

/-- The names are written out, and one is the other or its fraction. -/
def SpelledAlike (first second : Leaf) : Prop :=
  first.isLong = false ∧ second.isLong = false ∧
    (first.ident = second.ident ∨
      (first.isDecimal ∧ second.ident = first.ident ++ Name.fractionSuffix) ∨
      (second.isDecimal ∧ first.ident = second.ident ++ Name.fractionSuffix))

/-- Both identifiers are too long, and one digest takes the place of both. -/
def SameDigest (first second : Leaf) : Prop :=
  first.isLong ∧ second.isLong ∧ Name.digest first.ident = Name.digest second.ident

instance (first second : Leaf) : Decidable (first.SpelledAlike second) :=
  inferInstanceAs (Decidable (_ ∧ _))

instance (first second : Leaf) : Decidable (first.SameDigest second) :=
  inferInstanceAs (Decidable (_ ∧ _))

theorem name_of_long {leaf : Leaf} (long : leaf.isLong) : leaf.name = Name.digest leaf.ident :=
  if_pos (of_decide_eq_true long)

theorem name_of_short {leaf : Leaf} (short : leaf.isLong = false) : leaf.name = leaf.ident :=
  if_neg (of_decide_eq_false short)

theorem mem_objectives {leaf : Leaf} {objective : String} :
    objective ∈ leaf.objectives ↔
      objective = leaf.name ∨ (leaf.isDecimal ∧ objective = leaf.name ++ Name.fractionSuffix) := by
  unfold objectives
  cases leaf.isDecimal <;> simp

theorem exists_mem_objectives_iff (first second : Leaf) :
    (∃ objective ∈ first.objectives, objective ∈ second.objectives) ↔
      first.name = second.name ∨
        (first.isDecimal ∧ second.name = first.name ++ Name.fractionSuffix) ∨
        (second.isDecimal ∧ first.name = second.name ++ Name.fractionSuffix) := by
  simp only [mem_objectives]
  constructor
  · rintro ⟨objective, rfl | ⟨decimal, rfl⟩, same | ⟨otherDecimal, same⟩⟩
    · exact Or.inl same
    · exact Or.inr (Or.inr ⟨otherDecimal, same⟩)
    · exact Or.inr (Or.inl ⟨decimal, same.symm⟩)
    · -- two fractions
      exact Or.inl ((String.append_left_inj _).mp same)
  · rintro (same | ⟨decimal, same⟩ | ⟨decimal, same⟩)
    · exact ⟨first.name, Or.inl rfl, Or.inl same⟩
    · exact ⟨second.name, Or.inr ⟨decimal, same⟩, Or.inl rfl⟩
    · exact ⟨first.name, Or.inl rfl, Or.inr ⟨decimal, same⟩⟩

/-- One name is written out, and reads like the digest of the other identifier or like
the fraction under that digest. -/
def TakesDigest (written long : Leaf) : Prop :=
  written.isLong = false ∧ long.isLong ∧
    (written.ident = Name.digest long.ident ∨
      (long.isDecimal ∧ written.ident = Name.digest long.ident ++ Name.fractionSuffix))

/-- A digest is to blame if the two share an objective. -/
def DigestClash (first second : Leaf) : Prop :=
  first.SameDigest second ∨ first.TakesDigest second ∨ second.TakesDigest first

instance (written long : Leaf) : Decidable (written.TakesDigest long) :=
  inferInstanceAs (Decidable (_ ∧ _))

instance (first second : Leaf) : Decidable (first.DigestClash second) :=
  inferInstanceAs (Decidable (_ ∨ _))

theorem shared_iff_clash (first second : Leaf) :
    (∃ objective ∈ first.objectives, objective ∈ second.objectives) ↔
      first.SpelledAlike second ∨ first.DigestClash second := by
  rw [exists_mem_objectives_iff]
  cases firstLong : first.isLong with
  | false =>
      cases secondLong : second.isLong with
      | false =>
          simp [SpelledAlike, DigestClash, SameDigest, TakesDigest, firstLong, secondLong,
            name_of_short firstLong, name_of_short secondLong]
      | true =>
          simp [SpelledAlike, DigestClash, SameDigest, TakesDigest, firstLong, secondLong,
            name_of_short firstLong, name_of_long secondLong, Name.digest_ne_fraction]
  | true =>
      cases secondLong : second.isLong with
      | false =>
          simp [SpelledAlike, DigestClash, SameDigest, TakesDigest, firstLong, secondLong,
            name_of_long firstLong, name_of_short secondLong, Name.digest_ne_fraction,
            eq_comm (a := Name.digest first.ident) (b := second.ident)]
      | true =>
          simp [SpelledAlike, DigestClash, SameDigest, TakesDigest, firstLong, secondLong,
            name_of_long firstLong, name_of_long secondLong, Name.digest_ne_fraction]

/-- No digest starts with an underscore. -/
theorem not_takesDigest {written long : Leaf}
    (underscore : ∃ chars, written.ident.toList = '_' :: chars) : ¬ written.TakesDigest long := by
  obtain ⟨chars, start⟩ := underscore
  rintro ⟨_, _, same | ⟨_, same⟩⟩
  · rw [same] at start
    exact Name.digest_append_ne _ [] chars (by rw [List.append_nil, start])
  · rw [same, String.toList_append] at start
    exact Name.digest_append_ne _ _ chars start

theorem shared_iff {first second : Leaf} (firstStart : ∃ chars, first.ident.toList = '_' :: chars)
    (secondStart : ∃ chars, second.ident.toList = '_' :: chars) :
    (∃ objective ∈ first.objectives, objective ∈ second.objectives) ↔
      first.SpelledAlike second ∨ first.SameDigest second := by
  rw [shared_iff_clash, DigestClash]
  simp only [not_takesDigest firstStart, not_takesDigest secondStart, or_false]

end Leaf

namespace Value

mutual

/-- The single values that a value of this identifier and type consists of. -/
def leavesOf (ident : String) : Ty → List Leaf
  | .int | .bool | .time => [⟨ident, false⟩]
  | .decimal _ => [⟨ident, true⟩]
  | .struct _ fields => leavesOfFields ident fields

def leavesOfFields (ident : String) : List (String × Ty) → List Leaf
  | [] => []
  | (name, ty) :: rest => leavesOf (ident ++ "." ++ name) ty ++ leavesOfFields ident rest

end

def leaves (value : Value) : List Leaf :=
  leavesOf value.ident value.ty

mutual

theorem layout_eq_flatMap : (ident : String) → (ty : Ty) →
    layout ident ty = (leavesOf ident ty).flatMap Leaf.objectives
  | ident, .struct _ fields => layoutFields_eq_flatMap ident fields
  | _, .decimal _ | _, .int | _, .bool | _, .time => rfl

theorem layoutFields_eq_flatMap : (ident : String) → (fields : List (String × Ty)) →
    layoutFields ident fields = (leavesOfFields ident fields).flatMap Leaf.objectives
  | _, [] => rfl
  | ident, (name, ty) :: rest => by
      rw [layoutFields, leavesOfFields, List.flatMap_append, layout_eq_flatMap,
        layoutFields_eq_flatMap ident rest]

end

/-- Nothing, or something set off by a dot. -/
def Dotted (rest : List Char) : Prop :=
  ∀ char ∈ rest.head?, char = '.'

theorem dotted_nil : Dotted [] :=
  nofun

theorem Dotted.append {first next : List Char} (dotted : Dotted first) (nextDotted : Dotted next) :
    Dotted (first ++ next) := by
  cases first with
  | nil => exact nextDotted
  | cons char rest => exact dotted

mutual

theorem ident_of_mem_leavesOf {leaf : Leaf} : (ident : String) → (ty : Ty) →
    leaf ∈ leavesOf ident ty → ∃ rest, leaf.ident.toList = ident.toList ++ rest ∧ Dotted rest
  | ident, .struct _ fields, member => ident_of_mem_leavesOfFields ident fields member
  | ident, .decimal _, member | ident, .int, member | ident, .bool, member
  | ident, .time, member => by
      rw [leavesOf, List.mem_singleton] at member
      exact ⟨[], by rw [member, List.append_nil], dotted_nil⟩

theorem ident_of_mem_leavesOfFields {leaf : Leaf} :
    (ident : String) → (fields : List (String × Ty)) → leaf ∈ leavesOfFields ident fields →
      ∃ rest, leaf.ident.toList = ident.toList ++ rest ∧ Dotted rest
  | _, [], member => by simp [leavesOfFields] at member
  | ident, (name, ty) :: rest, member => by
      rw [leavesOfFields, List.mem_append] at member
      rcases member with inField | inRest
      · obtain ⟨suffix, spelled, _⟩ := ident_of_mem_leavesOf (ident ++ "." ++ name) ty inField
        refine ⟨'.' :: name.toList ++ suffix, ?_, by simp [Dotted]⟩
        simpa [String.toList_append] using spelled
      · exact ident_of_mem_leavesOfFields ident rest inRest

end

/-- An objective of a value continues its identifier with a dotted suffix, or
else stands for an identifier that was too long. -/
theorem mem_layout {objective : String} (ident : String) (ty : Ty)
    (member : objective ∈ layout ident ty) :
    (∃ long rest, objective.toList = (Name.digest long).toList ++ rest) ∨
      ∃ rest, objective.toList = ident.toList ++ rest ∧ Dotted rest := by
  rw [layout_eq_flatMap, List.mem_flatMap] at member
  obtain ⟨leaf, leafMem, member⟩ := member
  have named : ∃ suffix, objective.toList = leaf.name.toList ++ suffix ∧ Dotted suffix := by
    rcases Leaf.mem_objectives.mp member with rfl | ⟨_, rfl⟩
    · exact ⟨[], (List.append_nil _).symm, dotted_nil⟩
    · exact ⟨['.', 'd'], String.toList_append, by simp [Dotted]⟩
  obtain ⟨suffix, objectiveEq, suffixDotted⟩ := named
  cases long : leaf.isLong with
  | true => exact Or.inl ⟨leaf.ident, suffix, by rw [objectiveEq, Leaf.name_of_long long]⟩
  | false =>
      obtain ⟨rest, spelled, dotted⟩ := ident_of_mem_leavesOf ident ty leafMem
      refine Or.inr ⟨rest ++ suffix, ?_, dotted.append suffixDotted⟩
      rw [objectiveEq, Leaf.name_of_short long, spelled, List.append_assoc]

/-- Two values that have an objective in common. -/
def Overlaps (first second : Value) : Prop :=
  ∃ objective ∈ first.objectives, objective ∈ second.objectives

instance (first second : Value) : Decidable (first.Overlaps second) :=
  inferInstanceAs (Decidable (∃ objective ∈ first.objectives, objective ∈ second.objectives))

theorem overlaps_iff_leaves (first second : Value) :
    first.Overlaps second ↔ ∃ leaf ∈ first.leaves, ∃ other ∈ second.leaves,
      ∃ objective ∈ leaf.objectives, objective ∈ other.objectives := by
  simp only [Overlaps, objectives, layout_eq_flatMap, List.mem_flatMap]
  constructor
  · rintro ⟨objective, ⟨leaf, leafMem, member⟩, other, otherMem, otherMember⟩
    exact ⟨leaf, leafMem, other, otherMem, objective, member, otherMember⟩
  · rintro ⟨leaf, leafMem, other, otherMem, objective, member, otherMember⟩
    exact ⟨objective, ⟨leaf, leafMem, member⟩, other, otherMem, otherMember⟩

theorem overlaps_iff {first second : Value}
    (firstStart : ∃ chars, first.ident.toList = '_' :: chars)
    (secondStart : ∃ chars, second.ident.toList = '_' :: chars) :
    first.Overlaps second ↔ ∃ leaf ∈ first.leaves, ∃ other ∈ second.leaves,
      leaf.SpelledAlike other ∨ leaf.SameDigest other := by
  have starts {value : Value} (start : ∃ chars, value.ident.toList = '_' :: chars) {leaf : Leaf}
      (member : leaf ∈ value.leaves) : ∃ chars, leaf.ident.toList = '_' :: chars := by
    obtain ⟨chars, start⟩ := start
    obtain ⟨rest, spelled, _⟩ := ident_of_mem_leavesOf _ _ member
    exact ⟨chars ++ rest, by rw [spelled, start, List.cons_append]⟩
  rw [overlaps_iff_leaves]
  constructor
  · rintro ⟨leaf, member, other, otherMember, shared⟩
    exact ⟨leaf, member, other, otherMember,
      (Leaf.shared_iff (starts firstStart member) (starts secondStart otherMember)).mp shared⟩
  · rintro ⟨leaf, member, other, otherMember, clash⟩
    exact ⟨leaf, member, other, otherMember,
      (Leaf.shared_iff (starts firstStart member) (starts secondStart otherMember)).mpr clash⟩

end Value

end ScoreLowering
