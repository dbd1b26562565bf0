import ScoreLowering.Proofs.FieldPaths

/-!
# Names fit on the board

The board takes names of at most sixteen characters.  A name is the identifier of a single
value as long as that leaves room, two characters of it for the suffix of a fraction, and a
digest of eight symbols otherwise.  The fields of a struct are measured anew, each with its
whole dotted identifier.
-/

namespace ScoreLowering

namespace Name

/-- A name never exceeds a limit that has room for a digest. -/
theorem length_objective_le (ident : String) {limit : Nat} (room : 8 ≤ limit) :
    (objective ident limit).length ≤ limit := by
  unfold objective
  split
  · rwa [length_digest]
  · rename_i short
    exact Nat.le_of_not_lt short

end Name

/-- Every limit has room for a digest, and none exceeds that of the board. -/
theorem Ty.nameLimit_bounds (ty : Ty) : 8 ≤ ty.nameLimit ∧ ty.nameLimit ≤ Name.maxLength := by
  unfold nameLimit
  split <;> decide

namespace Value

/-- A single value has one leaf, which is named as its type allows. -/
theorem leaf_of_isSingle {ident : String} {ty : Ty} {leaf : Leaf} (single : ty.isSingle)
    (leaves : leavesOf ident ty = [leaf]) :
    leaf.name = Name.objective ident ty.nameLimit ∧
      (leaf.isDecimal → ∃ precision, ty = .decimal precision) := by
  cases ty with
  | struct name fields => cases single
  | decimal precision =>
      cases leaves
      exact ⟨rfl, fun _ => ⟨precision, rfl⟩⟩
  | int | bool | time =>
      cases leaves
      exact ⟨rfl, nofun⟩

/-- An objective is the one of a single value, with or without the suffix of a fraction. -/
theorem exists_leads_of_mem_objectives {value : Value} {objective : String}
    (member : objective ∈ value.objectives) :
    ∃ path start leaf suffix, value.ty.Leads path start leaf ∧ leaf.isSingle ∧
      (suffix = "" ∨ suffix = Name.fractionSuffix ∧ ∃ precision, leaf = .decimal precision) ∧
      objective = Name.objective (dotted value.ident path) leaf.nameLimit ++ suffix := by
  rw [objectives, layout_eq_flatMap, List.mem_flatMap] at member
  obtain ⟨found, foundMem, member⟩ := member
  obtain ⟨path, start, leaf, leads, single, leaves⟩ :=
    exists_leads_of_mem_leavesOf value.ident value.ty foundMem
  obtain ⟨nameEq, decimal⟩ := leaf_of_isSingle single leaves
  rcases Leaf.mem_objectives.mp member with whole | ⟨isDecimal, fraction⟩
  · exact ⟨path, start, leaf, "", leads, single, Or.inl rfl,
      by rw [whole, nameEq, String.append_empty]⟩
  · exact ⟨path, start, leaf, Name.fractionSuffix, leads, single, Or.inr ⟨rfl, decimal isDecimal⟩,
      by rw [fraction, nameEq]⟩

/-- Every objective has at most sixteen characters.  It is the identifier of a single value,
if that leaves room, or else eight letters and digits, and the suffix of a fraction may
follow. -/
theorem objective_names_fit (value : Value) {objective : String}
    (member : objective ∈ value.objectives) :
    objective.length ≤ 16 ∧
      ∃ path start leaf suffix, value.ty.Leads path start leaf ∧ leaf.isSingle ∧
        (suffix = "" ∨ suffix = ".d" ∧ ∃ precision, leaf = .decimal precision) ∧
        let ident := dotted value.ident path
        let digest := Name.digest ident
        ident.length ≤ leaf.nameLimit ∧ objective = ident ++ suffix ∨
          leaf.nameLimit < ident.length ∧ objective = digest ++ suffix ∧ digest.length = 8 ∧
            ∀ char ∈ digest.toList, char.isAlphanum := by
  obtain ⟨path, start, leaf, suffix, leads, single, suffixed, named⟩ :=
    exists_leads_of_mem_objectives member
  refine ⟨?_, path, start, leaf, suffix, leads, single, suffixed, ?_⟩
  · rw [named, String.length_append]
    rcases suffixed with rfl | ⟨rfl, precision, rfl⟩
    · obtain ⟨room, limit⟩ := leaf.nameLimit_bounds
      rw [String.length_empty, Nat.add_zero]
      exact Nat.le_trans (Name.length_objective_le (dotted value.ident path) room) limit
    · have bound : _ ≤ 14 := Name.length_objective_le (dotted value.ident path) (by decide)
      exact Nat.add_le_add_right bound 2
  · unfold Name.objective at named
    split at named
    · rename_i long
      exact Or.inr ⟨long, named, Name.length_digest _, fun _ => Name.digest_isAlphanum _⟩
    · rename_i short
      exact Or.inl ⟨Nat.le_of_not_lt short, named⟩

/-- Fifteen characters, some of them beyond ASCII, are short enough for a number, and one too
many for a decimal. -/
theorem objective_names_of_fifteen_characters :
    let inner : Ty := .struct "T" [("zähler", .int), ("teil_x", .decimal 2)]
    let value : Value := ⟨"größe", .struct "S" [("in", inner)], .here, []⟩
    value.objectives = ["größe.in.zähler", "3DaGKz19", "3DaGKz19.d"] ∧
      "größe.in.teil_x".length = 15 ∧ ∀ objective ∈ value.objectives, objective.length ≤ 16 := by
  intro inner value
  have spelled : value.objectives = ["größe.in.zähler", "3DaGKz19", "3DaGKz19.d"] := by
    decide +kernel
  have fifteen : "größe.in.teil_x".length = 15 := by decide
  exact ⟨spelled, fifteen, fun objective member => (objective_names_fit value member).1⟩

end Value
end ScoreLowering
