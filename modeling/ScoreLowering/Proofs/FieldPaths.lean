import ScoreLowering.Proofs.RegisterLeaves

/-!
# Paths through structs

The names of fields lead from a struct to the values inside of it.  Objectives are laid out
field by field, so a path has a place among the objectives of the struct: behind those of
all fields that it passes by.  Paths that end at different single values have places without
anything in common.
-/

namespace ScoreLowering

namespace Ty

mutual

/-- The number of objectives that a value of the type takes. -/
def width : Ty → Nat
  | int | bool | time => 1
  | decimal _ => 2
  | struct _ fields => widthFields fields

def widthFields : List (String × Ty) → Nat
  | [] => 0
  | (_, ty) :: rest => width ty + widthFields rest

end

theorem widthFields_append (before after : List (String × Ty)) :
    widthFields (before ++ after) = widthFields before + widthFields after := by
  induction before with
  | nil => rw [List.nil_append, widthFields, Nat.zero_add]
  | cons field rest ih => rw [List.cons_append, widthFields, widthFields, ih, Nat.add_assoc]

theorem width_before_later {fields before later after others : List (String × Ty)}
    {name : String} {ty : Ty} {other : String × Ty}
    (placed : fields = before ++ (name, ty) :: after)
    (otherPlaced : fields = later ++ other :: others) (shorter : before.length < later.length) :
    widthFields before + ty.width ≤ widthFields later := by
  have starts : before ++ [(name, ty)] <+: fields :=
    ⟨after, by rw [placed, List.append_assoc, List.singleton_append]⟩
  have otherStarts : later <+: fields := ⟨other :: others, otherPlaced.symm⟩
  have longer : (before ++ [(name, ty)]).length ≤ later.length := by
    rwa [List.length_append, List.length_singleton]
  obtain ⟨between, rfl⟩ := List.prefix_of_prefix_length_le starts otherStarts longer
  rw [List.append_assoc, widthFields_append, List.singleton_append, widthFields]
  omega

/-- A path of field names leads to a type, whose objectives have so many others before them. -/
inductive Leads : Ty → List String → Nat → Ty → Prop
  | here (ty : Ty) : Leads ty [] 0 ty
  | field {name field : String} {fields before after : List (String × Ty)} {ty target : Ty}
      {path : List String} {start : Nat} (placed : fields = before ++ (field, ty) :: after)
      (rest : Leads ty path start target) :
      Leads (struct name fields) (field :: path) (widthFields before + start) target

namespace Leads

variable {ty target otherTarget : Ty} {path other : List String} {start otherStart : Nat}

theorem nil_of_isSingle (leads : ty.Leads path start target) (single : ty.isSingle) :
    path = [] := by
  cases leads with
  | here => rfl
  | field placed rest => cases single

theorem end_le (leads : ty.Leads path start target) : start + target.width ≤ ty.width := by
  induction leads with
  | here ty => exact Nat.le_of_eq (Nat.zero_add _)
  | field placed _ ih =>
      rw [width, placed, widthFields_append, widthFields]
      omega

/-- Of two fields one comes first, and its paths stay before those of the other. -/
theorem apart (leads : ty.Leads path start target)
    (otherLeads : ty.Leads other otherStart otherTarget) (single : target.isSingle)
    (otherSingle : otherTarget.isSingle) (different : path ≠ other) :
    start + target.width ≤ otherStart ∨ otherStart + otherTarget.width ≤ start := by
  induction leads generalizing other otherStart with
  | here ty => exact absurd (otherLeads.nil_of_isSingle single).symm different
  | @field _ name fields before after fieldTy _ path start placed rest ih =>
      cases otherLeads with
      | here => cases otherSingle
      | @field _ otherName _ otherBefore otherAfter otherTy _ otherPath otherStart otherPlaced
          otherRest =>
          have bound := rest.end_le
          have otherBound := otherRest.end_le
          rcases Nat.lt_trichotomy before.length otherBefore.length with first | same | last
          · have passed := width_before_later placed otherPlaced first
            omega
          · -- both paths go through one field
            obtain ⟨rfl, restEq⟩ := List.append_inj (placed.symm.trans otherPlaced) same
            obtain ⟨sameField, _⟩ := List.cons.inj restEq
            obtain ⟨rfl, rfl⟩ := Prod.mk.inj sameField
            have inside := ih otherRest single fun samePath => different (by rw [samePath])
            omega
          · have passed := width_before_later otherPlaced placed last
            omega

end Leads

/-! ### Names of fields -/

theorem sameFieldName_iff {first second : String} :
    sameFieldName first second ↔
      first.toList.map Char.toLower = second.toList.map Char.toLower :=
  decide_eq_true_iff

theorem toLower_eq_dot {char : Char} (lower : char.toLower = '.') : char = '.' := by
  unfold Char.toLower at lower
  split at lower
  · rename_i upper
    have low : 65 ≤ char.val.toNat := upper.1
    have high : char.val.toNat ≤ 90 := upper.2
    have shift : ('a'.val - 'A'.val).toNat = 32 := rfl
    have code : (char.val + ('a'.val - 'A'.val)).toNat = 46 := congrArg Char.toNat lower
    rw [UInt32.toNat_add, shift] at code
    omega
  · exact lower

theorem dot_mem_of_sameFieldName {first second : String} (same : sameFieldName first second)
    (dot : '.' ∈ second.toList) : '.' ∈ first.toList := by
  have lowered : '.' ∈ second.toList.map Char.toLower := List.mem_map.mpr ⟨'.', dot, rfl⟩
  rw [← sameFieldName_iff.mp same] at lowered
  obtain ⟨char, member, lower⟩ := List.mem_map.mp lowered
  rwa [← toLower_eq_dot lower]

mutual

/-- In every struct inside, names have no dot and differ in more than the case of letters. -/
def wellNamed : Ty → Bool
  | int | bool | time | decimal _ => true
  | struct _ fields => wellNamedFields fields

def wellNamedFields : List (String × Ty) → Bool
  | [] => true
  | (name, ty) :: rest =>
      !name.toList.contains '.' && rest.all (fun field => !sameFieldName name field.1) &&
        wellNamed ty && wellNamedFields rest

end

theorem wellNamedFields_cons {name : String} {ty : Ty} {rest : List (String × Ty)} :
    wellNamedFields ((name, ty) :: rest) ↔
      '.' ∉ name.toList ∧ (∀ field ∈ rest, ¬ sameFieldName name field.1) ∧ ty.wellNamed ∧
        wellNamedFields rest := by
  simp [wellNamedFields, and_assoc]

variable {fields : List (String × Ty)} {name : String} {ty : Ty}

theorem wellNamed_of_mem (named : wellNamedFields fields) (member : (name, ty) ∈ fields) :
    '.' ∉ name.toList ∧ ty.wellNamed := by
  induction fields with
  | nil => cases member
  | cons field rest ih =>
      obtain ⟨noDot, _, inner, restNamed⟩ := wellNamedFields_cons.mp named
      rcases List.mem_cons.mp member with rfl | later
      · exact ⟨noDot, inner⟩
      · exact ih restNamed later

/-- Among well-named fields a name is found in whatever case it is written. -/
theorem findField?_of_mem (named : wellNamedFields fields) (member : (name, ty) ∈ fields)
    {segment : String} (same : sameFieldName name segment) :
    findField? fields segment = some (name, ty) := by
  induction fields with
  | nil => cases member
  | cons field rest ih =>
      obtain ⟨_, others, _, restNamed⟩ := wellNamedFields_cons.mp named
      rcases List.mem_cons.mp member with rfl | later
      · exact List.find?_cons_of_pos same
      · have different : sameFieldName field.1 segment = false := by
          refine Bool.eq_false_iff.mpr fun alike => ?_
          refine others (name, ty) later (sameFieldName_iff.mpr ?_)
          exact (sameFieldName_iff.mp alike).trans (sameFieldName_iff.mp same).symm
        rw [findField?, List.find?_cons, different]
        exact ih restNamed later

namespace Leads

variable {target found : Ty} {path more : List String} {start foundStart : Nat}

theorem wellNamed (leads : ty.Leads path start target) (named : ty.wellNamed) :
    (∀ name ∈ path, '.' ∉ name.toList) ∧ target.wellNamed := by
  induction leads with
  | here ty => exact ⟨nofun, named⟩
  | @field _ name fields _ _ _ _ _ _ placed _ ih =>
      obtain ⟨noDot, inner⟩ := wellNamed_of_mem named (placed ▸ List.mem_append_cons_self)
      obtain ⟨noDots, reached⟩ := ih inner
      exact ⟨List.forall_mem_cons.mpr ⟨noDot, noDots⟩, reached⟩

/-- A path that goes on behind another one goes on from where that one leads to. -/
theorem exists_rest (leads : ty.Leads path start target) (named : ty.wellNamed)
    (longer : ty.Leads (path ++ more) foundStart found) :
    ∃ restStart, target.Leads more restStart found := by
  induction leads generalizing foundStart with
  | here ty => exact ⟨foundStart, longer⟩
  | @field _ name fields _ _ fieldTy _ _ _ placed _ ih =>
      cases longer with
      | @field _ _ _ _ _ otherTy _ _ _ otherPlaced rest =>
          have member : (name, fieldTy) ∈ fields := placed ▸ List.mem_append_cons_self
          have otherMember : (name, otherTy) ∈ fields := otherPlaced ▸ List.mem_append_cons_self
          have same : sameFieldName name name := sameFieldName_iff.mpr rfl
          -- names do not repeat, so both paths take the same field
          have fieldsEq := (findField?_of_mem named member same).symm.trans
            (findField?_of_mem named otherMember same)
          cases fieldsEq
          exact ih (wellNamed_of_mem named member).2 rest

end Leads

end Ty

/-- An identifier with field names behind it, each after a dot. -/
def dotted (ident : String) (path : List String) : String :=
  path.foldl (fun ident name => ident ++ "." ++ name) ident

theorem toList_dotted (ident : String) (path : List String) :
    (dotted ident path).toList = ident.toList ++ path.flatMap fun name => '.' :: name.toList := by
  induction path generalizing ident with
  | nil => exact (List.append_nil _).symm
  | cons name path ih =>
      rw [dotted, List.foldl_cons, ← dotted, ih, List.flatMap_cons, String.toList_append,
        String.toList_append, List.append_assoc, List.append_assoc]
      rfl

namespace Value

/-- The value that a path leads to: of another type, under a longer identifier, and otherwise
like the value it is part of. -/
def within (value : Value) (path : List String) (ty : Ty) : Value :=
  { value with ident := dotted value.ident path, ty := ty }

mutual

theorem length_layout_eq_width (ident : String) : (ty : Ty) →
    (layout ident ty).length = ty.width
  | .int | .bool | .time | .decimal _ => rfl
  | .struct _ fields => length_layoutFields_eq_widthFields ident fields

theorem length_layoutFields_eq_widthFields (ident : String) : (fields : List (String × Ty)) →
    (layoutFields ident fields).length = Ty.widthFields fields
  | [] => rfl
  | (name, ty) :: rest => by
      rw [layoutFields, List.length_append, Ty.widthFields,
        length_layout_eq_width (ident ++ "." ++ name) ty,
        length_layoutFields_eq_widthFields ident rest]

end

theorem layoutFields_append (ident : String) (before after : List (String × Ty)) :
    layoutFields ident (before ++ after) =
      layoutFields ident before ++ layoutFields ident after := by
  induction before with
  | nil => rfl
  | cons field rest ih =>
      rw [List.cons_append, layoutFields, layoutFields, ih, List.append_assoc]

/-- The objectives of an inner value stand in a row, at the place that its path has. -/
theorem layout_of_leads {ty target : Ty} {path : List String} {start : Nat}
    (leads : ty.Leads path start target) (ident : String) :
    layout (dotted ident path) target = ((layout ident ty).drop start).take target.width := by
  induction leads generalizing ident with
  | here ty =>
      rw [List.drop_zero, ← length_layout_eq_width ident ty, List.take_length]
      rfl
  | @field _ name fields before after fieldTy target path start placed rest ih =>
      have bound := rest.end_le
      have passed := length_layoutFields_eq_widthFields ident before
      have room := length_layout_eq_width (ident ++ "." ++ name) fieldTy
      rw [layout, placed, layoutFields_append, ← List.drop_drop, ← passed, List.drop_left,
        layoutFields, List.drop_append_of_le_length (by omega),
        List.take_append_of_le_length (by rw [List.length_drop]; omega)]
      exact ih (ident ++ "." ++ name)

mutual

/-- Every leaf is at the end of a path. -/
theorem exists_leads_of_mem_leavesOf {leaf : Leaf} : (ident : String) → (ty : Ty) →
    leaf ∈ leavesOf ident ty → ∃ path start target, ty.Leads path start target ∧
      target.isSingle ∧ leavesOf (dotted ident path) target = [leaf]
  | ident, .struct name fields, member => by
      obtain ⟨field, path, start, target, before, after, fieldTy, placed, leads, single, leaves⟩ :=
        exists_leads_of_mem_leavesOfFields ident fields member
      exact ⟨field :: path, _, target, .field placed leads, single, leaves⟩
  | ident, .int, member | ident, .bool, member | ident, .time, member
  | ident, .decimal _, member => by
      rw [leavesOf, List.mem_singleton] at member
      exact ⟨[], 0, _, .here _, rfl, by rw [member]; rfl⟩

theorem exists_leads_of_mem_leavesOfFields {leaf : Leaf} :
    (ident : String) → (fields : List (String × Ty)) → leaf ∈ leavesOfFields ident fields →
      ∃ field path start target before after ty, fields = before ++ (field, ty) :: after ∧
        ty.Leads path start target ∧ target.isSingle ∧
        leavesOf (dotted ident (field :: path)) target = [leaf]
  | _, [], member => by simp [leavesOfFields] at member
  | ident, (name, ty) :: rest, member => by
      rw [leavesOfFields, List.mem_append] at member
      rcases member with inField | inRest
      · obtain ⟨path, start, target, leads, single, leaves⟩ :=
          exists_leads_of_mem_leavesOf (ident ++ "." ++ name) ty inField
        exact ⟨name, path, start, target, [], rest, ty, rfl, leads, single, leaves⟩
      · obtain ⟨field, path, start, target, before, after, fieldTy, rfl, found⟩ :=
          exists_leads_of_mem_leavesOfFields ident rest inRest
        exact ⟨field, path, start, target, (name, ty) :: before, after, fieldTy, rfl, found⟩

end

end Value
end ScoreLowering
