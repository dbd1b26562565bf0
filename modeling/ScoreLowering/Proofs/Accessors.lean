import Mathlib.Data.List.Forall2
import ScoreLowering.Proofs.DeclaredStorage
import ScoreLowering.Proofs.FieldPaths

/-!
# Accessors lead into a struct

An accessor is the identifier of a struct with field names behind it.  Looking it up as a
whole comes first: only if no value goes by that name, it is cut at its dots and followed from
field to field.  What is found in the end has the objectives that the layout of the struct
reserves for it.  Two leaves of a struct never share a place in the layout, and share a name
only if a digest takes the place of one of their identifiers.
-/

namespace ScoreLowering

namespace Text

theorem eq_of_ofNat_eq_dot {code : Nat} (dot : Char.ofNat code = '.') : code = 46 := by
  by_cases valid : code.isValidChar
  · rw [Char.ofNat, dif_pos valid] at dot
    exact congrArg Char.toNat dot
  · rw [Char.ofNat, dif_neg valid] at dot
    exact absurd dot (by decide)

theorem dot_below_caseRuns : ∀ run ∈ caseRuns, 46 < (run.first : Int) + run.shift := by
  decide +kernel

/-- Only a dot has a dot as its small letter. -/
theorem eq_dot_of_mem_lowerChar {char : Char} (member : '.' ∈ lowerChar char) : char = '.' := by
  unfold lowerChar at member
  split at member
  · exact absurd member (by decide)
  · split at member
    · rename_i run found
      have covered := List.find?_some found
      simp only [CaseRun.covers, Bool.and_eq_true, decide_eq_true_eq] at covered
      have above := dot_below_caseRuns run (List.mem_of_find?_eq_some found)
      have code := eq_of_ofNat_eq_dot (List.mem_singleton.mp member).symm
      omega
    · exact (List.mem_singleton.mp member).symm

theorem dot_mem_lowerAfter (before chars : List Char) :
    '.' ∈ lowerAfter before chars ↔ '.' ∈ chars := by
  fun_induction lowerAfter before chars with
  | case1 before => exact Iff.rfl
  | case2 before rest ih =>
      rw [List.mem_cons, List.mem_cons, ih]
      refine or_congr ⟨fun final => ?_, fun sigma => absurd sigma (by decide)⟩ Iff.rfl
      split at final <;> exact absurd final (by decide)
  | case3 before char rest _ ih =>
      rw [List.mem_append, List.mem_cons, ih]
      refine or_congr ⟨fun inside => (eq_dot_of_mem_lowerChar inside).symm, ?_⟩ Iff.rfl
      rintro rfl
      decide +kernel

theorem dot_mem_lowerCase (text : String) :
    '.' ∈ (lowerCase text).toList ↔ '.' ∈ text.toList := by
  rw [lowerCase, String.toList_ofList, dot_mem_lowerAfter]

end Text

namespace Registry

/-! ### Cutting at dots -/

theorem segments_ne_nil (chars : List Char) : segments chars ≠ [] := by
  fun_cases segments chars <;> simp_all

theorem segments_cons (char : Char) (rest : List Char) :
    segments (char :: rest) =
      if char = '.' then [] :: segments rest else (segments rest).modifyHead (char :: ·) := by
  rw [segments]
  cases cut : segments rest with
  | nil => exact absurd cut (segments_ne_nil rest)
  | cons segment others => rfl

theorem segments_of_not_mem {chars : List Char} (noDot : '.' ∉ chars) :
    segments chars = [chars] := by
  induction chars with
  | nil => rfl
  | cons char rest ih =>
      obtain ⟨different, restNoDot⟩ := not_or.mp (mt List.mem_cons.mpr noDot)
      rw [segments_cons, ih restNoDot, if_neg (Ne.symm different), List.modifyHead_cons]

theorem segments_append_dot (front back : List Char) :
    segments (front ++ '.' :: back) = segments front ++ segments back := by
  induction front with
  | nil => rw [List.nil_append, segments_cons, if_pos rfl, segments, List.singleton_append]
  | cons char front ih =>
      rw [List.cons_append, segments_cons, segments_cons, ih]
      split
      · rfl
      · cases cut : segments front with
        | nil => exact absurd cut (segments_ne_nil front)
        | cons segment others => rfl

theorem segments_append_path (front : List Char) {path : List String}
    (noDots : ∀ name ∈ path, '.' ∉ name.toList) :
    segments (front ++ path.flatMap fun name => '.' :: name.toList) =
      segments front ++ path.map String.toList := by
  induction path generalizing front with
  | nil => simp
  | cons name path ih =>
      obtain ⟨nameNoDot, pathNoDots⟩ := List.forall_mem_cons.mp noDots
      rw [List.flatMap_cons, List.cons_append, segments_append_dot, ih _ pathNoDots,
        segments_of_not_mem nameNoDot]
      rfl

theorem segments_dotted {ident : String} (noDot : '.' ∉ ident.toList) {path : List String}
    (noDots : ∀ name ∈ path, '.' ∉ name.toList) :
    segments (dotted ident path).toList = (ident :: path).map String.toList := by
  rw [toList_dotted, segments_append_path _ noDots, segments_of_not_mem noDot]
  rfl

/-! ### What a registry finds -/

/-- Registries that come about by storing values and structs. -/
inductive Grown : Registry → Prop
  | empty (globalPlayer : String) : Grown { globalPlayer := globalPlayer }
  | add {registry : Registry} (grown : Grown registry) (value : Value) :
      Grown (registry.add value).2
  | defineStruct {registry later : Registry} {definition : StructDefinition}
      (grown : Grown registry) (defined : registry.defineStruct definition = .ok later) :
      Grown later

/-- Every value is stored under its own name, and nothing else is. -/
structure Keyed (registry : Registry) : Prop where
  found : ∀ value ∈ registry.values.values, registry.values.get? (key value.ident) = some value
  keyed : ∀ name value, registry.values.get? name = some value → name = key value.ident

theorem Keyed.add {registry : Registry} (keyed : registry.Keyed) (value : Value) :
    (registry.add value).2.Keyed := by
  unfold Registry.add
  split
  · exact keyed
  · rename_i unknown
    have absent := (OrderedMap.contains_eq_false_iff registry.values (key value.ident)).mp
      (Bool.eq_false_iff.mpr unknown)
    constructor
    · intro known member
      rw [OrderedMap.values, OrderedMap.entries_insert_new absent, List.map_append] at member
      rcases List.mem_append.mp member with old | new
      · have stored := keyed.found known old
        have different : key known.ident ≠ key value.ident := by
          intro same
          rw [same, absent] at stored
          cases stored
        rwa [OrderedMap.get?_insert_of_ne _ _ different]
      · rw [List.mem_singleton.mp new, OrderedMap.get?_insert_self]
    · intro name known stored
      by_cases same : name = key value.ident
      · rw [same, OrderedMap.get?_insert_self] at stored
        cases stored
        exact same
      · rw [OrderedMap.get?_insert_of_ne _ _ same] at stored
        exact keyed.keyed name known stored

theorem Grown.keyed {registry : Registry} (grown : registry.Grown) : registry.Keyed := by
  induction grown with
  | empty globalPlayer => exact ⟨nofun, nofun⟩
  | add _ value ih => exact ih.add value
  | defineStruct _ defined ih =>
      unfold Registry.defineStruct at defined
      split at defined
      · cases defined
      · cases defined
        exact ⟨ih.found, ih.keyed⟩

/-- No value but this one goes by a name, neither by its identifier nor by its main
objective. -/
def Unclaimed (registry : Registry) (root : Value) (name : String) : Prop :=
  ∀ value ∈ registry.values.values, value ≠ root →
    key value.ident ≠ key name ∧ value.name ≠ name

variable {registry : Registry} {root : Value}

theorem Keyed.find?_ident (keyed : registry.Keyed) (registered : root ∈ registry.values.values) :
    registry.find? root.ident = some root := by
  rw [find?, keyed.found root registered]
  rfl

theorem dot_not_mem_name (noDot : '.' ∉ root.ident.toList) : '.' ∉ root.name.toList := by
  unfold Value.name Name.objective
  split
  · intro dot
    exact absurd (Name.digest_isAlphanum _ dot) (by decide)
  · exact noDot

/-- A name with a dot does not belong to a value without one. -/
theorem Keyed.find?_eq_none (keyed : registry.Keyed) (noDot : '.' ∉ root.ident.toList)
    {name : String} (dot : '.' ∈ name.toList) (unclaimed : registry.Unclaimed root name) :
    registry.find? name = none := by
  refine (registry.find?_eq_none_iff name).mpr ⟨?_, fun known member sameName => ?_⟩
  · cases stored : registry.values.get? (key name) with
    | none => rfl
    | some known =>
        have sameKey := keyed.keyed _ _ stored
        have member : known ∈ registry.values.values :=
          List.mem_map_of_mem (OrderedMap.mem_entries_of_get? stored)
        by_cases isRoot : known = root
        · rw [isRoot] at sameKey
          rw [← Text.dot_mem_lowerCase, ← key, sameKey, key, Text.dot_mem_lowerCase] at dot
          exact absurd dot noDot
        · exact absurd sameKey.symm (unclaimed known member isRoot).1
  · by_cases isRoot : known = root
    · rw [← sameName, isRoot] at dot
      exact dot_not_mem_name noDot dot
    · exact (unclaimed known member isRoot).2 sameName

/-- An accessor that nobody goes by is followed from its first name on. -/
theorem resolve_dotted (keyed : registry.Keyed) (registered : root ∈ registry.values.values)
    (noDot : '.' ∉ root.ident.toList) {segments : List String}
    (noDots : ∀ segment ∈ segments, '.' ∉ segment.toList)
    (unclaimed : registry.Unclaimed root (dotted root.ident segments)) :
    registry.resolve (dotted root.ident segments) = follow root segments := by
  cases segments with
  | nil =>
      rw [resolve, show dotted root.ident [] = root.ident from rfl, keyed.find?_ident registered]
      rfl
  | cons segment rest =>
      have dot : '.' ∈ (dotted root.ident (segment :: rest)).toList := by
        rw [toList_dotted]
        simp
      have cut : (Registry.segments (dotted root.ident (segment :: rest)).toList).map
          String.ofList = root.ident :: segment :: rest := by
        rw [segments_dotted noDot noDots, List.map_map]
        simp
      rw [resolve, keyed.find?_eq_none noDot dot unclaimed]
      simp only [cut, keyed.find?_ident registered]

/-- Segments that spell the names of a path, each in its own case, are followed along it. -/
theorem follow_append {value : Value} {path segments : List String} {start : Nat} {target : Ty}
    (leads : value.ty.Leads path start target) (named : value.ty.wellNamed)
    (spelled : List.Forall₂ (fun name segment => Ty.sameFieldName name segment) path segments)
    (rest : List String) :
    follow value (segments ++ rest) = follow (value.within path target) rest := by
  generalize tyEq : value.ty = ty at leads named
  induction leads generalizing value segments with
  | here ty =>
      cases spelled
      subst tyEq
      rfl
  | @field _ name fields before after fieldTy target path start placed inner ih =>
      cases spelled with
      | @cons _ segment _ segments same spelled =>
          have member : (name, fieldTy) ∈ fields := placed ▸ List.mem_append_cons_self
          have found : value.field? segment = some (value.fieldValue name fieldTy) := by
            rw [Value.field?, tyEq, Ty.fields, Ty.findField?_of_mem named member same]
            rfl
          rw [List.cons_append, follow, found]
          exact ih spelled rfl (Ty.wellNamed_of_mem named member).2

/-- A name that no field has ends the way. -/
theorem follow_of_missing {value : Value} {segment : String} (rest : List String)
    (missing : ∀ field ∈ value.ty.fields, ¬ Ty.sameFieldName field.1 segment) :
    follow value (segment :: rest) =
      .error (.missingField segment value.ty.ownerName (value.ty.fields.map Prod.fst)) := by
  have absent : value.field? segment = none := by
    rw [Value.field?, Ty.findField?, List.find?_eq_none.mpr missing]
    rfl
  rw [follow, absent]

/-- Segments that spell dot-free names have no dots. -/
theorem no_dots_of_spelled {path segments : List String}
    (noDots : ∀ name ∈ path, '.' ∉ name.toList)
    (spelled : List.Forall₂ (fun name segment => Ty.sameFieldName name segment) path segments) :
    ∀ segment ∈ segments, '.' ∉ segment.toList := by
  induction spelled with
  | nil => exact nofun
  | cons same _ ih =>
      obtain ⟨nameNoDot, pathNoDots⟩ := List.forall_mem_cons.mp noDots
      refine List.forall_mem_cons.mpr ⟨fun dot => ?_, ih pathNoDots⟩
      exact nameNoDot (Ty.dot_mem_of_sameFieldName same dot)

end Registry

namespace Value

variable {root : Value} {path other : List String} {target otherTarget : Ty}

theorem path_eq_of_ident_eq (noDot : '.' ∉ root.ident.toList)
    (noDots : ∀ name ∈ path, '.' ∉ name.toList)
    (otherNoDots : ∀ name ∈ other, '.' ∉ name.toList)
    (same : (root.within path target).ident = (root.within other otherTarget).ident) :
    path = other := by
  have cut := congrArg (fun ident => Registry.segments ident.toList) same
  simp only [within, Registry.segments_dotted noDot noDots,
    Registry.segments_dotted noDot otherNoDots, List.map_cons, List.cons.injEq, true_and] at cut
  exact List.map_injective_iff.mpr (fun _ _ => String.toList_inj.mp) cut

/-- An identifier that goes on behind another one has a path that goes on, too. -/
theorem exists_append_of_continues (noDot : '.' ∉ root.ident.toList)
    (noDots : ∀ name ∈ path, '.' ∉ name.toList)
    (otherNoDots : ∀ name ∈ other, '.' ∉ name.toList)
    (continues : (root.within other otherTarget).Continues (root.within path target)) :
    ∃ more, other = path ++ more ∧ more ≠ [] := by
  obtain ⟨rest, spelled⟩ := continues
  rw [List.append_assoc, List.singleton_append] at spelled
  have cut := congrArg Registry.segments spelled
  simp only [within, Registry.segments_append_dot, Registry.segments_dotted noDot noDots,
    Registry.segments_dotted noDot otherNoDots, List.map_cons, List.cons_append, List.cons.injEq,
    true_and] at cut
  refine ⟨(Registry.segments rest).map String.ofList, ?_, ?_⟩
  · have read := congrArg (List.map String.ofList) cut
    simpa using read.symm
  · simpa using Registry.segments_ne_nil rest

/-- Two leaves of a struct share an objective only through a digest. -/
theorem overlaps_within_iff {start otherStart : Nat} (noDot : '.' ∉ root.ident.toList)
    (named : root.ty.wellNamed) (leads : root.ty.Leads path start target)
    (otherLeads : root.ty.Leads other otherStart otherTarget) (single : target.isSingle)
    (otherSingle : otherTarget.isSingle) (different : path ≠ other) :
    (root.within path target).Overlaps (root.within other otherTarget) ↔
      ∃ leaf ∈ (root.within path target).leaves,
        ∃ otherLeaf ∈ (root.within other otherTarget).leaves, leaf.DigestClash otherLeaf := by
  obtain ⟨noDots, _⟩ := leads.wellNamed named
  obtain ⟨otherNoDots, _⟩ := otherLeads.wellNamed named
  apply overlaps_iff_digestClash
  · exact fun same => different (path_eq_of_ident_eq noDot noDots otherNoDots same)
  · intro continues
    obtain ⟨more, rfl, nonempty⟩ :=
      exists_append_of_continues noDot noDots otherNoDots continues
    obtain ⟨_, beyond⟩ := leads.exists_rest named otherLeads
    exact nonempty (beyond.nil_of_isSingle single)
  · intro continues
    obtain ⟨more, rfl, nonempty⟩ :=
      exists_append_of_continues noDot otherNoDots noDots continues
    obtain ⟨_, beyond⟩ := otherLeads.exists_rest named leads
    exact nonempty (beyond.nil_of_isSingle otherSingle)

end Value

namespace Registry

variable {registry : Registry} {root : Value}

/-- An accessor finds the value that its path leads to, at its place in the struct.  Different
leaves have different places and share names only through digests.  If a segment names no
field, the fields that there are instead are listed. -/
theorem accessors_find_own_storage (grown : registry.Grown)
    (registered : root ∈ registry.values.values)
    (noDot : '.' ∉ root.ident.toList) (named : root.ty.wellNamed) :
    (∀ path start target segments, root.ty.Leads path start target →
      List.Forall₂ (fun name segment => Ty.sameFieldName name segment) path segments →
      registry.Unclaimed root (dotted root.ident segments) →
        ∃ value, registry.resolve (dotted root.ident segments) = .ok value ∧
          value = root.within path target ∧ value.ty = target ∧
          value.address = root.address ∧ value.attributes = root.attributes ∧
          value.objectives = (root.objectives.drop start).take target.width ∧
          start + target.width ≤ root.objectives.length) ∧
      (∀ path start target other otherStart otherTarget, root.ty.Leads path start target →
        root.ty.Leads other otherStart otherTarget → target.isSingle → otherTarget.isSingle →
        path ≠ other →
          (start + target.width ≤ otherStart ∨ otherStart + otherTarget.width ≤ start) ∧
          ((root.within path target).Overlaps (root.within other otherTarget) ↔
            ∃ leaf ∈ (root.within path target).leaves,
              ∃ otherLeaf ∈ (root.within other otherTarget).leaves,
                leaf.DigestClash otherLeaf)) ∧
      ∀ path start reached segments segment rest, root.ty.Leads path start reached →
        List.Forall₂ (fun name segment => Ty.sameFieldName name segment) path segments →
        (∀ field ∈ reached.fields, ¬ Ty.sameFieldName field.1 segment) →
        (∀ later ∈ segment :: rest, '.' ∉ later.toList) →
        registry.Unclaimed root (dotted root.ident (segments ++ segment :: rest)) →
          registry.resolve (dotted root.ident (segments ++ segment :: rest)) =
            .error (.missingField segment reached.ownerName (reached.fields.map Prod.fst)) := by
  have keyed := grown.keyed
  refine ⟨?_, ?_, ?_⟩
  · intro path start target segments leads spelled unclaimed
    have noDots := no_dots_of_spelled (leads.wellNamed named).1 spelled
    refine ⟨_, ?_, rfl, rfl, rfl, rfl, Value.layout_of_leads leads root.ident, ?_⟩
    · rw [resolve_dotted keyed registered noDot noDots unclaimed]
      have followed := follow_append leads named spelled []
      rwa [List.append_nil] at followed
    · rw [Value.objectives, Value.length_layout_eq_width]
      exact leads.end_le
  · intro path start target other otherStart otherTarget leads otherLeads single otherSingle
      different
    exact ⟨leads.apart otherLeads single otherSingle different,
      Value.overlaps_within_iff noDot named leads otherLeads single otherSingle different⟩
  · intro path start reached segments segment rest leads spelled missing restNoDots unclaimed
    have noDots := no_dots_of_spelled (leads.wellNamed named).1 spelled
    rw [resolve_dotted keyed registered noDot
        (List.forall_mem_append.mpr ⟨noDots, restNoDots⟩) unclaimed,
      follow_append leads named spelled]
    exact follow_of_missing rest missing

/-- A decimal in a struct in a struct, its names written in capitals, with the integer before
it, and two names too many. -/
theorem accessors_into_nested_struct :
    let point : Ty := .struct "Point" [("x", .int), ("y", .decimal 2)]
    let root : Value :=
      ⟨"Actor", .struct "Body" [("health", .int), ("pos", point)], .player "all", [.global]⟩
    let registry := (({ globalPlayer := "all" } : Registry).add root).2
    (∃ value before, registry.resolve "Actor.POS.Y" = .ok value ∧
      registry.resolve "Actor.pos.x" = .ok before ∧ value.ty = .decimal 2 ∧
      value.address = root.address ∧ value.attributes = root.attributes ∧
      value.objectives = ["Actor.pos.y", "Actor.pos.y.d"] ∧ ¬ before.Overlaps value) ∧
    root.objectives = ["Actor.health", "Actor.pos.x", "Actor.pos.y", "Actor.pos.y.d"] ∧
    registry.resolve "Actor.Pos.z.y" = .error (.missingField "z" point.ownerName ["x", "y"]) ∧
    registry.resolve "Actor.health.z" = .error (.missingField "z" Ty.int.ownerName []) := by
  intro point root registry
  have member : root ∈ registry.values.values := by decide +kernel
  have only (known : Value) (stored : known ∈ registry.values.values) : known = root := by
    have all : registry.values.values = [root] := by decide +kernel
    exact List.mem_singleton.mp (all ▸ stored)
  have unclaimed (name : String) : registry.Unclaimed root name := fun known stored different =>
    absurd (only known stored) different
  have toHealth : root.ty.Leads ["health"] 0 .int :=
    @Ty.Leads.field _ _ _ [] _ _ _ _ _ rfl (.here .int)
  have toPoint : root.ty.Leads ["pos"] 1 point :=
    @Ty.Leads.field _ _ _ [("health", .int)] _ _ _ _ _ rfl (.here point)
  have toX : root.ty.Leads ["pos", "x"] 1 .int :=
    @Ty.Leads.field _ _ _ [("health", .int)] _ _ _ _ _ rfl
      (@Ty.Leads.field _ _ _ [] _ _ _ _ _ rfl (.here .int))
  have toY : root.ty.Leads ["pos", "y"] 2 (.decimal 2) :=
    @Ty.Leads.field _ _ _ [("health", .int)] _ _ _ _ _ rfl
      (@Ty.Leads.field _ _ _ [("x", .int)] _ _ _ _ _ rfl (.here (.decimal 2)))
  have accessors := accessors_find_own_storage (.add (.empty "all") root) member
    (by decide) (by decide +kernel)
  obtain ⟨value, resolved, valueEq, sameTy, sameAddress, sameAttributes, part, _⟩ :=
    accessors.1 _ _ _ ["POS", "Y"] toY (.cons (by decide) (.cons (by decide) .nil)) (unclaimed _)
  obtain ⟨before, beforeResolved, beforeEq, _⟩ :=
    accessors.1 _ _ _ ["pos", "x"] toX (.cons (by decide) (.cons (by decide) .nil)) (unclaimed _)
  obtain ⟨_, overlap⟩ := accessors.2.1 _ _ _ _ _ _ toX toY rfl rfl (by decide)
  refine ⟨⟨value, before, resolved, beforeResolved, sameTy, sameAddress, sameAttributes, ?_, ?_⟩,
    by decide +kernel, ?_, ?_⟩
  · rw [part]
    decide +kernel
  · rw [beforeEq, valueEq, overlap]
    decide +kernel
  · exact accessors.2.2 _ _ _ ["Pos"] "z" ["y"] toPoint (.cons (by decide) .nil) (by decide)
      (by decide) (unclaimed _)
  · exact accessors.2.2 _ _ _ ["health"] "z" [] toHealth (.cons (by decide) .nil) (by decide)
      (by decide) (unclaimed _)

/-- Two fields whose names are too long for the board and have the same digest.  Accessors lead
to both of them, but they are one. -/
theorem accessors_into_shared_storage :
    let root : Value :=
      ⟨"pos", .struct "Point" [("coordinate_x", .decimal 2), ("coordinate_y", .decimal 2)],
        .here, []⟩
    let registry := ((Compilation.start {}).declare root.ident root.ty []).2.registry
    registry.values.values = [root] ∧ '.' ∉ root.ident.toList ∧ root.ty.wellNamed ∧
      ∃ first second, registry.resolve "pos.coordinate_x" = .ok first ∧
        registry.resolve "pos.coordinate_y" = .ok second ∧ first.ident ≠ second.ident ∧
        first.objectives = ["eHM5Qkre", "eHM5Qkre.d"] ∧
        second.objectives = ["eHM5Qkre", "eHM5Qkre.d"] := by
  intro root registry
  exact ⟨by decide +kernel, by decide, by decide +kernel,
    ⟨"pos.coordinate_x", .decimal 2, .here, []⟩, ⟨"pos.coordinate_y", .decimal 2, .here, []⟩,
    by decide +kernel⟩

end Registry
end ScoreLowering
