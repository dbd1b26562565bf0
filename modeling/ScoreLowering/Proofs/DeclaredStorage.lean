import ScoreLowering.Proofs.HeldOverlap
import ScoreLowering.Score.Machine

/-!
# When declared values share storage

Declaring a value compares its name with the names of earlier values and with their
main objectives.  That leaves out the fraction of a decimal, the fields of a struct
and the digests that take the place of long identifiers.  So two declared values can
end up on one objective: if the identifier of one continues that of the other behind
a dot, or through a digest.  This file says exactly when, and that writing one value
leaves the other alone otherwise.
-/

namespace ScoreLowering

namespace Leaf

/-- Two leaves that share an objective. -/
def Clashes (first second : Leaf) : Prop :=
  first.SpelledAlike second ∨ first.DigestClash second

theorem isLong_of_digestClash {first second : Leaf} (clash : first.DigestClash second) :
    first.isLong ∨ second.isLong := by
  rcases clash with same | taken | taken
  · exact Or.inl same.1
  · exact Or.inr taken.2.1
  · exact Or.inl taken.2.1

end Leaf

namespace Value

theorem overlaps_iff_clash (first second : Value) :
    first.Overlaps second ↔
      ∃ leaf ∈ first.leaves, ∃ other ∈ second.leaves, leaf.Clashes other := by
  rw [overlaps_iff_leaves]
  simp only [Leaf.shared_iff_clash, Leaf.Clashes]

/-- The identifier goes on behind that of another value, set off by a dot. -/
def Continues (value earlier : Value) : Prop :=
  earlier.ident.toList ++ ['.'] <+: value.ident.toList

instance (value earlier : Value) : Decidable (value.Continues earlier) :=
  inferInstanceAs (Decidable (_ <+: _))

theorem eq_or_continues {first second : Value} {rest others : List Char}
    (dotted : Dotted rest)
    (equal : first.ident.toList ++ rest = second.ident.toList ++ others)
    (longer : first.ident.toList.length ≤ second.ident.toList.length) :
    first.ident = second.ident ∨ second.Continues first := by
  obtain ⟨more, spelled⟩ : first.ident.toList <+: second.ident.toList :=
    List.prefix_of_prefix_length_le (List.prefix_append _ rest)
      (equal ▸ List.prefix_append _ others) longer
  cases more with
  | nil =>
      rw [List.append_nil] at spelled
      exact Or.inl (String.toList_inj.mp spelled)
  | cons char more =>
      -- what comes behind the shorter identifier starts with a dot
      rw [← spelled, List.append_assoc] at equal
      have restEq := List.append_cancel_left equal
      have dot : char = '.' := dotted char (by rw [restEq]; rfl)
      refine Or.inr ⟨more, ?_⟩
      rw [← spelled, dot, List.append_assoc, List.singleton_append]

theorem eq_or_continues_of_spelledAlike {first second : Value} {leaf other : Leaf}
    (member : leaf ∈ first.leaves) (otherMember : other ∈ second.leaves)
    (alike : leaf.SpelledAlike other) :
    first.ident = second.ident ∨ second.Continues first ∨ first.Continues second := by
  obtain ⟨tail, otherTail, tailDotted, otherTailDotted, equal⟩ := alike.exists_append
  obtain ⟨rest, spelled, restDotted⟩ := ident_of_mem_leavesOf _ _ member
  obtain ⟨others, otherSpelled, othersDotted⟩ := ident_of_mem_leavesOf _ _ otherMember
  rw [spelled, otherSpelled, List.append_assoc, List.append_assoc] at equal
  rcases Nat.le_total first.ident.toList.length second.ident.toList.length with longer | longer
  · exact (eq_or_continues (restDotted.append tailDotted) equal longer).imp_right Or.inl
  · rcases eq_or_continues (othersDotted.append otherTailDotted) equal.symm longer with
      same | continues
    · exact Or.inl same.symm
    · exact Or.inr (Or.inr continues)

theorem overlaps_iff_digestClash {first second : Value} (different : first.ident ≠ second.ident)
    (ends : ¬ second.Continues first) (otherEnds : ¬ first.Continues second) :
    first.Overlaps second ↔
      ∃ leaf ∈ first.leaves, ∃ other ∈ second.leaves, leaf.DigestClash other := by
  rw [overlaps_iff_clash]
  constructor
  · rintro ⟨leaf, member, other, otherMember, alike | clash⟩
    · rcases eq_or_continues_of_spelledAlike member otherMember alike with
        same | continues | continues
      · exact absurd same different
      · exact absurd continues ends
      · exact absurd continues otherEnds
    · exact ⟨leaf, member, other, otherMember, clash⟩
  · rintro ⟨leaf, member, other, otherMember, clash⟩
    exact ⟨leaf, member, other, otherMember, Or.inr clash⟩

end Value

namespace Plan

theorem store_sets {target : Operand} {literal : Literal} {list : List Step}
    (stored : store target literal = .ok list) {step : Step} (member : step ∈ list) :
    ∃ part ∈ target.ty.parts, ∃ score, step = .set (target.slot part) score := by
  unfold store at stored
  split at stored
  all_goals try split at stored
  all_goals simp only [Except.ok.injEq, reduceCtorEq] at stored
  all_goals subst stored
  all_goals simp only [List.mem_cons, List.not_mem_nil, or_false] at member
  -- a decimal has a second step, for its fraction
  all_goals first
    | exact ⟨.whole, Ty.whole_mem_parts _, _, member⟩
    | rcases member with whole | fraction
      · exact ⟨.whole, Ty.whole_mem_parts _, _, whole⟩
      · exact ⟨.fraction, by simp_all [Ty.parts], _, fraction⟩

end Plan

namespace Value

theorem assign_sets {this : Value} {literal : Literal} {commands : List Command}
    (assigned : this.assign literal = .ok commands) {command : Command}
    (member : command ∈ commands) :
    ∃ register score, command = .setScore register score ∧
      register.objective ∈ this.objectives := by
  unfold assign Plan.assignment at assigned
  by_cases null : literal = .null
  · simp only [null, if_true, Except.ok.injEq] at assigned
    subst assigned
    obtain ⟨step, stepMem, rfl⟩ := List.mem_map.mp member
    obtain ⟨objective, inside, rfl⟩ := List.mem_map.mp stepMem
    exact ⟨_, _, rfl, inside⟩
  · simp only [null, if_false] at assigned
    cases stored : Plan.store this.operand literal with
    | error error =>
        rw [stored] at assigned
        cases assigned
    | ok list =>
        rw [stored] at assigned
        cases assigned
        obtain ⟨step, stepMem, rfl⟩ := List.mem_map.mp member
        obtain ⟨part, partMem, score, rfl⟩ := Plan.store_sets stored stepMem
        rw [slot_operand]
        refine ⟨_, _, rfl, ?_⟩
        rw [objectives_eq_parts (Plan.store_ty_ne_struct stored)]
        exact List.mem_map_of_mem partMem

/-- Assigning a value changes its own objectives only. -/
theorem read_of_assign {this : Value} {literal : Literal} {commands : List Command}
    (assigned : this.assign literal = .ok commands) {objective : String}
    (outside : objective ∉ this.objectives) (call : String → String → Scores → Scores)
    (executor holder : String) (scores : Scores) :
    (Machine.runAll call commands executor scores).read ⟨holder, objective⟩ =
      scores.read ⟨holder, objective⟩ := by
  have sets : ∀ command ∈ commands, ∃ register score, command = .setScore register score ∧
      register.objective ∈ this.objectives := fun _ => assign_sets assigned
  clear assigned
  induction commands generalizing scores with
  | nil => rfl
  | cons command rest ih =>
      obtain ⟨register, score, rfl, inside⟩ := sets command List.mem_cons_self
      have other : (⟨holder, objective⟩ : Register) ≠ Machine.locate executor register := by
        intro same
        rw [show objective = register.objective from congrArg Register.objective same] at outside
        exact outside inside
      rw [Machine.runAll, List.foldl_cons, ← Machine.runAll,
        ih _ fun command member => sets command (List.mem_cons_of_mem _ member)]
      exact Scores.read_write_other _ _ other

end Value

/-- What a value is declared with. -/
structure Declaration where
  ident : String
  ty : Ty
  attributes : List Attribute := []
  deriving DecidableEq, Repr

namespace Registry

theorem find?_eq_none_iff (registry : Registry) (name : String) :
    registry.find? name = none ↔
      registry.values.get? (key name) = none ∧
        ∀ known ∈ registry.values.values, known.name ≠ name := by
  rw [find?, Option.orElse_eq_orElse, Option.orElse_eq_or, Option.or_eq_none_iff,
    List.find?_eq_none]
  simp

/-- A value whose name is unknown is stored last. -/
theorem entries_add {registry : Registry} {value : Value}
    (absent : registry.find? value.ident = none) :
    (registry.add value).2.values.entries =
      registry.values.entries ++ [(key value.ident, value)] := by
  have unknown := ((registry.find?_eq_none_iff value.ident).mp absent).1
  have notContained := (OrderedMap.contains_eq_false_iff _ _).mpr unknown
  rw [add, if_neg (by simp [notContained]), OrderedMap.entries_insert_new unknown]

/-- Every value is stored under its own name, and none is named like the main objective
of an earlier one. -/
structure Sorted (registry : Registry) : Prop where
  keyed : ∀ entry ∈ registry.values.entries, entry.1 = key entry.2.ident
  named : registry.values.values.Pairwise fun earlier later => later.ident ≠ earlier.name

theorem Sorted.add {registry : Registry} (sorted : registry.Sorted) {value : Value}
    (absent : registry.find? value.ident = none) : (registry.add value).2.Sorted := by
  constructor
  · intro entry member
    rw [entries_add absent] at member
    rcases List.mem_append.mp member with old | new
    · exact sorted.keyed entry old
    · rw [List.mem_singleton.mp new]
  · rw [OrderedMap.values, entries_add absent, List.map_append, List.pairwise_append]
    refine ⟨sorted.named, List.pairwise_singleton _ _, fun earlier member later new => ?_⟩
    rw [List.mem_singleton.mp new]
    exact (((registry.find?_eq_none_iff value.ident).mp absent).2 earlier member).symm

end Registry

namespace Compilation

/-- Declare values one after the other. -/
def declareAll (compilation : Compilation) (declarations : List Declaration) : Compilation :=
  declarations.foldl (fun compilation declaration =>
    (compilation.declare declaration.ident declaration.ty declaration.attributes).2) compilation

theorem sorted_declare {compilation : Compilation} (sorted : compilation.registry.Sorted)
    (ident : String) (ty : Ty) (attributes : List Attribute) :
    (compilation.declare ident ty attributes).2.registry.Sorted := by
  unfold declare
  split
  · exact sorted
  · rename_i absent
    exact sorted.add absent

theorem sorted_declareAll (declarations : List Declaration) {compilation : Compilation}
    (sorted : compilation.registry.Sorted) :
    (compilation.declareAll declarations).registry.Sorted := by
  induction declarations generalizing compilation with
  | nil => exact sorted
  | cons declaration rest ih => exact ih (sorted_declare sorted _ _ _)

/-- Two declared values share an objective exactly if leaves of theirs clash.  If no
identifier continues the other one, a digest is to blame. -/
theorem declared_overlap_iff (settings : Settings) (declarations : List Declaration)
    {firstKey secondKey : String} {first second : Value} :
    let registry := ((start settings).declareAll declarations).registry
    registry.values.get? firstKey = some first → registry.values.get? secondKey = some second →
    firstKey ≠ secondKey →
      (first.Overlaps second ↔
        ∃ leaf ∈ first.leaves, ∃ other ∈ second.leaves, leaf.Clashes other) ∧
      (¬ second.Continues first → ¬ first.Continues second →
        (first.Overlaps second ↔
          ∃ leaf ∈ first.leaves, ∃ other ∈ second.leaves, leaf.DigestClash other) ∧
        ((∀ leaf ∈ first.leaves ++ second.leaves, leaf.isLong = false) →
          ¬ first.Overlaps second)) ∧
      (¬ first.Overlaps second → ∀ literal commands, first.assign literal = .ok commands →
        ∀ objective ∈ second.objectives, ∀ call executor holder scores,
          (Machine.runAll call commands executor scores).read ⟨holder, objective⟩ =
            scores.read ⟨holder, objective⟩) ∧
      registry.values.values.Pairwise fun earlier later => later.ident ≠ earlier.name := by
  intro registry found otherFound different
  have sorted : registry.Sorted :=
    sorted_declareAll declarations ⟨fun _ member => absurd member List.not_mem_nil, .nil⟩
  have idents : first.ident ≠ second.ident := by
    intro same
    have keyEq := sorted.keyed _ (OrderedMap.mem_entries_of_get? found)
    have otherKeyEq := sorted.keyed _ (OrderedMap.mem_entries_of_get? otherFound)
    exact different (keyEq.trans ((congrArg Registry.key same).trans otherKeyEq.symm))
  refine ⟨Value.overlaps_iff_clash first second, fun ends otherEnds => ?_,
    fun apart literal commands assigned objective inside call executor holder scores => ?_,
    sorted.named⟩
  · have digests := Value.overlaps_iff_digestClash idents ends otherEnds
    refine ⟨digests, fun short overlaps => ?_⟩
    obtain ⟨leaf, member, other, otherMember, clash⟩ := digests.mp overlaps
    rcases Leaf.isLong_of_digestClash clash with long | long
    · rw [short leaf (List.mem_append_left _ member)] at long
      cases long
    · rw [short other (List.mem_append_right _ otherMember)] at long
      cases long
  · exact Value.read_of_assign assigned (fun own => apart ⟨objective, own, inside⟩) call executor
      holder scores

/-- A struct and a decimal that is named almost like a field of it. -/
theorem declared_apart :
    let point : Value := ⟨"pos", .struct "Point" [("x", .decimal 2), ("y", .int)], .here, []⟩
    let flat : Value := ⟨"pos_x", .decimal 2, .player "_", [.global]⟩
    let registry := ((start {}).declareAll
      [⟨"pos", point.ty, []⟩, ⟨"pos_x", .decimal 2, [.global]⟩]).registry
    registry.values.get? "pos" = some point ∧ registry.values.get? "pos_x" = some flat ∧
      ¬ point.Overlaps flat ∧
      ∀ literal commands, point.assign literal = .ok commands →
        ∀ objective ∈ flat.objectives, ∀ call executor holder scores,
          (Machine.runAll call commands executor scores).read ⟨holder, objective⟩ =
            scores.read ⟨holder, objective⟩ := by
  intro point flat registry
  have found : registry.values.get? "pos" = some point := by decide +kernel
  have otherFound : registry.values.get? "pos_x" = some flat := by decide +kernel
  obtain ⟨_, digests, frame, _⟩ :=
    declared_overlap_iff {} _ found otherFound (by decide)
  have apart : ¬ point.Overlaps flat := (digests (by decide) (by decide)).2 (by decide)
  exact ⟨found, otherFound, apart, frame apart⟩

/-- The fraction of a decimal, the field of a struct, two long names with one digest, and
a name that is spelled like their digest. -/
theorem declared_values_overlap :
    let number : Value := ⟨"x", .decimal 2, .here, []⟩
    let fraction : Value := ⟨"x.d", .int, .here, []⟩
    let point : Value := ⟨"s", .struct "P" [("x", .int)], .here, []⟩
    let field : Value := ⟨"s.x", .bool, .here, []⟩
    let digest : Value := ⟨"nZDxF3Rk", .int, .here, []⟩
    let long : Value := ⟨"position_value_1", .decimal 2, .here, []⟩
    let next : Value := ⟨"position_value_2", .decimal 2, .here, []⟩
    let values := [number, fraction, point, field, digest, long, next]
    let declarations := values.map fun value => ⟨value.ident, value.ty, []⟩
    ((start {}).declareAll declarations).registry.values.values = values ∧
      (number.Overlaps fraction ∧ point.Overlaps field ∧ long.Overlaps next ∧
        digest.Overlaps long) ∧
      fraction.assign (.int 7) = .ok [.setScore (number.register .fraction) 7] :=
  ⟨by decide +kernel, by decide +kernel, rfl⟩

end Compilation

end ScoreLowering
