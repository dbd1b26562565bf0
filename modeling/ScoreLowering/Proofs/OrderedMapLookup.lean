import ScoreLowering.OrderedMap

/-!
# Looking up what was stored

Where an entry stands in an `OrderedMap` does not matter for finding it: a key
has the value stored last under it, and storing or forgetting one key leaves all
other keys alone.  The keys are listed in the order in which they were first stored.
-/

namespace ScoreLowering

section FirstMentions

variable {α : Type} [BEq α] [LawfulBEq α]

theorem nodup_eraseDups (list : List α) : list.eraseDups.Nodup := by
  induction size : list.length using Nat.strongRecOn generalizing list with
  | ind length ih =>
      cases list with
      | nil => exact List.nodup_nil
      | cons first rest =>
          rw [List.eraseDups_cons, List.nodup_cons]
          refine ⟨by simp [List.mem_eraseDups], ih _ ?_ _ rfl⟩
          rw [← size, List.length_cons]
          exact Nat.lt_succ_of_le (List.length_filter_le _ _)

theorem eraseDups_concat_of_mem {list : List α} {last : α} (known : last ∈ list) :
    (list ++ [last]).eraseDups = list.eraseDups := by
  simp [List.eraseDups_append, List.removeAll, known]

theorem eraseDups_concat_of_not_mem {list : List α} {last : α} (new : last ∉ list) :
    (list ++ [last]).eraseDups = list.eraseDups ++ [last] := by
  simp [List.eraseDups_append, List.removeAll, List.eraseDups_cons, new]

end FirstMentions

namespace OrderedMap

variable {κ α : Type} [DecidableEq κ]

theorem get?_eq_none_iff (map : OrderedMap κ α) (key : κ) :
    map.get? key = none ↔ ∀ entry ∈ map.entries, entry.1 ≠ key := by
  simp [get?]

theorem contains_eq_false_iff (map : OrderedMap κ α) (key : κ) :
    map.contains key = false ↔ map.get? key = none := by
  simp [contains]

/-- Replacing the value of every entry for `key`. -/
private theorem find?_replace (entries : List (κ × α)) (key other : κ) (value : α) :
    (entries.map fun entry => if entry.1 = key then (key, value) else entry).find?
        (fun entry => entry.1 = other) =
      if other = key then
        (entries.find? fun entry => entry.1 = key).map fun _ => (key, value)
      else
        entries.find? fun entry => entry.1 = other := by
  induction entries with
  | nil => simp
  | cons entry rest ih =>
      by_cases found : entry.1 = key
      · by_cases same : other = key
        · simp [found, same]
        · have different : key ≠ other := fun equal => same equal.symm
          simp only [List.map_cons, found, if_true, List.find?_cons, different,
            decide_false, same, if_false]
          simpa [same] using ih
      · by_cases same : other = key
        · subst same
          simp only [List.map_cons, found, if_false, List.find?_cons, decide_false, if_true]
          simpa using ih
        · by_cases here : entry.1 = other
          · simp [here, same]
          · simp only [List.map_cons, found, if_false, List.find?_cons, here, decide_false,
              same]
            simpa [same] using ih

@[simp]
theorem get?_insert_self (map : OrderedMap κ α) (key : κ) (value : α) :
    (map.insert key value).get? key = some value := by
  unfold insert
  split
  · rename_i known
    obtain ⟨found, foundEq⟩ : ∃ found, map.entries.find? (fun entry => entry.1 = key) =
        some found := by
      have present : (map.get? key).isSome := known
      simpa [get?, Option.isSome_iff_exists] using present
    simp only [get?, find?_replace, foundEq, if_true, Option.map_some]
  · rename_i unknown
    have absent : map.get? key = none := by
      simpa [contains] using unknown
    have fresh : map.entries.find? (fun entry => entry.1 = key) = none := by
      simpa [get?] using absent
    simp [get?, List.find?_append, fresh]

theorem get?_insert_of_ne (map : OrderedMap κ α) {key other : κ} (value : α)
    (different : other ≠ key) : (map.insert key value).get? other = map.get? other := by
  have reversed : key ≠ other := different.symm
  unfold insert
  split
  · simp only [get?, find?_replace, different, if_false]
  · simp [get?, List.find?_append, reversed]

@[simp]
theorem get?_erase_self (map : OrderedMap κ α) (key : κ) : (map.erase key).get? key = none := by
  simp [get?, erase]

theorem get?_erase_of_ne (map : OrderedMap κ α) {key other : κ} (different : other ≠ key) :
    (map.erase key).get? other = map.get? other := by
  unfold get? erase
  congr 1
  rw [List.find?_filter]
  congr 1
  funext entry
  by_cases found : entry.1 = other
  · simp [found, different]
  · simp [found]

/-- A new key comes last. -/
theorem entries_insert_new {map : OrderedMap κ α} {key : κ} (absent : map.get? key = none)
    (value : α) : (map.insert key value).entries = map.entries ++ [(key, value)] := by
  have unknown := (contains_eq_false_iff map key).mpr absent
  simp [insert, unknown]

theorem keys_insert_new {map : OrderedMap κ α} {key : κ} (absent : map.get? key = none)
    (value : α) : (map.insert key value).keys = map.keys ++ [key] := by
  simp [keys, entries_insert_new absent]

theorem not_mem_keys_iff (map : OrderedMap κ α) (key : κ) :
    key ∉ map.keys ↔ map.get? key = none := by
  rw [get?_eq_none_iff, keys, List.mem_map]
  constructor
  · intro absent entry member same
    exact absent ⟨entry, member, same⟩
  · rintro absent ⟨entry, member, same⟩
    exact absent entry member same

theorem contains_iff (map : OrderedMap κ α) (key : κ) : map.contains key ↔ key ∈ map.keys := by
  rw [← Bool.not_eq_false, contains_eq_false_iff, ← not_mem_keys_iff, Decidable.not_not]

theorem keys_insert_known {map : OrderedMap κ α} {key : κ} (known : key ∈ map.keys)
    (value : α) : (map.insert key value).keys = map.keys := by
  rw [insert, if_pos ((contains_iff map key).mpr known), keys, keys, List.map_map]
  refine List.map_congr_left fun entry _ => ?_
  rw [Function.comp_apply]
  split
  · rename_i same
    exact same.symm
  · rfl

/-- Of two values stored under one key the second remains. -/
theorem insert_insert (map : OrderedMap κ α) (key : κ) (first second : α) :
    (map.insert key first).insert key second = map.insert key second := by
  have stored : (map.insert key first).contains key = true := by simp [contains]
  have replace (entry : κ × α) :
      (if (if entry.1 = key then (key, first) else entry).1 = key then (key, second)
        else if entry.1 = key then (key, first) else entry) =
      if entry.1 = key then (key, second) else entry := by
    by_cases same : entry.1 = key <;> simp [same]
  rw [insert, if_pos stored]
  unfold insert
  split
  · simp only [List.map_map, Function.comp_def, replace]
  · rename_i unknown
    have absent := (get?_eq_none_iff map key).mp
      ((contains_eq_false_iff map key).mp (Bool.eq_false_iff.mpr unknown))
    have others : map.entries.map (fun entry => if entry.1 = key then (key, second) else entry) =
        map.entries.map id :=
      List.map_congr_left fun entry member => if_neg (absent entry member)
    simp only [List.map_append, others, List.map_id, List.map_singleton, if_true]

/-- Each key stands where it was first stored. -/
theorem keys_insert_eq_eraseDups {map : OrderedMap κ α} {stored : List κ}
    (listed : map.keys = stored.eraseDups) (key : κ) (value : α) :
    (map.insert key value).keys = (stored ++ [key]).eraseDups := by
  by_cases known : key ∈ stored
  · rw [keys_insert_known (listed ▸ List.mem_eraseDups.mpr known), listed,
      eraseDups_concat_of_mem known]
  · have absent : key ∉ map.keys := by rwa [listed, List.mem_eraseDups]
    rw [keys_insert_new ((not_mem_keys_iff map key).mp absent), listed,
      eraseDups_concat_of_not_mem known]

theorem mem_entries_of_get? {map : OrderedMap κ α} {key : κ} {value : α}
    (found : map.get? key = some value) : (key, value) ∈ map.entries := by
  obtain ⟨entry, entryFound, rfl⟩ := Option.map_eq_some_iff.mp found
  have entryKey : entry.1 = key := by simpa using List.find?_some entryFound
  rw [← entryKey]
  exact List.mem_of_find?_eq_some entryFound

theorem mem_entries_insert {map : OrderedMap κ α} {key : κ} {value : α} {entry : κ × α}
    (member : entry ∈ (map.insert key value).entries) :
    entry ∈ map.entries ∨ entry = (key, value) := by
  unfold insert at member
  split at member
  · obtain ⟨earlier, before, rfl⟩ := List.mem_map.mp member
    split
    · exact Or.inr rfl
    · exact Or.inl before
  · simpa using member

theorem mem_entries_insert_self {map : OrderedMap κ α} {key : κ} {value : α} :
    (key, value) ∈ (map.insert key value).entries :=
  mem_entries_of_get? (get?_insert_self map key value)

theorem mem_entries_insert_of_ne {map : OrderedMap κ α} {key : κ} {value : α} {entry : κ × α}
    (member : entry ∈ map.entries) (different : entry.1 ≠ key) :
    entry ∈ (map.insert key value).entries := by
  unfold insert
  split
  · exact List.mem_map.mpr ⟨entry, member, if_neg different⟩
  · exact List.mem_append_left _ member

end OrderedMap
end ScoreLowering
