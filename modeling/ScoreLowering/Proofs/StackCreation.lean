import ScoreLowering.Proofs.RegisterCreation

/-!
# The stacks create each name once

The stacks keep two records of the names they hand out.  One is rolled back together with
the stacks when a contract is restored, the other only ever grows, and a register is created
if its name is missing from the second.  So the commands that the stacks add to the head
can be read off that record: it lists every name handed out, once and in the order of first
use, and the head creates the registers one after the other as they are listed.
-/

namespace ScoreLowering

namespace StackPool

/-- The lasting record agrees with the registers handed out and with the commands that
were added to the head for them. -/
structure Created (pool : StackPool) (handedOut : List Value) (added : List Command) : Prop where
  named : pool.everDefined.values.map Value.name = pool.everDefined.keys
  listed : pool.everDefined.keys = (handedOut.map Value.name).eraseDups
  kept : pool.everDefined.values.Sublist handedOut
  added : added = pool.everDefined.values.flatMap Value.introduce

variable {pool : StackPool} {handedOut : List Value} {added : List Command}

theorem Created.congr {later : StackPool} (created : pool.Created handedOut added)
    (same : later.everDefined = pool.everDefined) : later.Created handedOut added := by
  obtain ⟨named, listed, kept, added⟩ := created
  rw [← same] at named listed kept added
  exact ⟨named, listed, kept, added⟩

theorem Created.acquire (created : pool.Created handedOut added) (ty : Ty) (address : Address) :
    (pool.acquire ty address).2.2.Created (handedOut ++ [(pool.acquire ty address).1.value])
      (added ++ (pool.acquire ty address).2.1) := by
  obtain ⟨value, valueEq⟩ : ∃ value, value = (pool.acquire ty address).1.value := ⟨_, rfl⟩
  have creation : (pool.acquire ty address).2.1 =
      if pool.everDefined.contains value.name then [] else value.introduce := by
    subst valueEq
    rfl
  have recorded : (pool.acquire ty address).2.2.everDefined =
      if pool.everDefined.contains value.name then pool.everDefined
      else pool.everDefined.insert value.name value := by
    subst valueEq
    rfl
  rw [← valueEq, creation]
  by_cases known : pool.everDefined.contains value.name = true
  · rw [if_pos known] at recorded ⊢
    have present : value.name ∈ handedOut.map Value.name := by
      rw [← List.mem_eraseDups, ← created.listed]
      exact (OrderedMap.contains_iff _ _).mp known
    refine Created.congr ⟨created.named, ?_, ?_, ?_⟩ recorded
    · rw [List.map_append, List.map_singleton, eraseDups_concat_of_mem present]
      exact created.listed
    · exact created.kept.trans (List.sublist_append_left _ _)
    · rw [List.append_nil]
      exact created.added
  · have absent := (OrderedMap.contains_eq_false_iff _ _).mp (Bool.eq_false_iff.mpr known)
    have entries := OrderedMap.entries_insert_new absent value
    rw [if_neg known] at recorded ⊢
    have values : (pool.acquire ty address).2.2.everDefined.values =
        pool.everDefined.values ++ [value] := by
      rw [recorded, OrderedMap.values, entries, List.map_append]
      rfl
    have keys : (pool.acquire ty address).2.2.everDefined.keys =
        pool.everDefined.keys ++ [value.name] := by
      rw [recorded, OrderedMap.keys_insert_new absent]
    refine ⟨?_, ?_, ?_, ?_⟩
    · rw [values, keys, List.map_append, created.named, List.map_singleton]
    · rw [List.map_append, recorded]
      exact OrderedMap.keys_insert_eq_eraseDups created.listed value.name value
    · rw [values]
      exact created.kept.append_right [value]
    · rw [values, List.flatMap_append, List.flatMap_singleton, created.added]

end StackPool

/-- Whether an event is one of the stacks' own. -/
def Event.usesStacks : Event → Bool
  | .acquire pool _ _ => pool = .stacked
  | .release lease | .drop lease | .detach lease => lease.pool = .stacked
  | .popStack _ | .saveStacks | .restoreStacks _ => true
  | .popCounter | .saveCounter | .restoreCounter | .borrow _ _ | .pushHead _ => false

namespace Session

/-- What an event adds to the head, if it is one of the stacks' own. -/
def addition (session : Session) (event : Event) : List Command :=
  if event.usesStacks then
    (session.step event).workspace.head.drop session.workspace.head.length
  else
    []

/-- What the stacks add to the head in a run. -/
def additions (session : Session) : List Event → List Command
  | [] => []
  | event :: events => session.addition event ++ (session.step event).additions events

theorem additions_append (session : Session) (first next : List Event) :
    session.additions (first ++ next) =
      session.additions first ++ (session.run first).additions next := by
  induction first generalizing session with
  | nil => rfl
  | cons event first ih =>
      rw [List.cons_append, additions, additions, run_cons, ih, List.append_assoc]

def fromStacks (registers : List (Pool × Value)) : List Value :=
  (registers.filter (·.1 = .stacked)).map Prod.snd

/-- The registers that the stacks hand out in a run, first to last. -/
def handedOut (session : Session) (events : List Event) : List Value :=
  fromStacks (session.issued events)

theorem fromStacks_append (first next : List (Pool × Value)) :
    fromStacks (first ++ next) = fromStacks first ++ fromStacks next := by
  simp [fromStacks]

theorem addition_of_acquire (session : Session) (ty : Ty) (address : Address) :
    session.addition (.acquire .stacked ty address) =
      (session.workspace.stacked.acquire ty address).2.1 :=
  List.drop_left

/-- Only requests make the stacks add to the head. -/
theorem addition_eq_nil (session : Session) {event : Event}
    (noRequest : ∀ ty address, event ≠ .acquire .stacked ty address) :
    session.addition event = [] := by
  unfold addition
  split
  · rename_i own
    have same : (session.step event).workspace.head = session.workspace.head := by
      refine (session.sameCreation_step (fun pool ty address request => ?_)
        (fun commands byHand => ?_)).head
      · subst request
        obtain rfl : pool = .stacked := by simpa [Event.usesStacks] using own
        exact noRequest ty address rfl
      · subst byHand
        cases own
    rw [same, List.drop_length]
  · rfl

theorem created_step {session : Session} {earlier : List Value} {added : List Command}
    (created : session.workspace.stacked.Created earlier added) (event : Event) :
    (session.step event).workspace.stacked.Created
      (earlier ++ fromStacks (session.issue event)) (added ++ session.addition event) := by
  by_cases request : ∃ ty address, event = .acquire .stacked ty address
  · obtain ⟨ty, address, rfl⟩ := request
    rw [addition_of_acquire]
    exact created.acquire ty address
  · have noRequest : ∀ ty address, event ≠ .acquire .stacked ty address :=
      fun ty address same => request ⟨ty, address, same⟩
    have silent : fromStacks (session.issue event) = [] := by
      cases event with
      | acquire pool ty address =>
          cases pool with
          | stacked => exact absurd rfl (noRequest ty address)
          | counted => rfl
      | _ => rfl
    rw [silent, session.addition_eq_nil noRequest, List.append_nil, List.append_nil]
    refine created.congr ?_
    rcases session.step_stacked event with same | ⟨ty, address, same, _⟩ | ⟨key, after⟩ |
      ⟨serial, saved, _, _, after⟩
    · rw [same]
    · exact absurd same (noRequest ty address)
    · rw [after]
      rfl
    · -- restoring a contract brings back the names in use, not the lasting record
      rw [after]
      rfl

theorem created_run {session : Session} {earlier : List Value} {added : List Command}
    (created : session.workspace.stacked.Created earlier added) (events : List Event) :
    (session.run events).workspace.stacked.Created
      (earlier ++ session.handedOut events) (added ++ session.additions events) := by
  induction events generalizing session earlier added with
  | nil =>
      rw [additions, List.append_nil, handedOut, issued, fromStacks, List.filter_nil, List.map_nil,
        List.append_nil]
      exact created
  | cons event events ih =>
      rw [handedOut, issued, fromStacks_append, additions, ← List.append_assoc,
        ← List.append_assoc]
      exact ih (created_step created event)

theorem start_created (settings : Settings) :
    (start settings).workspace.stacked.Created [] [] :=
  ⟨rfl, List.eraseDups_nil.symm, .slnil, rfl⟩

/-- As long as nobody else writes to the head, it holds what the stacks added. -/
theorem head_eq_additions {events : List Event} (own : ∀ event ∈ events, event.usesStacks)
    (session : Session) :
    (session.run events).workspace.head = session.workspace.head ++ session.additions events := by
  induction events generalizing session with
  | nil => rw [additions, List.append_nil, run_nil]
  | cons event events ih =>
      obtain ⟨first, rest⟩ := List.forall_mem_cons.mp own
      have grown := List.prefix_iff_eq_append.mp (session.step_head event)
      rw [run_cons, ih rest, additions, addition, if_pos first, ← List.append_assoc, grown]

/-- What the stacks add to the head is the creation of the registers in their lasting record,
one after the other.  The record has every name that was handed out, once and in the order
of first use.  Neither record nor head is ever rolled back. -/
theorem stacks_create_once (settings : Settings) (events : List Event) :
    let session := (start settings).run events
    let record := session.workspace.stacked.everDefined.values
    (start settings).additions events =
        record.flatMap (fun value => value.define ++ value.reset value.address.holder) ∧
      ((∀ event ∈ events, event.usesStacks) →
        session.workspace.head = (start settings).additions events) ∧
      (record.map Value.name).Nodup ∧
      record.map Value.name = (((start settings).handedOut events).map Value.name).eraseDups ∧
      record.Sublist ((start settings).handedOut events) ∧
      ∀ later,
        record <+: (session.run later).workspace.stacked.everDefined.values ∧
          session.workspace.head <+: (session.run later).workspace.head ∧
          (start settings).additions events <+: (start settings).additions (events ++ later) := by
  intro session record
  have created := created_run (start_created settings) events
  rw [List.nil_append, List.nil_append] at created
  have names := created.named.trans created.listed
  refine ⟨created.added, fun own => ?_, ?_, names, created.kept, fun later => ?_⟩
  · exact head_eq_additions own (start settings)
  · rw [names]
    exact nodup_eraseDups _
  · have grows := Grows.run session later
    refine ⟨grows.everDefined.map Prod.snd, grows.head, ?_⟩
    rw [additions_append]
    exact List.prefix_append _ _

/-- Two contracts are restored in the wrong order, and a name comes back that the first of
them had rolled back. -/
theorem stacks_create_once_across_contracts :
    let events : List Event :=
      [.acquire .stacked .int .here, .saveStacks, .acquire .stacked .int .here, .saveStacks,
        .acquire .stacked .time (.player "_"), .restoreStacks 0, .popStack ⟨false, .int⟩,
        .acquire .stacked .int .here, .acquire .stacked .int .here, .restoreStacks 1]
    let session := (start {}).run events
    session.workspace.stacked.defined = ["_tmpLi0", "_tmpLi1"] ∧
      session.workspace.stacked.everDefined.keys = ["_tmpLi0", "_tmpLi1", "_tmpGt0"] ∧
      session.workspace.head =
        session.workspace.stacked.everDefined.values.flatMap
          (fun value => value.define ++ value.reset value.address.holder) ∧
      (session.workspace.stacked.everDefined.values.map Value.name).Nodup := by
  intro events session
  obtain ⟨added, alone, distinct, _⟩ := stacks_create_once {} events
  have own : ∀ event ∈ events, event.usesStacks := by decide
  exact ⟨by decide +kernel, by decide +kernel, (alone own).trans added, distinct⟩

end Session
end ScoreLowering
