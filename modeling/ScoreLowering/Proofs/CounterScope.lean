import ScoreLowering.Proofs.ContractScope

/-!
# What a saved counter encloses

Saving the counter notes how many registers are held, but not under which tickets.
Restoring it brings back the number.  Positions that are missing are reserved under
fresh tickets, which belong to no lease, and those beyond the number are given back.

A position can also be given back and taken again before the counter is restored.
It is not missing then, and its lease keeps it: the number held goes down once more
when that lease ends.  Leases on all other positions are spent for good.
-/

namespace ScoreLowering

namespace Event

/-- Events in which each counter that is saved is restored, and no other one is. -/
inductive Nested : List Event → Prop where
  | nil : Nested []
  | other {event : Event} {rest : List Event} (noSave : event ≠ .saveCounter)
      (noRestore : event ≠ .restoreCounter) (nested : Nested rest) : Nested (event :: rest)
  | pair {inside rest : List Event} (nested : Nested inside) (after : Nested rest) :
      Nested (.saveCounter :: (inside ++ .restoreCounter :: rest))

/-- The counter is saved after `before`, and the events that follow do not restore it. -/
def Opens (events before : List Event) : Prop :=
  ∃ inside, Nested inside ∧ events = before ++ .saveCounter :: inside

namespace Nested

theorem append {first next : List Event} (nested : Nested first) (after : Nested next) :
    Nested (first ++ next) := by
  induction nested with
  | nil => exact after
  | other noSave noRestore _ ih => exact other noSave noRestore ih
  | @pair inside rest nested _ _ ih =>
      rw [List.cons_append, List.append_assoc, List.cons_append]
      exact pair nested ih

theorem singleton {event : Event} (noSave : event ≠ .saveCounter)
    (noRestore : event ≠ .restoreCounter) : Nested [event] :=
  other noSave noRestore nil

end Nested

end Event

namespace CounterPool

variable {pool : CounterPool}

theorem restore_of_saved {count : Nat} {earlier : List Nat}
    (saved : pool.saved = count :: earlier) :
    pool.restore = .ok { pool.resize count with saved := earlier } := by
  simp only [restore, saved]

theorem restore_of_nothing_saved (saved : pool.saved = []) :
    pool.restore = .error .noSavedState := by
  simp only [restore, saved]

theorem index_resize (pool : CounterPool) (count : Nat) : (pool.resize count).index = count := by
  simp only [resize, index, List.length_take, List.length_append, List.length_range']
  omega

/-- A ticket issued before is on a position that was held before. -/
theorem getElem?_resize {count position ticket : Nat} (issued : ticket < pool.nextTicket) :
    (pool.resize count).slots[position]? = some ticket ↔
      position < count ∧ pool.slots[position]? = some ticket := by
  simp only [resize, List.getElem?_take]
  split
  · rename_i inside
    by_cases old : position < pool.slots.length
    · rw [List.getElem?_append_left old]
      exact (and_iff_right inside).symm
    · have missing := List.getElem?_eq_none_iff.mpr (Nat.not_lt.mp old)
      rw [List.getElem?_append_right (Nat.not_lt.mp old), missing]
      refine iff_of_false (fun stands => ?_) (by simp)
      have fresh := (List.mem_range'_1.mp (List.mem_of_getElem? stands)).1
      omega
  · rename_i outside
    exact iff_of_false (by simp) fun both => outside both.1

end CounterPool

namespace Workspace

theorem discard_saved (workspace : Workspace) (lease : Lease) :
    (workspace.discard lease).counted.saved = workspace.counted.saved := by
  rcases workspace.discard_cases lease with same | popped
  · rw [same]
  · rcases workspace.pop_cases lease with after | after
    · rw [popped, after]
    · rw [popped, after]
      rfl

end Workspace

namespace Session

theorem step_restoreCounter {session : Session} {count : Nat} {earlier : List Nat}
    (saved : session.workspace.counted.saved = count :: earlier) :
    session.step .restoreCounter =
      session.withCounted { session.workspace.counted.resize count with saved := earlier } := by
  simp only [step, CounterPool.restore_of_saved saved]

theorem step_restoreCounter_of_nil {session : Session}
    (saved : session.workspace.counted.saved = []) : session.step .restoreCounter = session := by
  simp only [step, CounterPool.restore_of_nothing_saved saved]

theorem step_saved (session : Session) {event : Event} (noSave : event ≠ .saveCounter)
    (noRestore : event ≠ .restoreCounter) :
    (session.step event).workspace.counted.saved = session.workspace.counted.saved := by
  cases event with
  | saveCounter => exact absurd rfl noSave
  | restoreCounter => exact absurd rfl noRestore
  | acquire pool ty address => cases pool <;> rfl
  | release lease | drop lease =>
      simp only [step]
      split
      · exact session.workspace.discard_saved lease
      · rfl
  | popStack _ | restoreStacks _ =>
      simp only [step]
      split <;> rfl
  | detach _ | popCounter | saveStacks | borrow _ _ | pushHead _ => rfl

theorem run_saved {events : List Event} (nested : Event.Nested events) (session : Session) :
    (session.run events).workspace.counted.saved = session.workspace.counted.saved := by
  induction nested generalizing session with
  | nil => rfl
  | other noSave noRestore _ ih => rw [run_cons, ih, session.step_saved noSave noRestore]
  | @pair inside rest _ _ insideIH restIH =>
      have saved := insideIH (session.step .saveCounter)
      rw [run_cons, run_append, run_cons, restIH, step_restoreCounter saved]
      rfl

/-- A counter that is saved was saved by an event whose counterpart is still to come. -/
theorem exists_opens {settings : Settings} {events : List Event} {count : Nat}
    {earlier : List Nat}
    (saved : ((start settings).run events).workspace.counted.saved = count :: earlier) :
    ∃ before, Event.Opens events before ∧
      ((start settings).run before).workspace.counted.saved = earlier := by
  rcases List.eq_nil_or_concat events with rfl | ⟨front, event, rfl⟩
  · cases saved
  · rw [List.concat_eq_append] at saved ⊢
    rw [run_append, run_cons, run_nil] at saved
    by_cases save : event = .saveCounter
    · subst save
      exact ⟨front, ⟨[], .nil, rfl⟩, (List.cons.inj saved).2⟩
    · by_cases restore : event = .restoreCounter
      · subst restore
        -- what is on top now was below the counter that is restored here
        cases below : ((start settings).run front).workspace.counted.saved with
        | nil =>
            rw [step_restoreCounter_of_nil below, below] at saved
            cases saved
        | cons top rest =>
            rw [step_restoreCounter below] at saved
            obtain ⟨middle, ⟨inner, innerNested, rfl⟩, middleSaved⟩ := exists_opens below
            obtain ⟨before, ⟨outer, outerNested, rfl⟩, beforeSaved⟩ :=
              exists_opens (middleSaved.trans saved)
            refine ⟨before, ⟨outer ++ .saveCounter :: (inner ++ [.restoreCounter]), ?_, ?_⟩,
              beforeSaved⟩
            · exact outerNested.append (.pair innerNested .nil)
            · simp
      · rw [step_saved _ save restore] at saved
        obtain ⟨before, ⟨inside, nested, rfl⟩, beforeSaved⟩ := exists_opens saved
        refine ⟨before, ⟨inside ++ [event], nested.append (.singleton save restore), ?_⟩,
          beforeSaved⟩
        simp
termination_by events.length
decreasing_by
  · simp_all
  · simp_all only [List.concat_eq_append, List.length_append, List.length_cons]
    omega
  · simp_all

theorem saved_eq_nil_iff (settings : Settings) (events : List Event) :
    ((start settings).run events).workspace.counted.saved = [] ↔
      ∀ before, ¬ Event.Opens events before := by
  constructor
  · rintro nothing before ⟨inside, nested, rfl⟩
    rw [run_append, run_cons, run_saved nested] at nothing
    cases nothing
  · intro unopened
    cases saved : ((start settings).run events).workspace.counted.saved with
    | nil => rfl
    | cons count earlier =>
        obtain ⟨before, opens, _⟩ := exists_opens saved
        exact absurd opens (unopened before)

/-- A ticket of the counter that is on no position and cannot be issued again. -/
structure Expired (session : Session) (ticket : Nat) : Prop where
  issued : ticket < session.workspace.nextTicket .counted
  absent : ticket ∉ session.workspace.counted.slots

namespace Expired

variable {session : Session} {ticket : Nat}

theorem step (expired : session.Expired ticket) (event : Event) :
    (session.step event).Expired ticket where
  issued := Nat.lt_of_lt_of_le expired.issued (session.nextTicket_le_step event .counted)
  absent := by
    have below : ticket < session.workspace.counted.nextTicket := expired.issued
    have absent := expired.absent
    rcases session.step_counted event with ⟨slots, _⟩ | ⟨_, _, _, slots, _⟩ | ⟨slots, _⟩ |
      ⟨_, count, missing, slots, _⟩
    · rwa [slots]
    · rw [slots, List.mem_append, List.mem_singleton]
      rintro (old | new)
      · exact absent old
      · omega
    · rw [slots]
      exact fun member => absent (List.dropLast_subset _ member)
    · rw [slots]
      intro member
      rcases List.mem_append.mp (List.mem_of_mem_take member) with old | fresh
      · exact absent old
      · have above := (List.mem_range'_1.mp fresh).1
        omega

theorem run (expired : session.Expired ticket) (events : List Event) :
    (session.run events).Expired ticket := by
  refine run_keeps (motive := fun session => session.Expired ticket) ?_ expired events
  exact fun _ event expired => expired.step event

theorem discard {lease : Lease} (expired : session.Expired lease.ticket)
    (counted : lease.pool = .counted) : session.workspace.discard lease = session.workspace := by
  apply Workspace.discard_of_ok
  apply Workspace.release_gone
  rw [counted]
  exact fun stands => expired.absent (List.mem_of_getElem? stands)

end Expired

/-- Ending the lease leaves the number of registers held as it is, wherever the session
has gone by then. -/
def Spent (session : Session) (lease : Lease) : Prop :=
  ∀ later, ((session.run later).workspace.discard lease).counted.index =
    (session.run later).workspace.counted.index

theorem run_popCounter (session : Session) (times : Nat) :
    (session.run (List.replicate times .popCounter)).workspace.counted.slots =
      session.workspace.counted.slots.take (session.workspace.counted.index - times) := by
  induction times generalizing session with
  | zero => simp [CounterPool.index]
  | succ times ih =>
      have popped : (session.step .popCounter).workspace.counted.slots =
          session.workspace.counted.slots.take (session.workspace.counted.index - 1) :=
        List.dropLast_eq_take
      have fewer : (session.step .popCounter).workspace.counted.index =
          session.workspace.counted.index - 1 := List.length_dropLast
      rw [List.replicate_succ, run_cons, ih, popped, fewer, List.take_take, Nat.sub_sub,
        Nat.add_comm 1 times, Nat.min_eq_left (by omega)]

/-- A lease that is still on its position can be ended to some effect, once those above
it are gone. -/
theorem not_spent_of_held {session : Session} {lease : Lease} (counted : lease.pool = .counted)
    (stands : session.workspace.counted.slots[lease.index]? = some lease.ticket) :
    ¬ session.Spent lease := by
  intro spent
  have inside : lease.index + 1 ≤ session.workspace.counted.index :=
    (List.getElem?_eq_some_iff.mp stands).1
  have slots := session.run_popCounter (session.workspace.counted.index - (lease.index + 1))
  have unchanged :=
    spent (List.replicate (session.workspace.counted.index - (lease.index + 1)) .popCounter)
  generalize session.run _ = top at slots unchanged
  rw [Nat.sub_sub_self inside] at slots
  have topLength : top.workspace.counted.slots.length = lease.index + 1 := by
    rw [slots, List.length_take]
    exact Nat.min_eq_left inside
  have topStands : top.workspace.counted.slots[lease.index]? = some lease.ticket := by
    rw [slots, List.getElem?_take_of_lt (Nat.lt_succ_self _), stands]
  have released : top.workspace.release lease = .ok (top.workspace.pop lease) :=
    Workspace.release_top (by rw [counted]; exact topStands) (by rw [counted]; exact topLength)
  rw [Workspace.discard_of_ok released] at unchanged
  simp [Workspace.pop, counted, CounterPool.pop, CounterPool.index, topLength] at unchanged

/-- A lease that a run brings was acquired at some point of it, on top of the registers
held there. -/
theorem exists_acquired {session : Session} {events : List Event} {lease : Lease}
    (inHand : lease ∈ (session.run events).leases) (new : lease ∉ session.leases) :
    ∃ before, before <+: events ∧
      lease.index = ((session.run before).workspace.held lease.pool lease.key).length := by
  induction events generalizing session with
  | nil => exact absurd inHand new
  | cons event events ih =>
      by_cases early : lease ∈ (session.step event).leases
      · refine ⟨[], List.nil_prefix, ?_⟩
        rcases session.step_leases event with fewer | ⟨pool, ty, address, _, after⟩
        · exact absurd (fewer.subset early) new
        · rw [after] at early
          rcases List.mem_cons.mp early with rfl | old
          · obtain ⟨on, indexEq, _⟩ := session.workspace.acquire_lease pool ty address
            rw [indexEq, Workspace.held_of_on on, run_nil]
          · exact absurd old new
      · obtain ⟨before, shorter, indexEq⟩ := ih inHand early
        exact ⟨event :: before, List.cons_prefix_cons.mpr ⟨rfl, shorter⟩, indexEq⟩

section Restored

variable {inner : Session} {count : Nat} {earlier : List Nat} {lease : Lease}

theorem getElem?_restored (saved : inner.workspace.counted.saved = count :: earlier)
    {position ticket : Nat} (issued : ticket < inner.workspace.nextTicket .counted) :
    (inner.step .restoreCounter).workspace.counted.slots[position]? = some ticket ↔
      position < count ∧ inner.workspace.counted.slots[position]? = some ticket := by
  rw [step_restoreCounter saved]
  exact CounterPool.getElem?_resize issued

/-- The positions that are reserved again belong to no lease. -/
theorem reserved_for_nobody (orderly : inner.Orderly)
    (saved : inner.workspace.counted.saved = count :: earlier) (inHand : lease ∈ inner.leases)
    (counted : lease.pool = .counted) {position : Nat}
    (missing : inner.workspace.counted.index ≤ position) :
    (inner.step .restoreCounter).workspace.counted.slots[position]? ≠ some lease.ticket := by
  intro stands
  have issued := orderly.issued_of .counted lease inHand counted
  have before := ((getElem?_restored saved issued).mp stands).2
  rw [List.getElem?_eq_none_iff.mpr missing] at before
  cases before

theorem spent_restored_iff (orderly : inner.Orderly)
    (saved : inner.workspace.counted.saved = count :: earlier) (inHand : lease ∈ inner.leases)
    (counted : lease.pool = .counted) :
    (inner.step .restoreCounter).Spent lease ↔
      (inner.workspace.counted.slots[lease.index]? = some lease.ticket → count ≤ lease.index) := by
  have issued := orderly.issued_of .counted lease inHand counted
  constructor
  · intro spent stands
    refine Nat.not_lt.mp fun inside => ?_
    exact not_spent_of_held counted ((getElem?_restored saved issued).mpr ⟨inside, stands⟩) spent
  · intro outside later
    have expired : (inner.step .restoreCounter).Expired lease.ticket := by
      refine ⟨Nat.lt_of_lt_of_le issued (inner.nextTicket_le_step _ _), fun member => ?_⟩
      obtain ⟨position, stands⟩ := List.mem_iff_getElem?.mp member
      obtain ⟨inside, before⟩ := (getElem?_restored saved issued).mp stands
      -- a ticket is found in the place of its lease only
      have indexEq := ((orderly.slots lease.key).placed lease inHand counted position before).2
      subst indexEq
      exact absurd inside (Nat.not_lt.mpr (outside before))
    rw [(expired.run later).discard counted]

end Restored

/-- Restoring the counter brings back the number of registers held when it was saved, under
fresh tickets where some are missing.  A lease is spent then unless it is on one of the
positions held at that time, which it can only be if one of them was given back. -/
theorem restored_counter_spent_iff (settings : Settings) (events : List Event) :
    let outer := (start settings).run events
    (∀ inside, Event.Nested inside →
      let inner := (outer.step .saveCounter).run inside
      let restored := inner.step .restoreCounter
      inner.workspace.counted.restore = .ok restored.workspace.counted ∧
        restored.workspace.counted.index = outer.workspace.counted.index ∧
        (∀ lease ∈ inner.leases, lease.pool = .counted →
          ∀ position, inner.workspace.counted.index ≤ position →
            restored.workspace.counted.slots[position]? ≠ some lease.ticket) ∧
        (∀ lease ∈ inner.leases, lease.pool = .counted →
          (restored.Spent lease ↔
            (inner.workspace.counted.slots[lease.index]? = some lease.ticket →
              outer.workspace.counted.index ≤ lease.index))) ∧
        ((∀ before, before <+: inside → outer.workspace.counted.index ≤
            ((outer.step .saveCounter).run before).workspace.counted.index) →
          ∀ lease ∈ inner.leases, lease ∉ outer.leases → lease.pool = .counted →
            restored.Spent lease)) ∧
      ((∀ before, ¬ Event.Opens events before) →
        outer.workspace.counted.restore = .error .noSavedState ∧
          outer.step .restoreCounter = outer) := by
  intro outer
  refine ⟨fun inside nested => ?_, fun unopened => ?_⟩
  · intro inner restored
    have orderly : inner.Orderly :=
      (Reachable.run ⟨settings, events, rfl⟩ (.saveCounter :: inside)).orderly
    have saved : inner.workspace.counted.saved =
        outer.workspace.counted.index :: outer.workspace.counted.saved := run_saved nested _
    have restoredEq : restored = _ := step_restoreCounter saved
    have spent {lease : Lease} (inHand : lease ∈ inner.leases) (counted : lease.pool = .counted) :=
      spent_restored_iff orderly saved inHand counted
    refine ⟨?_, ?_, fun lease inHand counted position missing => ?_,
      fun lease inHand counted => spent inHand counted,
      fun neverLower lease inHand new counted => (spent inHand counted).mpr fun _ => ?_⟩
    · rw [CounterPool.restore_of_saved saved, restoredEq, withCounted]
    · rw [restoredEq]
      exact CounterPool.index_resize _ _
    · exact reserved_for_nobody orderly saved inHand counted missing
    · obtain ⟨before, shorter, indexEq⟩ := exists_acquired inHand new
      rw [indexEq, counted]
      exact neverLower before shorter
  · have nothing := (saved_eq_nil_iff settings events).mpr unopened
    exact ⟨CounterPool.restore_of_nothing_saved nothing, step_restoreCounter_of_nil nothing⟩

/-- The second position is given back by hand and missing when the counter is restored; the
third one is taken and given back inside; and no counter is left to be restored then. -/
theorem restored_counter_spent_inner :
    let events : List Event := [.acquire .counted .int .here, .acquire .counted .int .here]
    let outer := (start {}).run events
    let inside : List Event := [.acquire .counted .int .here, .saveCounter, .popCounter,
      .acquire .counted .bool .here, .restoreCounter, .popCounter, .popCounter]
    let inner := (outer.step .saveCounter).run inside
    let restored := inner.step .restoreCounter
    Event.Nested inside ∧ inner.workspace.counted.slots = [0] ∧
      restored.workspace.counted.slots = [0, 4] ∧
      restored.workspace.counted.index = outer.workspace.counted.index ∧
      (∀ lease ∈ inner.leases, lease ∉ outer.leases → restored.Spent lease) ∧
      outer.workspace.counted.restore = .error .noSavedState := by
  intro events outer inside inner restored
  have reused : Event.Nested [.popCounter, .acquire .counted .bool .here] :=
    .other nofun nofun (.singleton nofun nofun)
  have givenBack : Event.Nested [.popCounter, .popCounter] :=
    .other nofun nofun (.singleton nofun nofun)
  have nested : Event.Nested inside := .other nofun nofun (reused.pair givenBack)
  obtain ⟨enclosed, unopened⟩ := restored_counter_spent_iff {} events
  obtain ⟨_, indexEq, _, spent, _⟩ := enclosed inside nested
  have outside : ∀ lease ∈ inner.leases, lease ∉ outer.leases → lease.pool = .counted ∧
      (inner.workspace.counted.slots[lease.index]? = some lease.ticket →
        outer.workspace.counted.index ≤ lease.index) := by decide
  refine ⟨nested, by decide, by decide, indexEq, fun lease inHand new => ?_, (unopened ?_).1⟩
  · obtain ⟨counted, above⟩ := outside lease inHand new
    exact (spent lease inHand counted).mpr above
  · exact (saved_eq_nil_iff {} events).mp (by decide)

/-- The only register is given back by hand and taken again inside.  Ending the inner lease
gives back the position that was reserved for the outer one. -/
theorem inner_lease_keeps_position :
    let outer := (start {}).run [.acquire .counted .int .here]
    let inside : List Event := [.popCounter, .acquire .counted .int .here]
    let inner := (outer.step .saveCounter).run inside
    let restored := inner.step .restoreCounter
    Event.Nested inside ∧ restored.workspace.counted.index = 1 ∧
      ∃ lease ∈ inner.leases, lease ∉ outer.leases ∧
        (restored.step (.drop lease)).workspace.counted.index = 0 := by
  intro outer inside inner restored
  exact ⟨.other nofun nofun (.singleton nofun nofun), by decide, by decide⟩

end Session
end ScoreLowering
