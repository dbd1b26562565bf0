import ScoreLowering.Proofs.TicketOwnership

/-!
# What a contract encloses

Between saving the stacks and restoring them anything may happen: registers are
taken and given back, by lease or by hand, and further contracts come and go.
Restoring puts every stack back as it was, while what was created stays created.
A lease from inside is worth nothing afterwards, wherever the session goes from
there: its ticket is on no stack, no contract in hand can bring it back, and it
is never issued again.
-/

namespace ScoreLowering

theorem Workspace.discard_head (workspace : Workspace) (lease : Lease) :
    (workspace.discard lease).head = workspace.head := by
  rcases workspace.discard_cases lease with same | popped
  · rw [same]
  · rcases workspace.pop_cases lease with after | after <;> rw [popped, after]

namespace Session

theorem opened_le_step (session : Session) (event : Event) :
    session.opened ≤ (session.step event).opened := by
  cases event with
  | saveStacks => exact Nat.le_succ _
  | acquire _ _ _ | detach _ | popCounter | saveCounter | borrow _ _ | pushHead _ =>
      exact Nat.le_refl _
  | release _ | drop _ | popStack _ | restoreStacks _ | restoreCounter =>
      simp only [step]
      split <;> exact Nat.le_refl _

theorem run_contracts {session : Session} {events : List Event} {serial : Nat}
    {snapshot : StackSnapshot} (older : serial < session.opened)
    (found : (session.run events).contracts.get? serial = some snapshot) :
    session.contracts.get? serial = some snapshot := by
  induction events generalizing session with
  | nil => exact found
  | cons event events ih =>
      have stillOlder := Nat.lt_of_lt_of_le older (session.opened_le_step event)
      rcases step_contracts (ih stillOlder found) with before | ⟨_, new, _⟩
      · exact before
      · omega

theorem nextTicket_le_run (session : Session) (events : List Event) (pool : Pool) :
    session.workspace.nextTicket pool ≤ (session.run events).workspace.nextTicket pool := by
  refine run_related (motive := fun before after =>
    before.workspace.nextTicket pool ≤ after.workspace.nextTicket pool) ?_ Nat.le_trans ?_ _ events
  · exact fun _ => Nat.le_refl _
  · exact fun session event => session.nextTicket_le_step event pool

theorem mem_run_leases {session : Session} {events : List Event} {lease : Lease}
    (inHand : lease ∈ (session.run events).leases) :
    lease ∈ session.leases ∨
      (session.workspace.nextTicket lease.pool ≤ lease.ticket ∧
        lease.ticket < (session.run events).workspace.nextTicket lease.pool) := by
  induction events generalizing session with
  | nil => exact Or.inl inHand
  | cons event events ih =>
      have grows := session.nextTicket_le_step event lease.pool
      have growsOn := (session.step event).nextTicket_le_run events lease.pool
      rcases ih inHand with before | ⟨above, below⟩
      · rcases mem_step_leases before with old | ⟨ticketEq, below⟩
        · exact Or.inl old
        · exact Or.inr ⟨Nat.le_of_eq ticketEq.symm, Nat.lt_of_lt_of_le below growsOn⟩
      · exact Or.inr ⟨Nat.le_trans grows above, below⟩

theorem step_head (session : Session) (event : Event) :
    session.workspace.head <+: (session.step event).workspace.head := by
  cases event with
  | acquire pool ty address => cases pool <;> exact List.prefix_append _ _
  | pushHead commands => exact List.prefix_append _ _
  | release lease | drop lease =>
      simp only [step]
      split
      · simp only [Workspace.discard_head, List.prefix_rfl]
      · exact List.prefix_rfl
  | popStack _ | restoreStacks _ | restoreCounter =>
      simp only [step]
      split <;> exact List.prefix_rfl
  | detach _ | popCounter | saveStacks | saveCounter | borrow _ _ => exact List.prefix_rfl

theorem step_everDefined (session : Session) (event : Event) :
    session.workspace.stacked.everDefined.entries <+:
      (session.step event).workspace.stacked.everDefined.entries := by
  rcases session.step_stacked event with same | ⟨ty, address, _, after⟩ | ⟨key, after⟩ |
    ⟨serial, saved, _, _, after⟩
  · simp only [same, List.prefix_rfl]
  · rw [after]
    simp only [StackPool.acquire, StackPool.setStack, StackPool.record]
    split
    · exact List.prefix_rfl
    · rename_i new
      rw [Bool.not_eq_true, OrderedMap.contains_eq_false_iff] at new
      rw [OrderedMap.entries_insert_new new]
      exact List.prefix_append _ _
  · rw [after]
    exact List.prefix_rfl
  · rw [after]
    exact List.prefix_rfl

/-- What was created stays created. -/
structure Grows (before after : Session) : Prop where
  head : before.workspace.head <+: after.workspace.head
  everDefined : before.workspace.stacked.everDefined.entries <+:
    after.workspace.stacked.everDefined.entries

namespace Grows

theorem refl (session : Session) : Grows session session :=
  ⟨List.prefix_rfl, List.prefix_rfl⟩

theorem trans {first second third : Session} (left : Grows first second)
    (right : Grows second third) : Grows first third :=
  ⟨left.head.trans right.head, left.everDefined.trans right.everDefined⟩

theorem step (session : Session) (event : Event) : Grows session (session.step event) :=
  ⟨session.step_head event, session.step_everDefined event⟩

theorem run (session : Session) (events : List Event) : Grows session (session.run events) :=
  run_related refl trans step session events

end Grows

/-- A ticket that no stack holds, now or after a contract is restored, and that
cannot be issued again. -/
structure Forgotten (session : Session) (ticket : Nat) : Prop where
  issued : ticket < session.workspace.nextTicket .stacked
  absent : ∀ snapshot, session.Keeps snapshot → ∀ key, ticket ∉ snapshot.stack key

namespace Forgotten

variable {session : Session} {ticket : Nat}

theorem step (forgotten : session.Forgotten ticket) (event : Event) :
    (session.step event).Forgotten ticket where
  issued := Nat.lt_of_lt_of_le forgotten.issued (session.nextTicket_le_step event .stacked)
  absent snapshot kept key := by
    have current := forgotten.absent _ session.keeps_save key
    rcases keeps_step kept with before | ⟨ty, address, rfl, rfl⟩ | ⟨popped, rfl⟩
    · exact forgotten.absent snapshot before key
    · rw [StackPool.stack_save] at current ⊢
      by_cases here : key = ⟨address.isGlobal, ty⟩
      · subst here
        rw [StackPool.stack_acquire_self, List.mem_append, List.mem_singleton]
        rintro (old | new)
        · exact current old
        · exact absurd forgotten.issued (Nat.not_lt.mpr (Nat.le_of_eq new.symm))
      · rwa [StackPool.stack_acquire_of_ne _ _ _ here]
    · rw [StackPool.stack_save] at current ⊢
      by_cases here : key = popped
      · subst here
        rw [StackPool.stack_pop_self]
        exact fun member => current (List.dropLast_subset _ member)
      · rwa [StackPool.stack_pop_of_ne _ here]

theorem run (forgotten : session.Forgotten ticket) (events : List Event) :
    (session.run events).Forgotten ticket := by
  refine run_keeps (motive := fun session => session.Forgotten ticket) ?_ forgotten events
  exact fun _ event forgotten => forgotten.step event

/-- A lease on a forgotten ticket can be ended at any time, to no effect. -/
theorem release {lease : Lease} (forgotten : session.Forgotten lease.ticket)
    (stacked : lease.pool = .stacked) :
    session.workspace.release lease = .ok session.workspace := by
  apply Workspace.release_gone
  rw [stacked]
  exact fun stands =>
    forgotten.absent _ session.keeps_save lease.key (List.mem_of_getElem? stands)

end Forgotten

/-- Events between saving the stacks and restoring them: the contract is not yet
disposed of, and those opened after it are. -/
structure Encloses (outer : Session) (inside : List Event) : Prop where
  inHand : outer.opened ∈ ((outer.step .saveStacks).run inside).contracts.keys
  nested : ∀ serial ∈ ((outer.step .saveStacks).run inside).contracts.keys,
    serial ≤ outer.opened

namespace Encloses

variable {outer : Session} {inside : List Event}

/-- The contract still saves the stacks of the outer session. -/
theorem saved (encloses : outer.Encloses inside) :
    ((outer.step .saveStacks).run inside).contracts.get? outer.opened =
      some outer.workspace.stacked.save := by
  cases found : ((outer.step .saveStacks).run inside).contracts.get? outer.opened with
  | none => exact absurd encloses.inHand ((OrderedMap.not_mem_keys_iff _ _).mpr found)
  | some snapshot =>
      have before := run_contracts (Nat.lt_succ_self outer.opened) found
      rwa [step, OrderedMap.get?_insert_self, eq_comm] at before

theorem save_restored (encloses : outer.Encloses inside) :
    (((outer.step .saveStacks).run inside).step
        (.restoreStacks outer.opened)).workspace.stacked.save =
      outer.workspace.stacked.save := by
  rw [step_restoreStacks encloses.saved, withStacked, StackPool.save_restore]

/-- Once the contract is restored, the stacks and contracts are among those from
before it. -/
theorem keeps_restored (encloses : outer.Encloses inside) {snapshot : StackSnapshot}
    (kept : (((outer.step .saveStacks).run inside).step
      (.restoreStacks outer.opened)).Keeps snapshot) : outer.Keeps snapshot := by
  rcases kept with current | ⟨serial, found⟩
  · exact Or.inl (current.trans encloses.save_restored)
  · rw [step_restoreStacks encloses.saved] at found
    have different : serial ≠ outer.opened := by
      rintro rfl
      simp at found
    rw [OrderedMap.get?_erase_of_ne _ different] at found
    -- what is still in hand is older, and older contracts do not change
    have inHand : serial ∈ ((outer.step .saveStacks).run inside).contracts.keys :=
      List.mem_map.mpr ⟨_, OrderedMap.mem_entries_of_get? found, rfl⟩
    have older : serial < outer.opened := by
      have bound := encloses.nested serial inHand
      omega
    have before := run_contracts (Nat.lt_succ_of_lt older) found
    rw [step, OrderedMap.get?_insert_of_ne _ _ different] at before
    exact Or.inr ⟨serial, before⟩

/-- A lease from inside has a ticket that is gone for good. -/
theorem forgotten (encloses : outer.Encloses inside) (orderly : outer.Orderly) {lease : Lease}
    (inHand : lease ∈ ((outer.step .saveStacks).run inside).leases) (new : lease ∉ outer.leases)
    (stacked : lease.pool = .stacked) :
    (((outer.step .saveStacks).run inside).step
      (.restoreStacks outer.opened)).Forgotten lease.ticket := by
  rcases mem_run_leases inHand with old | ⟨above, below⟩
  · exact absurd old new
  · rw [stacked] at above below
    refine ⟨Nat.lt_of_lt_of_le below (nextTicket_le_step _ _ _), fun snapshot kept key member => ?_⟩
    -- the tickets that are kept were issued before the contract, this one after
    have issuedBefore := (orderly.kept snapshot (encloses.keeps_restored kept) key).below _ member
    exact absurd issuedBefore (Nat.not_lt.mpr above)

end Encloses

/-- What happens inside of a contract stays there.  At its end the stacks are as they were at
its start, registers created on the way stay created, leases from inside end nothing any more,
and those from outside are where they were. -/
theorem contract_encloses_stacks {outer : Session} (reachable : outer.Reachable)
    {inside : List Event} (encloses : outer.Encloses inside) :
    let inner := (outer.step .saveStacks).run inside
    let restored := inner.step (.restoreStacks outer.opened)
    restored.workspace.stacked.held = outer.workspace.stacked.held ∧
      restored.workspace.stacked.defined = outer.workspace.stacked.defined ∧
      outer.workspace.stacked.everDefined.entries <+:
        restored.workspace.stacked.everDefined.entries ∧
      outer.workspace.head <+: restored.workspace.head ∧
      (∀ lease ∈ inner.leases, lease ∉ outer.leases → lease.pool = .stacked →
        ∀ later, let session := restored.run later
          session.workspace.release lease = .ok session.workspace ∧
            session.workspace.discard lease = session.workspace) ∧
      ∀ lease ∈ outer.leases, lease.pool = .stacked →
        lease.ticket ∈ outer.workspace.stacked.stack lease.key →
          (restored.workspace.stacked.stack lease.key)[lease.index]? = some lease.ticket := by
  intro inner restored
  have saveEq := encloses.save_restored
  have grows : Grows outer restored :=
    (Grows.step outer .saveStacks).trans
      ((Grows.run _ inside).trans (Grows.step inner (.restoreStacks outer.opened)))
  refine ⟨congrArg StackSnapshot.held saveEq, congrArg StackSnapshot.defined saveEq,
    grows.everDefined, grows.head, ?_, ?_⟩
  · intro lease inHand new stacked later session
    have released : session.workspace.release lease = .ok session.workspace :=
      ((encloses.forgotten reachable.orderly inHand new stacked).run later).release stacked
    exact ⟨released, Workspace.discard_of_ok released⟩
  · intro lease inHand stacked onStack
    obtain ⟨position, stands⟩ := List.mem_iff_getElem?.mp onStack
    have indexEq := ((reachable.orderly.held .stacked lease.key).placed lease inHand stacked
      position stands).2
    rw [indexEq, ← StackPool.stack_save, saveEq]
    exact stands

/-- The register from before the contract is given back by hand inside, and its
position goes to a lease that outlives the contract, then to a third one. -/
theorem contract_encloses_reuse :
    let outer := (start {}).run [.acquire .stacked .int .here]
    let inside : List Event := [.popStack ⟨false, .int⟩, .acquire .stacked .int .here,
      .saveStacks, .acquire .stacked .int .here, .restoreStacks 1]
    let inner := (outer.step .saveStacks).run inside
    let restored := inner.step (.restoreStacks 0)
    let reused := restored.run [.popStack ⟨false, .int⟩, .acquire .stacked .int .here]
    outer.Encloses inside ∧
      inner.leases.map (fun lease => (lease.index, lease.ticket)) = [(1, 2), (0, 1), (0, 0)] ∧
      reused.workspace.stacked.stack ⟨false, .int⟩ = [3] ∧
      (∀ lease ∈ inner.leases, lease ∉ outer.leases →
        reused.workspace.release lease = .ok reused.workspace) ∧
      ∀ lease ∈ outer.leases,
        (restored.workspace.stacked.stack lease.key)[lease.index]? = some lease.ticket := by
  intro outer inside inner restored reused
  have reachable : outer.Reachable := ⟨{}, _, rfl⟩
  have encloses : outer.Encloses inside := ⟨by decide, by decide⟩
  have stacked : ∀ lease ∈ inner.leases, lease.pool = .stacked := by decide
  have outerHeld : ∀ lease ∈ outer.leases, lease.pool = .stacked ∧
      lease.ticket ∈ outer.workspace.stacked.stack lease.key := by decide
  obtain ⟨_, _, _, _, stale, live⟩ := contract_encloses_stacks reachable encloses
  refine ⟨encloses, by decide, by decide, fun lease inHand new => ?_, fun lease inHand => ?_⟩
  · exact (stale lease inHand new (stacked lease inHand) _).1
  · exact live lease inHand (outerHeld lease inHand).1 (outerHeld lease inHand).2

end Session

end ScoreLowering
