import ScoreLowering.Compilation
import ScoreLowering.Proofs.ScratchBalance

/-!
# Sessions with the pools

Whoever uses the pools has leases in hand, and contracts that bring the stacks
back to where they were saved.  A session is a workspace together with these,
and an event is anything that can be asked of it.  Events about a lease or a
contract that is not in hand, and requests that are refused, change nothing, so
a run is any list of events.

Lowerings are not events of their own: carrying out a plan acquires and drops
leases one by one, which is a run.
-/

namespace ScoreLowering

inductive Event where
  | acquire (pool : Pool) (ty : Ty) (address : Address)
  | release (lease : Lease)
  | drop (lease : Lease)
  /-- Keep the register without a lease. -/
  | detach (lease : Lease)
  /-- Give back the top register of a stack by hand. -/
  | popStack (key : StackKey)
  | popCounter
  /-- Save the stacks under a contract. -/
  | saveStacks
  /-- Restore the stacks that a contract saved. -/
  | restoreStacks (serial : Nat)
  | saveCounter
  | restoreCounter
  | borrow (value : Value) (unit : Score)
  | pushHead (commands : List Command)
  deriving DecidableEq, Repr

structure Session where
  workspace : Workspace
  /-- The leases in hand, latest first. -/
  leases : List Lease := []
  /-- The stacks that the contracts in hand will restore, by serial number. -/
  contracts : OrderedMap Nat StackSnapshot := ∅
  /-- The serial number of the next contract. -/
  opened : Nat := 0

namespace StackSnapshot

def stack (snapshot : StackSnapshot) (key : StackKey) : List Nat :=
  (snapshot.held.get? key).getD []

end StackSnapshot

namespace StackPool

@[simp]
theorem stack_save (pool : StackPool) (key : StackKey) : pool.save.stack key = pool.stack key :=
  rfl

@[simp]
theorem save_restore (pool : StackPool) (snapshot : StackSnapshot) :
    (pool.restore snapshot).save = snapshot :=
  rfl

theorem stack_acquire_self (pool : StackPool) (ty : Ty) (address : Address) :
    (pool.acquire ty address).2.2.stack ⟨address.isGlobal, ty⟩ =
      pool.stack ⟨address.isGlobal, ty⟩ ++ [pool.nextTicket] :=
  stack_setStack_self _ _ _

theorem stack_acquire_of_ne (pool : StackPool) (ty : Ty) (address : Address) {key : StackKey}
    (different : key ≠ ⟨address.isGlobal, ty⟩) :
    (pool.acquire ty address).2.2.stack key = pool.stack key :=
  stack_setStack_of_ne _ _ different

theorem stack_pop_self (pool : StackPool) (key : StackKey) :
    (pool.pop key).stack key = (pool.stack key).dropLast :=
  stack_setStack_self _ _ _

theorem stack_pop_of_ne (pool : StackPool) {key other : StackKey} (different : other ≠ key) :
    (pool.pop key).stack other = pool.stack other :=
  stack_setStack_of_ne _ _ different

end StackPool

namespace Workspace

def nextTicket (workspace : Workspace) : Pool → Nat
  | .stacked => workspace.stacked.nextTicket
  | .counted => workspace.counted.nextTicket

theorem tickets_eq_held (workspace : Workspace) (lease : Lease) :
    workspace.tickets lease = workspace.held lease.pool lease.key := by
  unfold tickets held
  cases lease.pool <;> rfl

section Release

variable {workspace : Workspace} {lease : Lease}

theorem release_gone
    (gone : (workspace.held lease.pool lease.key)[lease.index]? ≠ some lease.ticket) :
    workspace.release lease = .ok workspace := by
  rw [release, tickets_eq_held]
  exact if_pos gone

theorem release_top
    (stands : (workspace.held lease.pool lease.key)[lease.index]? = some lease.ticket)
    (last : (workspace.held lease.pool lease.key).length = lease.index + 1) :
    workspace.release lease = .ok (workspace.pop lease) := by
  rw [release, tickets_eq_held]
  exact (if_neg (not_not_intro stands)).trans (if_pos last)

theorem release_covered
    (stands : (workspace.held lease.pool lease.key)[lease.index]? = some lease.ticket)
    (covered : (workspace.held lease.pool lease.key).length ≠ lease.index + 1) :
    workspace.release lease = .error (.releaseOrder lease.value.name
      (workspace.held lease.pool lease.key).length (lease.index + 1)) := by
  rw [release, tickets_eq_held]
  exact (if_neg (not_not_intro stands)).trans (if_neg covered)

theorem discard_of_ok {later : Workspace} (released : workspace.release lease = .ok later) :
    workspace.discard lease = later := by
  simp only [discard, released]

theorem discard_of_error {error : InternalError}
    (refused : workspace.release lease = .error error) : workspace.discard lease = workspace := by
  simp only [discard, refused]

theorem discard_cases (workspace : Workspace) (lease : Lease) :
    workspace.discard lease = workspace ∨ workspace.discard lease = workspace.pop lease := by
  by_cases stands : (workspace.held lease.pool lease.key)[lease.index]? = some lease.ticket
  · by_cases last : (workspace.held lease.pool lease.key).length = lease.index + 1
    · exact Or.inr (discard_of_ok (release_top stands last))
    · exact Or.inl (discard_of_error (release_covered stands last))
  · exact Or.inl (discard_of_ok (release_gone stands))

end Release

theorem pop_cases (workspace : Workspace) (lease : Lease) :
    workspace.pop lease = { workspace with stacked := workspace.stacked.pop lease.key } ∨
      workspace.pop lease = { workspace with counted := workspace.counted.pop } := by
  unfold pop
  cases lease.pool with
  | stacked => exact Or.inl rfl
  | counted => exact Or.inr rfl

end Workspace

namespace Session

def start (settings : Settings) : Session where
  workspace := (Compilation.start settings).workspace

def withStacked (session : Session) (stacked : StackPool) : Session :=
  { session with workspace := { session.workspace with stacked := stacked } }

def withCounted (session : Session) (counted : CounterPool) : Session :=
  { session with workspace := { session.workspace with counted := counted } }

def step (session : Session) : Event → Session
  | .acquire pool ty address =>
      let (lease, workspace) := session.workspace.acquire pool ty address
      { session with workspace := workspace, leases := lease :: session.leases }
  | .release lease | .drop lease =>
      if lease ∈ session.leases then
        { session with
          workspace := session.workspace.discard lease
          leases := session.leases.erase lease }
      else
        session
  | .detach lease => { session with leases := session.leases.erase lease }
  | .popStack key =>
      match session.workspace.stacked.popHeld key with
      | .ok stacked => session.withStacked stacked
      | .error _ => session
  | .popCounter => session.withCounted session.workspace.counted.pop
  | .saveStacks =>
      { session with
        contracts := session.contracts.insert session.opened session.workspace.stacked.save
        opened := session.opened + 1 }
  | .restoreStacks serial =>
      match session.contracts.get? serial with
      | some snapshot =>
          { session.withStacked (session.workspace.stacked.restore snapshot) with
            contracts := session.contracts.erase serial }
      | none => session
  | .saveCounter => session.withCounted session.workspace.counted.save
  | .restoreCounter =>
      match session.workspace.counted.restore with
      | .ok counted => session.withCounted counted
      | .error _ => session
  | .borrow value unit =>
      { session with workspace := (session.workspace.borrow value unit).2 }
  | .pushHead commands => { session with workspace := session.workspace.pushHead commands }

def run (session : Session) (events : List Event) : Session :=
  events.foldl step session

@[simp]
theorem run_nil (session : Session) : session.run [] = session :=
  rfl

@[simp]
theorem run_cons (session : Session) (event : Event) (events : List Event) :
    session.run (event :: events) = (session.step event).run events :=
  rfl

theorem run_append (session : Session) (first next : List Event) :
    session.run (first ++ next) = (session.run first).run next :=
  List.foldl_append

theorem step_restoreStacks {session : Session} {serial : Nat} {snapshot : StackSnapshot}
    (found : session.contracts.get? serial = some snapshot) :
    session.step (.restoreStacks serial) =
      { session.withStacked (session.workspace.stacked.restore snapshot) with
        contracts := session.contracts.erase serial } := by
  simp only [step, found]

theorem run_keeps {motive : Session → Prop}
    (stepKeeps : ∀ session event, motive session → motive (session.step event))
    {session : Session} (holds : motive session) (events : List Event) :
    motive (session.run events) := by
  induction events generalizing session with
  | nil => exact holds
  | cons event events ih => exact ih (stepKeeps session event holds)

/-- A preorder that relates a session to the next one relates it to all later
ones. -/
theorem run_related {motive : Session → Session → Prop} (refl : ∀ session, motive session session)
    (trans : ∀ {first second third}, motive first second → motive second third →
      motive first third)
    (stepRelated : ∀ session event, motive session (session.step event))
    (session : Session) (events : List Event) : motive session (session.run events) := by
  induction events generalizing session with
  | nil => exact refl session
  | cons event events ih => exact trans (stepRelated session event) (ih _)

/-- The sessions that a program can get into. -/
def Reachable (session : Session) : Prop :=
  ∃ settings events, session = (start settings).run events

theorem Reachable.run {session : Session} (reachable : session.Reachable) (events : List Event) :
    (session.run events).Reachable := by
  obtain ⟨settings, earlier, rfl⟩ := reachable
  exact ⟨settings, earlier ++ events, (run_append _ earlier events).symm⟩

theorem Reachable.keeps {motive : Session → Prop} (first : ∀ settings, motive (start settings))
    (stepKeeps : ∀ session event, motive session → motive (session.step event))
    {session : Session} (reachable : session.Reachable) : motive session := by
  obtain ⟨settings, events, rfl⟩ := reachable
  exact run_keeps stepKeeps (first settings) events

/-- Carrying out a plan is a run that ends with the leases and contracts it
started with. -/
theorem exists_run_allocate (pool : Pool) (plan : Plan) (held : List Value) (session : Session) :
    ∃ events, session.run events =
      { session with workspace := (plan.allocate pool held session.workspace).2 } := by
  induction plan generalizing held session with
  | steps list => exact ⟨[], rfl⟩
  | borrow value unit => exact ⟨[.borrow value unit], rfl⟩
  | fail error => exact ⟨[], rfl⟩
  | sequence first next firstIH nextIH =>
      obtain ⟨events, ran⟩ := firstIH held session
      rcases outcome : first.allocate pool held session.workspace with ⟨error | front, middle⟩
      · refine ⟨events, ?_⟩
        rw [ran, Plan.allocate_sequence_error outcome, outcome]
      · obtain ⟨more, ranOn⟩ := nextIH held { session with workspace := middle }
        refine ⟨events ++ more, ?_⟩
        rw [run_append, ran, outcome, ranOn, Plan.allocate_sequence_ok outcome]
  | scratch ty address body ih =>
      obtain ⟨lease, opened⟩ : ∃ lease, lease = (session.workspace.acquire pool ty address).1 :=
        ⟨_, rfl⟩
      obtain ⟨events, ran⟩ :=
        ih (held ++ [lease.value]) (session.step (.acquire pool ty address))
      -- the body ends with the leases it started with, so this one is in hand again
      refine ⟨.acquire pool ty address :: (events ++ [.drop lease]), ?_⟩
      rw [run_cons, run_append, ran]
      subst opened
      simp [step, Plan.allocate]

/-- The stacks as they are now, or as a contract in hand will restore them. -/
def Keeps (session : Session) (snapshot : StackSnapshot) : Prop :=
  snapshot = session.workspace.stacked.save ∨
    ∃ serial, session.contracts.get? serial = some snapshot

theorem keeps_save (session : Session) : session.Keeps session.workspace.stacked.save :=
  Or.inl rfl

/-- What the stacks of a pool can become in one event. -/
theorem step_stacked (session : Session) (event : Event) :
    (session.step event).workspace.stacked = session.workspace.stacked ∨
      (∃ ty address, event = .acquire .stacked ty address ∧
        (session.step event).workspace.stacked =
          (session.workspace.stacked.acquire ty address).2.2) ∨
      (∃ key, (session.step event).workspace.stacked = session.workspace.stacked.pop key) ∨
      ∃ serial snapshot, event = .restoreStacks serial ∧
        session.contracts.get? serial = some snapshot ∧
        (session.step event).workspace.stacked = session.workspace.stacked.restore snapshot := by
  cases event with
  | acquire pool ty address =>
      cases pool with
      | stacked => exact Or.inr (Or.inl ⟨ty, address, rfl, rfl⟩)
      | counted => exact Or.inl rfl
  | release lease | drop lease =>
      by_cases inHand : lease ∈ session.leases
      · simp only [step, if_pos inHand]
        rcases session.workspace.discard_cases lease with same | popped
        · exact Or.inl (by rw [same])
        · rcases session.workspace.pop_cases lease with stacked | counted
          · exact Or.inr (Or.inr (Or.inl ⟨lease.key, by rw [popped, stacked]⟩))
          · exact Or.inl (by rw [popped, counted])
      · exact Or.inl (by simp only [step, if_neg inHand])
  | popStack key =>
      by_cases empty : (session.workspace.stacked.stack key).isEmpty
      · exact Or.inl (by simp only [step, StackPool.popHeld, if_pos empty])
      · exact Or.inr (Or.inr (Or.inl
          ⟨key, by simp only [step, StackPool.popHeld, if_neg empty, withStacked]⟩))
  | restoreStacks serial =>
      cases found : session.contracts.get? serial with
      | none => exact Or.inl (by simp only [step, found])
      | some snapshot =>
          exact Or.inr (Or.inr (Or.inr
            ⟨serial, snapshot, rfl, found, by rw [step_restoreStacks found, withStacked]⟩))
  | restoreCounter =>
      refine Or.inl ?_
      simp only [step]
      split <;> rfl
  | detach _ | popCounter | saveStacks | saveCounter | borrow _ _ | pushHead _ => exact Or.inl rfl

/-- A contract that is in hand after an event was in hand before, or saves the
stacks in this event. -/
theorem step_contracts {session : Session} {event : Event} {serial : Nat}
    {snapshot : StackSnapshot}
    (found : (session.step event).contracts.get? serial = some snapshot) :
    session.contracts.get? serial = some snapshot ∨
      (event = .saveStacks ∧ serial = session.opened ∧
        snapshot = session.workspace.stacked.save) := by
  cases event with
  | saveStacks =>
      by_cases new : serial = session.opened
      · subst new
        simp only [step, OrderedMap.get?_insert_self, Option.some.injEq] at found
        exact Or.inr ⟨rfl, rfl, found.symm⟩
      · rw [step, OrderedMap.get?_insert_of_ne _ _ new] at found
        exact Or.inl found
  | restoreStacks other =>
      -- a contract can be restored once only
      refine Or.inl ?_
      simp only [step] at found
      split at found
      · by_cases restored : serial = other
        · subst restored
          simp at found
        · rwa [OrderedMap.get?_erase_of_ne _ restored] at found
      · exact found
  | acquire pool ty address => cases pool <;> exact Or.inl found
  | release _ | drop _ | popStack _ | restoreCounter =>
      refine Or.inl ?_
      simp only [step] at found
      split at found <;> exact found
  | detach _ | popCounter | saveCounter | borrow _ _ | pushHead _ => exact Or.inl found

/-- Stacks that a session keeps were kept before, or come from those before by
taking a register or giving one back. -/
theorem keeps_step {session : Session} {event : Event} {snapshot : StackSnapshot}
    (kept : (session.step event).Keeps snapshot) :
    session.Keeps snapshot ∨
      (∃ ty address, event = .acquire .stacked ty address ∧
        snapshot = (session.workspace.stacked.acquire ty address).2.2.save) ∨
      ∃ key, snapshot = (session.workspace.stacked.pop key).save := by
  rcases kept with current | ⟨serial, found⟩
  · rcases session.step_stacked event with same | ⟨ty, address, acquired, after⟩ |
      ⟨key, after⟩ | ⟨serial, saved, _, found, after⟩
    · exact Or.inl (Or.inl (by rw [current, same]))
    · exact Or.inr (Or.inl ⟨ty, address, acquired, by rw [current, after]⟩)
    · exact Or.inr (Or.inr ⟨key, by rw [current, after]⟩)
    · refine Or.inl (Or.inr ⟨serial, ?_⟩)
      rw [current, after, StackPool.save_restore, found]
  · rcases step_contracts found with before | ⟨_, _, saved⟩
    · exact Or.inl (Or.inr ⟨serial, before⟩)
    · exact Or.inl (Or.inl saved)

/-- What the counter's registers and its next ticket can become in one event. -/
theorem step_counted (session : Session) (event : Event) :
    ((session.step event).workspace.counted.slots = session.workspace.counted.slots ∧
        (session.step event).workspace.counted.nextTicket =
          session.workspace.counted.nextTicket) ∨
      (∃ ty address, event = .acquire .counted ty address ∧
        (session.step event).workspace.counted.slots =
          session.workspace.counted.slots ++ [session.workspace.counted.nextTicket] ∧
        (session.step event).workspace.counted.nextTicket =
          session.workspace.counted.nextTicket + 1) ∨
      ((session.step event).workspace.counted.slots = session.workspace.counted.slots.dropLast ∧
        (session.step event).workspace.counted.nextTicket =
          session.workspace.counted.nextTicket) ∨
      (event = .restoreCounter ∧ ∃ count missing,
        (session.step event).workspace.counted.slots =
          (session.workspace.counted.slots ++
            List.range' session.workspace.counted.nextTicket missing).take count ∧
        (session.step event).workspace.counted.nextTicket =
          session.workspace.counted.nextTicket + missing) := by
  cases event with
  | acquire pool ty address =>
      cases pool with
      | stacked => exact Or.inl ⟨rfl, rfl⟩
      | counted => exact Or.inr (Or.inl ⟨ty, address, rfl, rfl, rfl⟩)
  | release lease | drop lease =>
      by_cases inHand : lease ∈ session.leases
      · simp only [step, if_pos inHand]
        rcases session.workspace.discard_cases lease with same | popped
        · exact Or.inl (by simp only [same, and_self])
        · rcases session.workspace.pop_cases lease with stacked | counted
          · exact Or.inl (by simp only [popped, stacked, and_self])
          · exact Or.inr (Or.inr (Or.inl (by
              simp only [popped, counted, CounterPool.pop, and_self])))
      · exact Or.inl (by simp only [step, if_neg inHand, and_self])
  | popCounter => exact Or.inr (Or.inr (Or.inl ⟨rfl, rfl⟩))
  | restoreCounter =>
      cases saved : session.workspace.counted.saved with
      | nil => exact Or.inl (by simp [step, CounterPool.restore, saved])
      | cons count earlier =>
          refine Or.inr (Or.inr (Or.inr ⟨rfl, count, count - session.workspace.counted.index, ?_⟩))
          simp [step, CounterPool.restore, saved, CounterPool.resize, withCounted]
  | popStack _ | restoreStacks _ =>
      refine Or.inl ?_
      simp only [step]
      split <;> exact ⟨rfl, rfl⟩
  | detach _ | saveStacks | saveCounter | borrow _ _ | pushHead _ => exact Or.inl ⟨rfl, rfl⟩

theorem step_leases (session : Session) (event : Event) :
    (session.step event).leases.Sublist session.leases ∨
      ∃ pool ty address, event = .acquire pool ty address ∧
        (session.step event).leases =
          (session.workspace.acquire pool ty address).1 :: session.leases := by
  cases event with
  | acquire pool ty address => exact Or.inr ⟨pool, ty, address, rfl, rfl⟩
  | release lease | drop lease =>
      refine Or.inl ?_
      simp only [step]
      split
      · exact List.erase_sublist
      · exact List.Sublist.refl _
  | detach lease => exact Or.inl List.erase_sublist
  | popStack _ | restoreStacks _ | restoreCounter =>
      refine Or.inl ?_
      simp only [step]
      split <;> exact List.Sublist.refl _
  | popCounter | saveStacks | saveCounter | borrow _ _ | pushHead _ =>
      exact Or.inl (List.Sublist.refl _)

theorem nextTicket_acquire_self (workspace : Workspace) (pool : Pool) (ty : Ty)
    (address : Address) :
    (workspace.acquire pool ty address).2.nextTicket pool = workspace.nextTicket pool + 1 := by
  cases pool <;> rfl

/-- Tickets are never taken back. -/
theorem nextTicket_le_step (session : Session) (event : Event) (pool : Pool) :
    session.workspace.nextTicket pool ≤ (session.step event).workspace.nextTicket pool := by
  cases pool with
  | stacked =>
      simp only [Workspace.nextTicket]
      rcases session.step_stacked event with same | ⟨ty, address, _, after⟩ | ⟨key, after⟩ |
        ⟨serial, saved, _, _, after⟩
      · simp only [same, Nat.le_refl]
      · rw [after]
        exact Nat.le_succ _
      · rw [after]
        exact Nat.le_refl _
      · rw [after]
        exact Nat.le_refl _
  | counted =>
      simp only [Workspace.nextTicket]
      rcases session.step_counted event with ⟨_, next⟩ | ⟨_, _, _, _, next⟩ | ⟨_, next⟩ |
        ⟨_, _, _, _, next⟩ <;> omega

end Session

end ScoreLowering
