import ScoreLowering.Proofs.ScratchSessions

/-!
# Leases give back what they are for

Contracts bring back tickets that were given up, restoring the counter fills
positions under fresh tickets, and a position may go from one lease to another.
Through all of this a ticket never stands anywhere but in the place where it was
issued.  So a lease can tell from its own position whether it still holds its
register, and ending it never takes a register from anybody else.
-/

namespace ScoreLowering

namespace Lease

/-- The lease is for a register of this stack.  The counter has a single one. -/
def On (lease : Lease) (pool : Pool) (key : StackKey) : Prop :=
  lease.pool = pool ∧ (pool = .stacked → lease.key = key)

instance (lease : Lease) (pool : Pool) (key : StackKey) : Decidable (lease.On pool key) :=
  inferInstanceAs (Decidable (_ ∧ _))

end Lease

/-- The tickets of a stack have been issued, each of them once, and those of the
leases at hand stand in their places. -/
structure Tracked (pool : Pool) (key : StackKey) (next : Nat) (leases : List Lease)
    (tickets : List Nat) : Prop where
  distinct : tickets.Nodup
  below : ∀ ticket ∈ tickets, ticket < next
  placed : ∀ lease ∈ leases, lease.pool = pool → ∀ position,
    tickets[position]? = some lease.ticket → lease.On pool key ∧ lease.index = position

namespace Tracked

variable {pool : Pool} {key : StackKey} {next : Nat} {leases : List Lease} {tickets : List Nat}

theorem nil : Tracked pool key next leases [] :=
  ⟨List.nodup_nil, by simp, by simp⟩

theorem shorten (tracked : Tracked pool key next leases tickets) {start : List Nat}
    (shorter : start <+: tickets) : Tracked pool key next leases start where
  distinct := tracked.distinct.sublist shorter.sublist
  below ticket member := tracked.below ticket (shorter.subset member)
  placed lease inHand poolEq position stands := by
    obtain ⟨rest, rfl⟩ := shorter
    have inside := (List.getElem?_eq_some_iff.mp stands).1
    exact tracked.placed lease inHand poolEq position
      (by rw [List.getElem?_append_left inside, stands])

/-- Leases on tickets issued later do not concern a stack. -/
theorem advance (tracked : Tracked pool key next leases tickets) {later : Nat}
    (grows : next ≤ later) {others : List Lease}
    (new : ∀ lease ∈ others, lease ∈ leases ∨ (lease.pool = pool → next ≤ lease.ticket)) :
    Tracked pool key later others tickets where
  distinct := tracked.distinct
  below ticket member := Nat.lt_of_lt_of_le (tracked.below ticket member) grows
  placed lease inHand poolEq position stands := by
    rcases new lease inHand with old | fresh
    · exact tracked.placed lease old poolEq position stands
    · -- a later lease has no ticket that was issued before
      have issued := tracked.below lease.ticket (List.mem_of_getElem? stands)
      exact absurd (fresh poolEq) (Nat.not_le.mpr issued)

/-- Positions that are filled under fresh tickets belong to no lease. -/
theorem reserve (tracked : Tracked pool key next leases tickets)
    (issued : ∀ lease ∈ leases, lease.pool = pool → lease.ticket < next) (missing : Nat) :
    Tracked pool key (next + missing) leases (tickets ++ List.range' next missing) where
  distinct := by
    refine List.nodup_append.mpr ⟨tracked.distinct, List.nodup_range', ?_⟩
    intro ticket old other fresh
    have oldBelow := tracked.below ticket old
    have freshAbove := (List.mem_range'_1.mp fresh).1
    omega
  below ticket member := by
    rcases List.mem_append.mp member with old | fresh
    · exact Nat.lt_add_right missing (tracked.below ticket old)
    · exact (List.mem_range'_1.mp fresh).2
  placed lease inHand poolEq position stands := by
    have below := issued lease inHand poolEq
    by_cases inside : position < tickets.length
    · rw [List.getElem?_append_left inside] at stands
      exact tracked.placed lease inHand poolEq position stands
    · rw [List.getElem?_append_right (Nat.not_lt.mp inside)] at stands
      have fresh := (List.mem_range'_1.mp (List.mem_of_getElem? stands)).1
      omega

theorem push (tracked : Tracked pool key next leases tickets)
    (issued : ∀ lease ∈ leases, lease.pool = pool → lease.ticket < next) {lease : Lease}
    (on : lease.On pool key) (indexEq : lease.index = tickets.length)
    (ticketEq : lease.ticket = next) :
    Tracked pool key (next + 1) (lease :: leases) (tickets ++ [next]) := by
  have reserved : Tracked pool key (next + 1) leases (tickets ++ [next]) :=
    tracked.reserve issued 1
  refine ⟨reserved.distinct, reserved.below, ?_⟩
  intro other inHand poolEq position stands
  rcases List.mem_cons.mp inHand with rfl | old
  · -- its ticket is not among the old ones, so the position can only be the last
    refine ⟨on, ?_⟩
    by_cases inside : position < tickets.length
    · rw [List.getElem?_append_left inside] at stands
      have below := tracked.below other.ticket (List.mem_of_getElem? stands)
      omega
    · have bound := (List.getElem?_eq_some_iff.mp stands).1
      rw [List.length_append, List.length_singleton] at bound
      omega
  · exact reserved.placed other old poolEq position stands

theorem getLast?_eq_some_iff {lease : Lease} (tracked : Tracked lease.pool key next leases tickets)
    (inHand : lease ∈ leases) :
    tickets.getLast? = some lease.ticket ↔
      tickets[lease.index]? = some lease.ticket ∧ tickets.length = lease.index + 1 := by
  rw [List.getLast?_eq_getElem?]
  constructor
  · intro last
    have indexEq := (tracked.placed lease inHand rfl _ last).2
    have bound := (List.getElem?_eq_some_iff.mp last).1
    exact ⟨by rw [indexEq, last], by omega⟩
  · rintro ⟨stands, lengthEq⟩
    rw [lengthEq, Nat.add_sub_cancel, stands]

end Tracked

namespace Workspace

theorem acquire_lease (workspace : Workspace) (pool : Pool) (ty : Ty) (address : Address) :
    (workspace.acquire pool ty address).1.On pool ⟨address.isGlobal, ty⟩ ∧
      (workspace.acquire pool ty address).1.index =
        (workspace.held pool ⟨address.isGlobal, ty⟩).length ∧
      (workspace.acquire pool ty address).1.ticket = workspace.nextTicket pool := by
  cases pool with
  | stacked => exact ⟨⟨rfl, fun _ => rfl⟩, rfl, rfl⟩
  | counted => exact ⟨⟨rfl, nofun⟩, rfl, rfl⟩

end Workspace

namespace Session

theorem mem_step_leases {session : Session} {event : Event} {lease : Lease}
    (inHand : lease ∈ (session.step event).leases) :
    lease ∈ session.leases ∨
      (lease.ticket = session.workspace.nextTicket lease.pool ∧
        lease.ticket < (session.step event).workspace.nextTicket lease.pool) := by
  rcases session.step_leases event with fewer | ⟨pool, ty, address, rfl, after⟩
  · exact Or.inl (fewer.subset inHand)
  · rw [after] at inHand
    rcases List.mem_cons.mp inHand with rfl | old
    · obtain ⟨on, _, ticketEq⟩ := session.workspace.acquire_lease pool ty address
      refine Or.inr ⟨by rw [on.1, ticketEq], ?_⟩
      rw [on.1, ticketEq]
      exact Nat.lt_of_lt_of_eq (Nat.lt_succ_self _)
        (nextTicket_acquire_self session.workspace pool ty address).symm
    · exact Or.inl old

/-- The tickets of all stacks, saved ones included, are tracked, and each lease in
hand has a ticket of its own. -/
structure Orderly (session : Session) : Prop where
  kept : ∀ snapshot, session.Keeps snapshot → ∀ key,
    Tracked .stacked key (session.workspace.nextTicket .stacked) session.leases
      (snapshot.stack key)
  slots : ∀ key, Tracked .counted key (session.workspace.nextTicket .counted) session.leases
    session.workspace.counted.slots
  issued : ∀ lease ∈ session.leases, lease.ticket < session.workspace.nextTicket lease.pool
  owned : session.leases.Pairwise fun first second =>
    first.pool = second.pool → first.ticket ≠ second.ticket

namespace Orderly

variable {session : Session}

theorem start (settings : Settings) : (Session.start settings).Orderly where
  kept snapshot keeps key := by
    rcases keeps with rfl | ⟨serial, found⟩
    · exact Tracked.nil
    · cases found
  slots _ := Tracked.nil
  issued := by simp [Session.start]
  owned := List.Pairwise.nil

theorem held (orderly : session.Orderly) (pool : Pool) (key : StackKey) :
    Tracked pool key (session.workspace.nextTicket pool) session.leases
      (session.workspace.held pool key) := by
  cases pool with
  | stacked => exact orderly.kept _ session.keeps_save key
  | counted => exact orderly.slots key

theorem issued_of (orderly : session.Orderly) (pool : Pool) :
    ∀ lease ∈ session.leases, lease.pool = pool →
      lease.ticket < session.workspace.nextTicket pool := by
  rintro lease inHand rfl
  exact orderly.issued lease inHand

theorem advance {pool : Pool} {key : StackKey} {tickets : List Nat} (event : Event)
    (tracked : Tracked pool key (session.workspace.nextTicket pool) session.leases tickets) :
    Tracked pool key ((session.step event).workspace.nextTicket pool)
      (session.step event).leases tickets := by
  refine tracked.advance (session.nextTicket_le_step event pool) fun lease inHand => ?_
  rcases mem_step_leases inHand with old | ⟨ticketEq, _⟩
  · exact Or.inl old
  · exact Or.inr fun poolEq => Nat.le_of_eq (by rw [ticketEq, poolEq])

theorem step_acquired (orderly : session.Orderly) (pool : Pool) (ty : Ty) (address : Address) :
    Tracked pool ⟨address.isGlobal, ty⟩
      ((session.step (.acquire pool ty address)).workspace.nextTicket pool)
      (session.step (.acquire pool ty address)).leases
      (session.workspace.held pool ⟨address.isGlobal, ty⟩ ++
        [session.workspace.nextTicket pool]) := by
  obtain ⟨on, indexEq, ticketEq⟩ := session.workspace.acquire_lease pool ty address
  have nextEq := nextTicket_acquire_self session.workspace pool ty address
  have pushed := (orderly.held pool ⟨address.isGlobal, ty⟩).push (orderly.issued_of pool) on
    indexEq ticketEq
  rw [← nextEq] at pushed
  exact pushed

theorem step_kept (orderly : session.Orderly) (event : Event) {snapshot : StackSnapshot}
    (keeps : (session.step event).Keeps snapshot) (key : StackKey) :
    Tracked .stacked key ((session.step event).workspace.nextTicket .stacked)
      (session.step event).leases (snapshot.stack key) := by
  rcases keeps_step keeps with before | ⟨ty, address, rfl, rfl⟩ | ⟨popped, rfl⟩
  · exact advance event (orderly.kept snapshot before key)
  · rw [StackPool.stack_save]
    by_cases here : key = ⟨address.isGlobal, ty⟩
    · subst here
      rw [StackPool.stack_acquire_self]
      exact orderly.step_acquired .stacked ty address
    · rw [StackPool.stack_acquire_of_ne _ _ _ here]
      exact advance _ (orderly.held .stacked key)
  · rw [StackPool.stack_save]
    refine advance event ((orderly.held .stacked key).shorten ?_)
    by_cases here : key = popped
    · subst here
      rw [StackPool.stack_pop_self]
      exact List.dropLast_prefix _
    · rw [StackPool.stack_pop_of_ne _ here]
      exact List.prefix_rfl

theorem step_slots (orderly : session.Orderly) (event : Event) (key : StackKey) :
    Tracked .counted key ((session.step event).workspace.nextTicket .counted)
      (session.step event).leases (session.step event).workspace.counted.slots := by
  have before := orderly.slots key
  rcases session.step_counted event with ⟨slots, _⟩ | ⟨ty, address, rfl, slots, _⟩ |
    ⟨slots, _⟩ | ⟨rfl, count, missing, slots, next⟩
  · rw [slots]
    exact advance event before
  · rw [slots]
    have acquired := orderly.step_acquired .counted ty address
    exact ⟨acquired.distinct, acquired.below, fun lease inHand poolEq position stands =>
      ⟨⟨poolEq, nofun⟩, (acquired.placed lease inHand poolEq position stands).2⟩⟩
  · rw [slots]
    exact advance event (before.shorten (List.dropLast_prefix _))
  · rw [slots]
    -- the missing positions are reserved first, then the surplus is cut off
    refine Tracked.shorten ?_ (List.take_prefix count _)
    have reserved := before.reserve (orderly.issued_of .counted) missing
    refine reserved.advance (Nat.le_of_eq next.symm) fun lease inHand => ?_
    rcases session.step_leases .restoreCounter with fewer | ⟨_, _, _, impossible, _⟩
    · exact Or.inl (fewer.subset inHand)
    · cases impossible

theorem step (orderly : session.Orderly) (event : Event) : (session.step event).Orderly where
  kept _ keeps key := orderly.step_kept event keeps key
  slots key := orderly.step_slots event key
  issued lease inHand := by
    rcases mem_step_leases inHand with old | ⟨_, below⟩
    · exact Nat.lt_of_lt_of_le (orderly.issued lease old) (session.nextTicket_le_step event _)
    · exact below
  owned := by
    rcases session.step_leases event with fewer | ⟨pool, ty, address, _, after⟩
    · exact orderly.owned.sublist fewer
    · -- the tickets of older leases are below the one issued now
      rw [after, List.pairwise_cons]
      refine ⟨fun lease inHand poolEq => ?_, orderly.owned⟩
      obtain ⟨on, _, ticketEq⟩ := session.workspace.acquire_lease pool ty address
      have older := orderly.issued lease inHand
      rw [← poolEq, on.1] at older
      omega

end Orderly

theorem Reachable.orderly {session : Session} (reachable : session.Reachable) : session.Orderly :=
  reachable.keeps Orderly.start fun _ event orderly => orderly.step event

end Session

namespace Workspace

/-- Ending a lease takes its own ticket off the top of its stack, or else changes
nothing at all, and is refused exactly if the ticket still has others above it. -/
structure GivesBackOwn (workspace : Workspace) (lease : Lease) : Prop where
  top : ∀ front, workspace.held lease.pool lease.key = front ++ [lease.ticket] →
    workspace.release lease = .ok (workspace.discard lease) ∧
      ∀ pool key, (workspace.discard lease).held pool key =
        if lease.On pool key then front else workspace.held pool key
  kept : (workspace.held lease.pool lease.key).getLast? ≠ some lease.ticket →
    workspace.discard lease = workspace
  refused : ∀ error, workspace.release lease = .error error ↔
    error = .releaseOrder lease.value.name (workspace.held lease.pool lease.key).length
        (lease.index + 1) ∧
      (workspace.held lease.pool lease.key)[lease.index]? = some lease.ticket ∧
      (workspace.held lease.pool lease.key).getLast? ≠ some lease.ticket

theorem held_pop (workspace : Workspace) (lease : Lease) (pool : Pool) (key : StackKey) :
    (workspace.pop lease).held pool key =
      if lease.On pool key then (workspace.held pool key).dropLast
      else workspace.held pool key := by
  cases poolEq : lease.pool with
  | stacked =>
      cases pool with
      | stacked =>
          by_cases here : lease.key = key
          · subst here
            simp [pop, held, poolEq, Lease.On, StackPool.stack_pop_self]
          · have other : key ≠ lease.key := fun same => here same.symm
            simp [pop, held, poolEq, Lease.On, here, StackPool.stack_pop_of_ne _ other]
      | counted => simp [pop, held, poolEq, Lease.On]
  | counted =>
      cases pool with
      | stacked => simp [pop, held, poolEq, Lease.On]
      | counted => simp [pop, held, poolEq, Lease.On, CounterPool.pop]

theorem held_of_on {workspace : Workspace} {lease : Lease} {pool : Pool} {key : StackKey}
    (on : lease.On pool key) :
    workspace.held pool key = workspace.held lease.pool lease.key := by
  obtain ⟨rfl, keyEq⟩ := on
  cases poolEq : lease.pool with
  | stacked => rw [keyEq poolEq]
  | counted => rfl

theorem givesBackOwn {workspace : Workspace} {lease : Lease} {next : Nat} {leases : List Lease}
    (tracked : Tracked lease.pool lease.key next leases (workspace.held lease.pool lease.key))
    (inHand : lease ∈ leases) : workspace.GivesBackOwn lease where
  top front topmost := by
    obtain ⟨stands, last⟩ := (tracked.getLast?_eq_some_iff inHand).mp (by simp [topmost])
    have released := release_top stands last
    have discarded := discard_of_ok released
    refine ⟨by rw [released, discarded], fun pool key => ?_⟩
    rw [discarded, held_pop]
    by_cases on : lease.On pool key
    · rw [if_pos on, if_pos on, held_of_on on, topmost, List.dropLast_concat]
    · rw [if_neg on, if_neg on]
  kept notLast := by
    by_cases stands : (workspace.held lease.pool lease.key)[lease.index]? = some lease.ticket
    · have covered := fun last => notLast ((tracked.getLast?_eq_some_iff inHand).mpr ⟨stands, last⟩)
      exact discard_of_error (release_covered stands covered)
    · exact discard_of_ok (release_gone stands)
  refused error := by
    rw [Ne, tracked.getLast?_eq_some_iff inHand]
    by_cases stands : (workspace.held lease.pool lease.key)[lease.index]? = some lease.ticket
    · by_cases last : (workspace.held lease.pool lease.key).length = lease.index + 1
      · simp [release_top stands last, last]
      · simp [release_covered stands last, stands, last, eq_comm]
    · simp [release_gone stands, stands]

end Workspace

namespace Session

/-- After any events, no ticket is held twice and no two leases have the same one.  Each lease
gives back its own register or nothing, and an empty stack has nothing to give back. -/
theorem leases_give_back_their_own (settings : Settings) (events : List Event) :
    let session := (start settings).run events
    (∀ pool key, (session.workspace.held pool key).Nodup ∧
        ∀ ticket ∈ session.workspace.held pool key,
          ticket < session.workspace.nextTicket pool) ∧
      (session.leases.Pairwise fun first second =>
        first.pool = second.pool → first.ticket ≠ second.ticket) ∧
      (∀ lease ∈ session.leases, session.workspace.GivesBackOwn lease) ∧
      ∀ key, session.workspace.stacked.stack key = [] →
        session.workspace.stacked.popHeld key = .error (.underflow key.text) ∧
          session.step (.popStack key) = session := by
  intro session
  have orderly : session.Orderly := Reachable.orderly ⟨settings, events, rfl⟩
  refine ⟨fun pool key => ?_, orderly.owned, fun lease inHand => ?_, fun key empty => ?_⟩
  · exact ⟨(orderly.held pool key).distinct, (orderly.held pool key).below⟩
  · exact Workspace.givesBackOwn (orderly.held lease.pool lease.key) inHand
  · have refused : session.workspace.stacked.popHeld key = .error (.underflow key.text) := by
      simp [StackPool.popHeld, empty]
    exact ⟨refused, by simp only [step, refused]⟩

/-- The second of three leases lost its position to the third when a contract was
restored, and the first one is below it. -/
theorem give_back_after_restore :
    let events : List Event := [.acquire .stacked .int .here, .saveStacks,
      .acquire .stacked .int .here, .restoreStacks 0, .acquire .stacked .int .here]
    let session := (start {}).run events
    session.leases.map (fun lease => (lease.index, lease.ticket)) = [(1, 2), (1, 1), (0, 0)] ∧
      session.workspace.held .stacked ⟨false, .int⟩ = [0, 2] ∧
      (∀ lease ∈ session.leases, session.workspace.GivesBackOwn lease) ∧
      session.workspace.stacked.popHeld ⟨true, .time⟩ = .error (.underflow "global time") := by
  intro events session
  obtain ⟨_, _, own, empty⟩ := leases_give_back_their_own {} events
  exact ⟨by decide, by decide, own, (empty ⟨true, .time⟩ (by decide)).1⟩

end Session

end ScoreLowering
