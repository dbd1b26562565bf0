import ScoreLowering.Proofs.StatementExecution
import ScoreLowering.Proofs.TicketOwnership

/-!
# Lowering leaves the pools as they were

A statement may take several scratch registers, and it may fail while some of
them are in use.  Either way every stack is afterwards what it was, ticket by
ticket, and no stack has appeared or vanished.  Only a comparison may hold on to
one register, until it is dropped.
-/

namespace ScoreLowering

/-- Empty stacks are not kept. -/
def StackSnapshot.Trim (snapshot : StackSnapshot) : Prop :=
  ∀ key, snapshot.held.get? key ≠ some []

namespace Workspace

/-- What a pool stores for a stack: nothing if the stack is not kept. -/
def stored (workspace : Workspace) (pool : Pool) (key : StackKey) : Option (List Nat) :=
  match pool with
  | .stacked => workspace.stacked.held.get? key
  | .counted => some workspace.counted.slots

def SameTickets (before after : Workspace) : Prop :=
  ∀ pool key, after.stored pool key = before.stored pool key

def Trim (workspace : Workspace) : Prop :=
  workspace.stacked.save.Trim

theorem held_eq_stored (workspace : Workspace) (pool : Pool) (key : StackKey) :
    workspace.held pool key = (workspace.stored pool key).getD [] := by
  cases pool <;> rfl

theorem stored_of_ne_nil {workspace : Workspace} {pool : Pool} {key : StackKey}
    (holds : workspace.held pool key ≠ []) :
    workspace.stored pool key = some (workspace.held pool key) := by
  rw [held_eq_stored] at holds ⊢
  cases found : workspace.stored pool key with
  | none => simp [found] at holds
  | some tickets => rfl

theorem Trim.stored_eq_none {workspace : Workspace} (trim : workspace.Trim) {key : StackKey}
    (empty : workspace.held .stacked key = []) : workspace.stored .stacked key = none := by
  rw [held_eq_stored] at empty
  cases found : workspace.stored .stacked key with
  | none => rfl
  | some tickets =>
      rw [found, Option.getD_some] at empty
      rw [empty] at found
      exact absurd found (trim key)

/-- Where empty stacks are not kept, the tickets that are held say everything. -/
theorem stored_congr {before after : Workspace} (trimBefore : before.Trim)
    (trimAfter : after.Trim) {pool : Pool} {key : StackKey}
    (same : after.held pool key = before.held pool key) :
    after.stored pool key = before.stored pool key := by
  cases pool with
  | counted => exact congrArg some same
  | stacked =>
      by_cases empty : before.held .stacked key = []
      · rw [trimBefore.stored_eq_none empty, trimAfter.stored_eq_none (same.trans empty)]
      · rw [stored_of_ne_nil empty, stored_of_ne_nil (same ▸ empty), same]

namespace SameTickets

variable {before after : Workspace}

theorem held_eq (same : SameTickets before after) (pool : Pool) (key : StackKey) :
    after.held pool key = before.held pool key := by
  rw [held_eq_stored, held_eq_stored, same pool key]

theorem trim (same : SameTickets before after) (trimBefore : before.Trim) : after.Trim := by
  intro key kept
  exact trimBefore key ((same .stacked key).symm.trans kept)

theorem of_sameScratch (same : SameScratch before after) (trimBefore : before.Trim)
    (trimAfter : after.Trim) : SameTickets before after := by
  intro pool key
  apply stored_congr trimBefore trimAfter
  cases pool with
  | stacked => exact same.stackEq key
  | counted => exact same.slots

end SameTickets

end Workspace

namespace StackPool

theorem setStack_trim {pool : StackPool} (trim : pool.save.Trim) (key : StackKey)
    (tickets : List Nat) : (pool.setStack key tickets).save.Trim := by
  intro other
  have before := trim other
  by_cases here : other = key
  · subst here
    cases tickets with
    | nil => simp [setStack, save]
    | cons ticket rest => simp [setStack, save]
  · cases tickets with
    | nil => simpa [setStack, save, OrderedMap.get?_erase_of_ne _ here] using before
    | cons ticket rest => simpa [setStack, save, OrderedMap.get?_insert_of_ne _ _ here] using before

end StackPool

namespace Workspace

theorem Trim.pop {workspace : Workspace} (trim : workspace.Trim) (lease : Lease) :
    (workspace.pop lease).Trim := by
  rcases workspace.pop_cases lease with after | after <;> rw [after]
  · exact StackPool.setStack_trim trim lease.key _
  · exact trim

end Workspace

namespace Session

theorem keeps_step_trim {session : Session}
    (trim : ∀ snapshot, session.Keeps snapshot → snapshot.Trim) (event : Event)
    (snapshot : StackSnapshot) (kept : (session.step event).Keeps snapshot) : snapshot.Trim := by
  have current := trim _ session.keeps_save
  rcases keeps_step kept with before | ⟨ty, address, _, rfl⟩ | ⟨popped, rfl⟩
  · exact trim snapshot before
  · exact StackPool.setStack_trim current _ _
  · exact StackPool.setStack_trim current _ _

theorem Reachable.trim {session : Session} (reachable : session.Reachable) :
    session.workspace.Trim := by
  -- restoring a contract brings its stacks back, so those have to be trim as well
  refine reachable.keeps (motive := fun session => ∀ snapshot, session.Keeps snapshot →
    snapshot.Trim) ?_ ?_ _ session.keeps_save
  · rintro settings snapshot (rfl | ⟨serial, found⟩)
    · exact fun _ => nofun
    · cases found
  · exact fun session event trim => keeps_step_trim trim event

theorem Reachable.allocate {session : Session} (reachable : session.Reachable) (pool : Pool)
    (plan : Plan) (held : List Value) :
    { session with workspace := (plan.allocate pool held session.workspace).2 }.Reachable := by
  obtain ⟨events, ran⟩ := exists_run_allocate pool plan held session
  rw [← ran]
  exact reachable.run events

end Session

namespace Workspace

/-- Everything is as before but for one more register, the one of the lease, on top
of its stack. -/
structure OneMore (lease : Lease) (before after : Workspace) : Prop where
  top : after.held lease.pool lease.key = before.held lease.pool lease.key ++ [lease.ticket]
  index : lease.index = (before.held lease.pool lease.key).length
  rest : ∀ pool key, ¬ lease.On pool key → after.stored pool key = before.stored pool key

namespace OneMore

variable {lease : Lease} {before after : Workspace}

theorem of_sameTickets (more : OneMore lease before after) {used : Workspace}
    (same : SameTickets after used) : OneMore lease before used where
  top := (same.held_eq _ _).trans more.top
  index := more.index
  rest pool key other := (same pool key).trans (more.rest pool key other)

theorem discard (more : OneMore lease before after) (trimBefore : before.Trim)
    (trimAfter : after.Trim) : SameTickets before (after.discard lease) := by
  have stands : (after.held lease.pool lease.key)[lease.index]? = some lease.ticket := by
    rw [more.top, more.index]
    simp
  have last : (after.held lease.pool lease.key).length = lease.index + 1 := by
    rw [more.top, more.index]
    simp
  rw [discard_of_ok (release_top stands last)]
  intro pool key
  apply stored_congr trimBefore (trimAfter.pop lease)
  rw [held_pop]
  by_cases on : lease.On pool key
  · rw [if_pos on, held_of_on on, more.top, List.dropLast_concat, held_of_on on]
  · rw [if_neg on, held_eq_stored, held_eq_stored, more.rest pool key on]

theorem acquire (workspace : Workspace) (pool : Pool) (ty : Ty) (address : Address) :
    OneMore (workspace.acquire pool ty address).1 workspace
      (workspace.acquire pool ty address).2 := by
  cases pool with
  | counted =>
      refine ⟨rfl, rfl, fun pool key other => ?_⟩
      cases pool with
      | stacked => rfl
      | counted => exact absurd ⟨rfl, nofun⟩ other
  | stacked =>
      refine ⟨StackPool.stack_acquire_self _ _ _, rfl, fun pool key other => ?_⟩
      cases pool with
      | counted => rfl
      | stacked =>
          have different : key ≠ ⟨address.isGlobal, ty⟩ :=
            fun same => other ⟨rfl, fun _ => same.symm⟩
          simp [stored, Workspace.acquire, StackPool.acquire, StackPool.setStack,
            StackPool.record, OrderedMap.get?_insert_of_ne _ _ different]

end OneMore

end Workspace

namespace Value

/-- A comparison takes no register, or else holds on to one after it carried out a
plan. -/
theorem compare_ok {this : Value} {pool : Pool} {comparison : Comparison} {literal : Literal}
    {workspace later : Workspace} {filter : Filter}
    (compared : this.compare pool comparison literal workspace = (.ok filter, later)) :
    (filter.lease = none ∧ later = workspace) ∨
      ∃ plan : Plan, filter.lease = some (workspace.acquire pool .int this.address).1 ∧
        later = (plan.allocate pool [(workspace.acquire pool .int this.address).1.value]
          (workspace.acquire pool .int this.address).2).2 := by
  unfold Value.compare at compared
  split at compared
  case h_1 =>
      split at compared
      · cases compared
      · split at compared <;> cases compared
        exact Or.inl ⟨rfl, rfl⟩
  case h_2 | h_3 =>
      split at compared <;> cases compared
      exact Or.inl ⟨rfl, rfl⟩
  case h_4 precision _ =>
      -- a decimal, the only type that is compared through a register
      split at compared
      · cases compared
      · simp only [Filter.joined] at compared
        split at compared
        · cases compared
        · rename_i planned
          cases compared
          exact Or.inr ⟨Filter.joinPlan this precision, rfl, by rw [planned]⟩
  case h_5 => cases compared

end Value

namespace Session

open Workspace

theorem sameTickets_allocate {session : Session} (reachable : session.Reachable) (pool : Pool)
    (plan : Plan) (held : List Value) :
    SameTickets session.workspace (plan.allocate pool held session.workspace).2 :=
  SameTickets.of_sameScratch (Plan.allocate_sameScratch pool plan held session.workspace)
    reachable.trim (reachable.allocate pool plan held).trim

/-- Lowering a statement leaves every stack as it was, also if it fails.  A comparison may keep
one register, and hands out a lease that gives back just that one. -/
theorem lowering_balanced {session : Session} (reachable : session.Reachable) (pool : Pool) :
    (∀ statement : Statement,
        SameTickets session.workspace (statement.lower pool session.workspace).2) ∧
      ∀ (this : Value) comparison literal,
        match this.compare pool comparison literal session.workspace with
        | (.error _, later) => SameTickets session.workspace later
        | (.ok filter, later) =>
            match filter.lease with
            | none => SameTickets session.workspace later
            | some lease =>
                lease.On pool ⟨this.isGlobal, .int⟩ ∧ lease.value.ty = .int ∧
                  OneMore lease session.workspace later ∧
                  ∀ used, SameTickets later used →
                    SameTickets session.workspace (used.discard lease) := by
  have lowered : ∀ statement : Statement,
      SameTickets session.workspace (statement.lower pool session.workspace).2 := by
    intro statement
    rw [Statement.lower_eq_allocate]
    exact sameTickets_allocate reachable pool statement.plan []
  refine ⟨lowered, fun this comparison literal => ?_⟩
  rcases compared : this.compare pool comparison literal session.workspace with
    ⟨error | filter, later⟩
  · -- a failed comparison has no lease to give up
    have failed := lowered (.compare this comparison literal)
    simp only [Statement.lower, compared] at failed
    exact failed
  · rcases Value.compare_ok compared with ⟨none, rfl⟩ | ⟨plan, some, rfl⟩
    · simp only [none]
      exact fun _ _ => rfl
    · -- the plan runs with the lease in hand, and leaves its register where it is
      simp only [some]
      have acquired := reachable.run [.acquire pool .int this.address]
      have same := sameTickets_allocate acquired pool plan
        [(session.workspace.acquire pool .int this.address).1.value]
      have more := (OneMore.acquire session.workspace pool .int this.address).of_sameTickets same
      refine ⟨(session.workspace.acquire_lease pool .int this.address).1, ?_, more, ?_⟩
      · rw [acquire_value]
        cases pool <;> rfl
      · intro used sameUsed
        exact (more.of_sameTickets sameUsed).discard reachable.trim
          (sameUsed.trim (same.trim acquired.trim))

/-- Multiplying by a literal that does not fit into a score fails with a register
already taken, and a comparison of decimals holds on to one. -/
theorem balanced_after_failure :
    let session := (start {}).run [.acquire .stacked .int .here, .acquire .counted .bool .here]
    let this : Value := ⟨"a", .decimal 2, .here, []⟩
    let failed := (Statement.operateLiteral this .mul (.decimal ⟨9999999999999, 1⟩)).lower .stacked
      session.workspace
    let compared := this.compare .counted .less (.int 3) session.workspace
    failed.1.isOk = false ∧ session.workspace.nextTicket .stacked = 1 ∧
      failed.2.nextTicket .stacked = 2 ∧ SameTickets session.workspace failed.2 ∧
      compared.2.held .counted ⟨false, .int⟩ = [0, 1] ∧
      ∃ filter lease, compared.1 = .ok filter ∧ filter.lease = some lease ∧
        SameTickets session.workspace (compared.2.discard lease) := by
  intro session this failed compared
  have reachable : session.Reachable := ⟨{}, _, rfl⟩
  have comparison := (lowering_balanced reachable .counted).2 this .less (.int 3)
  exact ⟨by decide, rfl, by decide, (lowering_balanced reachable .stacked).1 _, by decide, _, _,
    rfl, rfl, comparison.2.2.2 _ fun _ _ => rfl⟩

end Session

end ScoreLowering
