import ScoreLowering.Proofs.OrderedMapLookup
import ScoreLowering.Plan.Basic

/-!
# Scratch registers go back

A plan takes its scratch registers from a pool and gives each of them back when
the part that uses it is through.  This file follows the tickets: after
`allocate` every stack holds the tickets it held before, whether the plan
succeeded or not.

The two pools are treated alike.  The counter is seen as a pool whose stacks are
all the same one.
-/

namespace ScoreLowering

namespace StackPool

@[simp]
theorem stack_setStack_self (pool : StackPool) (key : StackKey) (tickets : List Nat) :
    (pool.setStack key tickets).stack key = tickets := by
  cases tickets with
  | nil => simp [setStack, stack]
  | cons ticket rest => simp [setStack, stack]

theorem stack_setStack_of_ne (pool : StackPool) {key other : StackKey} (tickets : List Nat)
    (different : other ≠ key) : (pool.setStack key tickets).stack other = pool.stack other := by
  cases tickets with
  | nil => simp [setStack, stack, OrderedMap.get?_erase_of_ne _ different]
  | cons ticket rest => simp [setStack, stack, OrderedMap.get?_insert_of_ne _ _ different]

end StackPool

namespace Workspace

/-- The tickets that a pool has given out for a key, bottom first. -/
def held (workspace : Workspace) (pool : Pool) (key : StackKey) : List Nat :=
  match pool with
  | .stacked => workspace.stacked.stack key
  | .counted => workspace.counted.slots

/-- The number of registers that are held for a key. -/
def depth (workspace : Workspace) (pool : Pool) (key : StackKey) : Nat :=
  (workspace.held pool key).length

/-- The scratch register at a position of a pool. -/
def scratchAt (workspace : Workspace) (pool : Pool) (ty : Ty) (address : Address)
    (position : Nat) : Value :=
  match pool with
  | .stacked => workspace.stacked.registerAt ty address position
  | .counted => workspace.counted.registerAt ty address position

/-- The same scratch registers are held, and the next ones have the same
names. -/
structure SameScratch (before after : Workspace) : Prop where
  stackEq : ∀ key, after.stacked.stack key = before.stacked.stack key
  slots : after.counted.slots = before.counted.slots
  stackStem : after.stacked.stem = before.stacked.stem
  counterStem : after.counted.stem = before.counted.stem

namespace SameScratch

theorem refl (workspace : Workspace) : SameScratch workspace workspace :=
  ⟨fun _ => rfl, rfl, rfl, rfl⟩

theorem trans {first second third : Workspace} (left : SameScratch first second)
    (right : SameScratch second third) : SameScratch first third where
  stackEq key := (right.stackEq key).trans (left.stackEq key)
  slots := right.slots.trans left.slots
  stackStem := right.stackStem.trans left.stackStem
  counterStem := right.counterStem.trans left.counterStem

theorem depth_eq {before after : Workspace} (same : SameScratch before after) (pool : Pool)
    (key : StackKey) : after.depth pool key = before.depth pool key := by
  cases pool with
  | stacked => exact congrArg List.length (same.stackEq key)
  | counted => exact congrArg List.length same.slots

theorem scratchAt_eq {before after : Workspace} (same : SameScratch before after)
    (pool : Pool) (ty : Ty) (address : Address) (position : Nat) :
    after.scratchAt pool ty address position = before.scratchAt pool ty address position := by
  cases pool with
  | stacked => simp [scratchAt, StackPool.registerAt, same.stackStem]
  | counted => simp [scratchAt, CounterPool.registerAt, same.counterStem]

end SameScratch

/-- The stems of the names never change. -/
theorem acquire_stems (workspace : Workspace) (pool : Pool) (ty : Ty) (address : Address) :
    (workspace.acquire pool ty address).2.stacked.stem = workspace.stacked.stem ∧
      (workspace.acquire pool ty address).2.counted.stem = workspace.counted.stem := by
  cases pool <;> exact ⟨rfl, rfl⟩

/-- A new lease is on the first position that is not held. -/
theorem acquire_value (workspace : Workspace) (pool : Pool) (ty : Ty) (address : Address) :
    (workspace.acquire pool ty address).1.value =
      workspace.scratchAt pool ty address
        (workspace.depth pool ⟨address.isGlobal, ty⟩) := by
  cases pool <;> rfl

/-- Acquiring a register makes its own stack longer by one.  The counter has no other. -/
theorem depth_acquire_eq (workspace : Workspace) (pool : Pool) (ty : Ty) (address : Address)
    (key : StackKey) :
    (workspace.acquire pool ty address).2.depth pool key =
      workspace.depth pool key +
        if pool = .counted ∨ key = ⟨address.isGlobal, ty⟩ then 1 else 0 := by
  cases pool with
  | stacked =>
      by_cases own : key = ⟨address.isGlobal, ty⟩
      · subst own
        simp [depth, held, acquire, StackPool.acquire, StackPool.stack, StackPool.setStack]
      · have stackEq : (workspace.acquire .stacked ty address).2.stacked.stack key =
            workspace.stacked.stack key :=
          StackPool.stack_setStack_of_ne _ _ own
        simp [depth, held, stackEq, own]
  | counted => simp [depth, held, acquire, CounterPool.acquire]

theorem depth_acquire (workspace : Workspace) (pool : Pool) (ty : Ty) (address : Address)
    (key : StackKey) :
    workspace.depth pool key ≤ (workspace.acquire pool ty address).2.depth pool key ∧
      (workspace.acquire pool ty address).2.depth pool key ≤ workspace.depth pool key + 1 := by
  rw [depth_acquire_eq]
  split <;> omega

theorem depth_acquire_self (workspace : Workspace) (pool : Pool) (ty : Ty)
    (address : Address) :
    (workspace.acquire pool ty address).2.depth pool ⟨address.isGlobal, ty⟩ =
      workspace.depth pool ⟨address.isGlobal, ty⟩ + 1 := by
  rw [depth_acquire_eq, if_pos (Or.inr rfl)]

theorem scratchAt_acquire (workspace : Workspace) (pool : Pool) (ty : Ty) (address : Address) :
    (workspace.acquire pool ty address).2.scratchAt pool = workspace.scratchAt pool := by
  obtain ⟨stackStem, counterStem⟩ := acquire_stems workspace pool ty address
  funext otherTy otherAddress position
  cases pool with
  | stacked => simp only [scratchAt, StackPool.registerAt, stackStem]
  | counted => simp only [scratchAt, CounterPool.registerAt, counterStem]

/-- A pool goes on alike: it holds as many registers of each kind, whatever their tickets
are, and has the same names for the next ones. -/
structure SameRoom (pool : Pool) (before after : Workspace) : Prop where
  depth_eq : ∀ key, after.depth pool key = before.depth pool key
  scratchAt_eq : after.scratchAt pool = before.scratchAt pool

theorem SameScratch.sameRoom {before after : Workspace} (same : SameScratch before after)
    (pool : Pool) : SameRoom pool before after where
  depth_eq := same.depth_eq pool
  scratchAt_eq := by
    funext ty address position
    exact same.scratchAt_eq pool ty address position

namespace SameRoom

variable {pool : Pool} {before after : Workspace}

theorem acquire_value (same : SameRoom pool before after) (ty : Ty) (address : Address) :
    (after.acquire pool ty address).1.value = (before.acquire pool ty address).1.value := by
  rw [Workspace.acquire_value, Workspace.acquire_value, same.depth_eq, same.scratchAt_eq]

theorem acquire (same : SameRoom pool before after) (ty : Ty) (address : Address) :
    SameRoom pool (before.acquire pool ty address).2 (after.acquire pool ty address).2 where
  depth_eq key := by rw [depth_acquire_eq, depth_acquire_eq, same.depth_eq]
  scratchAt_eq := by rw [scratchAt_acquire, scratchAt_acquire, same.scratchAt_eq]

theorem of_sameScratch {laterBefore laterAfter : Workspace} (same : SameRoom pool before after)
    (left : SameScratch before laterBefore) (right : SameScratch after laterAfter) :
    SameRoom pool laterBefore laterAfter where
  depth_eq key := by rw [right.depth_eq, same.depth_eq, left.depth_eq]
  scratchAt_eq := by
    rw [(right.sameRoom pool).scratchAt_eq, same.scratchAt_eq, (left.sameRoom pool).scratchAt_eq]

end SameRoom

/-- A lease can be ended as long as the pool holds what it held when the lease
began, and then nothing is left of it. -/
theorem sameScratch_discard (workspace : Workspace) (pool : Pool) (ty : Ty)
    (address : Address) {later : Workspace}
    (same : SameScratch (workspace.acquire pool ty address).2 later) :
    SameScratch workspace (later.discard (workspace.acquire pool ty address).1) := by
  cases pool with
  | stacked =>
      let key : StackKey := ⟨address.isGlobal, ty⟩
      have top : later.stacked.stack key =
          workspace.stacked.stack key ++ [workspace.stacked.nextTicket] := by
        rw [same.stackEq key]
        exact StackPool.stack_setStack_self _ key _
      have ended : later.discard (workspace.acquire .stacked ty address).1 =
          { later with stacked := later.stacked.pop key } := by
        simp [discard, release, tickets, acquire, StackPool.acquire, pop, top, key]
      rw [ended]
      refine ⟨fun other => ?_, same.slots, same.stackStem, same.counterStem⟩
      by_cases here : other = key
      · subst here
        simp [StackPool.pop, top]
      · have untouched : (workspace.acquire .stacked ty address).2.stacked.stack other =
            workspace.stacked.stack other :=
          StackPool.stack_setStack_of_ne _ _ here
        simp only [StackPool.pop]
        rw [StackPool.stack_setStack_of_ne _ _ here, same.stackEq other, untouched]
  | counted =>
      have top : later.counted.slots =
          workspace.counted.slots ++ [workspace.counted.nextTicket] := same.slots
      have ended : later.discard (workspace.acquire .counted ty address).1 =
          { later with counted := later.counted.pop } := by
        simp [discard, release, tickets, acquire, CounterPool.acquire, CounterPool.index, pop,
          top]
      rw [ended]
      exact ⟨same.stackEq, by simp [CounterPool.pop, top], same.stackStem, same.counterStem⟩

theorem sameScratch_borrow (workspace : Workspace) (value : Value) (unit : Score) :
    SameScratch workspace (workspace.borrow value unit).2 :=
  ⟨fun _ => rfl, rfl, rfl, rfl⟩

end Workspace

namespace Plan

open Workspace

theorem allocate_sequence_error {pool : Pool} {first : Plan} {held : List Value}
    {workspace middle : Workspace} {error : LowerError}
    (failed : first.allocate pool held workspace = (.error error, middle)) (next : Plan) :
    (sequence first next).allocate pool held workspace = (.error error, middle) := by
  simp [allocate, failed]

theorem allocate_sequence_ok {pool : Pool} {first : Plan} {held : List Value}
    {workspace middle : Workspace} {front : List Command}
    (succeeded : first.allocate pool held workspace = (.ok front, middle)) (next : Plan) :
    (sequence first next).allocate pool held workspace =
      ((next.allocate pool held middle).1.map (front ++ ·),
        (next.allocate pool held middle).2) := by
  simp only [allocate, succeeded]
  rcases next.allocate pool held middle with ⟨error | back, after⟩ <;> rfl

/-- A relation that holds across every borrow, and from before a scratch register
is taken to after it is given back, holds across a whole plan. -/
theorem allocate_related (related : Workspace → Workspace → Prop)
    (refl : ∀ workspace, related workspace workspace)
    (trans : ∀ {first second third}, related first second → related second third →
      related first third)
    (borrow : ∀ workspace value unit, related workspace (workspace.borrow value unit).2)
    (enclose : ∀ workspace pool ty address {later},
      related (workspace.acquire pool ty address).2 later →
        related workspace (later.discard (workspace.acquire pool ty address).1))
    (pool : Pool) (plan : Plan) (held : List Value) (workspace : Workspace) :
    related workspace (plan.allocate pool held workspace).2 := by
  induction plan generalizing held workspace with
  | steps list => exact refl workspace
  | borrow value unit => exact borrow workspace value unit
  | fail error => exact refl workspace
  | sequence first next firstIH nextIH =>
      have firstRelated := firstIH held workspace
      rcases outcome : first.allocate pool held workspace with ⟨error | front, middle⟩
      · rw [outcome] at firstRelated
        rw [allocate_sequence_error outcome]
        exact firstRelated
      · rw [outcome] at firstRelated
        rw [allocate_sequence_ok outcome]
        exact trans firstRelated (nextIH held middle)
  | scratch ty address body ih => exact enclose workspace pool ty address (ih _ _)

/-- Carrying out a plan leaves the scratch registers as they were. -/
theorem allocate_sameScratch (pool : Pool) (plan : Plan) (held : List Value)
    (workspace : Workspace) :
    SameScratch workspace (plan.allocate pool held workspace).2 :=
  allocate_related SameScratch .refl .trans sameScratch_borrow sameScratch_discard pool plan held
    workspace

end Plan
end ScoreLowering
