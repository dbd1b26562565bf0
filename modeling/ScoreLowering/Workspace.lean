import ScoreLowering.Routine
import ScoreLowering.Scratch.Stacks
import ScoreLowering.Scratch.Counter

/-!
# Workspaces

What lowerings share and add to: the head of the program, which creates
registers before anything else runs, both pools of scratch registers and the
generated routines.
-/

namespace ScoreLowering

structure Workspace where
  /-- The commands that run once, before all others. -/
  head : List Command := []
  stacked : StackPool
  counted : CounterPool
  routines : Routines
  deriving Repr

namespace Workspace

/-- Add commands to the head. -/
def pushHead (workspace : Workspace) (commands : List Command) : Workspace :=
  { workspace with head := workspace.head ++ commands }

/-- Take a scratch register from a pool, creating it in the head if needed. -/
def acquire (workspace : Workspace) (pool : Pool) (ty : Ty) (address : Address) :
    Lease × Workspace :=
  match pool with
  | .stacked =>
      let (lease, creation, stacked) := workspace.stacked.acquire ty address
      (lease, { workspace with head := workspace.head ++ creation, stacked := stacked })
  | .counted =>
      let (lease, creation, counted) := workspace.counted.acquire ty address
      (lease, { workspace with head := workspace.head ++ creation, counted := counted })

/-- The tickets on the stack that a lease belongs to. -/
def tickets (workspace : Workspace) (lease : Lease) : List Nat :=
  match lease.pool with
  | .stacked => workspace.stacked.stack lease.key
  | .counted => workspace.counted.slots

/-- Give back the top register of the stack that a lease belongs to. -/
def pop (workspace : Workspace) (lease : Lease) : Workspace :=
  match lease.pool with
  | .stacked => { workspace with stacked := workspace.stacked.pop lease.key }
  | .counted => { workspace with counted := workspace.counted.pop }

/-- End a lease.  Nothing happens if its position belongs to another
acquisition by now; it is an error if later registers are still held. -/
def release (workspace : Workspace) (lease : Lease) : Except InternalError Workspace :=
  let tickets := workspace.tickets lease
  if tickets[lease.index]? ≠ some lease.ticket then
    .ok workspace
  else if tickets.length = lease.index + 1 then
    .ok (workspace.pop lease)
  else
    .error (.releaseOrder lease.value.name tickets.length (lease.index + 1))

/-- End a lease, keeping the register if later ones are still held. -/
def discard (workspace : Workspace) (lease : Lease) : Workspace :=
  match workspace.release lease with
  | .ok released => released
  | .error _ => workspace

/-- The path of the borrow routine for a value, generated if it is new. -/
def borrow (workspace : Workspace) (value : Value) (unit : Score) : String × Workspace :=
  let (path, routines) := workspace.routines.borrow value unit
  (path, { workspace with routines := routines })

end Workspace
end ScoreLowering
