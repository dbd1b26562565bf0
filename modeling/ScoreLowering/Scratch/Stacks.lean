import ScoreLowering.OrderedMap
import ScoreLowering.Scratch.Lease

/-!
# Scratch registers by scope and type

Each scope and type has a stack of its own, and a register is named after its
position there, so that nested expressions use the same few registers again and
again.  A register is created the first time it is handed out and never again.

The state can be saved and restored.  Restoring brings back the stacks and the
names in use, but not the record of what was ever created.
-/

namespace ScoreLowering

structure StackPool where
  /-- What all register names start with. -/
  stem : String
  /-- Who holds the global registers. -/
  globalPlayer : String
  /-- The tickets of the registers that are held, bottom first.  Empty stacks
  are not kept. -/
  held : OrderedMap StackKey (List Nat) := ∅
  nextTicket : Nat := 0
  /-- The names handed out and not rolled back. -/
  defined : List String := []
  /-- Every register ever created, by name. -/
  everDefined : OrderedMap String Value := ∅
  deriving Repr

/-- The part of the state that can be saved. -/
structure StackSnapshot where
  held : OrderedMap StackKey (List Nat)
  defined : List String
  deriving Repr

namespace StackSnapshot

/-- Whether two snapshots hold the same stacks and the same set of names. -/
def same (first second : StackSnapshot) : Bool :=
  first.held.agrees second.held &&
    first.defined.length = second.defined.length &&
    first.defined.all (second.defined.contains ·)

end StackSnapshot

namespace StackPool

def stack (pool : StackPool) (key : StackKey) : List Nat :=
  (pool.held.get? key).getD []

def depth (pool : StackPool) (key : StackKey) : Nat :=
  (pool.stack key).length

/-- Replace a stack, forgetting it if nothing is left on it. -/
def setStack (pool : StackPool) (key : StackKey) (tickets : List Nat) : StackPool :=
  { pool with
    held :=
      if tickets.isEmpty then pool.held.erase key else pool.held.insert key tickets }

def scopeCode (global : Bool) : String :=
  if global then "G" else "L"

/-- The register at position `depth` of a stack. -/
def registerAt (pool : StackPool) (ty : Ty) (address : Address) (depth : Nat) : Value where
  ident := pool.stem ++ scopeCode address.isGlobal ++ ty.code ++ toString depth
  ty := ty
  address := address

/-- Note that a register is in use, and for good that it was created. -/
def record (pool : StackPool) (value : Value) : StackPool :=
  { pool with
    defined :=
      if value.name ∈ pool.defined then pool.defined else pool.defined ++ [value.name]
    everDefined :=
      if pool.everDefined.contains value.name then pool.everDefined
      else pool.everDefined.insert value.name value }

/-- Take the next register of a stack.  Along with the lease come the commands
that create the register, if it is new. -/
def acquire (pool : StackPool) (ty : Ty) (address : Address) :
    Lease × List Command × StackPool :=
  let key : StackKey := ⟨address.isGlobal, ty⟩
  let tickets := pool.stack key
  let value := pool.registerAt ty address tickets.length
  let creation := if pool.everDefined.contains value.name then [] else value.introduce
  let lease : Lease := ⟨.stacked, key, tickets.length, pool.nextTicket, value⟩
  (lease, creation,
    { (pool.record value).setStack key (tickets ++ [pool.nextTicket]) with
      nextTicket := pool.nextTicket + 1 })

/-- Give back the top register of a stack, if there is one. -/
def pop (pool : StackPool) (key : StackKey) : StackPool :=
  pool.setStack key (pool.stack key).dropLast

/-- Give back the top register of a stack that must not be empty. -/
def popHeld (pool : StackPool) (key : StackKey) : Except InternalError StackPool :=
  if (pool.stack key).isEmpty then .error (.underflow key.text) else .ok (pool.pop key)

def isDefined (pool : StackPool) (name : String) : Bool :=
  pool.defined.contains name

def save (pool : StackPool) : StackSnapshot :=
  ⟨pool.held, pool.defined⟩

def restore (pool : StackPool) (snapshot : StackSnapshot) : StackPool :=
  { pool with held := snapshot.held, defined := snapshot.defined }

/-- The address of registers in a scope. -/
def scopeAddress (pool : StackPool) (global : Bool) : Address :=
  if global then .player pool.globalPlayer else .here

/-- The address for a copy of a value: in the scope asked for, and exactly where
the value is if that is its own scope. -/
def copyAddress (pool : StackPool) (value : Value) (scope : Option Bool) : Address :=
  match scope with
  | none => value.address
  | some global => if global = value.isGlobal then value.address else pool.scopeAddress global

/-- Delete every register that was ever created. -/
def remove (pool : StackPool) : List Command :=
  pool.everDefined.values.flatMap Value.remove

end StackPool
end ScoreLowering
