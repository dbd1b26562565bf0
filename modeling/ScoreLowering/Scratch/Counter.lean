import ScoreLowering.OrderedMap
import ScoreLowering.Scratch.Lease

/-!
# Scratch registers from one counter

Registers of all types and scopes are numbered in a single sequence, and only
the number of registers held tells the next name.  A register may come back
with another type, in which case its objectives are created once more if the
type allows for names of another length.

Saving the state notes the number of registers held.  Restoring reserves
positions that were given back meanwhile, under fresh tickets, and gives back
those taken since.
-/

namespace ScoreLowering

structure CounterPool where
  /-- What all register names start with. -/
  stem : String
  /-- The tickets of the registers that are held, first to last. -/
  slots : List Nat := []
  nextTicket : Nat := 0
  /-- The numbers of registers held when a state was saved, latest first. -/
  saved : List Nat := []
  /-- Name and length limit of every register created. -/
  defined : List (String × Nat) := []
  /-- The latest layout of every register, by name and type. -/
  everDefined : OrderedMap String Value := ∅
  deriving Repr

namespace CounterPool

/-- The number of registers held. -/
def index (pool : CounterPool) : Nat :=
  pool.slots.length

/-- The register at a position of the sequence. -/
def registerAt (pool : CounterPool) (ty : Ty) (address : Address) (index : Nat) : Value where
  ident := pool.stem ++ toString index
  ty := ty
  address := address

/-- What decides whether a register still has to be created. -/
def identity (value : Value) : String × Nat :=
  (value.name, value.ty.nameLimit)

def layoutKey (value : Value) : String :=
  value.name ++ ":" ++ value.ty.code

def record (pool : CounterPool) (value : Value) : CounterPool :=
  { pool with
    defined :=
      if identity value ∈ pool.defined then pool.defined
      else pool.defined ++ [identity value]
    everDefined := pool.everDefined.insert (layoutKey value) value }

/-- Take the next register.  Along with the lease come the commands that create
the register, if it is new. -/
def acquire (pool : CounterPool) (ty : Ty) (address : Address) :
    Lease × List Command × CounterPool :=
  let value := pool.registerAt ty address pool.index
  let creation := if identity value ∈ pool.defined then [] else value.introduce
  let lease : Lease := ⟨.counted, ⟨false, ty⟩, pool.index, pool.nextTicket, value⟩
  (lease, creation,
    { pool.record value with
      slots := pool.slots ++ [pool.nextTicket]
      nextTicket := pool.nextTicket + 1 })

/-- Give back the latest register, if there is one. -/
def pop (pool : CounterPool) : CounterPool :=
  { pool with slots := pool.slots.dropLast }

def save (pool : CounterPool) : CounterPool :=
  { pool with saved := pool.index :: pool.saved }

/-- Hold exactly `count` registers: give back those beyond, and reserve missing
ones under fresh tickets. -/
def resize (pool : CounterPool) (count : Nat) : CounterPool :=
  let missing := count - pool.index
  { pool with
    slots := (pool.slots ++ List.range' pool.nextTicket missing).take count
    nextTicket := pool.nextTicket + missing }

/-- Go back to the number of registers held at the latest save. -/
def restore (pool : CounterPool) : Except InternalError CounterPool :=
  match pool.saved with
  | [] => .error .noSavedState
  | count :: saved => .ok { pool.resize count with saved := saved }

/-- Delete every register that was ever created, each one once. -/
def remove (pool : CounterPool) : List Command :=
  (pool.everDefined.values.flatMap Value.remove).eraseDups

end CounterPool
end ScoreLowering
