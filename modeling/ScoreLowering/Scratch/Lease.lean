import ScoreLowering.Value.Basic

/-!
# Leases of scratch registers

A lowering borrows registers for intermediate results.  Whoever acquires one
gets a lease on it, which names its position and carries a ticket.  No two
acquisitions have the same ticket, so a lease whose position has since gone to
somebody else can be told from the one that holds it.
-/

namespace ScoreLowering

/-- The two sources of scratch registers. -/
inductive Pool where
  /-- One stack of registers for each scope and type. -/
  | stacked
  /-- One sequence of registers for all types. -/
  | counted
  deriving DecidableEq, Repr

/-- Identifies one stack of the pool of stacks. -/
structure StackKey where
  global : Bool
  ty : Ty
  deriving DecidableEq, Repr

namespace StackKey

def text (key : StackKey) : String :=
  (if key.global then "global " else "local ") ++ key.ty.text

end StackKey

/-- The right to one scratch register. -/
structure Lease where
  pool : Pool
  key : StackKey
  /-- The position on the stack, counted from its bottom. -/
  index : Nat
  ticket : Nat
  value : Value
  deriving DecidableEq, Repr

end ScoreLowering
