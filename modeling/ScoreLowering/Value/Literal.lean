import ScoreLowering.Value.Decimal
import ScoreLowering.Value.Ty

/-!
# Literals
-/

namespace ScoreLowering

/-- A typed constant. -/
inductive Literal where
  | null
  | bool (value : Bool)
  | int (value : Score)
  | decimal (value : Decimal)
  /-- A duration in ticks. -/
  | time (value : Score)
  deriving DecidableEq, Repr

namespace Literal

/-- The type of a value made from the literal. -/
def ty : Literal → Except UserError Ty
  | null => .error (.unexpectedType ["int", "decimal", "bool", "time"] "null" none)
  | bool _ => .ok .bool
  | int _ => .ok .int
  | decimal value => Ty.decimal? value.precision
  | time _ => .ok .time

/-- Whether the literal stands for zero.  Nothing and falsehood do. -/
def isZero : Literal → Bool
  | null => true
  | bool value => !value
  | int value => value = 0
  | decimal value => value.mantissa = 0
  | time value => value = 0

def text : Literal → String
  | null => "null"
  | bool value => if value then "true" else "false"
  | int value => value.text
  | decimal value => value.text
  | time value => value.text ++ "t"

end Literal
end ScoreLowering
