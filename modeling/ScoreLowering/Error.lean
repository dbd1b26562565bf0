import ScoreLowering.Source.Span

/-!
# Errors of a lowering

A lowering fails either because a statement of the program asks for something
that cannot be done, or because scratch registers were handled against the
rules.  An error names its cause; `message` puts it into words, and `label` says
what to write below the statement.
-/

namespace ScoreLowering

/-- What is wrong with a statement. -/
inductive UserError where
  /-- Values of this type can only be tested for equality. -/
  | unsupportedComparison (comparison typeName : String)
  /-- The operation makes sense between these types, but cannot be carried out. -/
  | unsupportedOperation (operation left right : String)
  /-- The operation makes no sense between these types. -/
  | incompatibleOperands (operation left right : String)
  | incompatibleLiteral (literal typeName : String)
  | unexpectedType (expected : List String) (got : String) (declared : Option Span)
  | literalOutOfRange (literal typeName : String)
  | invalidPrecision (precision max : Nat)
  | missingValue (name : String)
  | missingStruct (name : String)
  | missingField (field struct : String) (available : List String)
  | structRedefinition (name : String)
  deriving DecidableEq, Repr

/-- A broken rule for which no statement is to blame. -/
inductive InternalError where
  /-- A register was given back to a stack that holds none. -/
  | underflow (stack : String)
  /-- A register was given back while later ones were still held. -/
  | releaseOrder (name : String) (depth expected : Nat)
  | noSavedState
  | divideByZero (value : String)
  deriving DecidableEq, Repr

/-- Why a lowering failed. -/
inductive LowerError where
  | user (error : UserError)
  | internal (error : InternalError)
  deriving DecidableEq, Repr

namespace UserError

def message : UserError → String
  | unsupportedComparison comparison typeName =>
      s!"Cannot compare a value of type {typeName} using '{comparison}'"
  | unsupportedOperation operation left right =>
      s!"Operation '{operation}' between {left} and {right} is not supported"
  | incompatibleOperands operation left right =>
      s!"Operator '{operation}' is not defined between type {left} and {right}"
  | incompatibleLiteral literal typeName =>
      s!"Cannot use literal {literal} with a value of type {typeName}"
  | unexpectedType _ got _ => s!"Received unexpected type {got}"
  | literalOutOfRange literal typeName =>
      s!"Literal {literal} does not fit into type {typeName}"
  | invalidPrecision precision max =>
      s!"Decimal precision {precision} is too large (max: {max})"
  | missingValue name => s!"Value {name} does not exist"
  | missingStruct name => s!"Struct {name} does not exist"
  | missingField field struct _ => s!"Field {field} of struct {struct} does not exist"
  | structRedefinition name => s!"Struct {name} is already defined"

/-- What would have been accepted, in words. -/
def expectation : List String → String
  | [] => "Did not expect anything"
  | [single] => s!"Expected {single}"
  | several => "Expected one of (" ++ ", ".intercalate several ++ ")"

/-- The note below the statement that is at fault. -/
def label : UserError → String
  | unsupportedComparison comparison _ =>
      s!"only '==' and '!=' are allowed here, not '{comparison}'"
  | unsupportedOperation operation _ _ =>
      s!"'{operation}' is not supported for these operands"
  | incompatibleOperands _ left right => s!"{left} and {right} cannot be combined"
  | incompatibleLiteral _ typeName => s!"expected a literal assignable to {typeName}"
  | unexpectedType expected got _ => expectation expected ++ s!", but got {got}"
  | literalOutOfRange _ _ => "literal out of range"
  | invalidPrecision _ _ => "invalid precision"
  | missingValue name => s!"could not find '{name}'"
  | missingStruct name => s!"could not find struct '{name}'"
  | missingField field _ _ => s!"unknown field '{field}'"
  | structRedefinition _ => "defined again here"

end UserError

namespace InternalError

def message : InternalError → String
  | underflow stack => s!"Released a {stack} temp register, but none was acquired"
  | releaseOrder name depth expected =>
      s!"Temp register {name} released out of order (depth {depth}, expected {expected})"
  | noSavedState => "Popped a temp state, but no state was pushed"
  | divideByZero value => s!"Division of {value} by the literal zero"

end InternalError

namespace LowerError

def message : LowerError → String
  | user error => error.message
  | internal error => error.message

def isInternal : LowerError → Bool
  | user _ => false
  | internal _ => true

end LowerError
end ScoreLowering
