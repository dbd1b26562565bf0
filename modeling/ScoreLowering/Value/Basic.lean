import ScoreLowering.Value.Address
import ScoreLowering.Value.Literal
import ScoreLowering.Value.Name

/-!
# Values

A value is an identifier with a type and an address.  Its registers follow from
those: the objective named after the identifier, a second one for the fraction of a
decimal, and for a struct the registers of its fields under dotted identifiers.
-/

namespace ScoreLowering

/-- What a value was declared with. -/
inductive Attribute where
  | global
  deriving DecidableEq, Repr

/-- A typed value on the board. -/
structure Value where
  ident : String
  ty : Ty
  address : Address
  attributes : List Attribute := []
  deriving DecidableEq, Repr

/-- Which of the two registers of a decimal is meant.  Other values have a whole
part only. -/
inductive Part where
  | whole
  | fraction
  deriving DecidableEq, Repr

namespace Value

/-- The name of the main objective. -/
def name (value : Value) : String :=
  Name.objective value.ident value.ty.nameLimit

/-- The objective that holds a part of the value. -/
def objective (value : Value) : Part → String
  | .whole => value.name
  | .fraction => value.name ++ Name.fractionSuffix

def register (value : Value) (part : Part) : Register :=
  ⟨value.address.holder, value.objective part⟩

/-- The value of a field. -/
def fieldValue (value : Value) (name : String) (ty : Ty) : Value :=
  { value with ident := value.ident ++ "." ++ name, ty := ty }

/-- The values that make up a struct. -/
def fields (value : Value) : List Value :=
  value.ty.fields.map fun (name, ty) => value.fieldValue name ty

/-- Look up a field of a struct, ignoring ASCII case. -/
def field? (value : Value) (name : String) : Option Value :=
  (Ty.findField? value.ty.fields name).map fun (name, ty) => value.fieldValue name ty

mutual

/-- The objectives that a value of this identifier and type takes. -/
def layout (ident : String) : Ty → List String
  | .int => [Name.objective ident Ty.int.nameLimit]
  | .bool => [Name.objective ident Ty.bool.nameLimit]
  | .time => [Name.objective ident Ty.time.nameLimit]
  | .decimal precision =>
      let name := Name.objective ident (Ty.decimal precision).nameLimit
      [name, name ++ Name.fractionSuffix]
  | .struct _ fields => layoutFields ident fields

/-- The objectives of the fields of a struct, one field after the other. -/
def layoutFields (ident : String) : List (String × Ty) → List String
  | [] => []
  | (name, ty) :: rest => layout (ident ++ "." ++ name) ty ++ layoutFields ident rest

end

/-- Every objective the value takes. -/
def objectives (value : Value) : List String :=
  layout value.ident value.ty

/-- Create the objectives. -/
def define (value : Value) : List Command :=
  value.objectives.map .addObjective

/-- Set every register to zero for a holder. -/
def reset (value : Value) (holder : String) : List Command :=
  value.objectives.map fun objective => .setScore ⟨holder, objective⟩ 0

/-- Delete the objectives. -/
def remove (value : Value) : List Command :=
  value.objectives.map .removeObjective

/-- Create the objectives and set them to zero where the value lives. -/
def introduce (value : Value) : List Command :=
  value.define ++ value.reset value.address.holder

def isGlobal (value : Value) : Bool :=
  value.address.isGlobal

def text (value : Value) : String :=
  value.ident ++ ": " ++ value.ty.text

end Value
end ScoreLowering
