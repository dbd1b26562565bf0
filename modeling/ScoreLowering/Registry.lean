import ScoreLowering.OrderedMap
import ScoreLowering.Text.LowerCase
import ScoreLowering.Value.Basic

/-!
# The registry of declared names

Values and structs are found by name without regard to case.  A value is also
found by the name of its objective, and a field of a struct by a dotted path that
starts at the value.
-/

namespace ScoreLowering

/-- A named list of typed fields. -/
structure StructDefinition where
  name : String
  fields : List (String × Ty)
  deriving DecidableEq, Repr

namespace StructDefinition

def ty (definition : StructDefinition) : Ty :=
  .struct definition.name definition.fields

end StructDefinition

structure Registry where
  /-- Who holds the global values. -/
  globalPlayer : String
  /-- The values by lower-case identifier. -/
  values : OrderedMap String Value := ∅
  /-- The structs by lower-case name. -/
  structs : OrderedMap String StructDefinition := ∅
  deriving Repr

namespace Registry

/-- The key under which a name is stored. -/
def key (name : String) : String :=
  Text.lowerCase name

/-- The address of a value with these attributes. -/
def addressOf (registry : Registry) (attributes : List Attribute) : Address :=
  if .global ∈ attributes then .player registry.globalPlayer else .here

/-- A value that is not stored yet. -/
def create (registry : Registry) (ident : String) (ty : Ty) (attributes : List Attribute) :
    Value :=
  ⟨ident, ty, registry.addressOf attributes, attributes⟩

/-- A value with the type of a literal, neither stored nor assigned. -/
def createFromLiteral (registry : Registry) (ident : String) (literal : Literal)
    (attributes : List Attribute) : Except UserError Value :=
  literal.ty.map fun ty => registry.create ident ty attributes

/-- Store a value, unless its identifier is taken.  Says whether it was stored. -/
def add (registry : Registry) (value : Value) : Bool × Registry :=
  if registry.values.contains (key value.ident) then
    (false, registry)
  else
    (true, { registry with values := registry.values.insert (key value.ident) value })

/-- Find a value by its identifier, or else by the name of its objective. -/
def find? (registry : Registry) (name : String) : Option Value :=
  registry.values.get? (key name) <|>
    registry.values.values.find? (·.name = name)

/-- Cut a dotted path into its segments. -/
def segments : List Char → List (List Char)
  | [] => [[]]
  | char :: rest =>
      match segments rest with
      | [] => [[char]]
      | segment :: others =>
          if char = '.' then [] :: segment :: others else (char :: segment) :: others

/-- Follow field names from a value on. -/
def follow (value : Value) : List String → Except UserError Value
  | [] => .ok value
  | segment :: rest =>
      match value.field? segment with
      | some field => follow field rest
      | none =>
          .error (.missingField segment value.ty.ownerName (value.ty.fields.map Prod.fst))

/-- Find a value by a dotted path.  A value that goes by the whole path takes
precedence. -/
def resolve (registry : Registry) (path : String) : Except UserError Value :=
  match registry.find? path with
  | some value => .ok value
  | none =>
      match (segments path.toList).map String.ofList with
      | [] => .error (.missingValue path)
      | first :: rest =>
          match registry.find? first with
          | some value => follow value rest
          | none => .error (.missingValue first)

def findStruct? (registry : Registry) (name : String) : Option StructDefinition :=
  registry.structs.get? (key name)

def getStruct (registry : Registry) (name : String) : Except UserError StructDefinition :=
  match registry.findStruct? name with
  | some definition => .ok definition
  | none => .error (.missingStruct name)

/-- Store a struct, whose name must not be taken. -/
def defineStruct (registry : Registry) (definition : StructDefinition) :
    Except UserError Registry :=
  if registry.structs.contains (key definition.name) then
    .error (.structRedefinition definition.name)
  else
    .ok { registry with structs := registry.structs.insert (key definition.name) definition }

/-- Delete the objectives of every value. -/
def remove (registry : Registry) : List Command :=
  registry.values.values.flatMap Value.remove

end Registry
end ScoreLowering
