import ScoreLowering.Error
import ScoreLowering.Score.Basic

/-!
# Types of values

Integers, times and booleans take one register.  A decimal takes two: its whole
part and its fraction in units of `10 ^ -precision`.  A struct takes the
registers of its fields, which may be structs in turn.
-/

namespace ScoreLowering

/-- The type of a value. -/
inductive Ty where
  | int
  | decimal (precision : Nat)
  | bool
  /-- A duration in ticks. -/
  | time
  | struct (name : String) (fields : List (String × Ty))
  deriving Repr

namespace Ty

mutual

/-- Whether two types are the same, fields included. -/
def same : Ty → Ty → Bool
  | int, int => true
  | decimal first, decimal second => first = second
  | bool, bool => true
  | time, time => true
  | struct first fields, struct second others => first = second && sameFields fields others
  | _, _ => false

def sameFields : List (String × Ty) → List (String × Ty) → Bool
  | [], [] => true
  | (first, ty) :: fields, (second, other) :: others =>
      first = second && same ty other && sameFields fields others
  | _, _ => false

end

mutual

theorem same_iff : (first second : Ty) → (first.same second = true ↔ first = second)
  | struct first fields, second => by
      cases second with
      | struct second others => simp [same, sameFields_iff fields others]
      | _ => simp [same]
  | int, second => by cases second <;> simp [same]
  | decimal precision, second => by cases second <;> simp [same]
  | bool, second => by cases second <;> simp [same]
  | time, second => by cases second <;> simp [same]

theorem sameFields_iff :
    (fields others : List (String × Ty)) →
      (sameFields fields others = true ↔ fields = others)
  | [], [] => by simp [sameFields]
  | [], _ :: _ => by simp [sameFields]
  | _ :: _, [] => by simp [sameFields]
  | (first, ty) :: fields, (second, other) :: others => by
      simp [sameFields, same_iff ty other, sameFields_iff fields others]

end

instance : DecidableEq Ty := fun first second =>
  decidable_of_iff _ (same_iff first second)

/-- The largest precision of a decimal: `10 ^ 9` is the largest power of ten
that is a score. -/
def maxPrecision : Nat := 9

/-- `10 ^ precision`, the number of fraction units in one. -/
def scale (precision : Nat) : Except UserError Score :=
  if precision ≤ maxPrecision then
    .ok (Int32.ofNat (Nat.pow 10 precision))
  else
    .error (.invalidPrecision precision maxPrecision)

/-- A decimal type, if values of that precision can be stored. -/
def decimal? (precision : Nat) : Except UserError Ty :=
  (scale precision).map fun _ => decimal precision

/-- The name of the type in messages. -/
def text : Ty → String
  | int => "int"
  | decimal precision => s!"decimal {precision}"
  | bool => "bool"
  | time => "time"
  | struct name _ => s!"struct {name}"

/-- A short code for the type that can be part of a name. -/
def code : Ty → String
  | int => "i"
  | decimal precision => s!"d{precision}"
  | bool => "b"
  | time => "t"
  | struct name _ => s!"s{name}"

/-- The digits after the point, for decimals. -/
def precision? : Ty → Option Nat
  | decimal precision => some precision
  | _ => none

/-- Whether a value of this type is a single whole number. -/
def isIntegral : Ty → Bool
  | int | time | bool => true
  | decimal _ | struct _ _ => false

/-- Whether two names differ in the case of ASCII letters only. -/
def sameFieldName (first second : String) : Bool :=
  first.toList.map Char.toLower = second.toList.map Char.toLower

/-- Look up a field by name, ignoring ASCII case. -/
def findField? (fields : List (String × Ty)) (name : String) : Option (String × Ty) :=
  fields.find? fun field => sameFieldName field.1 name

/-- The fields of a struct; no other type has any. -/
def fields : Ty → List (String × Ty)
  | struct _ fields => fields
  | _ => []

/-- The name of a struct, or of the type otherwise, when a field is missing. -/
def ownerName : Ty → String
  | struct name _ => name
  | ty => ty.text

end Ty
end ScoreLowering
