import ScoreLowering.Plan.Decimal

/-!
# Plans for statements

The plan for a statement depends on the types of its two sides.  Integers and
times are interchangeable, booleans can only be moved, and structs are moved
field by field if both sides have the same type.
-/

namespace ScoreLowering
namespace Plan

def incompatibleOperands (this : Ty) (operation : Operation) (other : Ty) : LowerError :=
  .user (.incompatibleOperands operation.text this.text other.text)

def incompatibleLiteral (this : Ty) (literal : Literal) : UserError :=
  .incompatibleLiteral literal.text this.text

/-- The plan that needs the unit of a precision. -/
def withUnit (precision : Nat) (body : Score → Plan) : Plan :=
  ofExcept ((Ty.scale precision).map body)

/-- An operation between two values that are not both structs. -/
def combineScalars (level : Nat) (this : Value) (operation : Operation) (other : Operand) :
    Plan :=
  match this.ty, other.ty with
  | .int, .int | .int, .time | .time, .int | .time, .time =>
      native this.operand operation other
  | .int, .decimal precision | .time, .decimal precision =>
      withUnit precision (integerByDecimal level this.operand operation other)
  | .decimal precision, .int | .decimal precision, .time =>
      withUnit precision (decimalByInteger level this operation other)
  | .decimal precision, .decimal otherPrecision =>
      withUnit precision
        (decimalByDecimal level this precision operation other otherPrecision)
  | .bool, .bool =>
      if operation.isTransfer then native this.operand operation other
      else fail (incompatibleOperands this.ty operation other.ty)
  | _, _ => fail (incompatibleOperands this.ty operation other.ty)

mutual

/-- An operation between two values, the first of type `ty`. -/
def combineAt (operation : Operation) : Ty → Value → Value → Plan
  | .struct name fields, this, other =>
      if other.ty = .struct name fields ∧ operation.isTransfer then
        combineFields operation fields this other
      else
        fail (incompatibleOperands this.ty operation other.ty)
  | .int, this, other => combineScalars 0 this operation other.operand
  | .decimal _, this, other => combineScalars 0 this operation other.operand
  | .bool, this, other => combineScalars 0 this operation other.operand
  | .time, this, other => combineScalars 0 this operation other.operand

/-- An operation between the fields of two structs. -/
def combineFields (operation : Operation) : List (String × Ty) → Value → Value → Plan
  | [], _, _ => steps []
  | (name, ty) :: rest, this, other =>
      combineAt operation ty (this.fieldValue name ty) (other.fieldValue name ty) ++
        combineFields operation rest this other

end

/-- The plan for `this operation= other`. -/
def combine (this : Value) (operation : Operation) (other : Value) : Plan :=
  combineAt operation this.ty this other

/-- The steps that store a literal in a scalar. -/
def store (target : Operand) (literal : Literal) : Except UserError (List Step) :=
  let outOfRange : UserError := .literalOutOfRange literal.text target.ty.text
  match target.ty, literal with
  | .int, .int score | .int, .time score | .time, .int score | .time, .time score =>
      .ok [.set target.whole score]
  | .int, .decimal decimal =>
      match decimal.truncate? with
      | some whole => .ok [.set target.whole whole]
      | none => .error outOfRange
  | .bool, .bool value => .ok [.set target.whole (if value then 1 else 0)]
  | .decimal _, .int score => .ok [.set target.whole score, .set target.fraction 0]
  | .decimal precision, .decimal decimal =>
      match decimal.split? precision with
      | some (whole, fraction) => .ok [.set target.whole whole, .set target.fraction fraction]
      | none => .error outOfRange
  | ty, literal => .error (incompatibleLiteral ty literal)

/-- The steps that set every register of a value to zero. -/
def clear (this : Value) : List Step :=
  this.objectives.map fun objective => .set (.fixed ⟨this.address.holder, objective⟩) 0

/-- The steps for `this = literal`.  Assigning nothing sets a value to zero. -/
def assignment (this : Value) (literal : Literal) : Except UserError (List Step) :=
  if literal = .null then .ok (clear this) else store this.operand literal

/-- An operation with a literal that is first stored in a scratch register. -/
def combineStored (this : Value) (operation : Operation) (literal : Literal) : Plan :=
  ofExcept (literal.ty.map fun ty =>
    withScratch 0 ty this.address fun stored =>
      ofExcept ((store stored literal).map steps) ++
      combineScalars 1 this operation stored)

/-- The plan for `this operation= literal`.  Adding a number to an integer is a
single command, and other operations store the literal first. -/
def combineLiteral (this : Value) (operation : Operation) (literal : Literal) : Plan :=
  if operation = .set then
    ofExcept ((assignment this literal).map steps)
  else if operation.isDivision && literal.isZero then
    fail (.internal (.divideByZero this.ident))
  else
    match this.ty, literal, operation with
    | .int, .int score, .add | .time, .int score, .add | .time, .time score, .add =>
        steps [.add this.operand.whole score]
    | .int, .int score, .sub | .time, .int score, .sub | .time, .time score, .sub =>
        steps [.remove this.operand.whole score]
    | _, _, .swap => fail (.user (incompatibleLiteral this.ty literal))
    | _, .null, _ => fail (.user (incompatibleLiteral this.ty literal))
    | _, _, _ => combineStored this operation literal

end Plan
end ScoreLowering
