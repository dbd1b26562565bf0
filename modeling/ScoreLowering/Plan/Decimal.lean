import ScoreLowering.Plan.Integer

/-!
# Operations on decimals

Every operation leaves a decimal settled.  An operand of another precision is
brought to the precision of the left side first, and digits that the left side
has no room for are cut off toward zero.
-/

namespace ScoreLowering
namespace Plan

/-- The highest precision at which two decimals can be multiplied: the product of
two fractions has to fit into a register. -/
def maxMultiplyPrecision : Nat := 4

/-- An operation of a decimal with an integer. -/
def decimalByInteger (level : Nat) (this : Value) (operation : Operation)
    (other : Operand) (unitScore : Score) : Plan :=
  let target := this.operand
  match operation with
  | .set | .swap => native target operation other ++ steps [.set target.fraction 0]
  | .add | .sub =>
      native target operation other ++
      withConstant level unitScore this.address fun unit =>
        carry (level + 1) this unit unitScore
  | .mul =>
      steps
        [.operate target.whole .multiply other.whole,
         .operate target.fraction .multiply other.whole] ++
      withConstant level unitScore this.address fun unit =>
        carry (level + 1) this unit unitScore
  | .div =>
      withConstant level unitScore this.address fun unit =>
      withCombined (level + 1) target unit this.address fun combined =>
        truncatingDivide (level + 2) combined other.whole this.address ++
        splitFrom (level + 2) this combined unit unitScore
  | .mod =>
      withConstant level unitScore this.address fun unit =>
      withCombined (level + 1) target unit this.address fun combined =>
      withScratch (level + 2) .int this.address fun divisor =>
        steps
          [.operate divisor.whole .copy other.whole,
           .operate divisor.whole .multiply unit,
           .operate combined .modulo divisor.whole] ++
        splitFrom (level + 3) this combined unit unitScore

/-- The difference between two precisions. -/
def precisionGap (first second : Nat) : Nat :=
  (first - second) + (second - first)

/-- Hold a copy of a decimal in the type of the left side, rescaled to its
precision. -/
def withRescaled (level : Nat) (this : Value) (precision : Nat) (other : Operand)
    (otherPrecision : Nat) (body : Operand → Plan) : Plan :=
  withScratch level this.ty this.address fun copy =>
    steps
      [.operate copy.whole .copy other.whole,
       .operate copy.fraction .copy other.fraction] ++
    ofExcept ((Ty.scale (precisionGap precision otherPrecision)).map fun factorScore =>
      withConstant (level + 1) factorScore this.address fun factor =>
        if precision < otherPrecision then
          truncatingDivide (level + 2) copy.fraction factor this.address
        else
          steps [.operate copy.fraction .multiply factor]) ++
    body copy

/-- Exchange two decimals part by part, then rescale each fraction to the
precision of its new place. -/
def swapDecimals (level : Nat) (this : Operand) (precision : Nat) (other : Operand)
    (otherPrecision : Nat) : Plan :=
  let exchange := steps
    [.operate this.whole .swap other.whole, .operate this.fraction .swap other.fraction]
  if precision = otherPrecision then
    exchange
  else
    let (grows, shrinks) := if otherPrecision < precision then (this, other) else (other, this)
    exchange ++
    ofExcept ((Ty.scale (precisionGap precision otherPrecision)).map fun factorScore =>
      withConstant level factorScore this.address fun factor =>
        steps [.operate grows.fraction .multiply factor] ++
        truncatingDivide (level + 1) shrinks.fraction factor shrinks.address)

/-- Multiply two decimals of one precision, leaving the product unsettled.

The product is put together from partial products, so that no register holds
much more than the result.  Splitting a whole part as `q * unit + r`, the
products of `r` with the other fraction go to the fraction, and those of `q` to
the whole part. -/
def multiply (level : Nat) (this other : Operand) (unit : Slot) : Plan :=
  withScratch level .int this.address fun fraction =>
  withScratch (level + 1) .int this.address fun whole =>
  withScratch (level + 2) .int this.address fun part =>
    steps
      [.operate fraction.whole .copy this.fraction,
       .operate fraction.whole .multiply other.fraction] ++
    truncatingDivide (level + 3) fraction.whole unit this.address ++
    steps
      [.operate part.whole .copy other.whole,
       .operate part.whole .modulo unit,
       .operate part.whole .multiply this.fraction,
       .operate fraction.whole .add part.whole,
       .operate part.whole .copy this.whole,
       .operate part.whole .modulo unit,
       .operate part.whole .multiply other.fraction,
       .operate fraction.whole .add part.whole,
       .operate whole.whole .copy other.whole,
       .operate whole.whole .divide unit,
       .operate whole.whole .multiply this.fraction,
       .operate part.whole .copy this.whole,
       .operate part.whole .divide unit,
       .operate part.whole .multiply other.fraction,
       .operate whole.whole .add part.whole,
       .operate this.whole .multiply other.whole,
       .operate this.whole .add whole.whole,
       .operate this.fraction .copy fraction.whole]

/-- An operation between two decimals of one precision.  Quotients and
remainders have no plan, and exchanging needs none of this. -/
def balancedDecimals (level : Nat) (this : Value) (operation : Operation)
    (other : Operand) (unitScore : Score) : Plan :=
  let target := this.operand
  match operation with
  | .add | .sub =>
      steps
        [.operate target.whole operation.native other.whole,
         .operate target.fraction operation.native other.fraction] ++
      withConstant level unitScore this.address fun unit =>
        carry (level + 1) this unit unitScore
  | .mul =>
      withConstant level unitScore this.address fun unit =>
        multiply (level + 1) target other unit ++
        carry (level + 1) this unit unitScore
  | .set | .swap | .div | .mod =>
      steps
        [.operate target.whole .copy other.whole,
         .operate target.fraction .copy other.fraction]

/-- Whether two decimals cannot be combined at the precision of the left one. -/
def isUnsupported (operation : Operation) (precision : Nat) : Bool :=
  match operation with
  | .div | .mod => true
  | .mul => maxMultiplyPrecision < precision
  | .set | .add | .sub | .swap => false

/-- An operation between two decimals. -/
def decimalByDecimal (level : Nat) (this : Value) (precision : Nat) (operation : Operation)
    (other : Operand) (otherPrecision : Nat) (unitScore : Score) : Plan :=
  if isUnsupported operation precision then
    fail (.user (.unsupportedOperation operation.text this.ty.text other.ty.text))
  else if operation = .swap then
    swapDecimals level this.operand precision other otherPrecision
  else if precision = otherPrecision then
    balancedDecimals level this operation other unitScore
  else
    withRescaled level this precision other otherPrecision fun copy =>
      balancedDecimals (level + 1) this operation copy unitScore

end Plan
end ScoreLowering
