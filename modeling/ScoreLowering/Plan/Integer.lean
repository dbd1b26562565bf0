import ScoreLowering.Operation
import ScoreLowering.Plan.Carry

/-!
# Operations on integers

Between two integers every operation is one of the board's own.  With a decimal
on the right side both sides are brought to the unit of the decimal, and the
result is cut off toward zero.
-/

namespace ScoreLowering
namespace Plan

/-- An operation between single registers. -/
def native (this : Operand) (operation : Operation) (other : Operand) : Plan :=
  steps [.operate this.whole operation.native other.whole]

/-- Hold `this * unit` in a scratch register. -/
def withScaled (level : Nat) (this : Operand) (unit : Slot) (body : Slot → Plan) : Plan :=
  withScratch level .int this.address fun scaled =>
    steps [.operate scaled.whole .copy this.whole, .operate scaled.whole .multiply unit] ++
      body scaled.whole

/-- An operation of an integer with a decimal whose unit is `unitScore`. -/
def integerByDecimal (level : Nat) (this : Operand) (operation : Operation)
    (other : Operand) (unitScore : Score) : Plan :=
  match operation with
  | .set => native this .set other
  | .swap => native this .swap other ++ steps [.set other.fraction 0]
  | .add | .sub | .mod =>
      withConstant level unitScore this.address fun unit =>
      withScaled (level + 1) this unit fun scaled =>
      withCombined (level + 2) other unit this.address fun combined =>
        steps [.operate scaled operation.native combined] ++
        truncatingDivide (level + 3) scaled unit this.address ++
        steps [.operate this.whole .copy scaled]
  | .mul =>
      withConstant level unitScore this.address fun unit =>
      withCombined (level + 1) other unit this.address fun combined =>
        steps [.operate combined .multiply this.whole] ++
        truncatingDivide (level + 2) combined unit this.address ++
        steps [.operate this.whole .copy combined]
  | .div =>
      withConstant level unitScore this.address fun unit =>
      withScaled (level + 1) this unit fun scaled =>
      withCombined (level + 2) other unit this.address fun combined =>
        truncatingDivide (level + 3) scaled combined this.address ++
        -- a zero divisor keeps the left side
        steps [.guarded [(combined, nonZero)] (.operate this.whole .copy scaled)]

end Plan
end ScoreLowering
