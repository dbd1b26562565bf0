import ScoreLowering.Score.Basic

/-!
# Operations between two scores

The board has nine operations that combine a target with a source.  Sums,
differences and products wrap around; quotients are rounded down, remainders
take the sign of the divisor, and a zero divisor leaves the target alone.

The processor's own division rounds toward zero, so both quotient and remainder
are corrected by one step when the operands disagree in sign.
-/

namespace ScoreLowering

/-- The quotient rounded down, or the dividend if the divisor is zero. -/
def Score.floorDivide (dividend divisor : Score) : Score :=
  if divisor = 0 then
    dividend
  else if dividend % divisor ≠ 0 ∧ (decide (dividend < 0) ≠ decide (divisor < 0)) then
    dividend / divisor - 1
  else
    dividend / divisor

/-- The remainder with the sign of the divisor, or the dividend if the divisor
is zero. -/
def Score.floorModulo (dividend divisor : Score) : Score :=
  if divisor = 0 then
    dividend
  else if dividend % divisor ≠ 0 ∧
      (decide (dividend % divisor < 0) ≠ decide (divisor < 0)) then
    dividend % divisor + divisor
  else
    dividend % divisor

/-- What the board can do to a target register with a source register. -/
inductive ScoreOperation where
  | copy
  | add
  | subtract
  | multiply
  | divide
  | modulo
  | swap
  | min
  | max
  deriving DecidableEq, Repr

namespace ScoreOperation

/-- The operator as it is written in a command. -/
def symbol : ScoreOperation → String
  | copy => "="
  | add => "+="
  | subtract => "-="
  | multiply => "*="
  | divide => "/="
  | modulo => "%="
  | swap => "><"
  | min => "<"
  | max => ">"

/-- The new content of the target.  For a swap the source receives the old
content of the target as well. -/
def evaluate : ScoreOperation → Score → Score → Score
  | copy, _, source => source
  | add, target, source => target + source
  | subtract, target, source => target - source
  | multiply, target, source => target * source
  | divide, target, source => target.floorDivide source
  | modulo, target, source => target.floorModulo source
  | swap, _, source => source
  | min, target, source => if target ≤ source then target else source
  | max, target, source => if target ≤ source then source else target

end ScoreOperation
end ScoreLowering
