import ScoreLowering.Plan.Basic

/-!
# Division toward zero

The board rounds quotients down.  Where the result is to be cut off toward zero,
a quotient that came out negative and inexact is one too small and is corrected
afterwards.
-/

namespace ScoreLowering
namespace Plan

def nonZero : Range :=
  (Range.exact 0).complement

/-- Divide the target, rounding toward zero.  Like the board's own division, a
zero divisor leaves the target alone. -/
def truncatingDivide (level : Nat) (target divisor : Slot) (address : Address) : Plan :=
  withScratch level .int address fun remainder =>
    steps
      [.operate remainder.whole .copy target,
       .operate remainder.whole .modulo divisor,
       .operate target .divide divisor,
       .guarded
         [(target, .atMost (-1)), (remainder.whole, nonZero), (divisor, nonZero)]
         (.add target 1)]

end Plan
end ScoreLowering
