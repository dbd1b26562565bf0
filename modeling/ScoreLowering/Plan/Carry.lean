import ScoreLowering.Plan.Division

/-!
# Whole parts and fractions

A decimal is settled if its fraction is smaller than one unit of its whole part
and the two parts do not disagree in sign.  `combineInto` joins the parts into a
single number, `splitFrom` takes such a number apart again, and `carry` settles
any pair of parts.
-/

namespace ScoreLowering
namespace Plan

/-- Put `whole * unit + fraction` into the target. -/
def combineInto (target : Slot) (value : Operand) (unit : Slot) : List Step :=
  [.operate target .copy value.whole,
   .operate target .multiply unit,
   .operate target .add value.fraction]

/-- Hold `whole * unit + fraction` in a scratch register. -/
def withCombined (level : Nat) (value : Operand) (unit : Slot) (address : Address)
    (body : Slot → Plan) : Plan :=
  withScratch level .int address fun combined =>
    steps (combineInto combined.whole value unit) ++ body combined.whole

/-- Move whole units from the fraction into the whole part.  What is left of the
fraction is not negative, so a negative whole part has to give one unit back. -/
def carry (level : Nat) (this : Value) (unit : Slot) (unitScore : Score) : Plan :=
  let target := this.operand
  withScratch level .int this.address (fun units =>
    steps
      [.operate units.whole .copy target.fraction,
       .operate units.whole .divide unit,
       .operate target.whole .add units.whole,
       .operate units.whole .multiply unit,
       .operate target.fraction .subtract units.whole]) ++
    borrow this unitScore

/-- Store a combined number in both parts of a decimal. -/
def splitFrom (level : Nat) (this : Value) (combined unit : Slot) (unitScore : Score) : Plan :=
  let target := this.operand
  steps [.set target.whole 0, .operate target.fraction .copy combined] ++
    carry level this unit unitScore

end Plan
end ScoreLowering
