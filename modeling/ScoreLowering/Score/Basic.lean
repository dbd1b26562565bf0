import ScoreLowering.Text.Numeral

/-!
# Scores

A score is a signed 32-bit number.  The board's own arithmetic wraps around;
everything that is decided before a program runs is computed exactly and then
checked against the range of a score.
-/

namespace ScoreLowering

/-- The content of one register of the board. -/
abbrev Score := Int32

namespace Score

def least : Int := Int32.minValue.toInt

def greatest : Int := Int32.maxValue.toInt

/-- The score with this number, if it is in range. -/
def ofInt? (number : Int) : Option Score :=
  if least ≤ number ∧ number ≤ greatest then some (Int32.ofInt number) else none

/-- The text of a score. -/
def text (score : Score) : String :=
  Numeral.text score.toInt

/-- Read a score: an optional sign, then digits that are in range. -/
def read? (chars : List Char) : Option Score :=
  (Numeral.int? chars).bind ofInt?

end Score
end ScoreLowering
