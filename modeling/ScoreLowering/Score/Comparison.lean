import ScoreLowering.Score.Basic

/-!
# Comparisons between two scores
-/

namespace ScoreLowering

inductive Comparison where
  | equal
  | notEqual
  | greater
  | greaterOrEqual
  | less
  | lessOrEqual
  deriving DecidableEq, Repr

namespace Comparison

def symbol : Comparison → String
  | equal => "=="
  | notEqual => "!="
  | greater => ">"
  | greaterOrEqual => ">="
  | less => "<"
  | lessOrEqual => "<="

/-- The comparison that holds after exchanging the two sides. -/
def flip : Comparison → Comparison
  | equal => equal
  | notEqual => notEqual
  | greater => less
  | greaterOrEqual => lessOrEqual
  | less => greater
  | lessOrEqual => greaterOrEqual

/-- The comparison that holds exactly when this one does not. -/
def negate : Comparison → Comparison
  | equal => notEqual
  | notEqual => equal
  | greater => lessOrEqual
  | greaterOrEqual => less
  | less => greaterOrEqual
  | lessOrEqual => greater

/-- Whether the comparison asks for sameness only, not for order. -/
def isEquality : Comparison → Bool
  | equal | notEqual => true
  | greater | greaterOrEqual | less | lessOrEqual => false

def evaluate : Comparison → Score → Score → Bool
  | equal, left, right => left = right
  | notEqual, left, right => left ≠ right
  | greater, left, right => right < left
  | greaterOrEqual, left, right => right ≤ left
  | less, left, right => left < right
  | lessOrEqual, left, right => left ≤ right

end Comparison
end ScoreLowering
