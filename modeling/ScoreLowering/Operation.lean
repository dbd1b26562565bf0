import ScoreLowering.Score.Operation

/-!
# Operations of a statement

What a statement does to its left side.  Every operation is written like the
board's own operation that it stands for.
-/

namespace ScoreLowering

inductive Operation where
  | set
  | add
  | sub
  | mul
  | div
  | mod
  | swap
  deriving DecidableEq, Repr

namespace Operation

/-- The board's operation of the same kind. -/
def native : Operation → ScoreOperation
  | set => .copy
  | add => .add
  | sub => .subtract
  | mul => .multiply
  | div => .divide
  | mod => .modulo
  | swap => .swap

def text (operation : Operation) : String :=
  operation.native.symbol

/-- Whether the operation only moves what is stored. -/
def isTransfer : Operation → Bool
  | set | swap => true
  | add | sub | mul | div | mod => false

/-- Whether the right side of the operation is a divisor. -/
def isDivision : Operation → Bool
  | div | mod => true
  | set | add | sub | mul | swap => false

end Operation
end ScoreLowering
