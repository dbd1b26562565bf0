import ScoreLowering.Score.Basic

/-!
# Score ranges

Score tests match a register against a range such as `1..5`, `..-1` or `!3`.
Both bounds belong to the range, either may be missing, and a leading
exclamation mark turns the range into its complement.
-/

namespace ScoreLowering

/-- The scores between two optional bounds, or all others if `inverted`. -/
structure Range where
  min : Option Score
  max : Option Score
  inverted : Bool := false
  deriving DecidableEq, Repr

namespace Range

def between (min max : Score) : Range :=
  { min := some min, max := some max }

def exact (score : Score) : Range :=
  between score score

def atLeast (min : Score) : Range :=
  { min := some min, max := none }

def atMost (max : Score) : Range :=
  { min := none, max := some max }

/-- The range that holds exactly the scores this one does not. -/
def complement (range : Range) : Range :=
  { range with inverted := !range.inverted }

/-- Every score, written with the least score as its bound. -/
def always : Range :=
  atLeast Int32.minValue

def never : Range :=
  always.complement

/-- Whether a score lies between the bounds, inversion aside. -/
def inBounds (range : Range) (score : Score) : Bool :=
  range.min.all (· ≤ score) && range.max.all (score ≤ ·)

def contains (range : Range) (score : Score) : Bool :=
  range.inBounds score != range.inverted

/-- The bounds as text.  A range without bounds is written from the least
score on, since a lone `..` cannot be read. -/
def boundsText : Option Score → Option Score → String
  | some min, some max => if min = max then min.text else min.text ++ ".." ++ max.text
  | some min, none => min.text ++ ".."
  | none, some max => ".." ++ max.text
  | none, none => Score.text Int32.minValue ++ ".."

def text (range : Range) : String :=
  (if range.inverted then "!" else "") ++ boundsText range.min range.max

/-- Cut a text at its first pair of dots. -/
def splitAtDots : List Char → Option (List Char × List Char)
  | '.' :: '.' :: after => some ([], after)
  | char :: rest => (splitAtDots rest).map fun (before, after) => (char :: before, after)
  | [] => none

/-- Read a bound; no text is no bound. -/
def readBound? (chars : List Char) : Option (Option Score) :=
  if chars = [] then some none else (Score.read? chars).map some

/-- Read a range without its inversion mark.  At least one bound is needed. -/
def readBounds? (chars : List Char) : Option (Option Score × Option Score) :=
  match splitAtDots chars with
  | some (before, after) => do
      let min ← readBound? before
      let max ← readBound? after
      if min.isNone && max.isNone then none else some (min, max)
  | none => (Score.read? chars).map fun score => (some score, some score)

/-- Read a range from characters. -/
def readChars? : List Char → Option Range
  | '!' :: body => (readBounds? body).map fun (min, max) => ⟨min, max, true⟩
  | body => (readBounds? body).map fun (min, max) => ⟨min, max, false⟩

/-- Read a range. -/
def parse? (text : String) : Option Range :=
  readChars? text.toList

/-- What is said of a text that is no range. -/
def parseMessage (text : String) : String :=
  s!"Invalid range: {text}"

end Range
end ScoreLowering
