import ScoreLowering.Score.Basic

/-!
# Decimal literals

A decimal literal is an exact number `mantissa / 10 ^ precision` with a mantissa
of 64 bits.  Literals are cut down to the digits a value can hold before the
program runs, so a literal that does not fit is found out then.
-/

namespace ScoreLowering

structure Decimal where
  mantissa : Int64
  /-- The number of digits after the point. -/
  precision : Nat
  deriving DecidableEq, Repr

namespace Decimal

/-- The number itself, if 64 bits can hold it. -/
def wide? (number : Int) : Option Int :=
  if Int64.minValue.toInt ≤ number ∧ number ≤ Int64.maxValue.toInt then
    some number
  else
    none

/-- A power of ten that 64 bits can hold. -/
def tenPower? (exponent : Nat) : Option Int :=
  wide? (Nat.pow 10 exponent)

def denominator? (decimal : Decimal) : Option Int :=
  tenPower? decimal.precision

/-- What is left of a literal's digits behind the point, in units of
`10 ^ -places` and cut off toward zero. -/
def rescale? (remainder : Int) (precision places : Nat) : Option Int :=
  if precision ≤ places then
    (tenPower? (places - precision)).bind fun factor => wide? (remainder * factor)
  else
    (tenPower? (precision - places)).map fun factor => remainder.tdiv factor

/-- Split into a whole part and a fraction in units of `10 ^ -places`.  Further
digits are cut off toward zero, so both parts have the sign of the number.
There is no split if a part does not fit into a register. -/
def split? (decimal : Decimal) (places : Nat) : Option (Score × Score) := do
  let denominator ← decimal.denominator?
  let whole ← Score.ofInt? (decimal.mantissa.toInt.tdiv denominator)
  let remainder := decimal.mantissa.toInt.tmod denominator
  let fraction ← (rescale? remainder decimal.precision places).bind Score.ofInt?
  return (whole, fraction)

/-- The whole part, cut off toward zero. -/
def truncate? (decimal : Decimal) : Option Score :=
  (decimal.split? 0).map Prod.fst

/-- The digits with a point before the last `precision` of them.  There is
always a digit before the point. -/
def pointed (digits : List Char) (precision : Nat) : List Char :=
  if precision = 0 then
    digits
  else
    let padded := digits.leftpad (precision + 1) '0'
    let whole := padded.length - precision
    padded.take whole ++ '.' :: padded.drop whole

def chars (decimal : Decimal) : List Char :=
  let digits := pointed (Numeral.ofNat decimal.mantissa.toInt.natAbs) decimal.precision
  if decimal.mantissa < 0 then '-' :: digits else digits

def text (decimal : Decimal) : String :=
  String.ofList decimal.chars

/-- The most digits after the point that can be read. -/
def maxDigits : Nat := 18

/-- Cut a text at its first point; without one nothing comes after it. -/
def splitAtPoint (chars : List Char) : List Char × List Char :=
  (chars.takeWhile (· ≠ '.'), (chars.dropWhile (· ≠ '.')).drop 1)

/-- Read an unsigned literal and apply a sign to it. -/
def readUnsigned? (negative : Bool) (body : List Char) : Option Decimal := do
  let (whole, fraction) := splitAtPoint body
  let magnitude ← Numeral.nat? (whole ++ fraction)
  if fraction.length ≤ maxDigits ∧ (magnitude : Int) ≤ Int64.maxValue.toInt then
    some ⟨Int64.ofInt (if negative then -magnitude else magnitude), fraction.length⟩
  else
    none

/-- Read a literal from characters. -/
def readChars? : List Char → Option Decimal
  | '-' :: body => readUnsigned? true body
  | body => readUnsigned? false body

/-- Read a literal: an optional minus sign, then digits with at most one point
among them. -/
def parse? (text : String) : Option Decimal :=
  readChars? text.toList

/-- What is said of a text that is no decimal literal. -/
def parseMessage (text : String) : String :=
  s!"Invalid decimal literal: {text}"

end Decimal
end ScoreLowering
