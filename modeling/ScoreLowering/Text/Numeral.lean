/-!
# Decimal numerals

Writing and reading whole numbers.  A number is written without leading zeros
and with a minus sign if it is negative; a reader accepts any number of leading
zeros and either sign.
-/

namespace ScoreLowering
namespace Numeral

/-- The digits of a natural number. -/
def ofNat (number : Nat) : List Char :=
  Nat.toDigits 10 number

/-- The digits of a number, after a minus sign if it is negative. -/
def ofInt (number : Int) : List Char :=
  if number < 0 then '-' :: ofNat number.natAbs else ofNat number.natAbs

/-- The text of a number. -/
def text (number : Int) : String :=
  String.ofList (ofInt number)

/-- Read one or more ASCII digits. -/
def nat? (chars : List Char) : Option Nat :=
  if chars ≠ [] ∧ chars.all Char.isDigit then
    some (Nat.ofDigitChars 10 chars 0)
  else
    none

/-- Read digits after an optional sign. -/
def int? : List Char → Option Int
  | '-' :: digits => (nat? digits).map fun magnitude => -(magnitude : Int)
  | '+' :: digits => (nat? digits).map fun magnitude => (magnitude : Int)
  | digits => (nat? digits).map fun magnitude => (magnitude : Int)

end Numeral
end ScoreLowering
