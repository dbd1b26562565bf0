import ScoreLowering.Value.Ty

/-!
# Objective names

The board limits the length of an objective's name.  An identifier that is too long
is replaced by a digest of eight letters and digits.  Digests hold no dot, so
they are never mistaken for the name of a fraction.
-/

namespace ScoreLowering
namespace Name

/-- The longest name of an objective. -/
def maxLength : Nat := 16

/-- What turns the name of a whole part into that of its fraction. -/
def fractionSuffix : String := ".d"

/-- The symbols of a digest. -/
def symbols : List Char :=
  "abcdefghijklmnopqrstuvwxyzABCDEFGHIJKLMNOPQRSTUVWXYZ0123456789".toList

def symbol (index : Nat) : Char :=
  symbols.getD (index % symbols.length) 'a'

/-- A word of up to eight bytes, least significant byte first. -/
def word : List UInt8 → UInt64
  | [] => 0
  | byte :: rest => byte.toUInt64 ||| (word rest <<< 8)

/-- Mix one word into the state of the digest. -/
def absorb (state word : UInt64) : UInt64 :=
  (((state <<< 5) ||| (state >>> 59)) ^^^ word) * 0x517cc1b727220a95

/-- Mix in all bytes, in words of eight, then four, two and one. -/
def absorbAll (state : UInt64) : List UInt8 → UInt64
  | a :: b :: c :: d :: e :: f :: g :: h :: rest =>
      absorbAll (absorb state (word [a, b, c, d, e, f, g, h])) rest
  | a :: b :: c :: d :: rest => absorbAll (absorb state (word [a, b, c, d])) rest
  | a :: b :: rest => absorbAll (absorb state (word [a, b])) rest
  | a :: rest => absorbAll (absorb state (word [a])) rest
  | [] => state

/-- The two symbols for one byte of the state. -/
def byteSymbols (byte : Nat) : List Char :=
  [symbol (byte % 64), symbol (byte / 4)]

/-- Eight symbols that stand in for a long identifier: two for each of the four
least significant bytes of the state. -/
def digest (ident : String) : String :=
  let state := (absorbAll 0 (ident.toList.flatMap String.utf8EncodeChar)).toNat
  String.ofList (byteSymbols (state % 256) ++ byteSymbols (state / 256 % 256) ++
    byteSymbols (state / 65536 % 256) ++ byteSymbols (state / 16777216 % 256))

/-- The name of the objective for an identifier, which is the identifier itself if it has at most
`limit` characters. -/
def objective (ident : String) (limit : Nat) : String :=
  if limit < ident.length then digest ident else ident

end Name

/-- The longest name that the main register of a value may have.  A decimal
leaves room for the suffix of its fraction. -/
def Ty.nameLimit : Ty → Nat
  | .decimal _ => Name.maxLength - Name.fractionSuffix.length
  | _ => Name.maxLength

end ScoreLowering
