/-!
# Byte positions in a text

Source positions are counted in bytes of the UTF-8 encoding, while a reader
counts characters.  Both measures are taken by walking over the characters, one
to four bytes each.
-/

namespace ScoreLowering
namespace Text

/-- The number of bytes that encode these characters. -/
def byteLength : List Char → Nat
  | [] => 0
  | char :: rest => char.utf8Size + byteLength rest

/-- The number of characters that start before byte `position`. -/
def charsBefore : List Char → Nat → Nat
  | [], _ => 0
  | _ :: _, 0 => 0
  | char :: rest, position => 1 + charsBefore rest (position - char.utf8Size)

/-- The characters in the first `position` bytes, or all of them if there are
fewer.  There are none such if the cut goes through a character. -/
def takeBytes? : List Char → Nat → Option (List Char)
  | _, 0 => some []
  | [], _ => some []
  | char :: rest, position =>
      if char.utf8Size ≤ position then
        (takeBytes? rest (position - char.utf8Size)).map (char :: ·)
      else
        none

end Text
end ScoreLowering
