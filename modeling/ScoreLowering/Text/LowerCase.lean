import ScoreLowering.Text.CaseTable

/-!
# Small letters

Names are compared without regard to case, for letters of all alphabets.  Each
character is mapped on its own, with two exceptions: the dotted capital `İ`
becomes a letter and a combining dot, and a capital sigma becomes the final
form `ς` at the end of a word.
-/

namespace ScoreLowering
namespace Text

/-- The small counterpart of a character, which may take two characters. -/
def lowerChar (char : Char) : List Char :=
  if char = 'İ' then
    ['i', '̇']
  else
    match caseRuns.find? (·.covers char.toNat) with
    | some run => [Char.ofNat (char.toNat + run.shift).toNat]
    | none => [char]

/-- Whether the first character that is not passed over has case. -/
def meetsCased (chars : List Char) : Bool :=
  match chars.dropWhile (inRanges caseIgnorableRanges) with
  | [] => false
  | char :: _ => inRanges casedRanges char

/-- The small letters of a text, given the characters before it, nearest
first. -/
def lowerAfter (before : List Char) : List Char → List Char
  | [] => []
  | 'Σ' :: rest =>
      (if meetsCased before && !meetsCased rest then 'ς' else 'σ') ::
        lowerAfter ('Σ' :: before) rest
  | char :: rest => lowerChar char ++ lowerAfter (char :: before) rest

/-- The text in small letters. -/
def lowerCase (text : String) : String :=
  String.ofList (lowerAfter [] text.toList)

end Text
end ScoreLowering
