import ScoreLowering.Diagnostic.Basic
import ScoreLowering.Text.Numeral

/-!
# Snippets as text

A snippet is written as a title, the marked line with its number and an
underline, and the notes.  Lines above the marked one are shown while there are
few of them; otherwise three dots stand for those left out.
-/

namespace ScoreLowering
namespace Snippet

/-- Cut a text into lines. -/
def lines : List Char → List (List Char)
  | [] => [[]]
  | '\n' :: rest => [] :: lines rest
  | char :: rest =>
      match lines rest with
      | [] => [[char]]
      | line :: others => (char :: line) :: others

def blanks (count : Nat) : String :=
  String.ofList (List.replicate count ' ')

/-- A line above or at the mark, or a gap. -/
inductive Row where
  | line (number : Nat)
  | gap
  deriving DecidableEq, Repr

/-- The rows that lead up to marked line `number`. -/
def rowsUpTo (number : Nat) : List Row :=
  if 8 < number then
    [.line 1, .line 2, .line 3, .line 4, .gap, .line (number - 1), .line number]
  else if 2 < number then
    [.gap, .line number]
  else
    (List.range number).map fun index => .line (index + 1)

def Row.text (width : Nat) (source : List (List Char)) : Row → String
  | .gap => "..."
  | .line number =>
      let digits := Numeral.ofNat number
      blanks (width - digits.length) ++ String.ofList digits ++ " | " ++
        String.ofList (source.getD (number - 1) [])

/-- The lines of an excerpt: its place, the rows up to the marked line and the
underline with its label. -/
def excerptLines? (origin : Option String) (source : String) (notes : List Note)
    (mark : Mark) : Option (List String) := do
  let chars := source.toList
  let (first, last) ← mark.charRange? source
  let before := chars.take first
  let number := before.count '\n' + 1
  let column := (before.reverse.takeWhile (· ≠ '\n')).length + 1
  let width := (Numeral.ofNat number).length
  let margin := blanks width
  let place := origin.toList.map fun path =>
    margin ++ "--> " ++ path ++ ":" ++ String.ofList (Numeral.ofNat number) ++ ":" ++
      String.ofList (Numeral.ofNat column)
  let underline :=
    margin ++ " | " ++ blanks (column - 1) ++
      String.ofList (List.replicate (last - first) '^') ++ " " ++ mark.label
  return place ++ [margin ++ " |"] ++ (rowsUpTo number).map (Row.text width (lines chars)) ++
    [underline, margin ++ " |"] ++
    notes.map fun note => margin ++ " = " ++ note.severity.name ++ ": " ++ note.label

/-- The text of a snippet.  There is none if a mark has no end. -/
def text? (snippet : Snippet) : Option String := do
  let title :=
    snippet.severity.name ++ "[" ++ snippet.id ++ "]: " ++ snippet.title
  let bodies ← snippet.excerpts.mapM fun excerpt =>
    excerpt.marks.mapM (excerptLines? excerpt.origin excerpt.source snippet.notes)
  return "\n".intercalate (title :: bodies.flatten.flatten)

end Snippet
end ScoreLowering
