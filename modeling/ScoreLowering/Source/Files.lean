import ScoreLowering.Source.Span
import ScoreLowering.Text.Bytes

/-!
# Source files

The files of a program share one line of byte positions: each file starts where
the one before it ends, so that a span alone tells which file it belongs to.
-/

namespace ScoreLowering

structure SourceFile where
  source : String
  path : Option String
  deriving DecidableEq, Repr

/-- A file with its number and the position of its first byte. -/
structure PlacedFile where
  id : Nat
  offset : Nat
  file : SourceFile
  deriving DecidableEq, Repr

/-- The files of a program, in the order in which they were added. -/
structure SourceFiles where
  files : List SourceFile := []
  deriving Repr

namespace SourceFile

/-- The number of bytes of the source text. -/
def size (file : SourceFile) : Nat :=
  Text.byteLength file.source.toList

end SourceFile

namespace PlacedFile

/-- A span counted from the start of this file. -/
def relative? (placed : PlacedFile) (span : Span) : Option Span :=
  span.relativeTo? placed.offset

/-- The line on which a span starts, counted from one.  A start behind the end
of the file is on its last line. -/
def line? (placed : PlacedFile) (span : Span) : Option Nat := do
  let relative ← placed.relative? span
  let before ← Text.takeBytes? placed.file.source.toList relative.start
  return before.count '\n' + 1

end PlacedFile

namespace SourceFiles

/-- Number and place a list of files, from a given number and offset on. -/
def placeFrom (id offset : Nat) : List SourceFile → List PlacedFile
  | [] => []
  | file :: rest => ⟨id, offset, file⟩ :: placeFrom (id + 1) (offset + file.size) rest

def placed (files : SourceFiles) : List PlacedFile :=
  placeFrom 0 0 files.files

def isEmpty (files : SourceFiles) : Bool :=
  files.files.isEmpty

/-- Add a file behind all others; its number is the number of files so far. -/
def add (files : SourceFiles) (file : SourceFile) : Nat × SourceFiles :=
  (files.files.length, ⟨files.files ++ [file]⟩)

def get? (files : SourceFiles) (id : Nat) : Option SourceFile :=
  files.files[id]?

def placed? (files : SourceFiles) (id : Nat) : Option PlacedFile :=
  files.placed[id]?

/-- The file a span belongs to: the last one that does not start behind it. -/
def find? (files : SourceFiles) (span : Span) : Option PlacedFile :=
  files.placed.reverse.find? fun placed => placed.offset ≤ span.start

end SourceFiles
end ScoreLowering
