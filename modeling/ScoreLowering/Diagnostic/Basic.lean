import ScoreLowering.Error
import ScoreLowering.Source.Files

/-!
# Diagnostics

A lowering knows no source text.  Whoever knows the statement attaches it to
the error, which can then be shown as a snippet: the text of the file with the
statement marked, and notes below it.
-/

namespace ScoreLowering

/-- An error with the statement it comes from, if one is to blame. -/
inductive Diagnostic where
  | user (error : UserError) (span : Span)
  | internal (error : InternalError)
  deriving DecidableEq, Repr

/-- How a mark or a note is to be understood. -/
inductive Severity where
  | error
  | info
  | help
  | note
  deriving DecidableEq, Repr

namespace Severity

def name : Severity → String
  | error => "error"
  | info => "info"
  | help => "help"
  | note => "note"

end Severity

/-- A marked stretch of a source text, in bytes from its start. -/
structure Mark where
  severity : Severity
  label : String
  range : Span
  deriving DecidableEq, Repr

/-- A source text with marks in it. -/
structure Excerpt where
  origin : Option String
  source : String
  marks : List Mark
  deriving DecidableEq, Repr

/-- A remark below the source text. -/
structure Note where
  severity : Severity
  label : String
  deriving DecidableEq, Repr

/-- Everything that is shown for one error. -/
structure Snippet where
  title : String
  id : String
  severity : Severity
  excerpts : List Excerpt
  notes : List Note
  deriving DecidableEq, Repr

namespace LowerError

/-- Attach a statement.  It is dropped where no statement is to blame. -/
def attach (error : LowerError) (span : Span) : Diagnostic :=
  match error with
  | user error => .user error span
  | internal error => .internal error

end LowerError

namespace Mark

/-- The marked stretch of `source` in characters: from the first marked
character to the one behind the last.  There is none if the mark has no end. -/
def charRange? (mark : Mark) (source : String) : Option (Nat × Nat) := do
  let stop ← mark.range.stop?
  return (Text.charsBefore source.toList mark.range.start,
    Text.charsBefore source.toList stop)

end Mark

namespace UserError

/-- Where else to look, besides the statement itself. -/
def declaration? : UserError → Option Span
  | unexpectedType _ _ declared => declared
  | _ => none

/-- Remarks that help to mend the statement. -/
def notes : UserError → List Note
  | missingField _ _ available =>
      [⟨.help, "Available fields: " ++ ", ".intercalate available⟩]
  | unsupportedOperation _ _ _ =>
      [⟨.note, "Dividing two decimals is not supported; convert one side to an integer"⟩]
  | _ => []

/-- The marks for an error at `span`, in bytes of the given file.  There are
none if a span starts before the file does. -/
def marks? (error : UserError) (span : Span) (placed : PlacedFile) : Option (List Mark) := do
  let range ← placed.relative? span
  let statement : Mark := ⟨.error, error.label, range⟩
  match error.declaration? with
  | none => return [statement]
  | some declared =>
      let range ← placed.relative? declared
      return [statement, ⟨.info, "Type declared here", range⟩]

end UserError

namespace Diagnostic

def message : Diagnostic → String
  | user error _ => "Compile error: " ++ error.message
  | internal error => "Internal compiler error: " ++ error.message

/-- What to show for an error.  A statement outside of all files is not shown.
There is no snippet if a declaration lies before the file of the statement. -/
def snippet? (diagnostic : Diagnostic) (files : SourceFiles) : Option Snippet :=
  match diagnostic with
  | internal error => some ⟨error.message, "Internal", .error, [], []⟩
  | user error span =>
      match files.find? span with
      | none => some ⟨error.message, "Lang", .error, [], []⟩
      | some placed => do
          let marks ← error.marks? span placed
          return ⟨error.message, "Lang", .error,
            [⟨placed.file.path, placed.file.source, marks⟩], error.notes⟩

end Diagnostic
end ScoreLowering
