import ScoreLowering.Diagnostic.Layout
import ScoreLowering.Lowering
import ScoreLowering.Registry

/-!
# Compilations

A compilation gathers commands into functions.  Statements are lowered one after
the other into the function that is open; a statement that fails adds nothing to
it.  At the end come the generated routines and the commands that delete
everything the program created.
-/

namespace ScoreLowering

/-- The names that a program is written with. -/
structure Settings where
  project : String := "mcc_project"
  /-- What registers of the stacks start with. -/
  stackStem : String := "_tmp"
  /-- What registers of the counter start with. -/
  counterStem : String := "_temp"
  /-- Who holds the global values. -/
  globalPlayer : String := "_"
  /-- The directory of generated routines. -/
  routineDirectory : String := "_mcc"
  deriving DecidableEq, Repr

structure Compilation where
  settings : Settings
  files : SourceFiles := {}
  registry : Registry
  workspace : Workspace
  functions : OrderedMap String (List Command) := ∅
  /-- The function that receives commands. -/
  current : Option String := none
  deriving Repr

/-- What a compilation comes to. -/
structure Program where
  head : List Command
  /-- The functions that were opened, then the generated routines. -/
  functions : OrderedMap String (List Command)
  uninstallPath : String
  uninstall : List Command
  deriving Repr

namespace Compilation

/-- The function that receives commands if none was opened. -/
def mainFunction : String := "main"

def start (settings : Settings) : Compilation where
  settings := settings
  registry := { globalPlayer := settings.globalPlayer }
  workspace :=
    { stacked := { stem := settings.stackStem, globalPlayer := settings.globalPlayer }
      counted := { stem := settings.counterStem }
      routines := { directory := settings.routineDirectory } }

def addFile (compilation : Compilation) (file : SourceFile) : Nat × Compilation :=
  let (id, files) := compilation.files.add file
  (id, { compilation with files := files })

/-- Create the objectives of a new value in the head and store the value.  A
global value is set to zero as well. -/
def introduce (compilation : Compilation) (value : Value) : Compilation :=
  let reset := if value.isGlobal then value.reset value.address.holder else []
  { compilation with
    workspace := compilation.workspace.pushHead (value.define ++ reset)
    registry := (compilation.registry.add value).2 }

/-- Declare a value.  If the name is known already, the value that has it is
meant. -/
def declare (compilation : Compilation) (ident : String) (ty : Ty)
    (attributes : List Attribute) : Value × Compilation :=
  match compilation.registry.find? ident with
  | some value => (value, compilation)
  | none =>
      let value := compilation.registry.create ident ty attributes
      (value, compilation.introduce value)

/-- Let a function receive commands from now on, creating it if it is new. -/
def openFunction (compilation : Compilation) (name : String) : Compilation :=
  { compilation with
    functions :=
      if compilation.functions.contains name then compilation.functions
      else compilation.functions.insert name []
    current := some name }

/-- Add commands to a function. -/
def appendTo (compilation : Compilation) (name : String) (commands : List Command) :
    Compilation :=
  let body := (compilation.functions.get? name).getD []
  { compilation with functions := compilation.functions.insert name (body ++ commands) }

/-- Add commands to the open function, which is the main function if none was
opened. -/
def append (compilation : Compilation) (commands : List Command) : Compilation :=
  match compilation.current with
  | some name => compilation.appendTo name commands
  | none => (compilation.openFunction mainFunction).appendTo mainFunction commands

/-- Take in what lowering the statement at `span` came to: its commands go to the
open function, and a failure is attached to the statement. -/
def record (compilation : Compilation) (span : Span)
    (result : Except LowerError (List Command)) : Except Diagnostic Unit × Compilation :=
  match result with
  | .ok commands => (.ok (), compilation.append commands)
  | .error error => (.error (error.attach span), compilation)

/-- Lower the statement at `span` and take in the result. -/
def lower (compilation : Compilation) (span : Span)
    (lowering : Registry → Workspace → Outcome (List Command)) :
    Except Diagnostic Unit × Compilation :=
  let (result, workspace) := lowering compilation.registry compilation.workspace
  { compilation with workspace := workspace }.record span result

/-- Delete every objective that the program ever created, each one once. -/
def uninstall (compilation : Compilation) : List Command :=
  (compilation.registry.remove ++ compilation.workspace.stacked.remove ++
    compilation.workspace.counted.remove).eraseDups

/-- The functions followed by the generated routines.  A routine takes the place
of a function with its path. -/
def allFunctions (compilation : Compilation) : OrderedMap String (List Command) :=
  compilation.workspace.routines.routines.foldl
    (fun functions routine => functions.insert routine.path routine.commands)
    compilation.functions

def finish (compilation : Compilation) : Program where
  head := compilation.workspace.head
  functions := compilation.allFunctions
  uninstallPath := compilation.settings.project ++ "/uninstall"
  uninstall := compilation.uninstall

end Compilation
end ScoreLowering
