import ScoreLowering.OrderedMap
import ScoreLowering.Value.Basic

/-!
# Borrow routines

Carrying leaves a decimal with a fraction that is not negative.  If the whole
part is negative, one unit has to move from the whole part into the fraction for
the two to agree in sign.  The two commands that do so stand in a function of
their own, one for each layout of registers, and a guarded call runs it.
-/

namespace ScoreLowering

/-- What tells one borrow routine from another. -/
structure RoutineKey where
  name : String
  unit : Score
  holder : String
  deriving DecidableEq, Repr

/-- A generated function. -/
structure Routine where
  path : String
  commands : List Command
  deriving DecidableEq, Repr

/-- The generated functions, in the order of their first use. -/
structure Routines where
  /-- The directory of all paths. -/
  directory : String
  table : OrderedMap RoutineKey Routine := ∅
  deriving Repr

namespace Routines

def routines (routines : Routines) : List Routine :=
  routines.table.values

def size (routines : Routines) : Nat :=
  routines.table.size

def borrowKey (value : Value) (unit : Score) : RoutineKey :=
  ⟨value.name, unit, value.address.routineHolder⟩

/-- The name with everything but ASCII letters and digits replaced. -/
def sanitize (name : String) : String :=
  String.ofList (name.toList.map fun char => if char.isAlphanum then char else '_')

/-- The path of the next routine for an objective: numbered from the second
routine with this objective on. -/
def nextPath (routines : Routines) (name : String) : String :=
  let variants := (routines.table.keys.filter (·.name = name)).length
  let path := routines.directory ++ "/borrow/" ++ sanitize name
  if variants = 0 then path else s!"{path}_{variants}"

/-- Move one unit from the whole part into the fraction. -/
def borrowCommands (value : Value) (unit : Score) : List Command :=
  let holder := value.address.routineHolder
  [.addScore ⟨holder, value.objective .whole⟩ 1,
   .removeScore ⟨holder, value.objective .fraction⟩ unit]

/-- The path of the borrow routine for a value, which is generated if it is
new. -/
def borrow (routines : Routines) (value : Value) (unit : Score) : String × Routines :=
  let key := borrowKey value unit
  match routines.table.get? key with
  | some routine => (routine.path, routines)
  | none =>
      let path := routines.nextPath value.name
      (path, { routines with
        table := routines.table.insert key ⟨path, borrowCommands value unit⟩ })

/-- Call the routine at `path` if the whole part is negative and the fraction
positive. -/
def borrowCall (value : Value) (path : String) : Command :=
  let holder := value.address.routineHolder
  let executor : List Clause :=
    match value.address with
    | .entity selector => [.asEntity selector]
    | .player _ => []
  .execute
    (executor ++
      [.ifScore ⟨holder, value.objective .whole⟩ (.atMost (-1)),
       .ifScore ⟨holder, value.objective .fraction⟩ (.atLeast 1)])
    (.call path)

end Routines
end ScoreLowering
