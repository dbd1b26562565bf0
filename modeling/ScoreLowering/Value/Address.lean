import ScoreLowering.Score.Machine

/-!
# Addresses

A value belongs to an entity, which a selector points at, or to a player that
exists in name only and holds what is global.
-/

namespace ScoreLowering

/-- Whose score a value is. -/
inductive Address where
  | entity (selector : String)
  | player (name : String)
  deriving DecidableEq, Repr

namespace Address

/-- The entity that runs the command. -/
def here : Address :=
  entity Machine.self

def isGlobal : Address → Bool
  | entity _ => false
  | player _ => true

/-- The holder as it is written into commands. -/
def holder : Address → String
  | entity selector => selector
  | player name => name

/-- Point at another entity.  A global value stays where it is. -/
def select (address : Address) (selector : String) : Address :=
  match address with
  | entity _ => entity selector
  | player name => player name

/-- The holder as seen from a function that the addressed entity runs. -/
def routineHolder : Address → String
  | entity _ => Machine.self
  | player name => name

end Address
end ScoreLowering
