/-!
# Maps that remember insertion order

Functions, declared values and generated routines are listed in the order in
which they first appeared, whatever happens to them later.  An `OrderedMap`
is a list of entries; inserting under a known key replaces the value where it
stands, and inserting under a new key appends.
-/

namespace ScoreLowering

/-- A finite map whose entries keep the order of their first insertion. -/
structure OrderedMap (κ α : Type) where
  entries : List (κ × α) := []
  deriving Repr

namespace OrderedMap

variable {κ α : Type} [DecidableEq κ]

instance : EmptyCollection (OrderedMap κ α) := ⟨⟨[]⟩⟩

instance : Inhabited (OrderedMap κ α) := ⟨∅⟩

def keys (map : OrderedMap κ α) : List κ :=
  map.entries.map Prod.fst

def values (map : OrderedMap κ α) : List α :=
  map.entries.map Prod.snd

def size (map : OrderedMap κ α) : Nat :=
  map.entries.length

def isEmpty (map : OrderedMap κ α) : Bool :=
  map.entries.isEmpty

def get? (map : OrderedMap κ α) (key : κ) : Option α :=
  (map.entries.find? fun entry => entry.1 = key).map Prod.snd

def contains (map : OrderedMap κ α) (key : κ) : Bool :=
  (map.get? key).isSome

/-- Store `value` under `key`: in place if the key is known, otherwise last. -/
def insert (map : OrderedMap κ α) (key : κ) (value : α) : OrderedMap κ α :=
  if map.contains key then
    ⟨map.entries.map fun entry => if entry.1 = key then (key, value) else entry⟩
  else
    ⟨map.entries ++ [(key, value)]⟩

/-- Forget `key`; the other entries keep their order. -/
def erase (map : OrderedMap κ α) (key : κ) : OrderedMap κ α :=
  ⟨map.entries.filter fun entry => entry.1 ≠ key⟩

/-- Two maps hold the same values under the same keys, in whatever order. -/
def agrees [DecidableEq α] (first second : OrderedMap κ α) : Bool :=
  first.size = second.size &&
    first.entries.all fun entry => second.get? entry.1 = some entry.2

@[simp]
theorem get?_empty (key : κ) : (∅ : OrderedMap κ α).get? key = none :=
  rfl

end OrderedMap

end ScoreLowering
