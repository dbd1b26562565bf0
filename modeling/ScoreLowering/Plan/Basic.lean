import ScoreLowering.Workspace

/-!
# Plans

A lowering is written down as a plan before it becomes commands.  A plan names
the registers of its operands as they are, but its scratch registers only by
number: the first one opened is level zero, one opened while it is held is level
one, and so on.  Which register a level stands for is settled by `allocate`,
which takes it from a pool, and the register goes back as soon as the part of
the plan that uses it is through, whether that part succeeded or not.

A plan never mentions a level that it has not opened.  Looking one up anyway
gives the empty register.
-/

namespace ScoreLowering

/-- A register of a plan. -/
inductive Slot where
  | fixed (register : Register)
  | scratch (level : Nat) (part : Part)
  deriving DecidableEq, Repr

/-- One instruction of a plan. -/
inductive Step where
  | set (target : Slot) (score : Score)
  | add (target : Slot) (amount : Score)
  | remove (target : Slot) (amount : Score)
  | operate (target : Slot) (operation : ScoreOperation) (source : Slot)
  /-- Do the step if all the slots are in their ranges. -/
  | guarded (tests : List (Slot × Range)) (step : Step)
  deriving DecidableEq, Repr

/-- What a lowering does, with its scratch registers still open. -/
inductive Plan where
  | steps (steps : List Step)
  /-- Call the borrow routine of a value whose parts disagree in sign. -/
  | borrow (value : Value) (unit : Score)
  | fail (error : LowerError)
  | sequence (first next : Plan)
  /-- Hold one more scratch register during a plan. -/
  | scratch (ty : Ty) (address : Address) (body : Plan)
  deriving DecidableEq, Repr

namespace Slot

/-- The register that a slot stands for, given the scratch registers held. -/
def register (held : List Value) : Slot → Register
  | fixed register => register
  | scratch level part =>
      match held[level]? with
      | some value => value.register part
      | none => ⟨"", ""⟩

end Slot

namespace Step

/-- The command for a step, given the scratch registers held. -/
def command (held : List Value) : Step → Command
  | set target score => .setScore (target.register held) score
  | add target amount => .addScore (target.register held) amount
  | remove target amount => .removeScore (target.register held) amount
  | operate target operation source =>
      .operate (target.register held) operation (source.register held)
  | guarded tests step =>
      .execute (tests.map fun (slot, range) => .ifScore (slot.register held) range)
        (step.command held)

end Step

/-- A lowering's outcome together with what it did to the workspace.  A failed
lowering may have changed the workspace as well. -/
abbrev Outcome (α : Type) := Except LowerError α × Workspace

namespace Plan

instance : Append Plan := ⟨sequence⟩

/-- Carry out a plan: take its scratch registers from `pool`, where `held` are
those already open, and write down its commands. -/
def allocate (pool : Pool) : Plan → List Value → Workspace → Outcome (List Command)
  | steps list, held, workspace => (.ok (list.map (Step.command held)), workspace)
  | borrow value unit, _, workspace =>
      let (path, workspace) := workspace.borrow value unit
      (.ok [Routines.borrowCall value path], workspace)
  | fail error, _, workspace => (.error error, workspace)
  | sequence first next, held, workspace =>
      match allocate pool first held workspace with
      | (.error error, workspace) => (.error error, workspace)
      | (.ok commands, workspace) =>
          match allocate pool next held workspace with
          | (.error error, workspace) => (.error error, workspace)
          | (.ok more, workspace) => (.ok (commands ++ more), workspace)
  | scratch ty address body, held, workspace =>
      let (lease, workspace) := workspace.acquire pool ty address
      let (result, workspace) := allocate pool body (held ++ [lease.value]) workspace
      (result, workspace.discard lease)

/-- The plan inside, or the plan that fails with the statement's fault. -/
def ofExcept : Except UserError Plan → Plan
  | .ok plan => plan
  | .error error => fail (.user error)

end Plan

/-- One side of an operation, in slots. -/
structure Operand where
  ty : Ty
  address : Address
  whole : Slot
  /-- Only decimals have one. -/
  fraction : Slot
  deriving DecidableEq, Repr

namespace Operand

/-- The operand in the scratch register of a level. -/
def scratch (level : Nat) (ty : Ty) (address : Address) : Operand :=
  ⟨ty, address, .scratch level .whole, .scratch level .fraction⟩

end Operand

namespace Value

def operand (value : Value) : Operand :=
  ⟨value.ty, value.address, .fixed (value.register .whole), .fixed (value.register .fraction)⟩

end Value

namespace Plan

/-- Hold a scratch register during the plan that `body` makes of it.  It becomes
level `level`, the number of those already held. -/
def withScratch (level : Nat) (ty : Ty) (address : Address) (body : Operand → Plan) : Plan :=
  scratch ty address (body (Operand.scratch level ty address))

/-- Hold a number in a scratch register. -/
def withConstant (level : Nat) (score : Score) (address : Address) (body : Slot → Plan) :
    Plan :=
  withScratch level .int address fun constant =>
    steps [.set constant.whole score] ++ body constant.whole

end Plan
end ScoreLowering
