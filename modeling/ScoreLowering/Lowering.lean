import ScoreLowering.Filter

/-!
# Lowering statements

The operations of the library on values: each turns a statement into commands,
taking scratch registers from one of the pools.  The workspace comes back
changed even if the statement failed, since a scratch register stays created
once it was.
-/

namespace ScoreLowering

namespace Value

/-- The commands for `this = literal`. -/
def assign (this : Value) (literal : Literal) : Except LowerError (List Command) :=
  match Plan.assignment this literal with
  | .ok steps => .ok (steps.map (Step.command []))
  | .error error => .error (.user error)

/-- The commands for `this operation= other`. -/
def operate (pool : Pool) (this : Value) (operation : Operation) (other : Value)
    (workspace : Workspace) : Outcome (List Command) :=
  (Plan.combine this operation other).allocate pool [] workspace

/-- The commands for `this operation= literal`. -/
def operateLiteral (pool : Pool) (this : Value) (operation : Operation)
    (literal : Literal) (workspace : Workspace) : Outcome (List Command) :=
  (Plan.combineLiteral this operation literal).allocate pool [] workspace

end Value

namespace Workspace

/-- A scratch register of the stacks, in one of the two scopes. -/
def acquireIn (workspace : Workspace) (global : Bool) (ty : Ty) : Lease × Workspace :=
  workspace.acquire .stacked ty (workspace.stacked.scopeAddress global)

/-- A scratch register of the stacks with the type of a value, in the scope asked
for or else where the value is. -/
def acquireCopy (workspace : Workspace) (value : Value) (scope : Option Bool) :
    Lease × Workspace :=
  workspace.acquire .stacked value.ty (workspace.stacked.copyAddress value scope)

/-- An integer register with a number in it, and the command that puts it
there. -/
def acquireConstant (workspace : Workspace) (pool : Pool) (score : Score)
    (address : Address) : Lease × List Command × Workspace :=
  let (lease, workspace) := workspace.acquire pool .int address
  (lease, [.setScore (lease.value.register .whole) score], workspace)

end Workspace
end ScoreLowering
