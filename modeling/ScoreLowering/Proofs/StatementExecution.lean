import ScoreLowering.Proofs.AllocationSimulation

/-!
# Lowering and executing statements

A statement is any of the things that can be asked of values: an assignment, an
operation with a value or with a literal, or a comparison with a literal.  This
file says what it means to execute the commands of a statement and reduces it to
running a plan.
-/

namespace ScoreLowering

namespace Value

/-- The number of fraction units in one, for a decimal that can be stored. -/
def unit? (value : Value) : Option Score :=
  match value.ty with
  | .decimal precision => (Ty.scale precision).toOption
  | _ => none

theorem unit?_decimal {value : Value} {precision : Nat} {unit : Score}
    (tyEq : value.ty = .decimal precision) (scaled : Ty.scale precision = .ok unit) :
    value.unit? = some unit := by
  simp [unit?, tyEq, scaled, Except.toOption]

/-- Wherever the registers of a value are, their objectives are its own. -/
theorem objective_mem_objectives {value : Value} {executor : String} {register : Register}
    (member : register ∈ value.registers.map (Machine.locate executor)) :
    register.objective ∈ value.objectives := by
  obtain ⟨source, inside, rfl⟩ := List.mem_map.mp member
  obtain ⟨objective, objectiveMem, rfl⟩ := List.mem_map.mp inside
  exact objectiveMem

end Value

namespace Plan

/-- Nothing but this value borrows, and in its own unit. -/
def OnlyBorrows (value : Value) (plan : Plan) : Prop :=
  ∀ pair ∈ plan.borrowers, pair.1 = value ∧ value.unit? = some pair.2

variable {value : Value}

@[simp]
theorem onlyBorrows_steps (list : List Step) : (steps list).OnlyBorrows value := by
  simp [OnlyBorrows, borrowers]

@[simp]
theorem onlyBorrows_fail (error : LowerError) : (fail error).OnlyBorrows value := by
  simp [OnlyBorrows, borrowers]

@[simp]
theorem onlyBorrows_append (first next : Plan) :
    (first ++ next).OnlyBorrows value ↔ first.OnlyBorrows value ∧ next.OnlyBorrows value :=
  List.forall_mem_append

@[simp]
theorem onlyBorrows_withScratch (level : Nat) (ty : Ty) (address : Address)
    (body : Operand → Plan) :
    (withScratch level ty address body).OnlyBorrows value ↔
      (body (Operand.scratch level ty address)).OnlyBorrows value :=
  Iff.rfl

@[simp]
theorem onlyBorrows_withConstant (level : Nat) (score : Score) (address : Address)
    (body : Slot → Plan) :
    (withConstant level score address body).OnlyBorrows value ↔
      (body (.scratch level .whole)).OnlyBorrows value := by
  simp [withConstant, Operand.scratch]

theorem onlyBorrows_ofExcept {α : Type} {result : Except UserError α} {body : α → Plan}
    (bodyOnly : ∀ item, result = .ok item → (body item).OnlyBorrows value) :
    (ofExcept (result.map body)).OnlyBorrows value := by
  cases result with
  | ok item => exact bodyOnly item rfl
  | error error => exact onlyBorrows_fail _

theorem onlyBorrows_carry {unitScore : Score} (unitEq : value.unit? = some unitScore)
    (level : Nat) (unit : Slot) : (carry level value unit unitScore).OnlyBorrows value := by
  simp only [carry, onlyBorrows_append, onlyBorrows_withScratch, onlyBorrows_steps, true_and]
  simp [OnlyBorrows, borrowers, unitEq]

theorem onlyBorrows_truncatingDivide (level : Nat) (target divisor : Slot)
    (address : Address) : (truncatingDivide level target divisor address).OnlyBorrows value := by
  simp [truncatingDivide]

/-- An operation that settles its left side may have it borrow; moving contents
has nothing borrow. -/
def MayBorrow (value this : Value) (operation : Operation) (unitScore : Score) : Prop :=
  operation.isTransfer = false → this = value ∧ value.unit? = some unitScore

theorem onlyBorrows_decimalByInteger {this : Value} {operation : Operation}
    {unitScore : Score} (allowed : MayBorrow value this operation unitScore) (level : Nat)
    (other : Operand) :
    (decimalByInteger level this operation other unitScore).OnlyBorrows value := by
  cases operation with
  | set | swap => simp [decimalByInteger, native]
  | _ =>
      obtain ⟨rfl, unitEq⟩ := allowed rfl
      simp [decimalByInteger, native, withCombined, splitFrom, onlyBorrows_truncatingDivide,
        onlyBorrows_carry unitEq]

theorem onlyBorrows_balancedDecimals {this : Value} {operation : Operation}
    {unitScore : Score} (allowed : MayBorrow value this operation unitScore) (level : Nat)
    (other : Operand) :
    (balancedDecimals level this operation other unitScore).OnlyBorrows value := by
  cases operation with
  | set | swap | div | mod => simp [balancedDecimals]
  | _ =>
      obtain ⟨rfl, unitEq⟩ := allowed rfl
      simp [balancedDecimals, multiply, onlyBorrows_truncatingDivide, onlyBorrows_carry unitEq]

theorem onlyBorrows_decimalByDecimal {this : Value} {operation : Operation}
    {unitScore : Score} (allowed : MayBorrow value this operation unitScore)
    (level precision otherPrecision : Nat) (other : Operand) :
    (decimalByDecimal level this precision operation other otherPrecision
      unitScore).OnlyBorrows value := by
  unfold decimalByDecimal
  split
  · exact onlyBorrows_fail _
  split
  · simp only [swapDecimals]
    split
    · exact onlyBorrows_steps _
    · rw [onlyBorrows_append]
      refine ⟨onlyBorrows_steps _, onlyBorrows_ofExcept fun factor _ => ?_⟩
      simp [onlyBorrows_truncatingDivide]
  split
  · exact onlyBorrows_balancedDecimals allowed _ _
  · simp only [withRescaled, onlyBorrows_withScratch, onlyBorrows_append]
    refine ⟨⟨onlyBorrows_steps _, onlyBorrows_ofExcept fun factor _ => ?_⟩,
      onlyBorrows_balancedDecimals allowed _ _⟩
    rw [onlyBorrows_withConstant]
    split
    · exact onlyBorrows_truncatingDivide _ _ _ _
    · exact onlyBorrows_steps _

theorem onlyBorrows_combineScalars {this : Value} {operation : Operation}
    (allowed : operation.isTransfer = false → this = value) (level : Nat) (other : Operand) :
    (combineScalars level this operation other).OnlyBorrows value := by
  have direct : (native this.operand operation other).OnlyBorrows value := onlyBorrows_steps _
  have mayBorrow {precision : Nat} {unitScore : Score} (tyEq : this.ty = .decimal precision)
      (scaled : Ty.scale precision = .ok unitScore) :
      MayBorrow value this operation unitScore := by
    intro settles
    obtain rfl := allowed settles
    exact ⟨rfl, Value.unit?_decimal tyEq scaled⟩
  unfold combineScalars
  split
  case h_1 | h_2 | h_3 | h_4 => exact direct
  case h_5 | h_6 =>
      apply onlyBorrows_ofExcept
      intro unitScore _
      cases operation <;>
        simp [integerByDecimal, native, withScaled, withCombined, onlyBorrows_truncatingDivide]
  case h_7 tyEq _ | h_8 tyEq _ =>
      exact onlyBorrows_ofExcept fun unitScore scaled =>
        onlyBorrows_decimalByInteger (mayBorrow tyEq scaled) _ _
  case h_9 tyEq _ =>
      exact onlyBorrows_ofExcept fun unitScore scaled =>
        onlyBorrows_decimalByDecimal (mayBorrow tyEq scaled) _ _ _ _
  case h_10 =>
      split
      · exact direct
      · exact onlyBorrows_fail _
  case h_11 => exact onlyBorrows_fail _

mutual

theorem onlyBorrows_combineAt {operation : Operation} :
    (ty : Ty) → (this other : Value) → (operation.isTransfer = false → this = value) →
      (combineAt operation ty this other).OnlyBorrows value
  | .struct name fields, this, other, _ => by
      rw [combineAt]
      split
      · rename_i moved
        exact onlyBorrows_combineFields moved.2 fields this other
      · exact onlyBorrows_fail _
  | .int, this, other, allowed => onlyBorrows_combineScalars allowed 0 other.operand
  | .decimal _, this, other, allowed => onlyBorrows_combineScalars allowed 0 other.operand
  | .bool, this, other, allowed => onlyBorrows_combineScalars allowed 0 other.operand
  | .time, this, other, allowed => onlyBorrows_combineScalars allowed 0 other.operand

theorem onlyBorrows_combineFields {operation : Operation} (transfer : operation.isTransfer) :
    (fields : List (String × Ty)) → (this other : Value) →
      (combineFields operation fields this other).OnlyBorrows value
  | [], _, _ => onlyBorrows_steps _
  | (name, ty) :: rest, this, other => by
      rw [combineFields, onlyBorrows_append]
      refine ⟨onlyBorrows_combineAt ty _ _ fun settles => ?_,
        onlyBorrows_combineFields transfer rest this other⟩
      rw [transfer] at settles
      cases settles

end

theorem onlyBorrows_combineLiteral (this : Value) (operation : Operation) (literal : Literal) :
    (combineLiteral this operation literal).OnlyBorrows this := by
  unfold combineLiteral
  split
  · exact onlyBorrows_ofExcept fun list _ => onlyBorrows_steps list
  split
  · exact onlyBorrows_fail _
  split
  case h_1 | h_2 | h_3 | h_4 | h_5 | h_6 => exact onlyBorrows_steps _
  case h_7 | h_8 => exact onlyBorrows_fail _
  case h_9 =>
      apply onlyBorrows_ofExcept
      intro ty _
      rw [onlyBorrows_withScratch, onlyBorrows_append]
      exact ⟨onlyBorrows_ofExcept fun list _ => onlyBorrows_steps list,
        onlyBorrows_combineScalars (fun _ => rfl) 1 _⟩

end Plan

inductive Statement where
  | assign (this : Value) (literal : Literal)
  | operate (this : Value) (operation : Operation) (other : Value)
  | operateLiteral (this : Value) (operation : Operation) (literal : Literal)
  | compare (this : Value) (comparison : Comparison) (literal : Literal)
  deriving DecidableEq, Repr

namespace Statement

/-- The left side. -/
def left : Statement → Value
  | assign this _ | operate this _ _ | operateLiteral this _ _ | compare this _ _ => this

/-- The values that take part. -/
def operands : Statement → List Value
  | operate this _ other => [this, other]
  | assign this _ | operateLiteral this _ _ | compare this _ _ => [this]

/-- The values that may get other contents. -/
def targets : Statement → List Value
  | operate this operation other => if operation = .swap then [this, other] else [this]
  | assign this _ | operateLiteral this _ _ => [this]
  | compare _ _ _ => []

/-- The commands of a statement.  Once a comparison has been made, its filter is
given up. -/
def lower (pool : Pool) (statement : Statement) (workspace : Workspace) :
    Outcome (List Command) :=
  match statement with
  | assign this literal => (this.assign literal, workspace)
  | operate this operation other => this.operate pool operation other workspace
  | operateLiteral this operation literal => this.operateLiteral pool operation literal workspace
  | compare this comparison literal =>
      match this.compare pool comparison literal workspace with
      | (.ok filter, later) =>
          (.ok filter.commands, filter.lease.elim later later.discard)
      | (.error error, later) => (.error error, later)

/-- The plan of a comparison: only decimals need commands. -/
def comparePlan (this : Value) (comparison : Comparison) (literal : Literal) : Plan :=
  match this.ty with
  | .bool =>
      if !comparison.isEquality then
        .fail (.user (.unsupportedComparison comparison.symbol this.ty.text))
      else
        match literal with
        | .bool _ => .steps []
        | _ => .fail (.user (Plan.incompatibleLiteral this.ty literal))
  | .int | .time => Plan.ofExcept ((Filter.rational this.ty literal 0).map fun _ => .steps [])
  | .decimal precision =>
      Plan.ofExcept ((Filter.rational this.ty literal precision).map fun _ =>
        Plan.withScratch 0 .int this.address fun _ => Filter.joinPlan this precision)
  | .struct _ _ => .fail (.user (Plan.incompatibleLiteral this.ty literal))

def plan : Statement → Plan
  | assign this literal => Plan.ofExcept ((Plan.assignment this literal).map .steps)
  | operate this operation other => Plan.combine this operation other
  | operateLiteral this operation literal => Plan.combineLiteral this operation literal
  | compare this comparison literal => comparePlan this comparison literal

theorem lower_joined (pool : Pool) (this : Value) (precision : Nat) (comparison : Comparison)
    (fraction : Int × Int) (workspace : Workspace) :
    (match Filter.joined pool this precision comparison fraction workspace with
      | (.ok filter, later) =>
          (.ok filter.commands, filter.lease.elim later later.discard)
      | (.error error, later) => (.error error, later)) =
      (Plan.withScratch 0 .int this.address fun _ =>
        Filter.joinPlan this precision).allocate pool [] workspace := by
  simp only [Filter.joined, Plan.withScratch, Plan.allocate, List.nil_append]
  rcases (Filter.joinPlan this precision).allocate pool
    [(workspace.acquire pool .int this.address).1.value]
    (workspace.acquire pool .int this.address).2 with ⟨error | commands, later⟩
  · rfl
  · rfl

theorem lower_compare (pool : Pool) (this : Value) (comparison : Comparison)
    (literal : Literal) (workspace : Workspace) :
    (compare this comparison literal).lower pool workspace =
      (comparePlan this comparison literal).allocate pool [] workspace := by
  cases tyEq : this.ty with
  | bool =>
      cases equality : comparison.isEquality with
      | false => simp [lower, Value.compare, comparePlan, tyEq, equality, Plan.allocate]
      | true =>
          cases literal <;>
            simp [lower, Value.compare, comparePlan, tyEq, equality, Plan.allocate,
              Filter.direct]
  | int | time =>
      simp only [lower, Value.compare, comparePlan, tyEq]
      cases Filter.rational _ literal 0 <;> rfl
  | decimal precision =>
      simp only [lower, Value.compare, comparePlan, tyEq]
      cases Filter.rational (.decimal precision) literal precision with
      | error error => rfl
      | ok fraction => exact lower_joined pool this precision comparison fraction workspace
  | struct name fields => simp [lower, Value.compare, comparePlan, tyEq, Plan.allocate]

/-- A statement is lowered by carrying out its plan. -/
theorem lower_eq_allocate (pool : Pool) (statement : Statement) (workspace : Workspace) :
    statement.lower pool workspace = statement.plan.allocate pool [] workspace := by
  cases statement with
  | assign this literal =>
      cases assigned : Plan.assignment this literal with
      | ok steps =>
          simp [lower, Value.assign, plan, assigned, Except.map, Plan.ofExcept, Plan.allocate]
      | error error =>
          simp [lower, Value.assign, plan, assigned, Except.map, Plan.ofExcept, Plan.allocate]
  | operate this operation other => rfl
  | operateLiteral this operation literal => rfl
  | compare this comparison literal => exact lower_compare pool this comparison literal workspace

/-- A statement reads its operands and writes its targets. -/
def permissions (statement : Statement) : Permissions where
  readable register := ∃ value ∈ statement.operands, register ∈ value.registers
  writable register := ∃ value ∈ statement.targets, register ∈ value.registers

theorem comparePlan_wellScoped {permissions : Permissions} {this : Value}
    (comparison : Comparison) (literal : Literal)
    (readable : ∀ register ∈ this.registers, permissions.readable register) :
    (comparePlan this comparison literal).WellScoped permissions [] [] := by
  unfold comparePlan
  split
  case h_1 =>
      split
      · trivial
      · split <;> trivial
  case h_2 | h_3 => exact Plan.ofExcept_map_wellScoped fun _ => trivial
  case h_4 precision tyEq =>
      apply Plan.ofExcept_map_wellScoped
      intro fraction
      apply Plan.withScratch_wellScoped rfl (by decide)
      apply Plan.joinPlan_wellScoped
      intro part
      apply readable
      exact Value.register_mem_of_decimal tyEq part
  case h_5 => trivial

theorem plan_wellScoped (statement : Statement) :
    statement.plan.WellScoped statement.permissions [] [] := by
  cases statement with
  | assign this literal =>
      apply Plan.assignment_wellScoped
      intro register member
      exact ⟨this, List.mem_singleton_self this, member⟩
  | operate this operation other =>
      apply Plan.combineAt_wellScoped this.ty this other rfl
      refine ⟨fun register member => ?_, fun register member => ?_, ?_⟩
      · refine ⟨⟨this, by simp [operands], member⟩, ⟨this, ?_, member⟩⟩
        by_cases exchange : operation = .swap <;> simp [targets, exchange]
      · exact ⟨other, by simp [operands], member⟩
      · rintro rfl register member
        exact ⟨other, by simp [targets], member⟩
  | operateLiteral this operation literal =>
      apply Plan.combineLiteral_wellScoped
      intro register member
      exact ⟨⟨this, List.mem_singleton_self this, member⟩,
        ⟨this, List.mem_singleton_self this, member⟩⟩
  | compare this comparison literal =>
      apply comparePlan_wellScoped
      intro register member
      exact ⟨this, List.mem_singleton_self this, member⟩

theorem plan_onlyBorrows (statement : Statement) :
    statement.plan.OnlyBorrows statement.left := by
  cases statement with
  | assign this literal =>
      exact Plan.onlyBorrows_ofExcept fun list _ => Plan.onlyBorrows_steps list
  | operate this operation other =>
      exact Plan.onlyBorrows_combineAt this.ty this other fun _ => rfl
  | operateLiteral this operation literal =>
      exact Plan.onlyBorrows_combineLiteral this operation literal
  | compare this comparison literal =>
      simp only [plan, comparePlan]
      split
      case h_1 =>
          split
          · exact Plan.onlyBorrows_fail _
          · split <;> simp
      case h_2 | h_3 => exact Plan.onlyBorrows_ofExcept fun _ _ => Plan.onlyBorrows_steps []
      case h_4 precision _ =>
          refine Plan.onlyBorrows_ofExcept fun _ _ => ?_
          rw [Plan.onlyBorrows_withScratch]
          exact Plan.onlyBorrows_ofExcept fun unit _ => by simp
      case h_5 => exact Plan.onlyBorrows_fail _

/-- The statement is lowered, and its commands are run.  A borrow call runs the
routine that was generated for the left side. -/
def Executes (statement : Statement) (pool : Pool) (executor : String)
    (before after : Workspace × Scores) : Prop :=
  ∃ commands functions depth, statement.lower pool before.1 = (.ok commands, after.1) ∧
    (∀ unit, statement.left.unit? = some unit →
      after.1.routines.Serves functions statement.left unit) ∧
    after.2 =
      Machine.runAll (Machine.call functions (depth + 1)) commands executor before.2

theorem failure?_eq_error? (statement : Statement) (pool : Pool) (workspace : Workspace) :
    statement.plan.failure? = Plan.error? (statement.lower pool workspace).1 := by
  rw [lower_eq_allocate, Plan.error?_allocate]

/-- The error of a plan is that of lowering the statement. -/
theorem lower_of_failure {statement : Statement} {error : LowerError}
    (fails : statement.plan.failure? = some error) (pool : Pool) (workspace : Workspace) :
    (statement.lower pool workspace).1 = .error error := by
  rw [failure?_eq_error? statement pool workspace] at fails
  cases outcome : (statement.lower pool workspace).1 with
  | ok commands =>
      rw [outcome] at fails
      cases fails
  | error other =>
      rw [outcome] at fails
      cases fails
      rfl

/-- A statement whose plan does not fail can be executed: lower it, and let every function
be the borrow routine of its left side. -/
theorem executes_lowered {statement : Statement} (succeeds : statement.plan.failure? = none)
    (pool : Pool) (executor : String) (workspace : Workspace) (scores : Scores) :
    statement.Executes pool executor (workspace, scores)
      ((statement.lower pool workspace).2,
        Machine.runAll
          (Machine.call
            (fun _ => statement.left.unit?.elim [] (Routines.borrowCommands statement.left)) 1)
          ((statement.lower pool workspace).1.toOption.getD []) executor scores) := by
  rw [failure?_eq_error? statement pool workspace] at succeeds
  rcases lowered : statement.lower pool workspace with ⟨error | commands, later⟩
  · rw [lowered] at succeeds
    cases succeeds
  · refine ⟨commands, _, 0, lowered, ?_, rfl⟩
    intro unit unitEq routine _
    simp [unitEq]

theorem exists_executes {statement : Statement} (succeeds : statement.plan.failure? = none)
    (pool : Pool) (executor : String) (workspace : Workspace) (scores : Scores) :
    ∃ later after, statement.Executes pool executor (workspace, scores) (later, after) :=
  ⟨_, _, executes_lowered succeeds pool executor workspace scores⟩

theorem Executes.failure?_eq_none {statement : Statement} {pool : Pool} {executor : String}
    {before after : Workspace × Scores} (run : statement.Executes pool executor before after) :
    statement.plan.failure? = none := by
  obtain ⟨commands, _, _, lowered, _, _⟩ := run
  rw [failure?_eq_error? statement pool before.1, lowered]
  rfl

/-- No register that the statement uses can be handed out by the pool. -/
def Avoids (statement : Statement) (pool : Pool) (workspace : Workspace) : Prop :=
  ∀ value ∈ statement.operands, ∀ objective ∈ value.objectives,
    ¬ workspace.Unheld pool objective

/-- Names without a leading underscore are never those of scratch registers. -/
theorem avoids_of_head {statement : Statement} {workspace : Workspace}
    (stems : workspace.DefaultStems) (pool : Pool)
    (plain : ∀ value ∈ statement.operands, ∀ objective ∈ value.objectives,
      objective.toList.head? ≠ some '_') : statement.Avoids pool workspace :=
  fun value operand objective member =>
    Workspace.not_unheld_of_head stems (plain value operand objective member)

theorem targets_subset (statement : Statement) {value : Value}
    (target : value ∈ statement.targets) : value ∈ statement.operands := by
  cases statement with
  | assign this literal => exact target
  | operate this operation other =>
      simp only [targets] at target
      split at target
      · exact target
      · exact List.mem_cons.mpr (Or.inl (List.mem_singleton.mp target))
  | operateLiteral this operation literal => exact target
  | compare this comparison literal => exact absurd target List.not_mem_nil

end Statement

namespace Memory

/-- The memory at the start of a plan, with scratch registers empty. -/
def ofScores (scores : Scores) : Memory
  | .fixed register => scores.read register
  | .scratch _ _ => 0

end Memory

namespace Statement

variable {statement : Statement} {pool : Pool} {executor : String}
variable {workspace later : Workspace} {scores after : Scores}

/-- The registers of the operands, as the executor finds them. -/
def uses (statement : Statement) (executor : String) (register : Register) : Prop :=
  ∃ value ∈ statement.operands, register ∈ value.registers.map (Machine.locate executor)

/-- Every scratch register that is taken for the statement is a register of no operand
and of no scratch register still held. -/
def TakesFresh (statement : Statement) (pool : Pool) (executor : String)
    (workspace : Workspace) : Prop :=
  statement.plan.TakesFresh pool executor (statement.uses executor) [] workspace

theorem permits_uses (statement : Statement) (executor : String) :
    Plan.Permits (statement.uses executor ∘ Machine.locate executor) statement.permissions where
  readable _ allowed :=
    allowed.imp fun _ operand => ⟨operand.1, List.mem_map_of_mem operand.2⟩
  writable _ allowed := allowed.imp fun _ target =>
    ⟨statement.targets_subset target.1, List.mem_map_of_mem target.2⟩

/-- Executing a statement does what its plan does, as far as can be seen in tracked
registers. -/
theorem Executes.read_tracked {tracked : Register → Prop}
    (run : statement.Executes pool executor (workspace, scores) (later, after))
    (fresh : statement.plan.TakesFresh pool executor tracked [] workspace)
    (permits : Plan.Permits (tracked ∘ Machine.locate executor) statement.permissions)
    {register : Register} (isTracked : tracked register) :
    after.read register =
      statement.plan.run executor (Memory.ofScores scores) (.fixed register) := by
  obtain ⟨commands, functions, depth, lowered, serves, rfl⟩ := run
  rw [lower_eq_allocate] at lowered
  have start : Plan.Agrees executor tracked [] [] scores (Memory.ofScores scores) :=
    ⟨fun _ _ => rfl, fun _ member => absurd member List.not_mem_nil⟩
  have served : ∀ pair ∈ statement.plan.borrowers,
      later.routines.Serves functions pair.1 pair.2 := by
    intro pair member
    obtain ⟨isLeft, unitEq⟩ := statement.plan_onlyBorrows pair member
    rw [isLeft]
    exact serves pair.2 unitEq
  have finish := Plan.allocate_simulates depth permits statement.plan
    (Plan.separated_nil executor tracked) fresh rfl statement.plan_wellScoped lowered served start
  exact finish.fixed register isTracked

theorem Executes.read_operand
    (run : statement.Executes pool executor (workspace, scores) (later, after))
    (fresh : statement.TakesFresh pool executor workspace) {value : Value}
    (operand : value ∈ statement.operands) {register : Register}
    (member : register ∈ value.registers) :
    after.read (Machine.locate executor register) =
      statement.plan.run executor (Memory.ofScores scores)
        (.fixed (Machine.locate executor register)) :=
  run.read_tracked fresh (statement.permits_uses executor)
    ⟨value, operand, List.mem_map_of_mem member⟩

/-- A decimal has the parts that the plan gives to it. -/
theorem Executes.read_part
    (run : statement.Executes pool executor (workspace, scores) (later, after))
    (fresh : statement.TakesFresh pool executor workspace) {value : Value}
    (operand : value ∈ statement.operands) {precision : Nat}
    (tyEq : value.ty = .decimal precision) (part : Part) :
    after.read (Machine.locate executor (value.register part)) =
      statement.plan.run executor (Memory.ofScores scores)
        (Plan.partSlot executor value part) :=
  run.read_operand fresh operand (Value.register_mem_of_decimal tyEq part)

/-- The pools have fresh registers as long as none of those tracked can be handed out. -/
theorem takesFresh_of_unreached {tracked : Register → Prop} (stems : workspace.DefaultStems)
    (fewer : workspace.HoldsFewerThan pool (10 ^ 6))
    (unreached : ∀ register, tracked register → ¬ workspace.Unheld pool register.objective) :
    statement.plan.TakesFresh pool executor tracked [] workspace := by
  have ready : Plan.Ready pool executor tracked [] workspace := by
    refine ⟨stems, fewer, fun slot place denotes => ?_⟩
    cases slot with
    | scratch level part => simp [Slot.Denotes] at denotes
    | fixed first =>
        rw [denotes.2]
        exact unreached first denotes.1
  exact ready.takesFresh rfl statement.plan_wellScoped

theorem unreached_of_avoids (avoids : statement.Avoids pool workspace) (register : Register)
    (used : statement.uses executor register) : ¬ workspace.Unheld pool register.objective := by
  obtain ⟨value, operand, member⟩ := used
  exact avoids value operand register.objective (Value.objective_mem_objectives member)

theorem takesFresh_of_avoids (stems : workspace.DefaultStems)
    (fewer : workspace.HoldsFewerThan pool (10 ^ 6))
    (avoids : statement.Avoids pool workspace) : statement.TakesFresh pool executor workspace :=
  takesFresh_of_unreached stems fewer (unreached_of_avoids avoids)

theorem permits_of_avoids (avoids : statement.Avoids pool workspace) :
    Plan.Permits (fun register => ¬ workspace.Unheld pool register.objective)
      statement.permissions := by
  -- objectives are the same for all executors
  have unreached (register : Register)
      (used : statement.uses Machine.self (Machine.locate Machine.self register)) :
      ¬ workspace.Unheld pool register.objective :=
    unreached_of_avoids avoids (Machine.locate Machine.self register) used
  obtain ⟨readable, writable⟩ := statement.permits_uses Machine.self
  exact ⟨fun register allowed => unreached register (readable register allowed),
    fun register allowed => unreached register (writable register allowed)⟩

/-- Executing a statement does what its plan does, as far as can be seen outside
of the scratch registers. -/
theorem Executes.read_eq (run : statement.Executes pool executor (workspace, scores)
      (later, after))
    (stems : workspace.DefaultStems) (fewer : workspace.HoldsFewerThan pool (10 ^ 6))
    (avoids : statement.Avoids pool workspace) {register : Register}
    (outside : ¬ workspace.Unheld pool register.objective) :
    after.read register =
      statement.plan.run executor (Memory.ofScores scores) (.fixed register) :=
  run.read_tracked (takesFresh_of_unreached stems fewer fun _ => id) (permits_of_avoids avoids)
    outside

end Statement

end ScoreLowering
