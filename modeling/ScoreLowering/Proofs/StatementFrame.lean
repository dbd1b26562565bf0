import ScoreLowering.Proofs.StatementExecution

/-!
# What a statement can change, and what it depends on

A well scoped plan changes only registers that it may write, and what it leaves
in its registers depends only on registers that it may read.  For the commands of
a statement this means that they touch nothing but the targets of the statement
and scratch registers that nobody holds, and that it makes no difference what the
scratch registers held before.
-/

namespace ScoreLowering

namespace Plan

variable {permissions : Permissions} {executor : String} {types : List Ty} {known : List Slot}

theorem step_writes_writable {step : Step}
    (wellScoped : step.WellScoped permissions types known) {slot : Slot}
    (written : slot ∈ step.writes) : slot.Writable permissions types := by
  induction step with
  | set target score =>
      rw [← List.mem_singleton.mp written] at wellScoped
      exact wellScoped
  | add target amount | remove target amount =>
      rw [← List.mem_singleton.mp written] at wellScoped
      exact wellScoped.2
  | operate target operation source =>
      obtain ⟨_, targetWritable, _, sourceWritable⟩ := wellScoped
      by_cases exchange : operation = .swap
      · simp only [Step.writes, exchange, if_true, List.mem_cons, List.not_mem_nil,
          or_false] at written
        rcases written with rfl | rfl
        · exact targetWritable
        · exact sourceWritable exchange
      · simp only [Step.writes, exchange, if_false, List.mem_singleton] at written
        rw [← written] at targetWritable
        exact targetWritable
  | guarded tests step ih => exact ih wellScoped.2.1 written

/-- A plan that succeeds writes only what it may write. -/
theorem writes_writable {plan : Plan} (wellScoped : plan.WellScoped permissions types known)
    (succeeds : plan.failure? = none) {register : Register}
    (written : .fixed register ∈ plan.writes) : permissions.writable register := by
  induction plan generalizing types known with
  | steps list =>
      induction list generalizing known with
      | nil => exact absurd written List.not_mem_nil
      | cons step rest ih =>
          rcases List.mem_append.mp written with first | later
          · exact step_writes_writable wellScoped.1 first
          · exact ih wellScoped.2 rfl later
  | borrow value unit =>
      simp only [writes, List.mem_cons, List.not_mem_nil, or_false] at written
      rcases written with whole | fraction
      · cases whole
        exact (wellScoped .whole).2
      · cases fraction
        exact (wellScoped .fraction).2
  | fail error => cases succeeds
  | sequence first next firstIH nextIH =>
      obtain ⟨firstSucceeds, nextSucceeds⟩ := Option.or_eq_none_iff.mp succeeds
      rcases List.mem_append.mp written with inFirst | inNext
      · exact firstIH wellScoped.1 firstSucceeds inFirst
      · exact nextIH (wellScoped.2 firstSucceeds) nextSucceeds inNext
  | scratch ty address body ih => exact ih wellScoped.2.2 succeeds written

/-- Two memories that agree on all that may be read. -/
def Coincide (executor : String) (permissions : Permissions) (known : List Slot)
    (first second : Memory) : Prop :=
  ∀ slot : Slot, slot.Readable permissions known →
    first (slot.located executor) = second (slot.located executor)

theorem Coincide.update {first second : Memory}
    (coincide : Coincide executor permissions known first second) (target : Slot)
    (score : Score) :
    Coincide executor permissions (target :: known)
      (Function.update first (target.located executor) score)
      (Function.update second (target.located executor) score) := by
  intro slot readable
  by_cases here : slot.located executor = target.located executor
  · rw [here, Function.update_self, Function.update_self]
  · rw [Function.update_of_ne here, Function.update_of_ne here]
    rcases (Slot.readable_cons slot target).mp readable with same | before
    · exact absurd (congrArg (Slot.located executor) same) here
    · exact coincide slot before

theorem Coincide.weaken {others : List Slot} {first second : Memory}
    (coincide : Coincide executor permissions known first second)
    (readable : ∀ slot ∈ others, slot.Readable permissions known) :
    Coincide executor permissions others first second := by
  intro slot slotReadable
  rcases slotReadable with member | fixedReadable
  · exact coincide slot (readable slot member)
  · exact coincide slot (Or.inr fixedReadable)

theorem step_coincide (step : Step) {first second : Memory}
    (coincide : Coincide executor permissions known first second)
    (wellScoped : step.WellScoped permissions types known) :
    Coincide executor permissions (step.writes ++ known) (step.run executor first)
      (step.run executor second) := by
  induction step with
  | set target score => exact coincide.update target score
  | add target amount | remove target amount =>
      simp only [Step.run, coincide target wellScoped.1]
      exact coincide.update target _
  | operate target operation source =>
      obtain ⟨targetReadable, _, sourceReadable, _⟩ := wellScoped
      have sameSource := coincide source sourceReadable
      by_cases copies : operation = .copy
      · subst copies
        simp only [Step.run, ScoreOperation.evaluate, sameSource, reduceCtorEq, if_false]
        exact coincide.update target _
      have sameTarget := coincide target (targetReadable copies)
      have combined := coincide.update target (operation.evaluate
        (second (target.located executor)) (second (source.located executor)))
      simp only [Step.run, sameTarget, sameSource, Step.writes]
      by_cases exchange : operation = .swap
      · simp only [exchange, if_true] at combined ⊢
        have both := combined.update source (second (target.located executor))
        apply both.weaken
        intro slot member
        left
        simp only [List.cons_append, List.nil_append, List.mem_cons] at member ⊢
        rcases member with isTarget | isSource | old
        · exact Or.inr (Or.inl isTarget)
        · exact Or.inl isSource
        · exact Or.inr (Or.inr old)
      · simp only [exchange, if_false]
        exact combined
  | guarded tests step ih =>
      obtain ⟨testsReadable, stepScoped, writesReadable⟩ := wellScoped
      have sameTests : (tests.all fun test =>
            test.2.contains (first (test.1.located executor))) =
          tests.all fun test => test.2.contains (second (test.1.located executor)) := by
        rw [Bool.eq_iff_iff, List.all_eq_true, List.all_eq_true]
        refine forall₂_congr fun test member => ?_
        rw [coincide test.1 (testsReadable test member)]
      simp only [Step.run, sameTests]
      split
      · exact ih stepScoped
      · apply coincide.weaken
        intro slot member
        rcases List.mem_append.mp member with written | old
        · exact writesReadable slot written
        · exact Or.inl old

theorem steps_coincide (list : List Step) {first second : Memory}
    (coincide : Coincide executor permissions known first second)
    (wellScoped : StepsWellScoped permissions types known list) :
    Coincide executor permissions (list.flatMap Step.writes ++ known)
      (runSteps executor list first) (runSteps executor list second) := by
  induction list generalizing known first second with
  | nil => exact coincide
  | cons step rest ih =>
      have later := ih (step_coincide step coincide wellScoped.1) wellScoped.2
      apply later.weaken
      intro slot member
      left
      simp only [List.flatMap_cons, List.mem_append] at member ⊢
      rcases member with (now | after) | old
      · exact Or.inr (Or.inl now)
      · exact Or.inl after
      · exact Or.inr (Or.inr old)

/-- What a plan leaves depends only on what it may read. -/
theorem run_coincide (plan : Plan) {first second : Memory}
    (coincide : Coincide executor permissions known first second)
    (wellScoped : plan.WellScoped permissions types known) (succeeds : plan.failure? = none) :
    Coincide executor permissions (plan.gains ++ known) (plan.run executor first)
      (plan.run executor second) := by
  induction plan generalizing types known first second with
  | steps list => exact steps_coincide list coincide wellScoped
  | borrow value unit =>
      have same (part : Part) :
          first (partSlot executor value part) = second (partSlot executor value part) :=
        coincide (.fixed (value.register part)) (Slot.readable_fixed (wellScoped part).1)
      simp only [run, same]
      split
      · have both := (coincide.update (.fixed (value.register .whole))
          (second (partSlot executor value .whole) + 1)).update
          (.fixed (value.register .fraction))
          (second (partSlot executor value .fraction) - unit)
        apply both.weaken
        intro slot member
        exact Or.inl (List.mem_cons_of_mem _ (List.mem_cons_of_mem _ member))
      · exact coincide
  | fail error => cases succeeds
  | sequence first next firstIH nextIH =>
      obtain ⟨firstSucceeds, nextSucceeds⟩ := Option.or_eq_none_iff.mp succeeds
      have middle := firstIH coincide wellScoped.1 firstSucceeds
      have last := nextIH middle (wellScoped.2 firstSucceeds) nextSucceeds
      rw [gains, List.append_assoc]
      exact last
  | scratch ty address body ih =>
      apply (ih coincide wellScoped.2.2 succeeds).weaken
      intro slot member
      exact Or.inl (List.mem_append_right _ member)

end Plan

namespace Value

/-- The registers of a value on the board. -/
def located (value : Value) (executor : String) : List Register :=
  value.registers.map (Machine.locate executor)

end Value

namespace Workspace

/-- A register of a scratch register that the pool can still hand out, whatever its name is. -/
def Spare (workspace : Workspace) (pool : Pool) (executor : String) (register : Register) : Prop :=
  ∃ ty address position, workspace.depth pool ⟨address.isGlobal, ty⟩ ≤ position ∧
    register ∈ (workspace.scratchAt pool ty address position).located executor

variable {workspace : Workspace} {pool : Pool} {executor : String} {register : Register}

theorem Spare.of_acquire {ty : Ty} {address : Address}
    (spare : (workspace.acquire pool ty address).2.Spare pool executor register) :
    workspace.Spare pool executor register := by
  obtain ⟨otherTy, otherAddress, position, above, member⟩ := spare
  rw [scratchAt_acquire] at member
  have longer := (depth_acquire workspace pool ty address ⟨otherAddress.isGlobal, otherTy⟩).1
  exact ⟨otherTy, otherAddress, position, Nat.le_trans longer above, member⟩

theorem Spare.of_sameScratch {later : Workspace} (same : SameScratch workspace later)
    (spare : later.Spare pool executor register) : workspace.Spare pool executor register := by
  obtain ⟨ty, address, position, above, member⟩ := spare
  rw [same.depth_eq] at above
  rw [same.scratchAt_eq] at member
  exact ⟨ty, address, position, above, member⟩

/-- The name of a scratch register is as long as its stem, or as a digest. -/
theorem Spare.length_le {limit : Nat} (spare : workspace.Spare pool executor register)
    (stackStem : limit ≤ workspace.stacked.stem.length)
    (counterStem : limit ≤ workspace.counted.stem.length) (digest : limit ≤ 8) :
    limit ≤ register.objective.length := by
  obtain ⟨ty, address, position, _, member⟩ := spare
  rw [← String.length_toList]
  rcases Value.mem_layout _ _ (Value.objective_mem_objectives member) with ⟨long, rest, hashed⟩ | ⟨rest, spelled, _⟩
  · rw [hashed, List.length_append, String.length_toList, Name.length_digest]
    exact Nat.le_add_right_of_le digest
  · have stem : limit ≤ (workspace.scratchAt pool ty address position).ident.length := by
      cases pool <;>
        simp only [scratchAt, StackPool.registerAt, CounterPool.registerAt, String.length_append] <;>
        omega
    rw [spelled, List.length_append, String.length_toList]
    exact Nat.le_add_right_of_le stem

theorem spare_acquired (workspace : Workspace) (pool : Pool) {ty : Ty} (address : Address)
    (scalar : ty.isScalar) (executor : String) {part : Part}
    (partMem : part ∈ (workspace.acquire pool ty address).1.value.ty.parts) :
    workspace.Spare pool executor
      (Machine.locate executor ((workspace.acquire pool ty address).1.value.register part)) := by
  refine ⟨ty, address, _, Nat.le_refl _, List.mem_map_of_mem ?_⟩
  rw [← acquire_value]
  apply Value.register_mem_registers _ partMem
  rw [acquire_value, scratchAt_ty]
  exact Ty.not_struct_of_isScalar scalar

end Workspace

namespace Plan

/-- Scratch registers that are fresh are so among all registers that the pool cannot hand out.
Every register that is taken is spare at the start, since the pool only moves upward. -/
theorem TakesFresh.track {pool : Pool} {plan : Plan} {workspace : Workspace}
    {executor : String} {tracked kept : Register → Prop} {held : List Value}
    {permissions : Permissions} {types : List Ty} {known : List Slot}
    (fresh : plan.TakesFresh pool executor tracked held workspace)
    (wellScoped : plan.WellScoped permissions types known)
    (notSpare : ∀ register, kept register → ¬ workspace.Spare pool executor register) :
    plan.TakesFresh pool executor (fun register => tracked register ∨ kept register) held
      workspace := by
  induction plan generalizing held types known workspace with
  | steps list | borrow value unit | fail error => trivial
  | sequence first next firstIH nextIH =>
      refine ⟨firstIH fresh.1 wellScoped.1 notSpare, fun succeeds => ?_⟩
      have same := allocate_sameScratch pool first held workspace
      exact nextIH (fresh.2 succeeds) (wellScoped.2 succeeds)
        fun register isKept spare => notSpare register isKept (spare.of_sameScratch same)
  | scratch ty address body ih =>
      obtain ⟨scalar, _, bodyScoped⟩ := wellScoped
      refine ⟨fun part partMem slot denotes => ?_, ih fresh.2 bodyScoped
        fun register isKept spare => notSpare register isKept spare.of_acquire⟩
      cases slot with
      | scratch level other => exact fresh.1 part partMem (.scratch level other) denotes
      | fixed register =>
          obtain ⟨isTracked | isKept, placeEq⟩ := denotes
          · exact fresh.1 part partMem (.fixed register) ⟨isTracked, placeEq⟩
          · apply notSpare register isKept
            rw [← placeEq]
            exact workspace.spare_acquired pool address scalar executor partMem

end Plan

namespace Statement

variable {statement : Statement} {pool : Pool} {executor : String}
variable {workspace later : Workspace} {scores after : Scores}

/-- The plan of a statement changes nothing but the targets. -/
theorem run_of_not_target (succeeds : statement.plan.failure? = none) (memory : Memory)
    {register : Register}
    (notTarget : ∀ value ∈ statement.targets, register ∉ value.located executor) :
    statement.plan.run executor memory (.fixed register) = memory (.fixed register) := by
  apply Plan.run_of_not_mem_writes
  intro written
  obtain ⟨slot, slotWritten, slotEq⟩ := List.mem_map.mp written
  cases slot with
  | scratch level part => cases slotEq
  | fixed source =>
      cases slotEq
      obtain ⟨value, isTarget, inside⟩ := Plan.writes_writable statement.plan_wellScoped succeeds
        slotWritten
      exact notTarget value isTarget (List.mem_map_of_mem inside)

/-- Outside of the targets and of the scratch registers nothing changes. -/
theorem Executes.read_of_not_target
    (run : statement.Executes pool executor (workspace, scores) (later, after))
    (stems : workspace.DefaultStems) (fewer : workspace.HoldsFewerThan pool (10 ^ 6))
    (avoids : statement.Avoids pool workspace) {register : Register}
    (outside : ¬ workspace.Unheld pool register.objective)
    (notTarget : ∀ value ∈ statement.targets, register ∉ value.located executor) :
    after.read register = scores.read register := by
  rw [run.read_eq stems fewer avoids outside,
    run_of_not_target run.failure?_eq_none _ notTarget]
  rfl

/-- Whatever the scratch registers are called: as long as they are fresh, nothing changes but
the targets and registers that the pool can hand out. -/
theorem Executes.read_of_kept
    (run : statement.Executes pool executor (workspace, scores) (later, after))
    (fresh : statement.TakesFresh pool executor workspace) {register : Register}
    (kept : statement.uses executor register ∨ ¬ workspace.Spare pool executor register)
    (notTarget : ∀ value ∈ statement.targets, register ∉ value.located executor) :
    after.read register = scores.read register := by
  have allFresh := Plan.TakesFresh.track fresh statement.plan_wellScoped fun _ notSpare => notSpare
  obtain ⟨readable, writable⟩ := statement.permits_uses executor
  rw [run.read_tracked allFresh ⟨fun source allowed => Or.inl (readable source allowed),
      fun source allowed => Or.inl (writable source allowed)⟩ kept,
    run_of_not_target run.failure?_eq_none _ notTarget]
  rfl

/-- The right side of an operation stays, unless it is exchanged or shared with the left side. -/
theorem Executes.read_right {this other : Value} {operation : Operation}
    (run : (operate this operation other).Executes pool executor (workspace, scores)
      (later, after))
    (fresh : (operate this operation other).TakesFresh pool executor workspace)
    (notSwap : operation ≠ .swap) {register : Register} (member : register ∈ other.located executor)
    (outside : register ∉ this.located executor) :
    after.read register = scores.read register := by
  apply run.read_of_kept fresh (Or.inl ⟨other, by simp [operands], member⟩)
  intro value target
  rw [targets, if_neg notSwap, List.mem_singleton] at target
  rw [target]
  exact outside

/-- Two runs that start alike on the operands end alike on them. -/
theorem Executes.read_congr {others othersAfter : Scores} {otherLater : Workspace}
    (run : statement.Executes pool executor (workspace, scores) (later, after))
    (otherRun : statement.Executes pool executor (workspace, others) (otherLater, othersAfter))
    (stems : workspace.DefaultStems) (fewer : workspace.HoldsFewerThan pool (10 ^ 6))
    (avoids : statement.Avoids pool workspace)
    (same : ∀ value ∈ statement.operands, ∀ register ∈ value.located executor,
      scores.read register = others.read register)
    {value : Value} (operand : value ∈ statement.operands) {register : Register}
    (member : register ∈ value.located executor) :
    after.read register = othersAfter.read register := by
  have coincide : Plan.Coincide executor statement.permissions [] (Memory.ofScores scores)
      (Memory.ofScores others) := by
    intro slot readable
    rcases readable with known | ⟨source, rfl, another, anotherMem, inside⟩
    · exact absurd known List.not_mem_nil
    · exact same another anotherMem _ (List.mem_map_of_mem inside)
  have finish := Plan.run_coincide statement.plan coincide statement.plan_wellScoped
    run.failure?_eq_none
  obtain ⟨source, inside, rfl⟩ := List.mem_map.mp member
  have outside : ¬ workspace.Unheld pool (Machine.locate executor source).objective :=
    (permits_of_avoids avoids).readable source ⟨value, operand, inside⟩
  rw [run.read_eq stems fewer avoids outside, otherRun.read_eq stems fewer avoids outside]
  exact finish (.fixed source) (Slot.readable_fixed ⟨value, operand, inside⟩)

/-- Executing the statement changes only its targets and scratch registers that can be handed
out.  Nobody holds these, except for decimals whose names can be misread. -/
def ChangesOnlyTargets (statement : Statement) (pool : Pool) (executor : String)
    (workspace : Workspace) : Prop :=
  ∀ scores later after, statement.Executes pool executor (workspace, scores) (later, after) →
    ∀ register, after.read register ≠ scores.read register →
      (∃ value ∈ statement.targets, register ∈ value.located executor) ∨
        workspace.Unheld pool register.objective ∧
          (workspace.Held pool register.objective ↔ workspace.Misread pool register.objective)

/-- What the operands hold afterwards depends only on what they held before. -/
def DependsOnlyOnOperands (statement : Statement) (pool : Pool) (executor : String)
    (workspace : Workspace) : Prop :=
  ∀ scores others later otherLater after othersAfter,
    statement.Executes pool executor (workspace, scores) (later, after) →
    statement.Executes pool executor (workspace, others) (otherLater, othersAfter) →
    (∀ value ∈ statement.operands, ∀ register ∈ value.located executor,
      scores.read register = others.read register) →
    ∀ value ∈ statement.operands, ∀ register ∈ value.located executor,
      after.read register = othersAfter.read register

/-- With the usual names, a statement touches nothing that anybody else holds, and what was in
its scratch registers before does not matter.  Decimals of more than nine digits are not safe
on the stacks: the names of those that are held may be handed out again. -/
theorem frame_and_noninterference (statement : Statement) (pool : Pool) (executor : String)
    (workspace : Workspace) (stems : workspace.DefaultStems)
    (fewer : workspace.HoldsFewerThan pool (10 ^ 6))
    (avoids : statement.Avoids pool workspace) :
    statement.ChangesOnlyTargets pool executor workspace ∧
      statement.DependsOnlyOnOperands pool executor workspace := by
  constructor
  · intro scores later after run register changed
    by_cases unheld : workspace.Unheld pool register.objective
    · exact Or.inr ⟨unheld, unheld.held_iff_misread stems⟩
    · left
      by_contra notTarget
      simp only [not_exists, not_and] at notTarget
      exact changed (run.read_of_not_target stems fewer avoids unheld notTarget)
  · intro scores others later otherLater after othersAfter run otherRun same value operand
      register member
    exact run.read_congr otherRun stems fewer avoids same operand member

/-- Adding a scratch register that is held to a decimal of lower precision.  It keeps what it
holds, like all that is held. -/
theorem frame_of_held_operand :
    let acquired := (Compilation.start {}).workspace.acquire .stacked (.decimal 2) .here
    let this : Value := ⟨"a", .decimal 1, .player "_", []⟩
    let statement : Statement := .operate this .add acquired.1.value
    statement.Avoids .stacked acquired.2 ∧
      acquired.2.Held .stacked "_tmpLd20" ∧ ¬ acquired.2.Misread .stacked "_tmpLd20" ∧
      (∃ later after, statement.Executes .stacked "Steve" (acquired.2, ⟨fun _ => 7⟩)
        (later, after) ∧ after.read ⟨"Steve", "_tmpLd20"⟩ = 7) ∧
      statement.ChangesOnlyTargets .stacked "Steve" acquired.2 ∧
      statement.DependsOnlyOnOperands .stacked "Steve" acquired.2 := by
  intro acquired this statement
  have stems : acquired.2.DefaultStems :=
    Compilation.start_defaultStems.acquire .stacked (.decimal 2) .here
  have fewer : acquired.2.HoldsFewerThan .stacked (10 ^ 6) :=
    (Compilation.start_holdsFewerThan {} .stacked (by decide : 0 < 10 ^ 6 - 1)).acquire
      (.decimal 2) .here
  have avoids : statement.Avoids .stacked acquired.2 := by
    intro value operand objective member
    rcases List.mem_cons.mp operand with rfl | second
    · apply Workspace.not_unheld_of_head stems
      have names : this.objectives = ["a", "a.d"] := by decide
      rw [names, List.mem_cons, List.mem_singleton] at member
      rcases member with rfl | rfl <;> decide
    · rw [List.mem_singleton.mp second] at member
      exact (Workspace.unheld_acquired Compilation.start_defaultStems rfl (by decide) member).2
  have held : acquired.2.Held .stacked "_tmpLd20" :=
    ⟨.decimal 2, .here, 0, by decide +kernel, by decide +kernel⟩
  have clear : ¬ acquired.2.Misread .stacked "_tmpLd20" := by
    rintro ⟨_, precision, position, _, _, address, long, _, below, _⟩
    have another : precision ≠ 2 := by
      rintro rfl
      exact absurd long (by decide)
    rw [Workspace.depth_acquire_eq, if_neg (by simp [another])] at below
    exact Nat.not_lt_zero position below
  have frame := frame_and_noninterference statement .stacked "Steve" acquired.2 stems fewer avoids
  have succeeds : statement.plan.failure? = none := rfl
  obtain ⟨later, after, run⟩ := exists_executes succeeds .stacked "Steve" acquired.2 ⟨fun _ => 7⟩
  refine ⟨avoids, held, clear, ⟨later, after, run, ?_⟩, frame⟩
  by_contra changed
  rcases frame.1 _ _ _ run ⟨"Steve", "_tmpLd20"⟩ changed with ⟨value, target, inside⟩ | ⟨_, iff⟩
  · rw [List.mem_singleton.mp target] at inside
    exact absurd inside (by decide +kernel)
  · exact clear (iff.mp held)

/-- One decimal of eleven digits and ten of one digit are held.  The next decimal of one digit
is called like the first one, and overwrites it. -/
theorem held_decimal_overwritten :
    let workspace := (Compilation.start {}).workspace.acquireAll .stacked
      (.decimal 11 :: List.replicate 10 (.decimal 1)) .here
    let this : Value := ⟨"a", .decimal 1, .here, []⟩
    let other : Value := ⟨"b", .decimal 2, .here, []⟩
    let statement : Statement := .operate this .set other
    let register : Register := ⟨"Steve", "_tmpLd110"⟩
    let scores : Scores := ⟨fun register => if register.objective = "b" then 5 else 0⟩
    workspace.DefaultStems ∧ workspace.HoldsFewerThan .stacked (10 ^ 6) ∧
      statement.Avoids .stacked workspace ∧ workspace.Held .stacked register.objective ∧
      (∀ value ∈ statement.targets, register ∉ value.located "Steve") ∧
      ∃ after, statement.Executes .stacked "Steve" (workspace, scores) after ∧
        scores.read register = 0 ∧ after.2.read register = 5 := by
  intro workspace this other statement register scores
  have stems : workspace.DefaultStems := Compilation.start_defaultStems.acquireAll .stacked _ .here
  have fewer : workspace.HoldsFewerThan .stacked (10 ^ 6) :=
    (Compilation.start_holdsFewerThan {} .stacked (by decide : 0 < 10 ^ 6 - 11)).acquireAll _ .here
  have succeeds : statement.plan.failure? = none := rfl
  have run := executes_lowered succeeds .stacked "Steve" workspace scores
  exact ⟨stems, fewer, avoids_of_head stems .stacked (by decide),
    ⟨.decimal 11, .here, 0, by decide +kernel, by decide +kernel⟩, by decide,
    _, run, by decide, by decide +kernel⟩

end Statement

end ScoreLowering
