import ScoreLowering.Proofs.BorrowRoutines
import ScoreLowering.Proofs.ScratchNames

/-!
# Allocated commands do what the plan says

A plan runs on a memory of slots, the commands made from it run on the scores of
the board.  The two runs agree on every register that is tracked, and on every
scratch register that has been written for certain.

The argument needs no more of the pool than this: what it hands out is neither a
register that is tracked nor a scratch register still open.
-/

namespace ScoreLowering

/-- The register that a slot stands for on the board.  Registers outside of the
pool stand for themselves as long as they are tracked. -/
def Slot.Denotes (executor : String) (tracked : Register → Prop) (held : List Value) :
    Slot → Register → Prop
  | fixed register, place => tracked register ∧ place = register
  | scratch level part, place =>
      ∃ value, held[level]? = some value ∧ part ∈ value.ty.parts ∧
        place = Machine.locate executor (value.register part)

namespace Plan

/-- No two slots stand for the same register. -/
def Separated (executor : String) (tracked : Register → Prop) (held : List Value) : Prop :=
  ∀ (slot other : Slot) (place : Register), slot.Denotes executor tracked held place →
    other.Denotes executor tracked held place → slot = other

/-- The scores agree with the memory on what is tracked and on what is known. -/
structure Agrees (executor : String) (tracked : Register → Prop) (held : List Value)
    (known : List Slot) (scores : Scores) (memory : Memory) : Prop where
  fixed : ∀ register, tracked register → scores.read register = memory (.fixed register)
  known : ∀ slot ∈ known, ∃ place,
    (slot.located executor).Denotes executor tracked held place ∧
      scores.read place = memory (slot.located executor)

/-- A plan may use certain registers only. -/
structure Permits (certain : Register → Prop) (permissions : Permissions) : Prop where
  readable : ∀ register, permissions.readable register → certain register
  writable : ∀ register, permissions.writable register → certain register

variable {executor : String} {tracked : Register → Prop} {held : List Value}
variable {permissions : Permissions} {types : List Ty} {known : List Slot}
variable {scores : Scores} {memory : Memory}

theorem denotes_unique {slot : Slot} {place other : Register}
    (first : slot.Denotes executor tracked held place)
    (second : slot.Denotes executor tracked held other) : place = other := by
  cases slot with
  | fixed register => exact first.2.trans second.2.symm
  | scratch level part =>
      obtain ⟨value, present, _, placeEq⟩ := first
      obtain ⟨another, alsoPresent, _, otherEq⟩ := second
      have sameValue : value = another := by
        rw [present] at alsoPresent
        exact Option.some.inj alsoPresent
      rw [placeEq, otherEq, sameValue]

theorem place_of_denotes {slot : Slot} {place : Register}
    (denotes : (slot.located executor).Denotes executor tracked held place) :
    place = Machine.locate executor (slot.register held) := by
  cases slot with
  | fixed register => exact denotes.2
  | scratch level part =>
      obtain ⟨value, isHeld, _, placeEq⟩ := denotes
      simpa [Slot.register, isHeld] using placeEq

theorem denotes_of_writable (executor : String)
    (permits : Permits (tracked ∘ Machine.locate executor) permissions)
    (typesEq : held.map Value.ty = types) {slot : Slot}
    (writable : slot.Writable permissions types) :
    (slot.located executor).Denotes executor tracked held
      (Machine.locate executor (slot.register held)) := by
  cases slot with
  | fixed register => exact ⟨permits.writable register writable, rfl⟩
  | scratch level part =>
      obtain ⟨ty, present, partMem⟩ := writable
      rw [← typesEq, List.getElem?_map, Option.map_eq_some_iff] at present
      obtain ⟨value, isHeld, rfl⟩ := present
      exact ⟨value, isHeld, partMem, by simp [Slot.register, isHeld]⟩

namespace Agrees

theorem weaken {others : List Slot} (agrees : Agrees executor tracked held known scores memory)
    (permits : Permits (tracked ∘ Machine.locate executor) permissions)
    (readable : ∀ slot ∈ others, slot.Readable permissions known) :
    Agrees executor tracked held others scores memory := by
  refine ⟨agrees.fixed, ?_⟩
  intro slot member
  rcases readable slot member with isKnown | ⟨register, rfl, allowed⟩
  · exact agrees.known slot isKnown
  · have isTracked := permits.readable register allowed
    exact ⟨_, ⟨isTracked, rfl⟩, agrees.fixed _ isTracked⟩

theorem read (agrees : Agrees executor tracked held known scores memory)
    (permits : Permits (tracked ∘ Machine.locate executor) permissions) {slot : Slot}
    (readable : slot.Readable permissions known) :
    scores.read (Machine.locate executor (slot.register held)) =
      memory (slot.located executor) := by
  have alone : ∀ other ∈ [slot], other.Readable permissions known := by
    intro other member
    rwa [List.mem_singleton.mp member]
  obtain ⟨place, denotes, content⟩ :=
    (agrees.weaken permits alone).known slot (List.mem_singleton_self slot)
  rwa [place_of_denotes denotes] at content

/-- Writing a slot and its register alike. -/
theorem write (separated : Separated executor tracked held)
    (agrees : Agrees executor tracked held known scores memory) {slot : Slot}
    {place : Register} (denotes : (slot.located executor).Denotes executor tracked held place)
    (score : Score) :
    Agrees executor tracked held (slot :: known) (scores.write place score)
      (Function.update memory (slot.located executor) score) := by
  have readBack {other : Slot} {register : Register}
      (otherDenotes : other.Denotes executor tracked held register)
      (before : other ≠ slot.located executor → scores.read register = memory other) :
      (scores.write place score).read register =
        Function.update memory (slot.located executor) score other := by
    by_cases same : other = slot.located executor
    · subst same
      rw [denotes_unique otherDenotes denotes, Scores.read_write_self, Function.update_self]
    · have elsewhere : register ≠ place := by
        rintro rfl
        exact same (separated _ _ _ otherDenotes denotes)
      rw [Scores.read_write_other _ _ elsewhere, Function.update_of_ne same, before same]
  constructor
  · intro register isTracked
    exact readBack ⟨isTracked, rfl⟩ fun _ => agrees.fixed register isTracked
  · intro other member
    rcases List.mem_cons.mp member with rfl | old
    · exact ⟨place, denotes, readBack denotes fun different => absurd rfl different⟩
    · obtain ⟨register, otherDenotes, content⟩ := agrees.known other old
      exact ⟨register, otherDenotes, readBack otherDenotes fun _ => content⟩

end Agrees

theorem follow_tests (permits : Permits (tracked ∘ Machine.locate executor) permissions)
    (agrees : Agrees executor tracked held known scores memory) (tests : List (Slot × Range))
    (readable : ∀ test ∈ tests, test.1.Readable permissions known) :
    Machine.follow scores
        (tests.map fun (slot, range) => .ifScore (slot.register held) range) executor =
      if tests.all fun test => test.2.contains (memory (test.1.located executor)) then
        some executor
      else
        none := by
  have followed := Machine.follow_ifScores scores executor
    (tests.map fun test => (test.1.register held, test.2))
  have sameTests : (tests.all fun test =>
        test.2.contains (scores.read (Machine.locate executor (test.1.register held)))) =
      tests.all fun test => test.2.contains (memory (test.1.located executor)) := by
    rw [Bool.eq_iff_iff, List.all_eq_true, List.all_eq_true]
    refine forall₂_congr fun test member => ?_
    rw [agrees.read permits (readable test member)]
  rw [List.map_map, List.all_map] at followed
  rw [← sameTests]
  exact followed

/-- One step of a plan, and the command for it. -/
theorem step_simulates (call : String → String → Scores → Scores)
    (permits : Permits (tracked ∘ Machine.locate executor) permissions)
    (separated : Separated executor tracked held)
    (typesEq : held.map Value.ty = types) (step : Step)
    (agrees : Agrees executor tracked held known scores memory)
    (wellScoped : step.WellScoped permissions types known) :
    Agrees executor tracked held (step.writes ++ known)
      (Machine.step call (step.command held) executor scores) (step.run executor memory) := by
  have target {slot : Slot} (writable : slot.Writable permissions types) :
      (slot.located executor).Denotes executor tracked held
        (Machine.locate executor (slot.register held)) :=
    denotes_of_writable executor permits typesEq writable
  induction step with
  | set slot score => exact agrees.write separated (target wellScoped) score
  | add slot amount =>
      simp only [Step.command, Machine.step, Step.run, agrees.read permits wellScoped.1]
      exact agrees.write separated (target wellScoped.2) _
  | remove slot amount =>
      simp only [Step.command, Machine.step, Step.run, agrees.read permits wellScoped.1]
      exact agrees.write separated (target wellScoped.2) _
  | operate slot operation source =>
      obtain ⟨slotReadable, slotWritable, sourceReadable, sourceWritable⟩ := wellScoped
      have sourceContent := agrees.read permits sourceReadable
      by_cases copies : operation = .copy
      · -- the old content of the target does not matter
        subst copies
        simp only [Step.command, Machine.step, Scores.operate, Step.run,
          ScoreOperation.evaluate, sourceContent, Step.writes, reduceCtorEq, if_false]
        exact agrees.write separated (target slotWritable) _
      have slotContent := agrees.read permits (slotReadable copies)
      simp only [Step.command, Machine.step, Scores.operate, Step.run, slotContent,
        sourceContent, Step.writes]
      have combined := agrees.write separated (target slotWritable)
        (operation.evaluate (memory (slot.located executor))
          (memory (source.located executor)))
      by_cases exchange : operation = .swap
      · have both := combined.write separated (target (sourceWritable exchange))
          (memory (slot.located executor))
        simp only [exchange, if_true] at both ⊢
        refine ⟨both.fixed, fun other member => both.known other ?_⟩
        simp only [List.cons_append, List.nil_append, List.mem_cons] at member ⊢
        rcases member with isTarget | isSource | old
        · exact Or.inr (Or.inl isTarget)
        · exact Or.inl isSource
        · exact Or.inr (Or.inr old)
      · simp only [exchange, if_false]
        exact combined
  | guarded tests step ih =>
      obtain ⟨testsReadable, stepScoped, writesReadable⟩ := wellScoped
      simp only [Step.command, Machine.step, Step.run, Step.writes]
      rw [follow_tests permits agrees tests testsReadable]
      by_cases passed : tests.all fun test =>
          test.2.contains (memory (test.1.located executor))
      · simp only [passed, if_true]
        exact ih stepScoped
      · simp only [passed]
        apply agrees.weaken permits
        intro slot member
        rcases List.mem_append.mp member with written | old
        · exact writesReadable slot written
        · exact Or.inl old

theorem steps_simulate (call : String → String → Scores → Scores)
    (permits : Permits (tracked ∘ Machine.locate executor) permissions)
    (separated : Separated executor tracked held)
    (typesEq : held.map Value.ty = types) (list : List Step)
    (agrees : Agrees executor tracked held known scores memory)
    (wellScoped : StepsWellScoped permissions types known list) :
    Agrees executor tracked held (list.flatMap Step.writes ++ known)
      (Machine.runAll call (list.map (Step.command held)) executor scores)
      (runSteps executor list memory) := by
  induction list generalizing known scores memory with
  | nil => exact agrees
  | cons step rest ih =>
      have first := step_simulates call permits separated typesEq step agrees wellScoped.1
      have later := ih first wellScoped.2
      refine ⟨later.fixed, fun slot member => later.known slot ?_⟩
      simp only [List.flatMap_cons, List.mem_append] at member ⊢
      rcases member with (now | after) | old
      · exact Or.inr (Or.inl now)
      · exact Or.inl after
      · exact Or.inr (Or.inr old)

/-- The values that a plan may have borrow, each with its unit. -/
def borrowers : Plan → List (Value × Score)
  | borrow value unit => [(value, unit)]
  | steps _ | fail _ => []
  | sequence first next => first.borrowers ++ next.borrowers
  | scratch _ _ body => body.borrowers

theorem borrow_simulates {functions : String → List Command} (depth : Nat) {value : Value}
    {unit : Score} {path : String}
    (permits : Permits (tracked ∘ Machine.locate executor) permissions)
    (separated : Separated executor tracked held)
    (stored : functions path = Routines.borrowCommands value unit)
    (agrees : Agrees executor tracked held known scores memory)
    (wellScoped : (borrow value unit).WellScoped permissions types known) :
    Agrees executor tracked held known
      (Machine.step (Machine.call functions (depth + 1)) (Routines.borrowCall value path)
        executor scores)
      ((borrow value unit).run executor memory) := by
  have denotes (part : Part) :
      ((Slot.fixed (value.register part)).located executor).Denotes executor tracked held
        (Machine.locate executor (value.register part)) :=
    ⟨permits.writable (value.register part) (wellScoped part).2, rfl⟩
  have content (part : Part) :
      scores.read (Machine.locate executor (value.register part)) =
        memory (partSlot executor value part) :=
    agrees.read permits (Slot.readable_fixed (wellScoped part).1)
  rw [Machine.step_borrowCall depth executor scores stored]
  simp only [content, run]
  by_cases disagree : memory (partSlot executor value .whole) ≤ -1 ∧
      1 ≤ memory (partSlot executor value .fraction)
  · rw [if_pos disagree, if_pos disagree]
    have both := (agrees.write separated (denotes .whole)
      (memory (partSlot executor value .whole) + 1)).write separated (denotes .fraction)
      (memory (partSlot executor value .fraction) - unit)
    exact ⟨both.fixed, fun slot member =>
      both.known slot (List.mem_cons_of_mem _ (List.mem_cons_of_mem _ member))⟩
  · rwa [if_neg disagree, if_neg disagree]

/-- The slots of a list that has one more scratch register. -/
theorem denotes_append {value : Value} {slot : Slot} {place : Register}
    (denotes : slot.Denotes executor tracked (held ++ [value]) place) :
    slot.Denotes executor tracked held place ∨
      ∃ part ∈ value.ty.parts, slot = .scratch held.length part ∧
        place = Machine.locate executor (value.register part) := by
  cases slot with
  | fixed register => exact Or.inl denotes
  | scratch level part =>
      obtain ⟨other, present, partMem, placeEq⟩ := denotes
      by_cases inside : level < held.length
      · rw [List.getElem?_append_left inside] at present
        exact Or.inl ⟨other, present, partMem, placeEq⟩
      · have last : level = held.length := by
          have bound := (List.getElem?_eq_some_iff.mp present).1
          rw [List.length_append, List.length_singleton] at bound
          omega
        subst last
        have same : value = other := by simpa using present
        subst same
        exact Or.inr ⟨part, partMem, rfl, placeEq⟩

theorem denotes_open {slot : Slot} {place : Register}
    (denotes : slot.Denotes executor tracked held place) (value : Value) :
    slot.Denotes executor tracked (held ++ [value]) place := by
  cases slot with
  | fixed register => exact denotes
  | scratch level part =>
      obtain ⟨other, present, partMem, placeEq⟩ := denotes
      have inside : level < held.length := (List.getElem?_eq_some_iff.mp present).1
      exact ⟨other, by rw [List.getElem?_append_left inside, present], partMem, placeEq⟩

theorem separated_nil (executor : String) (tracked : Register → Prop) :
    Separated executor tracked [] := by
  intro slot other place denotes otherDenotes
  cases slot with
  | scratch level part => simp [Slot.Denotes] at denotes
  | fixed first =>
      cases other with
      | scratch level part => simp [Slot.Denotes] at otherDenotes
      | fixed second => rw [← denotes.2, ← otherDenotes.2]

/-- No slot stands for a register of the value. -/
def Fresh (executor : String) (tracked : Register → Prop) (held : List Value)
    (value : Value) : Prop :=
  ∀ part ∈ value.ty.parts, ∀ slot : Slot,
    ¬ slot.Denotes executor tracked held (Machine.locate executor (value.register part))

theorem Separated.open {value : Value} (separated : Separated executor tracked held)
    (fresh : Fresh executor tracked held value) :
    Separated executor tracked (held ++ [value]) := by
  intro slot other place denotes otherDenotes
  rcases denotes_append denotes with old | ⟨part, partMem, slotEq, rfl⟩ <;>
    rcases denotes_append otherDenotes with otherOld | ⟨otherPart, otherMem, otherEq, otherPlace⟩
  · exact separated slot other place old otherOld
  · rw [otherPlace] at old
    exact absurd old (fresh otherPart otherMem slot)
  · exact absurd otherOld (fresh part partMem other)
  · have objectives : value.objective part = value.objective otherPart :=
      congrArg Register.objective otherPlace
    rw [slotEq, otherEq, Value.objective_injective _ objectives]

/-- Every scratch register that a plan takes is fresh when it is taken. -/
def TakesFresh (pool : Pool) (executor : String) (tracked : Register → Prop) :
    Plan → List Value → Workspace → Prop
  | steps _, _, _ | borrow _ _, _, _ | fail _, _, _ => True
  | sequence first next, held, workspace =>
      first.TakesFresh pool executor tracked held workspace ∧
        (first.failure? = none →
          next.TakesFresh pool executor tracked held (first.allocate pool held workspace).2)
  | scratch ty address body, held, workspace =>
      Fresh executor tracked held (workspace.acquire pool ty address).1.value ∧
        body.TakesFresh pool executor tracked
          (held ++ [(workspace.acquire pool ty address).1.value])
          (workspace.acquire pool ty address).2

/-- Which registers a plan takes depends only on what the pool has room for. -/
theorem TakesFresh.of_sameRoom {pool : Pool} {plan : Plan} {before after : Workspace}
    (fresh : plan.TakesFresh pool executor tracked held before)
    (same : Workspace.SameRoom pool before after) :
    plan.TakesFresh pool executor tracked held after := by
  induction plan generalizing held before after with
  | steps list | borrow value unit | fail error => trivial
  | sequence first next firstIH nextIH =>
      refine ⟨firstIH fresh.1 same, fun succeeds => nextIH (fresh.2 succeeds) ?_⟩
      exact same.of_sameScratch (allocate_sameScratch pool first held before)
        (allocate_sameScratch pool first held after)
  | scratch ty address body ih =>
      rw [TakesFresh, same.acquire_value ty address]
      exact ⟨fresh.1, ih fresh.2 (same.acquire ty address)⟩

/-- What the pool and the open scratch registers have to fulfil for a plan to find
fresh registers. -/
structure Ready (pool : Pool) (executor : String) (tracked : Register → Prop)
    (held : List Value) (workspace : Workspace) : Prop where
  stems : workspace.DefaultStems
  room : workspace.HoldsFewerThan pool (10 ^ 6 + held.length)
  untouched : ∀ (slot : Slot) place, slot.Denotes executor tracked held place →
    ¬ workspace.Unheld pool place.objective

namespace Ready

variable {pool : Pool} {workspace : Workspace}

theorem of_sameScratch {after : Workspace}
    (ready : Ready pool executor tracked held workspace)
    (same : Workspace.SameScratch workspace after) :
    Ready pool executor tracked held after where
  stems := ready.stems.of_sameScratch same
  room := ready.room.of_sameScratch same
  untouched slot place denotes unheld :=
    ready.untouched slot place denotes (unheld.of_sameScratch same)

/-- A register from the pool is handed out for nobody else to have. -/
theorem unheld_acquired (ready : Ready pool executor tracked held workspace) {ty : Ty}
    (address : Address) (scalar : ty.isScalar) (nesting : held.length < maxNesting) {part : Part}
    (partMem : part ∈ (workspace.acquire pool ty address).1.value.ty.parts) :
    workspace.Unheld pool ((workspace.acquire pool ty address).1.value.objective part) ∧
      ¬ (workspace.acquire pool ty address).2.Unheld pool
        ((workspace.acquire pool ty address).1.value.objective part) := by
  have low : workspace.depth pool ⟨address.isGlobal, ty⟩ < Workspace.namedPositions := by
    have bound : workspace.depth pool ⟨address.isGlobal, ty⟩ < 10 ^ 6 + held.length :=
      ready.room ⟨address.isGlobal, ty⟩ scalar
    unfold maxNesting at nesting
    unfold Workspace.namedPositions
    omega
  apply Workspace.unheld_acquired ready.stems scalar low
  rw [Value.objectives_eq_parts]
  · exact List.mem_map_of_mem partMem
  · intro name fields
    rw [Workspace.acquire_value, Workspace.scratchAt_ty]
    exact Ty.not_struct_of_isScalar scalar name fields

theorem fresh (ready : Ready pool executor tracked held workspace) {ty : Ty}
    (address : Address) (scalar : ty.isScalar) (nesting : held.length < maxNesting) :
    Fresh executor tracked held (workspace.acquire pool ty address).1.value :=
  fun _ partMem slot denotes =>
    ready.untouched slot _ denotes (ready.unheld_acquired address scalar nesting partMem).1

theorem acquire (ready : Ready pool executor tracked held workspace) {ty : Ty}
    (address : Address) (scalar : ty.isScalar) (nesting : held.length < maxNesting) :
    Ready pool executor tracked (held ++ [(workspace.acquire pool ty address).1.value])
      (workspace.acquire pool ty address).2 := by
  refine ⟨ready.stems.acquire pool ty address, ?_, ?_⟩
  · rw [List.length_append, List.length_singleton]
    exact ready.room.acquire ty address
  · intro slot place denotes
    rcases denotes_append denotes with old | ⟨part, partMem, slotEq, placeEq⟩
    · exact fun unheld => ready.untouched slot place old unheld.of_acquire
    · rw [placeEq]
      exact (ready.unheld_acquired address scalar nesting partMem).2

end Ready

end Plan

namespace Workspace

theorem acquire_routines (workspace : Workspace) (pool : Pool) (ty : Ty) (address : Address) :
    (workspace.acquire pool ty address).2.routines = workspace.routines := by
  cases pool <;> rfl

theorem discard_routines (workspace : Workspace) (lease : Lease) :
    (workspace.discard lease).routines = workspace.routines := by
  have popped : (workspace.pop lease).routines = workspace.routines := by
    unfold pop
    split <;> rfl
  simp only [discard, release]
  by_cases gone : (workspace.tickets lease)[lease.index]? ≠ some lease.ticket
  · rw [if_pos gone]
  rw [if_neg gone]
  by_cases top : (workspace.tickets lease).length = lease.index + 1
  · rw [if_pos top]
    exact popped
  · rw [if_neg top]

end Workspace

namespace Plan

variable {executor : String} {tracked : Register → Prop} {held : List Value}
variable {permissions : Permissions} {types : List Ty} {known : List Slot}
variable {scores : Scores} {memory : Memory}

/-- What every borrow does to the routines, a whole plan does. -/
theorem allocate_routines (related : Routines → Routines → Prop)
    (refl : ∀ routines, related routines routines)
    (trans : ∀ {first second third}, related first second → related second third →
      related first third)
    (borrow : ∀ routines value unit, related routines (routines.borrow value unit).2)
    (pool : Pool) (plan : Plan) (held : List Value) (workspace : Workspace) :
    related workspace.routines (plan.allocate pool held workspace).2.routines := by
  have enclose (workspace : Workspace) (pool : Pool) (ty : Ty) (address : Address)
      {later : Workspace}
      (body : related (workspace.acquire pool ty address).2.routines later.routines) :
      related workspace.routines
        (later.discard (workspace.acquire pool ty address).1).routines := by
    rw [Workspace.acquire_routines] at body
    rwa [Workspace.discard_routines]
  exact allocate_related (fun before after => related before.routines after.routines)
    (fun before => refl before.routines) trans (fun before => borrow before.routines) enclose
    pool plan held workspace

theorem allocate_extends (pool : Pool) (plan : Plan) (held : List Value)
    (workspace : Workspace) :
    workspace.routines.Extends (plan.allocate pool held workspace).2.routines :=
  allocate_routines Routines.Extends .refl .trans Routines.borrow_extends pool plan held workspace

/-- The error of a lowering that failed. -/
def error? {α : Type} : Except LowerError α → Option LowerError
  | .ok _ => none
  | .error error => some error

/-- Whether carrying out a plan fails, and how, does not depend on the pool. -/
theorem error?_allocate (pool : Pool) (plan : Plan) (held : List Value)
    (workspace : Workspace) :
    error? (plan.allocate pool held workspace).1 = plan.failure? := by
  induction plan generalizing held workspace with
  | steps list => rfl
  | borrow value unit => rfl
  | fail error => rfl
  | sequence first next firstIH nextIH =>
      have firstOutcome := firstIH held workspace
      rcases outcome : first.allocate pool held workspace with ⟨error | front, middle⟩
      · rw [outcome] at firstOutcome
        rw [allocate_sequence_error outcome, failure?, ← firstOutcome]
        rfl
      · rw [outcome] at firstOutcome
        rw [allocate_sequence_ok outcome, failure?, ← firstOutcome, ← nextIH held middle]
        cases (next.allocate pool held middle).1 <;> rfl
  | scratch ty address body ih => exact ih _ _

theorem exists_allocate {plan : Plan} (succeeds : plan.failure? = none) (pool : Pool)
    (held : List Value) (workspace : Workspace) :
    ∃ commands later, plan.allocate pool held workspace = (.ok commands, later) := by
  rw [← error?_allocate pool plan held workspace] at succeeds
  rcases outcome : plan.allocate pool held workspace with ⟨error | commands, later⟩
  · rw [outcome] at succeeds
    cases succeeds
  · exact ⟨commands, later, rfl⟩

theorem allocate_sequence_inv {pool : Pool} {first next : Plan} {workspace after : Workspace}
    {commands : List Command}
    (succeeds : (sequence first next).allocate pool held workspace = (.ok commands, after)) :
    ∃ front middle back, first.allocate pool held workspace = (.ok front, middle) ∧
      next.allocate pool held middle = (.ok back, after) ∧ commands = front ++ back := by
  rcases outcome : first.allocate pool held workspace with ⟨error | front, middle⟩
  · rw [allocate_sequence_error outcome] at succeeds
    cases succeeds
  · rw [allocate_sequence_ok outcome] at succeeds
    rcases nextOutcome : next.allocate pool held middle with ⟨error | back, final⟩
    · rw [nextOutcome] at succeeds
      cases succeeds
    · rw [nextOutcome] at succeeds
      cases succeeds
      exact ⟨front, middle, back, rfl, nextOutcome, rfl⟩

/-- With names of their own for fewer than a million scratch registers, the pools
have fresh ones for every plan. -/
theorem Ready.takesFresh {pool : Pool} {plan : Plan} {workspace : Workspace}
    (ready : Ready pool executor tracked held workspace) (typesEq : held.map Value.ty = types)
    (wellScoped : plan.WellScoped permissions types known) :
    plan.TakesFresh pool executor tracked held workspace := by
  induction plan generalizing held types known workspace with
  | steps list | borrow value unit | fail error => trivial
  | sequence first next firstIH nextIH =>
      refine ⟨firstIH ready typesEq wellScoped.1, fun succeeds => ?_⟩
      exact nextIH (ready.of_sameScratch (allocate_sameScratch pool first held workspace)) typesEq
        (wellScoped.2 succeeds)
  | scratch ty address body ih =>
      obtain ⟨scalar, nesting, bodyScoped⟩ := wellScoped
      rw [← typesEq, List.length_map] at nesting
      have valueTy : (workspace.acquire pool ty address).1.value.ty = ty := by
        rw [Workspace.acquire_value, Workspace.scratchAt_ty]
      exact ⟨ready.fresh address scalar nesting,
        ih (ready.acquire address scalar nesting) (by simp [typesEq, valueTy]) bodyScoped⟩

/-- The commands of a plan, run on the board, do what the plan does to its
memory. -/
theorem allocate_simulates {pool : Pool} {functions : String → List Command} (depth : Nat)
    (permits : Permits (tracked ∘ Machine.locate executor) permissions) (plan : Plan)
    {workspace after : Workspace} {commands : List Command}
    (separated : Separated executor tracked held)
    (fresh : plan.TakesFresh pool executor tracked held workspace)
    (typesEq : held.map Value.ty = types)
    (wellScoped : plan.WellScoped permissions types known)
    (succeeds : plan.allocate pool held workspace = (.ok commands, after))
    (serves : ∀ pair ∈ plan.borrowers, after.routines.Serves functions pair.1 pair.2)
    (agrees : Agrees executor tracked held known scores memory) :
    Agrees executor tracked held (plan.gains ++ known)
      (Machine.runAll (Machine.call functions (depth + 1)) commands executor scores)
      (plan.run executor memory) := by
  induction plan generalizing held types known workspace after commands scores memory with
  | steps list =>
      cases succeeds
      exact steps_simulate _ permits separated typesEq list agrees wellScoped
  | borrow value unit =>
      cases succeeds
      obtain ⟨routine, stored, pathEq⟩ :=
        Routines.borrow_stored workspace.routines value unit
      have body := serves (value, unit) (List.mem_singleton_self _) routine stored
      rw [pathEq] at body
      exact borrow_simulates depth permits separated body agrees wellScoped
  | fail error => cases succeeds
  | sequence first next firstIH nextIH =>
      obtain ⟨front, middle, back, firstSucceeds, nextSucceeds, rfl⟩ :=
        allocate_sequence_inv succeeds
      have firstClean := error?_allocate pool first held workspace
      have nextGrown := allocate_extends pool next held middle
      have nextFresh := fresh.2
      rw [firstSucceeds] at firstClean nextFresh
      rw [nextSucceeds] at nextGrown
      have firstAgrees := firstIH separated fresh.1 typesEq wellScoped.1 firstSucceeds
        (fun pair member =>
          (serves pair (List.mem_append_left _ member)).of_extends nextGrown) agrees
      have nextAgrees := nextIH separated (nextFresh firstClean.symm) typesEq
        (wellScoped.2 firstClean.symm) nextSucceeds
        (fun pair member => serves pair (List.mem_append_right _ member)) firstAgrees
      rw [Machine.runAll_append, gains, List.append_assoc]
      exact nextAgrees
  | scratch ty address body ih =>
      obtain ⟨_, _, bodyScoped⟩ := wellScoped
      rcases outcome : body.allocate pool
        (held ++ [(workspace.acquire pool ty address).1.value])
        (workspace.acquire pool ty address).2 with ⟨result, later⟩
      simp only [allocate, outcome, Prod.mk.injEq] at succeeds
      obtain ⟨rfl, rfl⟩ := succeeds
      have valueTy : (workspace.acquire pool ty address).1.value.ty = ty := by
        rw [Workspace.acquire_value, Workspace.scratchAt_ty]
      -- what was known before is still known of the same registers
      have opened : Agrees executor tracked
          (held ++ [(workspace.acquire pool ty address).1.value]) known scores memory := by
        refine ⟨agrees.fixed, fun slot member => ?_⟩
        obtain ⟨place, denotes, content⟩ := agrees.known slot member
        exact ⟨place, denotes_open denotes _, content⟩
      have bodyAgrees := ih (separated.open fresh.1) fresh.2 (by simp [typesEq, valueTy])
        bodyScoped outcome
        (by simpa only [Workspace.discard_routines, borrowers] using serves) opened
      refine ⟨bodyAgrees.fixed, fun slot member => ?_⟩
      obtain ⟨place, denotes, _⟩ := agrees.known slot member
      obtain ⟨laterPlace, laterDenotes, content⟩ :=
        bodyAgrees.known slot (List.mem_append_right _ member)
      rw [denotes_unique laterDenotes (denotes_open denotes _)] at content
      exact ⟨place, denotes, content⟩

end Plan

end ScoreLowering
