import ScoreLowering.Proofs.RegisterCreation
import ScoreLowering.Proofs.StatementFrame

/-!
# Plans use only what is created

A plan names the registers of its operands, scratch registers of a pool and, through
borrow routines, the registers of the value that borrows.  A pool decides by its
records whether a scratch register still has to be created.  For the registers that
plans take no record is ever wrong: their types have no fields, and decimals stay so
low on their stacks that their names are written out.
-/

namespace ScoreLowering

namespace Clause

def NamesOnly (allowed : String → Prop) : Clause → Prop
  | asEntity _ => True
  | ifScore register _ => allowed register.objective

theorem NamesOnly.mono {allowed more : String → Prop}
    (wider : ∀ objective, allowed objective → more objective) {clause : Clause}
    (only : clause.NamesOnly allowed) : clause.NamesOnly more := by
  cases clause with
  | asEntity selector => trivial
  | ifScore register range => exact wider _ only

end Clause

namespace Command

/-- The command names allowed objectives only.  A command handed over as text may name
anything. -/
def NamesOnly (allowed : String → Prop) : Command → Prop
  | addObjective name | removeObjective name => allowed name
  | setScore register _ | addScore register _ | removeScore register _ =>
      allowed register.objective
  | operate target _ source => allowed target.objective ∧ allowed source.objective
  | execute clauses run => (∀ clause ∈ clauses, clause.NamesOnly allowed) ∧ run.NamesOnly allowed
  | call _ => True
  | raw _ => False

theorem NamesOnly.mono {allowed more : String → Prop}
    (wider : ∀ objective, allowed objective → more objective) {command : Command}
    (only : command.NamesOnly allowed) : command.NamesOnly more := by
  induction command with
  | addObjective name | removeObjective name => exact wider _ only
  | setScore register _ | addScore register _ | removeScore register _ => exact wider _ only
  | operate target operation source => exact ⟨wider _ only.1, wider _ only.2⟩
  | execute clauses run ih =>
      exact ⟨fun clause member => (only.1 clause member).mono wider, ih only.2⟩
  | call path => trivial
  | raw text => exact only.elim

end Command

namespace Workspace

theorem DefaultStems.scratchAt_eq {before after : Workspace} (stems : DefaultStems before)
    (later : DefaultStems after) : after.scratchAt = before.scratchAt :=
  scratchAt_congr (later.stacked.trans stems.stacked.symm)
    (later.counted.trans stems.counted.symm)

theorem DefaultStems.discard {workspace : Workspace} (stems : DefaultStems workspace)
    (lease : Lease) : DefaultStems (workspace.discard lease) := by
  rcases workspace.discard_cases lease with same | popped
  · rw [same]
    exact stems
  · rcases workspace.pop_cases lease with after | after <;> rw [popped, after] <;>
      exact ⟨stems.stacked, stems.counted⟩

theorem discard_creates {workspace : Workspace} {lease : Lease} :
    (workspace.discard lease).Creates = workspace.Creates := by
  funext objective
  rw [Creates, Creates, discard_head]

theorem depth_discard_le (workspace : Workspace) (lease : Lease) (pool : Pool) (key : StackKey) :
    (workspace.discard lease).depth pool key ≤ workspace.depth pool key := by
  rcases workspace.discard_cases lease with same | popped
  · exact Nat.le_of_eq (congrArg (depth · pool key) same)
  · rw [popped, depth, depth, held_pop]
    split
    · rw [List.length_dropLast]
      exact Nat.sub_le _ _
    · exact Nat.le_refl _

theorem depth_acquire_of_ne (workspace : Workspace) (pool : Pool) {ty : Ty} {address : Address}
    {key : StackKey} (different : key ≠ ⟨address.isGlobal, ty⟩) :
    (workspace.acquire pool ty address).2.depth .stacked key = workspace.depth .stacked key := by
  cases pool with
  | stacked => exact congrArg List.length (StackPool.stack_acquire_of_ne _ _ _ different)
  | counted => rfl

/-- Whatever was created still is. -/
def Retains (before after : Workspace) : Prop :=
  ∀ objective, before.Creates objective → after.Creates objective

theorem Retains.trans {first second third : Workspace} (left : Retains first second)
    (right : Retains second third) : Retains first third :=
  fun objective created => right objective (left objective created)

theorem retains_acquire (workspace : Workspace) (pool : Pool) (ty : Ty) (address : Address) :
    Retains workspace (workspace.acquire pool ty address).2 :=
  fun objective created => (creates_acquire workspace pool ty address objective).mpr (.inl created)

theorem retains_allocate (pool : Pool) (plan : Plan) (held : List Value)
    (workspace : Workspace) : Retains workspace (plan.allocate pool held workspace).2 := by
  apply Plan.allocate_related Retains (fun _ _ => id) Retains.trans (fun _ _ _ _ => id)
  intro workspace pool ty address later used
  rw [Retains, discard_creates]
  exact (retains_acquire workspace pool ty address).trans used

/-- The name of the register says how it is laid out, unless it is a decimal of the
stacks whose name is a digest. -/
def Reliable (pool : Pool) (register : Value) : Prop :=
  pool = .stacked → register.ty.parts = [.whole] ∨ register.name = register.ident

/-- Single registers with one record have the same objectives. -/
theorem objectives_eq_of_record {workspace : Workspace} (stems : DefaultStems workspace)
    {pool : Pool} {ty otherTy : Ty} {address otherAddress : Address} {position other : Nat}
    (single : ty.isSingle) (otherSingle : otherTy.isSingle)
    (reliable : Reliable pool (workspace.scratchAt pool ty address position))
    (otherReliable : Reliable pool (workspace.scratchAt pool otherTy otherAddress other))
    (same : recordOf pool (workspace.scratchAt pool ty address position) =
      recordOf pool (workspace.scratchAt pool otherTy otherAddress other)) :
    (workspace.scratchAt pool ty address position).objectives =
      (workspace.scratchAt pool otherTy otherAddress other).objectives := by
  cases pool with
  | counted =>
      have alike : ty.alike otherTy := by simp [Ty.alike, single, otherSingle]
      exact counted_objectives_eq stems same alike (Or.inl single)
  | stacked =>
      have names := congrArg Prod.fst same
      -- one written name is enough, since a digest is never taken for it
      rcases reliable rfl with whole | written
      · rcases otherReliable rfl with otherWhole | otherWritten
        · exact Value.objectives_eq_of_parts single otherSingle names (whole.trans otherWhole.symm)
        · exact (stacked_objectives_eq stems otherWritten names.symm (Or.inl otherSingle)).symm
      · exact stacked_objectives_eq stems written names (Or.inl single)

/-- Whatever is recorded or generated is created. -/
structure Complete (workspace : Workspace) : Prop where
  stems : workspace.DefaultStems
  recorded : ∀ pool, ∀ record ∈ workspace.records pool, ∃ ty address position, ty.isSingle ∧
    record = recordOf pool (workspace.scratchAt pool ty address position) ∧
    Reliable pool (workspace.scratchAt pool ty address position) ∧
    workspace.CreatesAll (workspace.scratchAt pool ty address position)
  routines : ∀ routine ∈ workspace.routines.routines, ∀ command ∈ routine.commands,
    command.NamesOnly workspace.Creates

namespace Complete

variable {workspace : Workspace}

theorem createsAll_acquire (complete : workspace.Complete) {pool : Pool} {ty : Ty}
    {address : Address} (single : ty.isSingle)
    (reliable : Reliable pool (workspace.acquire pool ty address).1.value) :
    (workspace.acquire pool ty address).2.CreatesAll
      (workspace.acquire pool ty address).1.value := by
  intro objective inside
  rw [creates_acquire]
  by_cases known : recordOf pool (workspace.acquire pool ty address).1.value ∈
      workspace.records pool
  · -- nothing is created, so the register behind the record has to stand in
    left
    obtain ⟨otherTy, otherAddress, other, otherSingle, same, otherReliable, created⟩ :=
      complete.recorded pool _ known
    rw [acquire_value] at same reliable inside
    rw [objectives_eq_of_record complete.stems single otherSingle reliable otherReliable same]
      at inside
    exact created objective inside
  · exact Or.inr ⟨known, inside⟩

theorem acquire (complete : workspace.Complete) {pool : Pool} {ty : Ty} {address : Address}
    (single : ty.isSingle)
    (reliable : Reliable pool (workspace.acquire pool ty address).1.value) :
    (workspace.acquire pool ty address).2.Complete := by
  have stems := complete.stems.acquire pool ty address
  have retains := retains_acquire workspace pool ty address
  have created := complete.createsAll_acquire single reliable
  refine ⟨stems, fun other record member => ?_, fun routine member command inside => ?_⟩
  · rw [complete.stems.scratchAt_eq stems]
    rcases (acquire_records workspace pool ty address record other).mp member with
      old | ⟨rfl, rfl⟩
    · obtain ⟨otherTy, otherAddress, position, otherSingle, same, otherReliable, before⟩ :=
        complete.recorded other record old
      exact ⟨otherTy, otherAddress, position, otherSingle, same, otherReliable,
        fun objective inside => retains objective (before objective inside)⟩
    · rw [acquire_value] at reliable created ⊢
      exact ⟨ty, address, _, single, rfl, reliable, created⟩
  · rw [acquire_routines] at member
    exact (complete.routines routine member command inside).mono retains

theorem discard (complete : workspace.Complete) (lease : Lease) :
    (workspace.discard lease).Complete := by
  have stems := complete.stems.discard lease
  refine ⟨stems, ?_, ?_⟩
  · rw [(SameCreation.discard workspace lease).records_eq, complete.stems.scratchAt_eq stems]
    simp only [CreatesAll, discard_creates]
    exact complete.recorded
  · rw [discard_routines, discard_creates]
    exact complete.routines

/-- The routine for a value names the two parts of the value. -/
theorem borrow (complete : workspace.Complete) {value : Value}
    (created : ∀ part, workspace.Creates (value.objective part)) (unit : Score) :
    (workspace.borrow value unit).2.Complete := by
  refine ⟨⟨complete.stems.stacked, complete.stems.counted⟩, complete.recorded, ?_⟩
  change ∀ routine ∈ (workspace.routines.borrow value unit).2.routines,
    ∀ command ∈ routine.commands, command.NamesOnly workspace.Creates
  cases found : workspace.routines.table.get? (Routines.borrowKey value unit) with
  | some known =>
      rw [Routines.borrow_known found]
      exact complete.routines
  | none =>
      rw [Routines.borrow_new found]
      intro routine member command inside
      obtain ⟨entry, entryMem, rfl⟩ := List.mem_map.mp member
      rcases OrderedMap.mem_entries_insert entryMem with old | rfl
      · exact complete.routines _ (List.mem_map_of_mem old) command inside
      · simp only [Routines.borrowCommands, List.mem_cons, List.not_mem_nil, or_false] at inside
        rcases inside with rfl | rfl
        · exact created .whole
        · exact created .fraction

end Complete

end Workspace

namespace Plan

open Workspace

variable {permissions : Permissions} {types : List Ty} {known : List Slot} {held : List Value}
variable {workspace : Workspace}

theorem stepsWellScoped_writable {list : List Step}
    (wellScoped : StepsWellScoped permissions types known list) {slot : Slot}
    (written : slot ∈ list.flatMap Step.writes) : slot.Writable permissions types := by
  induction list generalizing known with
  | nil => exact absurd written List.not_mem_nil
  | cons step rest ih =>
      rcases List.mem_append.mp written with first | later
      · exact step_writes_writable wellScoped.1 first
      · exact ih wellScoped.2 later

theorem gains_writable {plan : Plan} (wellScoped : plan.WellScoped permissions types known)
    (succeeds : plan.failure? = none) {slot : Slot} (gained : slot ∈ plan.gains) :
    slot.Writable permissions types := by
  induction plan generalizing known with
  | steps list => exact stepsWellScoped_writable wellScoped gained
  | sequence first next firstIH nextIH =>
      obtain ⟨firstSucceeds, nextSucceeds⟩ := Option.or_eq_none_iff.mp succeeds
      rcases List.mem_append.mp gained with inNext | inFirst
      · exact nextIH (wellScoped.2 firstSucceeds) nextSucceeds inNext
      · exact firstIH wellScoped.1 firstSucceeds inFirst
  | borrow value unit | fail error | scratch ty address body _ =>
      exact absurd gained List.not_mem_nil

/-- What a plan relies on is created, and there is room for its decimals on the
stacks. -/
structure Provided (permissions : Permissions) (held : List Value) (known : List Slot)
    (workspace : Workspace) : Prop where
  permits : Permits (fun register => workspace.Creates register.objective) permissions
  opened : ∀ value ∈ held, ∀ part ∈ value.ty.parts, workspace.Creates (value.objective part)
  known : ∀ slot ∈ known, slot.Writable permissions (held.map Value.ty)
  shallow : ∀ global precision,
    workspace.depth .stacked ⟨global, .decimal precision⟩ ≤ held.length

namespace Provided

theorem creates_of_writable (provided : Provided permissions held known workspace) {slot : Slot}
    (writable : slot.Writable permissions (held.map Value.ty)) :
    workspace.Creates (slot.register held).objective := by
  cases slot with
  | fixed register => exact provided.permits.writable register writable
  | scratch level part =>
      obtain ⟨ty, present, partMem⟩ := writable
      rw [List.getElem?_map, Option.map_eq_some_iff] at present
      obtain ⟨value, isHeld, rfl⟩ := present
      rw [Slot.register, isHeld]
      exact provided.opened value (List.mem_of_getElem? isHeld) part partMem

theorem creates_of_readable (provided : Provided permissions held known workspace) {slot : Slot}
    (readable : slot.Readable permissions known) :
    workspace.Creates (slot.register held).objective := by
  rcases readable with isKnown | ⟨register, rfl, allowed⟩
  · exact provided.creates_of_writable (provided.known slot isKnown)
  · exact provided.permits.readable register allowed

theorem namesOnly_command (provided : Provided permissions held known workspace) {step : Step}
    (wellScoped : step.WellScoped permissions (held.map Value.ty) known) :
    (step.command held).NamesOnly workspace.Creates := by
  induction step with
  | set target score => exact provided.creates_of_writable wellScoped
  | add target amount | remove target amount => exact provided.creates_of_writable wellScoped.2
  | operate target operation source =>
      exact ⟨provided.creates_of_writable wellScoped.2.1,
        provided.creates_of_readable wellScoped.2.2.1⟩
  | guarded tests step ih =>
      refine ⟨fun clause member => ?_, ih wellScoped.2.1⟩
      obtain ⟨test, testMem, rfl⟩ := List.mem_map.mp member
      exact provided.creates_of_readable (wellScoped.1 test testMem)

theorem learn (provided : Provided permissions held known workspace) {more : List Slot}
    (writable : ∀ slot ∈ more, slot.Writable permissions (held.map Value.ty)) :
    Provided permissions held (more ++ known) workspace where
  permits := provided.permits
  opened := provided.opened
  known slot member := (List.mem_append.mp member).elim (writable slot) (provided.known slot)
  shallow := provided.shallow

theorem namesOnly_commands (provided : Provided permissions held known workspace)
    {list : List Step}
    (wellScoped : StepsWellScoped permissions (held.map Value.ty) known list) :
    ∀ command ∈ list.map (Step.command held), command.NamesOnly workspace.Creates := by
  induction list generalizing known with
  | nil => exact fun _ member => absurd member List.not_mem_nil
  | cons step rest ih =>
      intro command member
      rcases List.mem_cons.mp member with rfl | later
      · exact provided.namesOnly_command wellScoped.1
      · exact ih (provided.learn fun _ => step_writes_writable wellScoped.1) wellScoped.2
          command later

theorem of_retains (provided : Provided permissions held known workspace) {after : Workspace}
    (retains : Retains workspace after) (same : SameScratch workspace after) :
    Provided permissions held known after where
  permits := ⟨fun register allowed => retains _ (provided.permits.readable register allowed),
    fun register allowed => retains _ (provided.permits.writable register allowed)⟩
  opened value member part partMem := retains _ (provided.opened value member part partMem)
  known := provided.known
  shallow global precision := by
    rw [same.depth_eq]
    exact provided.shallow global precision

theorem reliable (provided : Provided permissions held known workspace)
    (stems : workspace.DefaultStems) (pool : Pool) {ty : Ty} (address : Address)
    (scalar : ty.isScalar) (nesting : held.length < maxNesting) :
    Reliable pool (workspace.acquire pool ty address).1.value := by
  rintro rfl
  rw [acquire_value]
  cases ty with
  | decimal precision =>
      -- all decimals that are held belong to this plan, so there are few of them
      right
      apply scratchAt_name stems scalar
      have low := provided.shallow address.isGlobal precision
      unfold maxNesting at nesting
      unfold namedPositions
      omega
  | struct name fields => cases scalar
  | int | bool | time => exact Or.inl rfl

/-- A register fresh from the pool joins those that are open. -/
theorem acquire (provided : Provided permissions held known workspace) {pool : Pool} {ty : Ty}
    {address : Address} (scalar : ty.isScalar)
    (created : (workspace.acquire pool ty address).2.CreatesAll
      (workspace.acquire pool ty address).1.value) :
    Provided permissions (held ++ [(workspace.acquire pool ty address).1.value]) known
      (workspace.acquire pool ty address).2 where
  permits := by
    have retains := retains_acquire workspace pool ty address
    exact ⟨fun register allowed => retains _ (provided.permits.readable register allowed),
      fun register allowed => retains _ (provided.permits.writable register allowed)⟩
  opened value member part partMem := by
    rcases List.mem_append.mp member with old | new
    · exact retains_acquire workspace pool ty address _ (provided.opened value old part partMem)
    · obtain rfl := List.mem_singleton.mp new
      apply created
      rw [Value.objectives_eq_parts]
      · exact List.mem_map_of_mem partMem
      · rw [acquire_value, scratchAt_ty]
        exact Ty.not_struct_of_isScalar scalar
  known slot member := by
    rw [List.map_append]
    exact (provided.known slot member).append _
  shallow global precision := by
    have before := provided.shallow global precision
    rw [List.length_append, List.length_singleton]
    cases pool with
    | stacked =>
        have grown := (depth_acquire workspace .stacked ty address
          ⟨global, .decimal precision⟩).2
        omega
    | counted =>
        change workspace.depth .stacked ⟨global, .decimal precision⟩ ≤ _
        omega

end Provided

theorem namesOnly_borrowCall {allowed : String → Prop} {value : Value}
    (created : ∀ part, allowed (value.objective part)) (path : String) :
    (Routines.borrowCall value path).NamesOnly allowed := by
  refine ⟨fun clause member => ?_, trivial⟩
  rcases List.mem_append.mp member with executor | test
  · split at executor
    · obtain rfl := List.mem_singleton.mp executor
      trivial
    · exact absurd executor List.not_mem_nil
  · simp only [List.mem_cons, List.not_mem_nil, or_false] at test
    rcases test with rfl | rfl
    · exact created .whole
    · exact created .fraction

/-- Carrying out a plan leaves everything complete, also if it fails, and its commands
name what is created by then. -/
theorem allocate_complete (pool : Pool) (plan : Plan) (complete : workspace.Complete)
    (provided : Provided permissions held known workspace)
    (wellScoped : plan.WellScoped permissions (held.map Value.ty) known) :
    (plan.allocate pool held workspace).2.Complete ∧
      ∀ commands, (plan.allocate pool held workspace).1 = .ok commands →
        ∀ command ∈ commands,
          command.NamesOnly (plan.allocate pool held workspace).2.Creates := by
  induction plan generalizing held known workspace with
  | steps list =>
      refine ⟨complete, fun commands succeeded => ?_⟩
      cases succeeded
      exact provided.namesOnly_commands wellScoped
  | borrow value unit =>
      have created (part : Part) : workspace.Creates (value.objective part) :=
        provided.permits.readable _ (wellScoped part).1
      refine ⟨complete.borrow created unit, fun commands succeeded command member => ?_⟩
      cases succeeded
      obtain rfl := List.mem_singleton.mp member
      exact namesOnly_borrowCall created _
  | fail error => exact ⟨complete, nofun⟩
  | sequence first next firstIH nextIH =>
      have firstDone := firstIH complete provided wellScoped.1
      have retains := retains_allocate pool first held workspace
      have same := allocate_sameScratch pool first held workspace
      have clean := error?_allocate pool first held workspace
      rcases outcome : first.allocate pool held workspace with ⟨error | front, middle⟩
      · rw [outcome] at firstDone
        rw [allocate_sequence_error outcome]
        exact ⟨firstDone.1, nofun⟩
      · -- what the first part wrote is known to the next one, and still created
        rw [outcome] at firstDone retains same clean
        have learned : Provided permissions held (first.gains ++ known) middle :=
          (provided.of_retains retains same).learn fun slot =>
            gains_writable wellScoped.1 clean.symm
        have nextDone := nextIH firstDone.1 learned (wellScoped.2 clean.symm)
        rw [allocate_sequence_ok outcome]
        refine ⟨nextDone.1, fun commands succeeded command member => ?_⟩
        cases backEq : (next.allocate pool held middle).1 with
        | error error =>
            rw [backEq] at succeeded
            cases succeeded
        | ok back =>
            rw [backEq] at succeeded
            cases succeeded
            rcases List.mem_append.mp member with inFront | inBack
            · exact (firstDone.2 front rfl command inFront).mono
                (retains_allocate pool next held middle)
            · exact nextDone.2 back backEq command inBack
  | scratch ty address body ih =>
      obtain ⟨scalar, nesting, bodyScoped⟩ := wellScoped
      rw [List.length_map] at nesting
      have single := Ty.isSingle_of_isScalar scalar
      have reliable := provided.reliable complete.stems pool address scalar nesting
      have created := complete.createsAll_acquire single reliable
      have valueTy : (workspace.acquire pool ty address).1.value.ty = ty := by
        rw [acquire_value, scratchAt_ty]
      have done := ih (complete.acquire single reliable) (provided.acquire scalar created)
        (by simpa [valueTy] using bodyScoped)
      simp only [allocate]
      rw [discard_creates]
      exact ⟨done.1.discard _, done.2⟩

end Plan

end ScoreLowering
