import Mathlib.Logic.Relation
import ScoreLowering.Proofs.PlanCreation

/-!
# A program uses only objectives it creates

The commands of a function name declared values and their fields, scratch registers
and generated routines.  Each of these is created by another piece of a compilation
and at another time.  A compilation that gets all its scratch registers through
lowerings never names an objective that its head does not create, whatever its
closures lower, keep and drop.
-/

namespace ScoreLowering

namespace Value

theorem register_created {workspace : Workspace} {value : Value} {register : Register}
    (created : workspace.CreatesAll value) (inside : register ∈ value.registers) :
    workspace.Creates register.objective := by
  obtain ⟨objective, member, rfl⟩ := List.mem_map.mp inside
  exact created objective member

/-- A filter tests the value itself, or the scratch register that a decimal is joined
in. -/
theorem compare_cases {this : Value} {pool : Pool} {comparison : Comparison} {literal : Literal}
    {workspace later : Workspace} {filter : Filter}
    (compared : this.compare pool comparison literal workspace = (.ok filter, later)) :
    (this.ty.parts = [.whole] ∧ this.ty.isSingle ∧ later = workspace ∧ filter.commands = [] ∧
        ∀ entry ∈ filter.entries, entry.objective = this.name) ∨
      ∃ precision, this.ty = .decimal precision ∧
        (Filter.joinPlan this precision).allocate pool
            [(workspace.acquire pool .int this.address).1.value]
            (workspace.acquire pool .int this.address).2 = (.ok filter.commands, later) ∧
        ∀ entry ∈ filter.entries,
          entry.objective = (workspace.acquire pool .int this.address).1.value.name := by
  unfold Value.compare at compared
  split at compared
  case h_1 tyEq =>
      split at compared
      · cases compared
      · split at compared <;> cases compared
        exact Or.inl ⟨by rw [tyEq]; rfl, by rw [tyEq]; rfl, rfl, rfl, by simp [Filter.direct]⟩
  case h_2 tyEq | h_3 tyEq =>
      split at compared <;> cases compared
      exact Or.inl ⟨by rw [tyEq]; rfl, by rw [tyEq]; rfl, rfl, rfl, by simp [Filter.direct]⟩
  case h_4 precision tyEq =>
      split at compared
      · cases compared
      · simp only [Filter.joined] at compared
        split at compared
        · cases compared
        · rename_i planned
          cases compared
          exact Or.inr ⟨precision, tyEq, planned, by simp⟩
  case h_5 => cases compared

end Value

namespace Workspace

/-- Everything is complete, and no decimal is held on the stacks. -/
structure AtRest (workspace : Workspace) : Prop where
  complete : workspace.Complete
  noDecimals : ∀ global precision, workspace.depth .stacked ⟨global, .decimal precision⟩ = 0

namespace AtRest

variable {workspace : Workspace}

theorem discard (rest : workspace.AtRest) (lease : Lease) : (workspace.discard lease).AtRest where
  complete := rest.complete.discard lease
  noDecimals global precision := by
    have less := workspace.depth_discard_le lease .stacked ⟨global, .decimal precision⟩
    have none := rest.noDecimals global precision
    omega

/-- The pools and the routines do not notice what is put into the head. -/
theorem pushHead (rest : workspace.AtRest) (commands : List Command) :
    (workspace.pushHead commands).AtRest := by
  have retains : Retains workspace (workspace.pushHead commands) :=
    fun _ created => List.mem_append_left _ created
  obtain ⟨⟨stems, recorded, routines⟩, noDecimals⟩ := rest
  have laterStems : (workspace.pushHead commands).DefaultStems := ⟨stems.stacked, stems.counted⟩
  refine ⟨⟨laterStems, fun pool record member => ?_, fun routine member command inside => ?_⟩,
    noDecimals⟩
  · have sameRecords : (workspace.pushHead commands).records = workspace.records :=
      records_eq rfl rfl
    rw [sameRecords] at member
    obtain ⟨ty, address, position, single, same, reliable, created⟩ := recorded pool record member
    rw [stems.scratchAt_eq laterStems]
    exact ⟨ty, address, position, single, same, reliable,
      fun objective inside => retains _ (created objective inside)⟩
  · exact (routines routine member command inside).mono retains

theorem provided (rest : workspace.AtRest) {permissions : Permissions}
    (permits : Plan.Permits (fun register => workspace.Creates register.objective)
      permissions) :
    Plan.Provided permissions [] [] workspace where
  permits := permits
  opened _ member := absurd member List.not_mem_nil
  known _ member := absurd member List.not_mem_nil
  shallow global precision := Nat.le_of_eq (rest.noDecimals global precision)

theorem lower (rest : workspace.AtRest) {statement : Statement}
    (created : ∀ value ∈ statement.operands, workspace.CreatesAll value) (pool : Pool) :
    (statement.lower pool workspace).2.AtRest ∧
      Retains workspace (statement.lower pool workspace).2 ∧
      ∀ commands, (statement.lower pool workspace).1 = .ok commands →
        ∀ command ∈ commands, command.NamesOnly (statement.lower pool workspace).2.Creates := by
  rw [Statement.lower_eq_allocate]
  have permits : Plan.Permits (fun register => workspace.Creates register.objective)
      statement.permissions := by
    constructor
    · rintro register ⟨value, member, inside⟩
      exact Value.register_created (created value member) inside
    · rintro register ⟨value, member, inside⟩
      exact Value.register_created (created value (statement.targets_subset member)) inside
  have done := Plan.allocate_complete pool statement.plan rest.complete (rest.provided permits)
    statement.plan_wellScoped
  have same := Plan.allocate_sameScratch pool statement.plan [] workspace
  refine ⟨⟨done.1, fun global precision => ?_⟩, retains_allocate _ _ _ _, done.2⟩
  rw [same.depth_eq]
  exact rest.noDecimals global precision

/-- The register that a comparison holds on to is an integer, so that decimals still
have their stacks for themselves. -/
theorem compare (rest : workspace.AtRest) {this : Value} (created : workspace.CreatesAll this)
    {pool : Pool} {comparison : Comparison} {literal : Literal} {filter : Filter}
    {later : Workspace}
    (compared : this.compare pool comparison literal workspace = (.ok filter, later)) :
    later.AtRest ∧ Retains workspace later ∧
      (∀ command ∈ filter.commands, command.NamesOnly later.Creates) ∧
      ∀ entry ∈ filter.entries, later.Creates entry.objective := by
  rcases Value.compare_cases compared with
    ⟨whole, single, rfl, none, direct⟩ | ⟨precision, tyEq, planned, joined⟩
  · refine ⟨rest, fun _ => id, by simp [none], fun entry member => ?_⟩
    rw [direct entry member]
    apply created
    rw [Value.objectives_eq_parts (Ty.ne_struct_of_isSingle single), whole]
    exact List.mem_singleton_self _
  · -- a decimal: its parts are read, and nothing is written outside of the pool
    have permits : Plan.Permits (fun register => workspace.Creates register.objective)
        ⟨(· ∈ this.registers), fun _ => False⟩ :=
      ⟨fun _ => Value.register_created created, nofun⟩
    have provided := rest.provided permits
    have reliable : Reliable pool (workspace.acquire pool .int this.address).1.value :=
      provided.reliable rest.complete.stems pool this.address rfl (by decide)
    have handed := rest.complete.createsAll_acquire rfl reliable
    have joinScoped : (Filter.joinPlan this precision).WellScoped
        ⟨(· ∈ this.registers), fun _ => False⟩
        (([] ++ [(workspace.acquire pool .int this.address).1.value]).map Value.ty) [] := by
      have valueTy : (workspace.acquire pool .int this.address).1.value.ty = .int := by
        rw [acquire_value, scratchAt_ty]
      rw [List.nil_append, List.map_singleton, valueTy]
      refine Plan.joinPlan_wellScoped fun part => ?_
      exact Value.register_mem_of_decimal tyEq part
    have done := Plan.allocate_complete pool _ (rest.complete.acquire rfl reliable)
      (provided.acquire rfl handed) joinScoped
    have retains := retains_allocate pool (Filter.joinPlan this precision)
      [(workspace.acquire pool .int this.address).1.value]
      (workspace.acquire pool .int this.address).2
    have same := Plan.allocate_sameScratch pool (Filter.joinPlan this precision)
      [(workspace.acquire pool .int this.address).1.value]
      (workspace.acquire pool .int this.address).2
    rw [List.nil_append] at done
    rw [planned] at done retains same
    refine ⟨⟨done.1, fun global other => ?_⟩, ?_, done.2 _ rfl, fun entry member => ?_⟩
    · rw [same.depth_eq]
      have apart : (⟨global, .decimal other⟩ : StackKey) ≠ ⟨this.address.isGlobal, .int⟩ := by
        simp
      rw [depth_acquire_of_ne workspace pool apart]
      exact rest.noDecimals global other
    · exact (retains_acquire workspace pool .int this.address).trans retains
    · rw [joined entry member]
      apply retains
      apply handed
      rw [acquire_value, Value.objectives_eq_parts (by simp [scratchAt_ty]), scratchAt_ty]
      exact List.mem_singleton_self _

end AtRest

/-- What a closure may do to lower statements about offered values.  It collects the
commands of statements that succeed, and the filters of comparisons, on which it may
hold on as long as it likes. -/
inductive Lowers (offered : Value → Prop) (before : Workspace) :
    Workspace → List Command → List FilterEntry → Prop
  | nothing : Lowers offered before before [] []
  | succeed {middle later : Workspace} {commands more : List Command} {tests : List FilterEntry}
      {pool : Pool} {statement : Statement} :
      Lowers offered before middle commands tests →
      (∀ value ∈ statement.operands, offered value) →
      statement.lower pool middle = (.ok more, later) →
      Lowers offered before later (commands ++ more) tests
  | fail {middle later : Workspace} {commands : List Command} {tests : List FilterEntry}
      {pool : Pool} {statement : Statement} {error : LowerError} :
      Lowers offered before middle commands tests →
      (∀ value ∈ statement.operands, offered value) →
      statement.lower pool middle = (.error error, later) →
      Lowers offered before later commands tests
  | hold {middle later : Workspace} {commands : List Command} {tests : List FilterEntry}
      {pool : Pool} {this : Value} {comparison : Comparison} {literal : Literal}
      {filter : Filter} :
      Lowers offered before middle commands tests → offered this →
      this.compare pool comparison literal middle = (.ok filter, later) →
      Lowers offered before later (commands ++ filter.commands) (tests ++ filter.entries)
  | drop {middle : Workspace} {commands : List Command} {tests : List FilterEntry}
      (lease : Lease) :
      Lowers offered before middle commands tests →
      Lowers offered before (middle.discard lease) commands tests

theorem Lowers.single {offered : Value → Prop} (workspace : Workspace) (pool : Pool)
    {statement : Statement} (offers : ∀ value ∈ statement.operands, offered value) :
    ∃ collected, workspace.Lowers offered (statement.lower pool workspace).2 collected [] ∧
      ∀ commands, (statement.lower pool workspace).1 = .ok commands → collected = commands := by
  rcases lowered : statement.lower pool workspace with ⟨error | commands, later⟩
  · exact ⟨[], .fail .nothing offers lowered, nofun⟩
  · exact ⟨commands, .succeed .nothing offers lowered, fun _ => Except.ok.inj⟩

/-- Whatever a closure collects names objectives that are created when it returns. -/
theorem Lowers.created {offered : Value → Prop} {before after : Workspace}
    {commands : List Command} {tests : List FilterEntry}
    (lowers : before.Lowers offered after commands tests) (rest : before.AtRest)
    (created : ∀ value, offered value → before.CreatesAll value) :
    after.AtRest ∧ Retains before after ∧
      (∀ command ∈ commands, command.NamesOnly after.Creates) ∧
      ∀ entry ∈ tests, after.Creates entry.objective := by
  -- later parts of the closure may name objectives that earlier parts created
  induction lowers with
  | nothing =>
      exact ⟨rest, fun _ => id, fun _ member => absurd member List.not_mem_nil,
        fun _ member => absurd member List.not_mem_nil⟩
  | succeed _ offers lowered ih =>
      obtain ⟨middleRest, retains, names, tested⟩ := ih
      have operands := fun value member objective inside =>
        retains objective (created value (offers value member) objective inside)
      obtain ⟨laterRest, grown, more⟩ := middleRest.lower operands _
      rw [lowered] at laterRest grown more
      refine ⟨laterRest, retains.trans grown, fun command member => ?_,
        fun entry member => grown _ (tested entry member)⟩
      rcases List.mem_append.mp member with old | new
      · exact (names command old).mono grown
      · exact more _ rfl command new
  | fail _ offers lowered ih =>
      obtain ⟨middleRest, retains, names, tested⟩ := ih
      have operands := fun value member objective inside =>
        retains objective (created value (offers value member) objective inside)
      obtain ⟨laterRest, grown, _⟩ := middleRest.lower operands _
      rw [lowered] at laterRest grown
      exact ⟨laterRest, retains.trans grown,
        fun command member => (names command member).mono grown,
        fun entry member => grown _ (tested entry member)⟩
  | hold _ offers compared ih =>
      obtain ⟨middleRest, retains, names, tested⟩ := ih
      obtain ⟨laterRest, grown, more, moreTests⟩ := middleRest.compare
        (fun objective inside => retains objective (created _ offers objective inside)) compared
      refine ⟨laterRest, retains.trans grown, fun command member => ?_, fun entry member => ?_⟩
      · rcases List.mem_append.mp member with old | new
        · exact (names command old).mono grown
        · exact more command new
      · rcases List.mem_append.mp member with old | new
        · exact grown _ (tested entry old)
        · exact moreTests entry new
  | drop lease _ ih =>
      obtain ⟨middleRest, retains, names, tested⟩ := ih
      rw [Retains, discard_creates]
      exact ⟨middleRest.discard lease, retains, names, tested⟩

end Workspace

/-- A command that a closure makes of what it collected: one of the commands, possibly
behind the test of a filter. -/
inductive Command.Assembled (commands : List Command) (tests : List FilterEntry) : Command → Prop
  | given {command : Command} : command ∈ commands → Assembled commands tests command
  | guarded (holder : String) {filter : List FilterEntry} {run : Command} :
      (∀ entry ∈ filter, entry ∈ tests) → Assembled commands tests run →
      Assembled commands tests
        (.execute (filter.map fun entry => .ifScore ⟨holder, entry.objective⟩ entry.range) run)

theorem Command.Assembled.namesOnly {commands : List Command} {tests : List FilterEntry}
    {allowed : String → Prop} {command : Command} (assembled : Assembled commands tests command)
    (names : ∀ command ∈ commands, command.NamesOnly allowed)
    (tested : ∀ entry ∈ tests, allowed entry.objective) : command.NamesOnly allowed := by
  induction assembled with
  | given member => exact names _ member
  | guarded holder inside _ ih =>
      refine ⟨fun clause member => ?_, ih⟩
      obtain ⟨entry, entryMem, rfl⟩ := List.mem_map.mp member
      exact tested entry (inside entry entryMem)

/-- The values that a program can speak of: those declared and their fields, wherever
they are looked up. -/
inductive Registry.Offers (registry : Registry) : Value → Prop
  | stored {value : Value} : value ∈ registry.values.values → registry.Offers value
  | field {value : Value} {name : String} {ty : Ty} : registry.Offers value →
      (name, ty) ∈ value.ty.fields → registry.Offers (value.fieldValue name ty)
  | relocated {value : Value} (address : Address) : registry.Offers value →
      registry.Offers { value with address := address }

theorem Value.mem_layoutFields {ident name objective : String} {ty : Ty}
    {fields : List (String × Ty)} (member : (name, ty) ∈ fields)
    (inside : objective ∈ layout (ident ++ "." ++ name) ty) :
    objective ∈ layoutFields ident fields := by
  induction fields with
  | nil => exact absurd member List.not_mem_nil
  | cons field rest ih =>
      rw [layoutFields]
      rcases List.mem_cons.mp member with rfl | later
      · exact List.mem_append_left _ inside
      · exact List.mem_append_right _ (ih later)

theorem Value.objectives_fieldValue_subset {value : Value} {name objective : String} {ty : Ty}
    (member : (name, ty) ∈ value.ty.fields)
    (inside : objective ∈ (value.fieldValue name ty).objectives) :
    objective ∈ value.objectives := by
  cases tyEq : value.ty with
  | struct structName fields =>
      rw [tyEq] at member
      rw [objectives, tyEq, layout]
      exact mem_layoutFields member inside
  | _ =>
      rw [tyEq] at member
      exact absurd member List.not_mem_nil

theorem Registry.Offers.created {registry : Registry} {workspace : Workspace}
    (stored : ∀ value ∈ registry.values.values, workspace.CreatesAll value) {value : Value}
    (offers : registry.Offers value) : workspace.CreatesAll value := by
  induction offers with
  | stored member => exact stored _ member
  | field _ member ih =>
      exact fun objective inside => ih objective (Value.objectives_fieldValue_subset member inside)
  | relocated address _ ih => exact ih

namespace Compilation

open Workspace

/-- One step of a program that gets its scratch registers through lowerings only. -/
inductive Builds (compilation : Compilation) : Compilation → Prop
  | addFile (file : SourceFile) : Builds compilation (compilation.addFile file).2
  | declare (ident : String) (ty : Ty) (attributes : List Attribute) :
      Builds compilation (compilation.declare ident ty attributes).2
  | openFunction (name : String) : Builds compilation (compilation.openFunction name)
  | discard (lease : Lease) :
      Builds compilation { compilation with workspace := compilation.workspace.discard lease }
  | lower (span : Span) (lowering : Registry → Workspace → Outcome (List Command))
      {collected : List Command} {tests : List FilterEntry} :
      compilation.workspace.Lowers compilation.registry.Offers
        (lowering compilation.registry compilation.workspace).2 collected tests →
      (∀ commands, (lowering compilation.registry compilation.workspace).1 = .ok commands →
        ∀ command ∈ commands, command.Assembled collected tests) →
      Builds compilation (compilation.lower span lowering).2

/-- Lowering a single statement is a step. -/
theorem Builds.statement (compilation : Compilation) (span : Span) (pool : Pool)
    {statement : Statement}
    (offers : ∀ value ∈ statement.operands, compilation.registry.Offers value) :
    compilation.Builds
      (compilation.lower span fun _ workspace => statement.lower pool workspace).2 := by
  obtain ⟨collected, lowers, same⟩ := Lowers.single compilation.workspace pool offers
  refine .lower span _ lowers fun commands succeeded command member => .given ?_
  rwa [same commands succeeded]

/-- All that a compilation can refer to is created. -/
structure Supplied (compilation : Compilation) : Prop where
  rest : compilation.workspace.AtRest
  values : ∀ value ∈ compilation.registry.values.values, compilation.workspace.CreatesAll value
  functions : ∀ entry ∈ compilation.functions.entries, ∀ command ∈ entry.2,
    command.NamesOnly compilation.workspace.Creates

namespace Supplied

variable {compilation : Compilation}

theorem openFunction (supplied : compilation.Supplied) (name : String) :
    (compilation.openFunction name).Supplied := by
  refine ⟨supplied.rest, supplied.values, fun entry member => ?_⟩
  simp only [Compilation.openFunction] at member
  split at member
  · exact supplied.functions entry member
  · rcases OrderedMap.mem_entries_insert member with old | rfl
    · exact supplied.functions entry old
    · exact fun _ inside => absurd inside List.not_mem_nil

theorem appendTo (supplied : compilation.Supplied) (name : String) {commands : List Command}
    (names : ∀ command ∈ commands, command.NamesOnly compilation.workspace.Creates) :
    (compilation.appendTo name commands).Supplied := by
  refine ⟨supplied.rest, supplied.values, fun entry member command inside => ?_⟩
  rcases OrderedMap.mem_entries_insert member with old | rfl
  · exact supplied.functions entry old command inside
  · rcases List.mem_append.mp inside with before | new
    · cases found : compilation.functions.get? name with
      | none =>
          rw [found] at before
          exact absurd before List.not_mem_nil
      | some body =>
          rw [found] at before
          exact supplied.functions _ (OrderedMap.mem_entries_of_get? found) command before
    · exact names command new

theorem append (supplied : compilation.Supplied) {commands : List Command}
    (names : ∀ command ∈ commands, command.NamesOnly compilation.workspace.Creates) :
    (compilation.append commands).Supplied := by
  unfold Compilation.append
  split
  · exact supplied.appendTo _ names
  · exact (supplied.openFunction mainFunction).appendTo _ names

theorem withWorkspace (supplied : compilation.Supplied) {later : Workspace}
    (rest : later.AtRest) (retains : Retains compilation.workspace later) :
    { compilation with workspace := later }.Supplied where
  rest := rest
  values value member objective inside := retains objective (supplied.values value member _ inside)
  functions entry member command inside :=
    (supplied.functions entry member command inside).mono retains

theorem introduce (supplied : compilation.Supplied) (value : Value) :
    (compilation.introduce value).Supplied := by
  have retains : Retains compilation.workspace (compilation.introduce value).workspace :=
    fun _ created => List.mem_append_left _ created
  have defined : (compilation.introduce value).workspace.CreatesAll value := by
    intro objective inside
    apply List.mem_append_right
    apply List.mem_append_left
    exact List.mem_map_of_mem inside
  have grown := supplied.withWorkspace (supplied.rest.pushHead _) retains
  refine ⟨grown.rest, fun other member => ?_, grown.functions⟩
  obtain ⟨entry, entryMem, rfl⟩ := List.mem_map.mp member
  simp only [Compilation.introduce, Registry.add] at entryMem
  split at entryMem
  · exact grown.values _ (List.mem_map_of_mem entryMem)
  · rcases OrderedMap.mem_entries_insert entryMem with old | rfl
    · exact grown.values _ (List.mem_map_of_mem old)
    · exact defined

theorem builds {later : Compilation} (supplied : compilation.Supplied)
    (step : compilation.Builds later) : later.Supplied := by
  cases step with
  | addFile file => exact ⟨supplied.rest, supplied.values, supplied.functions⟩
  | declare ident ty attributes =>
      unfold Compilation.declare
      split
      · exact supplied
      · exact supplied.introduce _
  | openFunction name => exact supplied.openFunction name
  | discard lease =>
      apply supplied.withWorkspace (supplied.rest.discard lease)
      rw [Retains, discard_creates]
      exact fun _ => id
  | lower span lowering lowers assembled =>
      obtain ⟨rest, retains, names, tested⟩ :=
        lowers.created supplied.rest fun _ => Registry.Offers.created supplied.values
      have grown := supplied.withWorkspace rest retains
      rw [Compilation.lower]
      cases outcome : (lowering compilation.registry compilation.workspace).1 with
      | error error =>
          simp only [Compilation.record, outcome]
          exact grown
      | ok commands =>
          simp only [Compilation.record, outcome]
          exact grown.append fun command member =>
            (assembled commands outcome command member).namesOnly names tested

theorem start : (Compilation.start {}).Supplied := by
  refine ⟨⟨⟨start_defaultStems, fun pool record member => ?_, ?_⟩, fun _ _ => rfl⟩, ?_, ?_⟩
  · cases pool <;> exact absurd member List.not_mem_nil
  · exact fun _ member => absurd member List.not_mem_nil
  · exact fun _ member => absurd member List.not_mem_nil
  · exact fun _ member => absurd member List.not_mem_nil

theorem of_builds (steps : Relation.ReflTransGen Builds (Compilation.start {}) compilation) :
    compilation.Supplied := by
  induction steps with
  | refl => exact start
  | tail _ step ih => exact ih.builds step

/-- The generated routines join the functions. -/
theorem allFunctions (supplied : compilation.Supplied) :
    ∀ entry ∈ compilation.allFunctions.entries, ∀ command ∈ entry.2,
      command.NamesOnly compilation.workspace.Creates := by
  have added (routines : List Routine) (functions : OrderedMap String (List Command))
      (named : ∀ routine ∈ routines, ∀ command ∈ routine.commands,
        command.NamesOnly compilation.workspace.Creates)
      (before : ∀ entry ∈ functions.entries, ∀ command ∈ entry.2,
        command.NamesOnly compilation.workspace.Creates) :
      ∀ entry ∈ (routines.foldl (fun functions routine =>
        functions.insert routine.path routine.commands) functions).entries,
        ∀ command ∈ entry.2, command.NamesOnly compilation.workspace.Creates := by
    induction routines generalizing functions with
    | nil => exact before
    | cons routine rest ih =>
        apply ih _ fun other member => named other (List.mem_cons_of_mem _ member)
        intro entry member
        rcases OrderedMap.mem_entries_insert member with old | rfl
        · exact before entry old
        · exact named routine List.mem_cons_self
  exact added _ _ supplied.rest.complete.routines supplied.functions

end Supplied

/-- Every objective that a function or a generated routine names is created in the
head. -/
theorem named_objectives_created {compilation : Compilation}
    (steps : Relation.ReflTransGen Builds (start {}) compilation) :
    ∀ entry ∈ compilation.finish.functions.entries, ∀ command ∈ entry.2,
      command.NamesOnly fun objective => .addObjective objective ∈ compilation.finish.head :=
  (Supplied.of_builds steps).allFunctions

/-- A field of a struct is multiplied into a global decimal, which takes scratch
registers and a borrow routine. -/
theorem product_objectives_created :
    let point : Ty := .struct "Point" [("x", .int), ("y", .decimal 2)]
    let declared := (((start {}).declare "p" point []).2.declare "total" (.decimal 3) [.global]).2
    let total : Value := ⟨"total", .decimal 3, .player "_", [.global]⟩
    let field : Value := ⟨"p.y", .decimal 2, .here, []⟩
    let compilation := (declared.lower ⟨0, 0⟩ fun _ workspace =>
      (Statement.operate total .mul field).lower .stacked workspace).2
    Relation.ReflTransGen Builds (start {}) compilation ∧
      compilation.finish.functions.keys = ["main", "_mcc/borrow/total"] ∧
      ∀ entry ∈ compilation.finish.functions.entries, ∀ command ∈ entry.2,
        command.NamesOnly fun objective => .addObjective objective ∈ compilation.finish.head := by
  intro point declared total field compilation
  have steps : Relation.ReflTransGen Builds (start {}) compilation := by
    refine .tail (.tail (.single (.declare "p" point [])) (.declare "total" (.decimal 3) [.global]))
      (Builds.statement _ _ _ fun value member => ?_)
    simp only [Statement.operands, List.mem_cons, List.not_mem_nil, or_false] at member
    rcases member with rfl | rfl
    · exact .stored (by decide +kernel)
    · have declaredPoint : declared.registry.Offers ⟨"p", point, .here, []⟩ :=
        .stored (by decide +kernel)
      exact .field declaredPoint (List.mem_cons_of_mem _ List.mem_cons_self)
  exact ⟨steps, by decide +kernel, named_objectives_created steps⟩

end Compilation

end ScoreLowering
