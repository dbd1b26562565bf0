import ScoreLowering.Proofs.DeclaredStorage
import ScoreLowering.Proofs.ObjectivesInUse

/-!
# Uninstalling removes whatever was created

The head gets its objectives from declarations and from the two pools, and each of
the three remembers in its own way what it has to delete in the end.  The stacks
never forget a register.  The counter overwrites what it remembers when a register
comes back under the same name and type code, so it relies on both together telling
the layout.  That is the case as long as no struct name has two definitions and the
names of structs are written out.
-/

namespace ScoreLowering

namespace Ty

/-- A struct has the fields that its name stands for. -/
def Follows (definition : String → List (String × Ty)) : Ty → Prop
  | struct name fields => fields = definition name
  | int | decimal _ | bool | time => True

theorem follows_of_isScalar {ty : Ty} (scalar : ty.isScalar)
    (definition : String → List (String × Ty)) : ty.Follows definition := by
  cases ty with
  | struct name fields => cases scalar
  | _ => trivial

/-- If no struct name has two definitions, the code says which type it is. -/
theorem eq_of_code {definition : String → List (String × Ty)} {first second : Ty}
    (follows : first.Follows definition) (otherFollows : second.Follows definition)
    (codes : first.code = second.code) : first = second := by
  have spelled := congrArg String.toList codes
  cases first with
  | decimal precision =>
      rw [code_decimal] at spelled
      cases second with
      | decimal other =>
          rw [code_decimal, List.cons.injEq] at spelled
          rw [toDigits_injective spelled.2]
      | struct name fields => simp [code_struct] at spelled
      | _ => simp [code] at spelled
  | struct name fields =>
      rw [code_struct] at spelled
      cases second with
      | decimal other => simp [code_decimal] at spelled
      | struct otherName others =>
          rw [code_struct, List.cons.injEq] at spelled
          obtain rfl := String.toList_inj.mp spelled.2
          rw [show fields = definition name from follows,
            show others = definition name from otherFollows]
      | _ => simp [code] at spelled
  | _ =>
      cases second with
      | decimal other =>
          rw [code_decimal] at spelled
          simp [code] at spelled
      | struct name fields =>
          rw [code_struct] at spelled
          simp [code] at spelled
      | _ => simp_all [code]

end Ty

namespace Workspace

section Layouts

variable {workspace : Workspace} {definition : String → List (String × Ty)}

theorem counted_name_ne_colon (stems : DefaultStems workspace) (ty : Ty) (address : Address)
    (position : Nat) {char : Char}
    (member : char ∈ (workspace.scratchAt .counted ty address position).name.toList) :
    char ≠ ':' := by
  rw [Value.name, Name.objective] at member
  split at member
  · have alphanum := Name.digest_isAlphanum _ member
    rintro rfl
    cases alphanum
  · rw [scratchAt_ident stems, stemChars_counted] at member
    rcases List.mem_append.mp member with inStem | inNumber
    · rintro rfl
      exact absurd inStem (by decide)
    · have digit := Nat.isDigit_of_mem_toDigits (by decide) (by decide) inNumber
      rintro rfl
      cases digit

theorem counted_name_eq (stems : DefaultStems workspace) (ty : Ty) (address : Address)
    {position : Nat} (low : position < 10 ^ 6) :
    (workspace.scratchAt .counted ty address position).name =
      (workspace.scratchAt .counted ty address position).ident := by
  have digits : (Nat.toDigits 10 position).length ≤ 6 :=
    (Nat.length_toDigits_le_iff (by decide) (by decide)).mpr low
  have limit : 14 ≤ ty.nameLimit := by
    cases ty with
    | decimal precision => exact (by decide : 14 ≤ Name.maxLength - Name.fractionSuffix.length)
    | _ => exact (by decide : 14 ≤ Name.maxLength)
  have short : (workspace.scratchAt .counted ty address position).ident.length ≤ 11 := by
    rw [← String.length_toList, scratchAt_ident stems, stemChars_counted, List.length_append]
    have stem : "_temp".toList.length = 5 := by decide
    omega
  rw [Value.name, scratchAt_ty, Name.objective, if_neg (by omega)]

/-- The value is a register of the counter whose name and type code tell its layout. -/
def Listed (workspace : Workspace) (definition : String → List (String × Ty)) (value : Value) :
    Prop :=
  ∃ ty address position, value = workspace.scratchAt .counted ty address position ∧
    ty.Follows definition ∧ (ty.isSingle ∨ value.name = value.ident)

theorem objectives_eq_of_layoutKey (stems : DefaultStems workspace) {first second : Value}
    (listed : workspace.Listed definition first) (otherListed : workspace.Listed definition second)
    (keys : CounterPool.layoutKey first = CounterPool.layoutKey second) :
    first.objectives = second.objectives := by
  obtain ⟨ty, address, position, rfl, follows, written⟩ := listed
  obtain ⟨otherTy, otherAddress, other, rfl, otherFollows, otherWritten⟩ := otherListed
  have spelled := congrArg String.toList keys
  simp only [CounterPool.layoutKey, String.toList_append, List.append_assoc, scratchAt_ty]
    at spelled
  -- no name holds a colon, so the first one ends the name
  obtain ⟨nameChars, codeChars⟩ := append_inj_of_run (p := fun char => char ≠ ':')
    (fun char member => by simpa using counted_name_ne_colon stems ty address position member)
    (fun char member => by
      simpa using counted_name_ne_colon stems otherTy otherAddress other member)
    (by simp) (by simp) spelled
  have names := String.toList_inj.mp nameChars
  have types : ty = otherTy :=
    Ty.eq_of_code follows otherFollows (String.toList_inj.mp (List.append_cancel_left codeChars))
  subst types
  rcases written with single | written
  · refine Value.objectives_eq_of_parts ?_ ?_ names ?_ <;> simp [scratchAt_ty, single]
  · rcases otherWritten with single | otherWritten
    · refine Value.objectives_eq_of_parts ?_ ?_ names ?_ <;> simp [scratchAt_ty, single]
    · refine Value.objectives_congr ?_ (by simp [scratchAt_ty])
      rw [← written, ← otherWritten, names]

end Layouts

/-- One of the pools deletes the objective in the end. -/
def Deletes (workspace : Workspace) (objective : String) : Prop :=
  ∃ value ∈ workspace.stacked.everDefined.values ++ workspace.counted.everDefined.values,
    objective ∈ value.objectives

/-- Every created objective is deleted in the end, unless it is one of `others`. -/
structure Cleared (definition : String → List (String × Ty)) (others : String → Prop)
    (workspace : Workspace) : Prop where
  stems : workspace.DefaultStems
  layouts : ∀ entry ∈ workspace.counted.everDefined.entries,
    entry.1 = CounterPool.layoutKey entry.2 ∧ workspace.Listed definition entry.2
  deleted : ∀ objective, workspace.Creates objective →
    others objective ∨ workspace.Deletes objective

namespace Cleared

variable {definition : String → List (String × Ty)} {others : String → Prop}
variable {workspace : Workspace}

theorem of_sameCreation (cleared : workspace.Cleared definition others) {after : Workspace}
    (same : SameCreation workspace after) (stems : after.DefaultStems) :
    after.Cleared definition others where
  stems := stems
  layouts := by
    rw [same.counted]
    simp only [Listed, cleared.stems.scratchAt_eq stems]
    exact cleared.layouts
  deleted objective created := by
    rw [Creates, same.head] at created
    rw [Deletes, same.stacked, same.counted]
    exact cleared.deleted objective created

theorem acquire_stacked (cleared : workspace.Cleared definition others) (ty : Ty)
    (address : Address) : (workspace.acquire .stacked ty address).2.Cleared definition others := by
  have stems := cleared.stems.acquire .stacked ty address
  obtain ⟨value, valueEq⟩ : ∃ value, value = (workspace.acquire .stacked ty address).1.value :=
    ⟨_, rfl⟩
  have after : (workspace.acquire .stacked ty address).2.stacked.everDefined =
      if workspace.stacked.everDefined.contains value.name then workspace.stacked.everDefined
      else workspace.stacked.everDefined.insert value.name value := by
    rw [valueEq]
    rfl
  refine ⟨stems, ?_, fun objective created => ?_⟩
  · simp only [Listed, cleared.stems.scratchAt_eq stems]
    exact cleared.layouts
  · rw [creates_acquire, ← valueEq, stacked_recorded_iff] at created
    rw [Deletes, after]
    change others objective ∨ ∃ value ∈ OrderedMap.values _ ++
      workspace.counted.everDefined.values, _
    cases found : workspace.stacked.everDefined.get? value.name with
    | some known =>
        have contained : workspace.stacked.everDefined.contains value.name := by
          simp [OrderedMap.contains, found]
        rw [if_pos contained]
        rcases created with before | ⟨new, _⟩
        · exact cleared.deleted objective before
        · exact absurd contained new
    | none =>
        have unknown := (OrderedMap.contains_eq_false_iff _ _).mpr found
        rw [if_neg (by simp [unknown]), OrderedMap.values, OrderedMap.entries_insert_new found,
          List.map_append]
        rcases created with before | ⟨_, inside⟩
        · refine (cleared.deleted objective before).imp_right ?_
          rintro ⟨other, member, inside⟩
          refine ⟨other, ?_, inside⟩
          rcases List.mem_append.mp member with stacked | counted
          · exact List.mem_append_left _ (List.mem_append_left _ stacked)
          · exact List.mem_append_right _ counted
        · exact Or.inr ⟨value, by simp, inside⟩

theorem acquire_counted (cleared : workspace.Cleared definition others) {ty : Ty}
    {address : Address}
    (listed : workspace.Listed definition (workspace.acquire .counted ty address).1.value) :
    (workspace.acquire .counted ty address).2.Cleared definition others := by
  have stems := cleared.stems.acquire .counted ty address
  obtain ⟨value, valueEq⟩ : ∃ value, value = (workspace.acquire .counted ty address).1.value :=
    ⟨_, rfl⟩
  rw [← valueEq] at listed
  have after : (workspace.acquire .counted ty address).2.counted.everDefined =
      workspace.counted.everDefined.insert (CounterPool.layoutKey value) value := by
    rw [valueEq]
    rfl
  refine ⟨stems, fun entry member => ?_, fun objective created => ?_⟩
  · rw [after] at member
    have sameListed : (workspace.acquire .counted ty address).2.Listed definition =
        workspace.Listed definition := by
      funext other
      simp only [Listed, cleared.stems.scratchAt_eq stems]
    rw [sameListed]
    rcases OrderedMap.mem_entries_insert member with old | rfl
    · exact cleared.layouts entry old
    · exact ⟨rfl, listed⟩
  · have held {objective : String} (inside : objective ∈ value.objectives) :
        (workspace.acquire .counted ty address).2.Deletes objective := by
      refine ⟨value, List.mem_append_right _ ?_, inside⟩
      rw [after]
      exact List.mem_map_of_mem OrderedMap.mem_entries_insert_self
    rw [creates_acquire, ← valueEq] at created
    rcases created with before | ⟨_, inside⟩
    · refine (cleared.deleted objective before).imp_right ?_
      rintro ⟨other, member, inside⟩
      rcases List.mem_append.mp member with stacked | counted
      · exact ⟨other, List.mem_append_left _ stacked, inside⟩
      · obtain ⟨entry, entryMem, rfl⟩ := List.mem_map.mp counted
        obtain ⟨keyEq, entryListed⟩ := cleared.layouts entry entryMem
        by_cases same : entry.1 = CounterPool.layoutKey value
        · -- the entry is overwritten, by a register with the same objectives
          rw [objectives_eq_of_layoutKey cleared.stems entryListed listed (keyEq.symm.trans same)]
            at inside
          exact held inside
        · refine ⟨entry.2, List.mem_append_right _ ?_, inside⟩
          rw [after]
          exact List.mem_map_of_mem (OrderedMap.mem_entries_insert_of_ne entryMem same)
    · exact Or.inr (held inside)

theorem acquire (cleared : workspace.Cleared definition others) (pool : Pool) (ty : Ty)
    (address : Address) (follows : ty.Follows definition)
    (few : pool = .counted → ty.isSingle ∨ workspace.counted.index < 10 ^ 6) :
    (workspace.acquire pool ty address).2.Cleared definition others := by
  cases pool with
  | stacked => exact cleared.acquire_stacked ty address
  | counted =>
      refine cleared.acquire_counted ⟨ty, address, _, acquire_value _ _ _ _, follows, ?_⟩
      exact (few rfl).imp_right fun low => counted_name_eq cleared.stems ty address low

theorem discard (cleared : workspace.Cleared definition others) (lease : Lease) :
    (workspace.discard lease).Cleared definition others :=
  cleared.of_sameCreation (.discard workspace lease) (cleared.stems.discard lease)

theorem borrow (cleared : workspace.Cleared definition others) (value : Value) (unit : Score) :
    (workspace.borrow value unit).2.Cleared definition others :=
  cleared.of_sameCreation ⟨rfl, rfl, rfl, rfl⟩ ⟨cleared.stems.stacked, cleared.stems.counted⟩

/-- Plans take registers without fields only. -/
theorem allocate (cleared : workspace.Cleared definition others) (pool : Pool) {plan : Plan}
    {permissions : Permissions} {types : List Ty} {known : List Slot}
    (wellScoped : plan.WellScoped permissions types known) (held : List Value) :
    (plan.allocate pool held workspace).2.Cleared definition others := by
  induction plan generalizing held types known workspace with
  | steps list => exact cleared
  | borrow value unit => exact cleared.borrow value unit
  | fail error => exact cleared
  | sequence first next firstIH nextIH =>
      have firstCleared := firstIH cleared wellScoped.1 held
      have clean := Plan.error?_allocate pool first held workspace
      rcases outcome : first.allocate pool held workspace with ⟨error | front, middle⟩
      · rw [outcome] at firstCleared
        rw [Plan.allocate_sequence_error outcome]
        exact firstCleared
      · rw [outcome] at firstCleared clean
        rw [Plan.allocate_sequence_ok outcome]
        exact nextIH firstCleared (wellScoped.2 clean.symm) held
  | scratch ty address body ih =>
      obtain ⟨scalar, _, bodyScoped⟩ := wellScoped
      have acquired := cleared.acquire pool ty address (Ty.follows_of_isScalar scalar definition)
        fun _ => Or.inl (Ty.isSingle_of_isScalar scalar)
      exact (ih acquired bodyScoped _).discard _

theorem lower (cleared : workspace.Cleared definition others) {statement : Statement}
    {pool : Pool} {result : Except LowerError (List Command)} {later : Workspace}
    (lowered : statement.lower pool workspace = (result, later)) :
    later.Cleared definition others := by
  rw [Statement.lower_eq_allocate] at lowered
  have allocated := cleared.allocate pool statement.plan_wellScoped []
  rw [lowered] at allocated
  exact allocated

theorem compare (cleared : workspace.Cleared definition others) {this : Value} {pool : Pool}
    {comparison : Comparison} {literal : Literal} {filter : Filter} {later : Workspace}
    (compared : this.compare pool comparison literal workspace = (.ok filter, later)) :
    later.Cleared definition others := by
  rcases Value.compare_cases compared with ⟨_, _, rfl, _⟩ | ⟨precision, _, planned, _⟩
  · exact cleared
  · have acquired := cleared.acquire pool .int this.address trivial fun _ => Or.inl rfl
    have joinScoped : (Filter.joinPlan this precision).WellScoped
        ⟨fun _ => True, fun _ => True⟩ [.int] [] :=
      Plan.joinPlan_wellScoped fun _ => trivial
    have allocated := acquired.allocate pool joinScoped
      [(workspace.acquire pool .int this.address).1.value]
    rw [planned] at allocated
    exact allocated

theorem lowers (cleared : workspace.Cleared definition others) {offered : Value → Prop}
    {after : Workspace} {commands : List Command} {tests : List FilterEntry}
    (lowers : workspace.Lowers offered after commands tests) :
    after.Cleared definition others := by
  induction lowers with
  | nothing => exact cleared
  | succeed _ _ lowered ih | fail _ _ lowered ih => exact ih.lower lowered
  | hold _ _ compared ih => exact ih.compare compared
  | drop lease _ ih => exact ih.discard lease

/-- What happens to scratch registers besides lowerings. -/
theorem step {session : Session} (cleared : session.workspace.Cleared definition others)
    {event : Event} (byPool : ∀ commands, event ≠ .pushHead commands)
    (requests : ∀ pool ty address, event = .acquire pool ty address →
      ty.Follows definition ∧ (pool = .counted → session.workspace.counted.index < 10 ^ 6)) :
    (session.step event).workspace.Cleared definition others := by
  by_cases request : ∃ pool ty address, event = .acquire pool ty address
  · obtain ⟨pool, ty, address, rfl⟩ := request
    obtain ⟨follows, few⟩ := requests pool ty address rfl
    exact cleared.acquire pool ty address follows fun counted => Or.inr (few counted)
  · have same := session.sameCreation_step
      (fun pool ty address same => request ⟨pool, ty, address, same⟩) byPool
    obtain ⟨stackStem, counterStem⟩ := session.step_stems event
    exact cleared.of_sameCreation same
      ⟨stackStem.trans cleared.stems.stacked, counterStem.trans cleared.stems.counted⟩

end Cleared

end Workspace

theorem Command.removeObjective_of_text {first second : String}
    (same : (removeObjective first).text = (removeObjective second).text) : first = second := by
  simpa [text, words] using same

theorem Value.removeObjective_mem {values : List Value} {objective : String} :
    .removeObjective objective ∈ values.flatMap Value.remove ↔
      ∃ value ∈ values, objective ∈ value.objectives := by
  simp [Value.remove]

namespace Compilation

open Workspace

/-- One step of a compilation that also takes, saves and restores scratch registers at
will.  Every struct name stands for one definition, and the counter holds fewer than a
million registers when it is asked for one more. -/
inductive Manages (definition : String → List (String × Ty)) (compilation : Compilation) :
    Compilation → Prop
  | addFile (file : SourceFile) : Manages definition compilation (compilation.addFile file).2
  | declare (ident : String) (ty : Ty) (attributes : List Attribute) :
      Manages definition compilation (compilation.declare ident ty attributes).2
  | add (value : Value) :
      Manages definition compilation
        { compilation with registry := (compilation.registry.add value).2 }
  | openFunction (name : String) : Manages definition compilation (compilation.openFunction name)
  | scratch (session : Session) (event : Event) :
      session.workspace = compilation.workspace →
      (∀ commands, event ≠ .pushHead commands) →
      (∀ pool ty address, event = .acquire pool ty address →
        ty.Follows definition ∧ (pool = .counted → compilation.workspace.counted.index < 10 ^ 6)) →
      Manages definition compilation
        { compilation with workspace := (session.step event).workspace }
  | lower (span : Span) (lowering : Registry → Workspace → Outcome (List Command))
      {collected : List Command} {tests : List FilterEntry} :
      compilation.workspace.Lowers (fun _ => True)
        (lowering compilation.registry compilation.workspace).2 collected tests →
      Manages definition compilation (compilation.lower span lowering).2

/-- The objective belongs to a declared value. -/
def Registers (compilation : Compilation) (objective : String) : Prop :=
  ∃ value ∈ compilation.registry.values.values, objective ∈ value.objectives

theorem mem_uninstall (compilation : Compilation) (objective : String) :
    .removeObjective objective ∈ compilation.uninstall ↔
      compilation.Registers objective ∨ compilation.workspace.Deletes objective := by
  rw [uninstall, List.mem_eraseDups, List.mem_append, List.mem_append, Registry.remove,
    StackPool.remove, CounterPool.remove, List.mem_eraseDups, Value.removeObjective_mem,
    Value.removeObjective_mem, Value.removeObjective_mem, Registers, Deletes]
  simp only [List.mem_append, or_and_right, exists_or, or_assoc]

theorem exists_of_mem_uninstall {compilation : Compilation} {command : Command}
    (member : command ∈ compilation.uninstall) :
    ∃ objective, command = .removeObjective objective := by
  have removes {values : List Value} (inside : command ∈ values.flatMap Value.remove) :
      ∃ objective, command = .removeObjective objective := by
    obtain ⟨value, _, removed⟩ := List.mem_flatMap.mp inside
    obtain ⟨objective, _, rfl⟩ := List.mem_map.mp removed
    exact ⟨objective, rfl⟩
  rw [uninstall, List.mem_eraseDups, List.mem_append, List.mem_append] at member
  rcases member with (declared | stacked) | counted
  · exact removes declared
  · exact removes stacked
  · exact removes (List.mem_eraseDups.mp counted)

theorem uninstall_nodup (compilation : Compilation) :
    (compilation.uninstall.map Command.text).Nodup := by
  rw [List.Nodup, List.pairwise_map]
  refine List.Pairwise.imp_of_mem ?_ (nodup_eraseDups _)
  intro first second firstMem secondMem different same
  obtain ⟨objective, rfl⟩ := exists_of_mem_uninstall firstMem
  obtain ⟨other, rfl⟩ := exists_of_mem_uninstall secondMem
  exact different (congrArg _ (Command.removeObjective_of_text same))

theorem mem_values_add {registry : Registry} {value known : Value}
    (member : known ∈ registry.values.values) : known ∈ (registry.add value).2.values.values := by
  unfold Registry.add
  split
  · exact member
  · rename_i unknown
    have absent := (OrderedMap.contains_eq_false_iff registry.values (Registry.key value.ident)).mp
      (by simpa using unknown)
    rw [OrderedMap.values, OrderedMap.entries_insert_new absent, List.map_append]
    exact List.mem_append_left _ member

variable {definition : String → List (String × Ty)} {compilation : Compilation}

theorem Registers.add {objective : String} (registers : compilation.Registers objective)
    (value : Value) :
    { compilation with registry := (compilation.registry.add value).2 }.Registers objective := by
  obtain ⟨known, member, inside⟩ := registers
  exact ⟨known, mem_values_add member, inside⟩

theorem cleared_append (cleared : compilation.workspace.Cleared definition compilation.Registers)
    (commands : List Command) :
    (compilation.append commands).workspace.Cleared definition
      (compilation.append commands).Registers := by
  unfold Compilation.append
  split <;> exact cleared

theorem cleared_introduce
    (cleared : compilation.workspace.Cleared definition compilation.Registers) {value : Value}
    (absent : compilation.registry.find? value.ident = none) :
    (compilation.introduce value).workspace.Cleared definition
      (compilation.introduce value).Registers := by
  refine ⟨⟨cleared.stems.stacked, cleared.stems.counted⟩, cleared.layouts, ?_⟩
  intro objective created
  have sources : compilation.workspace.Creates objective ∨ objective ∈ value.objectives := by
    refine (List.mem_append.mp created).imp_right fun new => ?_
    simp only [Value.define, Value.reset] at new
    split at new <;> simpa using new
  rcases sources with before | inside
  · exact (cleared.deleted objective before).imp_left fun registers => registers.add value
  · refine Or.inl ⟨value, ?_, inside⟩
    change value ∈ (compilation.registry.add value).2.values.values
    rw [OrderedMap.values, Registry.entries_add absent, List.map_append]
    exact List.mem_append_right _ (List.mem_singleton_self _)

theorem cleared_manages {later : Compilation}
    (cleared : compilation.workspace.Cleared definition compilation.Registers)
    (step : compilation.Manages definition later) :
    later.workspace.Cleared definition later.Registers := by
  cases step with
  | addFile file => exact cleared
  | openFunction name => exact cleared
  | declare ident ty attributes =>
      unfold Compilation.declare
      split
      · exact cleared
      · rename_i absent
        exact cleared_introduce cleared absent
  | add value =>
      exact ⟨cleared.stems, cleared.layouts, fun objective created =>
        (cleared.deleted objective created).imp_left fun registers => registers.add value⟩
  | scratch session event sameWorkspace byPool requests =>
      rw [← sameWorkspace] at cleared requests
      exact cleared.step byPool requests
  | lower span lowering lowers =>
      have lowered := cleared.lowers lowers
      rcases outcome : lowering compilation.registry compilation.workspace with
        ⟨error | commands, workspace⟩
      · rw [outcome] at lowered
        rw [Compilation.lower, outcome]
        exact lowered
      · rw [outcome] at lowered
        rw [Compilation.lower, outcome]
        have taken : { compilation with workspace := workspace }.workspace.Cleared definition
            { compilation with workspace := workspace }.Registers := lowered
        exact cleared_append taken commands

/-- Uninstalling a program deletes every objective that its head creates, and gives no
command twice. -/
theorem uninstall_deletes_created
    (steps : Relation.ReflTransGen (Manages definition) (start {}) compilation) :
    (∀ objective, .addObjective objective ∈ compilation.finish.head →
        .removeObjective objective ∈ compilation.finish.uninstall) ∧
      (compilation.finish.uninstall.map Command.text).Nodup := by
  have cleared : compilation.workspace.Cleared definition compilation.Registers := by
    induction steps with
    | refl => exact ⟨start_defaultStems, nofun, nofun⟩
    | tail _ step ih => exact cleared_manages ih step
  refine ⟨fun objective created => ?_, uninstall_nodup compilation⟩
  exact (mem_uninstall compilation objective).mpr (cleared.deleted objective created)

/-- A register of the counter comes back as a struct, and a declared field is
multiplied. -/
theorem uninstall_deletes_reused :
    let fields : List (String × Ty) := [("x", .int), ("y", .decimal 2)]
    let declared := ((start {}).declare "p" (.struct "Point" fields) [.global]).2
    let session : Session := { workspace := declared.workspace }
    let reused := session.run [.acquire .counted .bool .here, .popCounter,
      .acquire .counted (.struct "Point" fields) .here]
    let field : Value := ⟨"p.y", .decimal 2, .player "_", []⟩
    let compilation := ({ declared with workspace := reused.workspace }.lower ⟨0, 0⟩
      fun _ workspace => (Statement.operate field .mul field).lower .counted workspace).2
    Relation.ReflTransGen (Manages fun _ => fields) (start {}) compilation ∧
      .addObjective "_temp0" ∈ compilation.finish.head ∧
      (∀ objective, .addObjective objective ∈ compilation.finish.head →
        .removeObjective objective ∈ compilation.finish.uninstall) ∧
      (compilation.finish.uninstall.map Command.text).Nodup := by
  intro fields declared session reused field compilation
  have steps : Relation.ReflTransGen (Manages fun _ => fields) (start {}) compilation := by
    let taken := session.step (.acquire .counted .bool .here)
    let back := taken.step .popCounter
    obtain ⟨_, lowers, _⟩ := Lowers.single reused.workspace .counted
      (fun value (_ : value ∈ (Statement.operate field .mul field).operands) => trivial)
    refine .tail (.tail (.tail (.tail (.single (.declare "p" (.struct "Point" fields) [.global]))
      (.scratch session (.acquire .counted .bool .here) rfl nofun ?_))
      (.scratch taken .popCounter rfl nofun nofun))
      (.scratch back (.acquire .counted (.struct "Point" fields) .here) rfl nofun ?_))
      (.lower ⟨0, 0⟩ _ lowers)
    · rintro pool ty address ⟨⟩
      exact ⟨trivial, by decide +kernel⟩
    · rintro pool ty address ⟨⟩
      exact ⟨rfl, by decide +kernel⟩
  exact ⟨steps, by decide +kernel, uninstall_deletes_created steps⟩

end Compilation

end ScoreLowering
