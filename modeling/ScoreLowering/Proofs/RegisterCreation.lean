import ScoreLowering.Proofs.ContractScope
import ScoreLowering.Proofs.HeldOverlap

/-!
# Which registers are created

A pool creates a register in the head when it hands it out for the first time.
To know whether it did so before, it keeps a record: the stacks go by the name
alone, the counter by the name and the longest name that the type allows for.
Neither says which objectives the register takes, so a register that comes back
with another type may find that some of its objectives were never created.

The registers handed out in a run form a history, and what the head creates can
be read off it: the objectives of those registers that were the first with their
record.  From this follows who can rely on the record.
-/

namespace ScoreLowering

namespace Ty

theorem isSingle_of_isScalar {ty : Ty} (scalar : ty.isScalar) : ty.isSingle := by
  cases ty with
  | struct name fields => exact absurd rfl (not_struct_of_isScalar scalar name fields)
  | _ => rfl

/-- Among single values the longest name tells who has a fraction. -/
theorem parts_eq_of_nameLimit {first second : Ty} (single : first.isSingle)
    (otherSingle : second.isSingle) (limits : first.nameLimit = second.nameLimit) :
    first.parts = second.parts := by
  have shorter (precision : Nat) : (decimal precision).nameLimit ≠ Name.maxLength := by
    change Name.maxLength - Name.fractionSuffix.length ≠ Name.maxLength
    decide
  cases first with
  | struct name fields => cases single
  | decimal precision =>
      cases second with
      | struct name fields => cases otherSingle
      | decimal other => rfl
      | _ => exact absurd limits (shorter precision)
  | _ =>
      cases second with
      | struct name fields => cases otherSingle
      | decimal other => exact absurd limits.symm (shorter other)
      | _ => rfl

/-- The first letter of a code tells single values from structs, and who has a
fraction. -/
theorem parts_eq_of_code {first second : Ty} {rest others : List Char} (single : first.isSingle)
    (equal : first.code.toList ++ rest = second.code.toList ++ others) :
    second.isSingle ∧ first.parts = second.parts := by
  cases first with
  | struct name fields => cases single
  | decimal precision =>
      rw [code_decimal] at equal
      cases second with
      | struct name fields => simp [code_struct] at equal
      | decimal other => exact ⟨rfl, rfl⟩
      | _ => simp [code] at equal
  | _ =>
      cases second with
      | struct name fields =>
          rw [code_struct] at equal
          simp [code] at equal
      | decimal other =>
          rw [code_decimal] at equal
          simp [code] at equal
      | _ => simp_all [code, isSingle, parts]

/-- Two types are laid out alike if both are single or they are the same. -/
def alike (first second : Ty) : Bool :=
  first = second || first.isSingle && second.isSingle

end Ty

namespace Value

theorem objectives_congr {first second : Value} (idents : first.ident = second.ident)
    (types : first.ty = second.ty) : first.objectives = second.objectives := by
  rw [objectives, objectives, idents, types]

theorem objectives_eq_of_parts {first second : Value} (single : first.ty.isSingle)
    (otherSingle : second.ty.isSingle) (names : first.name = second.name)
    (parts : first.ty.parts = second.ty.parts) : first.objectives = second.objectives := by
  have objectives : first.objective = second.objective := by
    funext part
    cases part with
    | whole => exact names
    | fraction => rw [objective, objective, names]
  rw [objectives_eq_parts (Ty.ne_struct_of_isSingle single),
    objectives_eq_parts (Ty.ne_struct_of_isSingle otherSingle), parts, objectives]

theorem mem_introduce {value : Value} {objective : String} :
    .addObjective objective ∈ value.introduce ↔ objective ∈ value.objectives := by
  simp [introduce, define, reset]

end Value

namespace Workspace

/-- The head creates the objective. -/
def Creates (workspace : Workspace) (objective : String) : Prop :=
  .addObjective objective ∈ workspace.head

/-- The head creates every objective of the value. -/
def CreatesAll (workspace : Workspace) (value : Value) : Prop :=
  ∀ objective ∈ value.objectives, workspace.Creates objective

instance (workspace : Workspace) (objective : String) : Decidable (workspace.Creates objective) :=
  inferInstanceAs (Decidable (_ ∈ _))

instance (workspace : Workspace) (value : Value) : Decidable (workspace.CreatesAll value) :=
  inferInstanceAs (Decidable (∀ objective ∈ value.objectives, workspace.Creates objective))

/-- What a pool knows a register by once it has created it. -/
def recordOf (pool : Pool) (value : Value) : String × Option Nat :=
  match pool with
  | .stacked => (value.name, none)
  | .counted => (value.name, some value.ty.nameLimit)

def records (workspace : Workspace) : Pool → List (String × Option Nat)
  | .stacked => workspace.stacked.everDefined.keys.map (·, none)
  | .counted => workspace.counted.defined.map fun identity => (identity.1, some identity.2)

theorem records_eq {before after : Workspace}
    (stacked : after.stacked.everDefined = before.stacked.everDefined)
    (counted : after.counted.defined = before.counted.defined) :
    after.records = before.records := by
  funext pool
  cases pool with
  | stacked => rw [records, records, stacked]
  | counted => rw [records, records, counted]

/-- Nothing was created or recorded in between. -/
structure SameCreation (before after : Workspace) : Prop where
  head : after.head = before.head
  stacked : after.stacked.everDefined = before.stacked.everDefined
  defined : after.counted.defined = before.counted.defined
  counted : after.counted.everDefined = before.counted.everDefined

namespace SameCreation

theorem refl (workspace : Workspace) : SameCreation workspace workspace :=
  ⟨rfl, rfl, rfl, rfl⟩

theorem records_eq {before after : Workspace} (same : SameCreation before after) :
    after.records = before.records :=
  Workspace.records_eq same.stacked same.defined

theorem discard (workspace : Workspace) (lease : Lease) :
    SameCreation workspace (workspace.discard lease) := by
  rcases workspace.discard_cases lease with same | popped
  · rw [same]
    exact .refl workspace
  · rcases workspace.pop_cases lease with after | after <;> rw [popped, after] <;>
      exact ⟨rfl, rfl, rfl, rfl⟩

end SameCreation

section Acquire

variable (workspace : Workspace) (pool : Pool) (ty : Ty) (address : Address)

theorem stacked_recorded_iff (value : Value) :
    recordOf .stacked value ∈ workspace.records .stacked ↔
      workspace.stacked.everDefined.contains value.name := by
  cases found : workspace.stacked.everDefined.get? value.name with
  | none =>
      have absent := (OrderedMap.not_mem_keys_iff _ _).mpr found
      simp [recordOf, records, OrderedMap.contains, found, absent]
  | some known =>
      have present : value.name ∈ workspace.stacked.everDefined.keys :=
        List.mem_map_of_mem (OrderedMap.mem_entries_of_get? found)
      simp [recordOf, records, OrderedMap.contains, found, present]

theorem counted_recorded_iff (value : Value) :
    recordOf .counted value ∈ workspace.records .counted ↔
      CounterPool.identity value ∈ workspace.counted.defined := by
  simp [recordOf, records, CounterPool.identity]

/-- A register is created unless there is a record of it. -/
theorem acquire_head :
    (workspace.acquire pool ty address).2.head = workspace.head ++
      if recordOf pool (workspace.acquire pool ty address).1.value ∈ workspace.records pool
      then [] else (workspace.acquire pool ty address).1.value.introduce := by
  cases pool with
  | stacked =>
      rw [if_congr (stacked_recorded_iff workspace _) rfl rfl]
      rfl
  | counted =>
      rw [if_congr (counted_recorded_iff workspace _) rfl rfl]
      rfl

theorem acquire_records (record : String × Option Nat) (other : Pool) :
    record ∈ (workspace.acquire pool ty address).2.records other ↔
      record ∈ workspace.records other ∨
        (other = pool ∧ record = recordOf pool (workspace.acquire pool ty address).1.value) := by
  obtain ⟨value, valueEq⟩ : ∃ value, value = (workspace.acquire pool ty address).1.value :=
    ⟨_, rfl⟩
  rw [← valueEq]
  cases pool with
  | stacked =>
      cases other with
      | counted => simp [records, acquire]
      | stacked =>
          have after : (workspace.acquire .stacked ty address).2.stacked.everDefined =
              (workspace.stacked.record value).everDefined := by
            rw [valueEq]
            rfl
          rw [records, after, StackPool.record]
          cases found : workspace.stacked.everDefined.get? value.name with
          | none =>
              have unknown := (OrderedMap.contains_eq_false_iff _ _).mpr found
              simp [unknown, OrderedMap.keys_insert_new found, records, recordOf, or_comm, eq_comm]
          | some known =>
              have known : recordOf .stacked value ∈ workspace.records .stacked := by
                rw [stacked_recorded_iff]
                simp [OrderedMap.contains, found]
              simp only [OrderedMap.contains, found, Option.isSome_some, if_true, true_and]
              exact ⟨Or.inl, fun either => either.elim id fun same => same ▸ known⟩
  | counted =>
      cases other with
      | stacked => simp [records, acquire]
      | counted =>
          have after : (workspace.acquire .counted ty address).2.counted.defined =
              (workspace.counted.record value).defined := by
            rw [valueEq]
            rfl
          rw [records, after, CounterPool.record]
          by_cases known : CounterPool.identity value ∈ workspace.counted.defined
          · have recorded : recordOf .counted value ∈ workspace.records .counted :=
              (counted_recorded_iff workspace value).mpr known
            simp only [known, if_true, true_and]
            exact ⟨Or.inl, fun either => either.elim id fun same => same ▸ recorded⟩
          · rw [if_neg known]
            simp [records, recordOf, CounterPool.identity, eq_comm]

theorem creates_acquire (objective : String) :
    (workspace.acquire pool ty address).2.Creates objective ↔
      workspace.Creates objective ∨
        (recordOf pool (workspace.acquire pool ty address).1.value ∉ workspace.records pool ∧
          objective ∈ (workspace.acquire pool ty address).1.value.objectives) := by
  rw [Creates, acquire_head, List.mem_append, Creates]
  split
  · rename_i known
    simp [known]
  · rename_i unknown
    simp [unknown, Value.mem_introduce]

end Acquire

/-- Where a register stands and the stems tell its name. -/
theorem scratchAt_congr {before after : Workspace}
    (stackStem : after.stacked.stem = before.stacked.stem)
    (counterStem : after.counted.stem = before.counted.stem) :
    after.scratchAt = before.scratchAt := by
  funext pool ty address position
  cases pool with
  | stacked => simp only [scratchAt, StackPool.registerAt, stackStem]
  | counted => simp only [scratchAt, CounterPool.registerAt, counterStem]

section Names

variable {workspace : Workspace} {pool : Pool} {ty otherTy : Ty} {address otherAddress : Address}
variable {position other : Nat}

theorem scratchAt_underscore (stems : DefaultStems workspace) (pool : Pool) (ty : Ty)
    (address : Address) (position : Nat) :
    ∃ chars, (workspace.scratchAt pool ty address position).ident.toList = '_' :: chars := by
  rw [scratchAt_ident stems]
  cases pool <;> exact ⟨_, rfl⟩

/-- A name that is written out belongs to one identifier only. -/
theorem ident_eq_of_name {register : Value}
    (written : register.name = register.ident)
    (underscore : ∃ chars, register.ident.toList = '_' :: chars)
    (names : register.name = (workspace.scratchAt pool ty address position).name) :
    register.ident = (workspace.scratchAt pool ty address position).ident := by
  rw [written] at names
  rw [names, Value.name, Name.objective]
  split
  · rename_i long
    obtain ⟨chars, start⟩ := underscore
    rw [names, Value.name, Name.objective, if_pos long] at start
    exact absurd start (by simpa using Name.digest_append_ne _ [] chars)
  · rfl

/-- A name of the stacks that is written out stands for one layout, unless it is a
struct that is taken for another. -/
theorem stacked_objectives_eq (stems : DefaultStems workspace)
    (written : (workspace.scratchAt .stacked ty address position).name =
      (workspace.scratchAt .stacked ty address position).ident)
    (names : (workspace.scratchAt .stacked ty address position).name =
      (workspace.scratchAt .stacked otherTy otherAddress other).name)
    (apart : ty.isSingle ∨ otherTy.isSingle ∨ ty.toldApart otherTy) :
    (workspace.scratchAt .stacked ty address position).objectives =
      (workspace.scratchAt .stacked otherTy otherAddress other).objectives := by
  have idents := ident_eq_of_name written (scratchAt_underscore stems _ _ _ _) names
  have spelled := congrArg String.toList idents
  rw [scratchAt_ident stems, scratchAt_ident stems] at spelled
  obtain ⟨_, behind⟩ := stemChars_append_inj spelled
  have singles (single : ty.isSingle) (both : otherTy.isSingle ∧ ty.parts = otherTy.parts) :
      (workspace.scratchAt .stacked ty address position).objectives =
        (workspace.scratchAt .stacked otherTy otherAddress other).objectives :=
    Value.objectives_eq_of_parts single both.1 names both.2
  rcases apart with single | single | told
  · exact singles single (Ty.parts_eq_of_code single behind)
  · obtain ⟨own, parts⟩ := Ty.parts_eq_of_code single behind.symm
    exact singles own ⟨single, parts.symm⟩
  · have types : ty = otherTy :=
      (Ty.code_toDigits_inj_of_toldApart told Value.dotted_nil Value.dotted_nil
        (by simpa using behind)).1
    exact Value.objectives_congr idents types

/-- A record of the counter stands for one layout among types laid out alike. -/
theorem counted_objectives_eq (stems : DefaultStems workspace)
    (records : recordOf .counted (workspace.scratchAt .counted ty address position) =
      recordOf .counted (workspace.scratchAt .counted otherTy otherAddress other))
    (alike : ty.alike otherTy)
    (written : ty.isSingle ∨ (workspace.scratchAt .counted ty address position).name =
      (workspace.scratchAt .counted ty address position).ident) :
    (workspace.scratchAt .counted ty address position).objectives =
      (workspace.scratchAt .counted otherTy otherAddress other).objectives := by
  obtain ⟨names, limits⟩ : (workspace.scratchAt .counted ty address position).name =
      (workspace.scratchAt .counted otherTy otherAddress other).name ∧
        ty.nameLimit = otherTy.nameLimit := by
    simpa [recordOf, scratchAt_ty] using records
  have singles (single : ty.isSingle) (otherSingle : otherTy.isSingle) :
      (workspace.scratchAt .counted ty address position).objectives =
        (workspace.scratchAt .counted otherTy otherAddress other).objectives :=
    Value.objectives_eq_of_parts single otherSingle names
      (Ty.parts_eq_of_nameLimit single otherSingle limits)
  rw [Ty.alike, Bool.or_eq_true, Bool.and_eq_true, decide_eq_true_eq] at alike
  rcases alike with types | ⟨single, otherSingle⟩
  · rcases written with single | written
    · exact singles single (types ▸ single)
    · exact Value.objectives_congr
        (ident_eq_of_name written (scratchAt_underscore stems _ _ _ _) names) types
  · exact singles single otherSingle

end Names

end Workspace

namespace Session

open Workspace

/-- What an event hands out. -/
def issue (session : Session) : Event → List (Pool × Value)
  | .acquire pool ty address => [(pool, (session.workspace.acquire pool ty address).1.value)]
  | _ => []

/-- The registers that are handed out in a run, first to last. -/
def issued (session : Session) : List Event → List (Pool × Value)
  | [] => []
  | event :: events => session.issue event ++ (session.step event).issued events

/-- The pool of a register and its record there. -/
def mark (entry : Pool × Value) : Pool × String × Option Nat :=
  (entry.1, recordOf entry.1 entry.2)

/-- The register was the first with its record. -/
def IsFirst (history : List (Pool × Value)) (entry : Pool × Value) : Prop :=
  history.find? (fun earlier => mark earlier = mark entry) = some entry

instance (history : List (Pool × Value)) (entry : Pool × Value) :
    Decidable (IsFirst history entry) :=
  inferInstanceAs (Decidable (_ = _))

theorem mem_of_isFirst {history : List (Pool × Value)} {entry : Pool × Value}
    (first : IsFirst history entry) : entry ∈ history :=
  List.mem_of_find?_eq_some first

theorem exists_isFirst {history : List (Pool × Value)} {entry : Pool × Value}
    (member : entry ∈ history) :
    ∃ earliest, IsFirst history earliest ∧ mark earliest = mark entry := by
  cases found : history.find? (fun earlier => mark earlier = mark entry) with
  | none =>
      rw [List.find?_eq_none] at found
      exact absurd (decide_eq_true rfl) (found entry member)
  | some earliest =>
      have same : mark earliest = mark entry := by simpa using List.find?_some found
      refine ⟨earliest, ?_, same⟩
      rw [IsFirst, same]
      exact found

theorem isFirst_append_singleton (history : List (Pool × Value)) (latest entry : Pool × Value) :
    IsFirst (history ++ [latest]) entry ↔
      IsFirst history entry ∨
        (entry = latest ∧ ∀ earlier ∈ history, mark earlier ≠ mark latest) := by
  unfold IsFirst
  rw [List.find?_append]
  cases found : history.find? (fun earlier => mark earlier = mark entry) with
  | some earliest =>
      -- an entry whose record is older than itself cannot be the latest one
      have earliestMem := List.mem_of_find?_eq_some found
      have same : mark earliest = mark entry := by simpa using List.find?_some found
      rw [Option.some_or]
      refine ⟨Or.inl, fun either => either.elim id ?_⟩
      rintro ⟨rfl, new⟩
      exact absurd same (new earliest earliestMem)
  | none =>
      have absent : ∀ earlier ∈ history, mark earlier ≠ mark entry := by
        simpa using found
      by_cases isLatest : entry = latest
      · subst isLatest
        simpa using absent
      · have differs : latest ≠ entry := fun same => isLatest same.symm
        simp [isLatest, differs]

/-- What a session with this history has created and recorded. -/
structure Traces (session : Session) (history : List (Pool × Value)) : Prop where
  creates : ∀ objective, session.workspace.Creates objective ↔
    ∃ entry, IsFirst history entry ∧ objective ∈ entry.2.objectives
  recorded : ∀ pool record, record ∈ session.workspace.records pool ↔
    ∃ entry ∈ history, mark entry = (pool, record)
  placed : ∀ entry ∈ history, ∃ ty address position,
    entry.2 = session.workspace.scratchAt entry.1 ty address position

/-- Requests apart, nothing is created or recorded unless by hand. -/
theorem sameCreation_step (session : Session) {event : Event}
    (noRequest : ∀ pool ty address, event ≠ .acquire pool ty address)
    (byPool : ∀ commands, event ≠ .pushHead commands) :
    SameCreation session.workspace (session.step event).workspace := by
  cases event with
  | acquire pool ty address => exact absurd rfl (noRequest pool ty address)
  | pushHead commands => exact absurd rfl (byPool commands)
  | release lease | drop lease =>
      simp only [step]
      split
      · exact .discard _ lease
      · exact .refl _
  | popStack key =>
      simp only [step, StackPool.popHeld]
      split
      · rename_i popped
        split at popped
        · cases popped
        · cases popped
          exact ⟨rfl, rfl, rfl, rfl⟩
      · exact .refl _
  | restoreStacks serial =>
      simp only [step]
      split
      · exact ⟨rfl, rfl, rfl, rfl⟩
      · exact .refl _
  | restoreCounter =>
      cases saved : session.workspace.counted.saved with
      | nil =>
          simp only [step, CounterPool.restore, saved]
          exact .refl _
      | cons count earlier =>
          simp only [step, CounterPool.restore, saved]
          exact ⟨rfl, rfl, rfl, rfl⟩
  | detach _ | popCounter | saveStacks | saveCounter | borrow _ _ => exact ⟨rfl, rfl, rfl, rfl⟩

theorem scratchAt_step (session : Session) (event : Event) :
    (session.step event).workspace.scratchAt = session.workspace.scratchAt := by
  obtain ⟨stackStem, counterStem⟩ := session.step_stems event
  exact scratchAt_congr stackStem counterStem

theorem Traces.step {session : Session} {history : List (Pool × Value)}
    (traces : session.Traces history) {event : Event}
    (byPool : ∀ commands, event ≠ .pushHead commands) :
    (session.step event).Traces (history ++ session.issue event) := by
  by_cases request : ∃ pool ty address, event = .acquire pool ty address
  · obtain ⟨pool, ty, address, rfl⟩ := request
    obtain ⟨value, valueEq⟩ :
        ∃ value, value = (session.workspace.acquire pool ty address).1.value := ⟨_, rfl⟩
    have unrecorded : recordOf pool value ∉ session.workspace.records pool ↔
        ∀ earlier ∈ history, mark earlier ≠ mark (pool, value) := by
      rw [traces.recorded]
      constructor
      · intro absent earlier member same
        exact absent ⟨earlier, member, same⟩
      · rintro new ⟨earlier, member, same⟩
        exact new earlier member same
    refine ⟨fun objective => ?_, fun other record => ?_, fun entry member => ?_⟩
    · change (session.workspace.acquire pool ty address).2.Creates objective ↔ _
      rw [creates_acquire, traces.creates, issue, ← valueEq, unrecorded]
      simp only [isFirst_append_singleton]
      constructor
      · rintro (⟨entry, first, inside⟩ | ⟨new, inside⟩)
        · exact ⟨entry, Or.inl first, inside⟩
        · exact ⟨(pool, value), Or.inr ⟨rfl, new⟩, inside⟩
      · rintro ⟨entry, first | ⟨rfl, new⟩, inside⟩
        · exact Or.inl ⟨entry, first, inside⟩
        · exact Or.inr ⟨new, inside⟩
    · change record ∈ (session.workspace.acquire pool ty address).2.records other ↔ _
      rw [acquire_records, traces.recorded, issue, ← valueEq]
      simp [mark, or_and_right, exists_or, eq_comm]
    · rw [scratchAt_step]
      rcases List.mem_append.mp member with old | new
      · exact traces.placed entry old
      · obtain rfl := List.mem_singleton.mp new
        exact ⟨ty, address, _, acquire_value session.workspace pool ty address⟩
  · have noRequest : ∀ pool ty address, event ≠ .acquire pool ty address :=
      fun pool ty address same => request ⟨pool, ty, address, same⟩
    have same := session.sameCreation_step noRequest byPool
    have silent : session.issue event = [] := by
      cases event with
      | acquire pool ty address => exact absurd rfl (noRequest pool ty address)
      | _ => rfl
    rw [silent, List.append_nil]
    refine ⟨fun objective => ?_, fun pool record => ?_, fun entry member => ?_⟩
    · rw [Creates, same.head]
      exact traces.creates objective
    · rw [same.records_eq]
      exact traces.recorded pool record
    · rw [scratchAt_step]
      exact traces.placed entry member

theorem Traces.run {session : Session} {history : List (Pool × Value)}
    (traces : session.Traces history) {events : List Event}
    (byPool : ∀ commands, .pushHead commands ∉ events) :
    (session.run events).Traces (history ++ session.issued events) := by
  induction events generalizing session history with
  | nil =>
      rw [issued, List.append_nil]
      exact traces
  | cons event events ih =>
      rw [issued, ← List.append_assoc]
      refine ih (traces.step fun commands same => ?_) fun commands member => ?_
      · exact byPool commands (same ▸ List.mem_cons_self)
      · exact byPool commands (List.mem_cons_of_mem _ member)

theorem start_traces (settings : Settings) : (start settings).Traces [] := by
  refine ⟨fun objective => ?_, fun pool record => ?_, nofun⟩
  · simp [Creates, start, Compilation.start, IsFirst]
  · have none : (start settings).workspace.records pool = [] := by cases pool <;> rfl
    simp [none]

section Requests

variable {session : Session} {history : List (Pool × Value)} {pool : Pool} {ty : Ty}
variable {address : Address}

/-- A register is complete if the first one with its record has the same objectives. -/
theorem Traces.createsAll (traces : session.Traces history) {entry : Pool × Value}
    (member : entry ∈ history)
    (sameLayout : ∀ earliest ∈ history, mark earliest = mark entry →
      entry.2.objectives = earliest.2.objectives) :
    session.workspace.CreatesAll entry.2 := by
  obtain ⟨earliest, first, same⟩ := exists_isFirst member
  intro objective inside
  rw [sameLayout earliest (mem_of_isFirst first) same] at inside
  exact (traces.creates objective).mpr ⟨earliest, first, inside⟩

/-- Another register with the same record is one of the same pool. -/
theorem Traces.placed_of_mark (traces : session.Traces history) {earlier : Pool × Value}
    (member : earlier ∈ history) {register : Value} (same : mark earlier = mark (pool, register)) :
    earlier.1 = pool ∧ ∃ ty address position,
      earlier.2 = session.workspace.scratchAt pool ty address position ∧
        recordOf pool register =
          recordOf pool (session.workspace.scratchAt pool ty address position) := by
  obtain ⟨earlierPool, value⟩ := earlier
  obtain ⟨rfl, records⟩ := Prod.mk.inj same
  obtain ⟨ty, address, position, placed⟩ := traces.placed _ member
  exact ⟨rfl, ty, address, position, placed, by rw [← placed, records]⟩

end Requests

/-- A request gets a register whose objectives are all created exactly if each of
them belongs to a register that was the first with its record. -/
theorem registers_created_iff (events : List Event)
    (byPool : ∀ commands, .pushHead commands ∉ events) (pool : Pool) (ty : Ty)
    (address : Address) :
    let session := (start {}).run events
    let register := (session.workspace.acquire pool ty address).1.value
    let later := (session.workspace.acquire pool ty address).2
    let history := (start {}).issued events ++ [(pool, register)]
    (later.CreatesAll register ↔ ∀ objective ∈ register.objectives,
        ∃ entry, IsFirst history entry ∧ objective ∈ entry.2.objectives) ∧
      (pool = .stacked → register.name = register.ident →
        (∀ entry ∈ history, entry.1 = .stacked →
          ty.isSingle ∨ entry.2.ty.isSingle ∨ ty.toldApart entry.2.ty) →
        later.CreatesAll register) ∧
      (pool = .stacked → ty.isScalar →
        session.workspace.depth .stacked ⟨address.isGlobal, ty⟩ < namedPositions →
        later.CreatesAll register) ∧
      (pool = .counted → (ty.isSingle ∨ register.name = register.ident) →
        (∀ entry ∈ history, mark entry = mark (pool, register) → ty.alike entry.2.ty) →
        later.CreatesAll register) := by
  intro session register later history
  have stems : later.DefaultStems := (defaultStems_run events).acquire pool ty address
  have traces : (session.step (.acquire pool ty address)).Traces history := by
    have before : session.Traces ((start {}).issued events) := (start_traces {}).run byPool
    exact before.step fun _ => nofun
  have latest : (pool, register) ∈ history := List.mem_append_right _ (List.mem_singleton_self _)
  have registerEq : register = later.scratchAt pool ty address
      (session.workspace.depth pool ⟨address.isGlobal, ty⟩) := by
    rw [scratchAt_acquire]
    exact acquire_value session.workspace pool ty address
  have fromStacks (stacked : pool = .stacked) (written : register.name = register.ident)
      (apart : ∀ entry ∈ history, entry.1 = .stacked →
        ty.isSingle ∨ entry.2.ty.isSingle ∨ ty.toldApart entry.2.ty) :
      later.CreatesAll register := by
    subst stacked
    refine traces.createsAll latest fun earliest member same => ?_
    obtain ⟨onStacks, otherTy, otherAddress, other, placed, records⟩ :=
      traces.placed_of_mark member same
    have told := apart earliest member onStacks
    have names := congrArg Prod.fst records
    change register.objectives = _
    rw [placed] at told ⊢
    rw [registerEq] at written names ⊢
    exact stacked_objectives_eq stems written names told
  refine ⟨?_, fromStacks, fun stacked scalar named => ?_, fun counted written alike => ?_⟩
  · exact forall_congr' fun objective => imp_congr_right fun _ => traces.creates objective
  · subst stacked
    refine fromStacks rfl ?_ fun _ _ _ => Or.inl (Ty.isSingle_of_isScalar scalar)
    rw [registerEq]
    exact scratchAt_name stems scalar named
  · subst counted
    refine traces.createsAll latest fun earliest member same => ?_
    obtain ⟨_, otherTy, otherAddress, other, placed, records⟩ :=
      traces.placed_of_mark member same
    have sameLayout := alike earliest member same
    change register.objectives = _
    rw [placed] at sameLayout ⊢
    rw [registerEq] at written records ⊢
    exact counted_objectives_eq stems records sameLayout written

/-- A struct comes back on its stack, and a boolean takes the place of an integer of
the counter. -/
theorem registers_created_on_return :
    let point : Ty := .struct "Point" [("x", .int), ("y", .decimal 2)]
    let events : List Event := [.acquire .stacked point .here, .popStack ⟨false, point⟩,
      .acquire .counted .int .here, .popCounter]
    let session := (start {}).run events
    let structLease := session.workspace.acquire .stacked point .here
    let boolLease := session.workspace.acquire .counted .bool .here
    (∀ commands, .pushHead commands ∉ events) ∧
      structLease.1.value.objectives = ["_tmpLsPoint0.x", "_tmpLsPoint0.y", "_tmpLsPoint0.y.d"] ∧
      structLease.2.head = session.workspace.head ∧
      structLease.2.CreatesAll structLease.1.value ∧
      boolLease.1.value.objectives = ["_temp0"] ∧ boolLease.2.head = session.workspace.head ∧
      boolLease.2.CreatesAll boolLease.1.value := by
  intro point events session structLease boolLease
  have byPool : ∀ commands, .pushHead commands ∉ events := by simp [events]
  obtain ⟨_, fromStacks, _, _⟩ := registers_created_iff events byPool .stacked point .here
  obtain ⟨_, _, _, fromCounter⟩ := registers_created_iff events byPool .counted .bool .here
  exact ⟨byPool, by decide +kernel, by decide +kernel,
    fromStacks rfl (by decide +kernel) (by decide +kernel), by decide +kernel, by decide +kernel,
    fromCounter rfl (Or.inl rfl) (by decide +kernel)⟩

/-- A struct in the place of an integer of the counter, an integer in the place of a
struct, and a struct in the place of another one of its name. -/
theorem reused_register_incomplete :
    let narrow : Ty := .struct "P" [("x", .int)]
    let wide : Ty := .struct "P" [("x", .int), ("y", .int)]
    let afterInt := ((start {}).run [.acquire .counted .int .here, .popCounter]).workspace
    let afterStruct := ((start {}).run [.acquire .counted narrow .here, .popCounter]).workspace
    let afterNarrow := ((start {}).run
      [.acquire .stacked narrow .here, .popStack ⟨false, narrow⟩]).workspace
    ((afterInt.acquire .counted narrow .here).1.value.objectives = ["_temp0.x"] ∧
        ¬ (afterInt.acquire .counted narrow .here).2.Creates "_temp0.x") ∧
      ((afterStruct.acquire .counted .int .here).1.value.objectives = ["_temp0"] ∧
        ¬ (afterStruct.acquire .counted .int .here).2.Creates "_temp0") ∧
      (afterNarrow.acquire .stacked wide .here).1.value.objectives =
          ["_tmpLsP0.x", "_tmpLsP0.y"] ∧
        ¬ (afterNarrow.acquire .stacked wide .here).2.Creates "_tmpLsP0.y" := by
  decide +kernel

end Session

end ScoreLowering
