import Mathlib.Algebra.Group.Nat.Defs
import ScoreLowering.Compilation
import ScoreLowering.Proofs.RegisterLeaves
import ScoreLowering.Proofs.ScratchBalance
import ScoreLowering.Proofs.StatementScope

/-!
# Names of scratch registers

A scratch register is named after its pool, its scope and type, and its
position.  With the usual stems, and as long as a pool does not hold millions of
registers, none of these names is so long that a digest takes its place, and
the name can be read backward: it tells the stack and the position.  Registers
that are held therefore share no objective with registers still to be handed
out.  Only decimals of more than nine digits do, since their precision runs into
the position behind it.
-/

namespace ScoreLowering

/-- Two texts that each consist of a run of certain characters and a rest that
does not go on like that are the same only part by part. -/
theorem append_inj_of_run {α : Type} {p : α → Bool} {first second : List α}
    {rest others : List α} (firstRun : ∀ item ∈ first, p item) (secondRun : ∀ item ∈ second, p item)
    (restStops : ∀ item ∈ rest.head?, p item = false)
    (othersStop : ∀ item ∈ others.head?, p item = false)
    (equal : first ++ rest = second ++ others) : first = second ∧ rest = others := by
  have stops {tail : List α} (tailStops : ∀ item ∈ tail.head?, p item = false) :
      tail.takeWhile p = [] := by
    cases tail with
    | nil => rfl
    | cons item tail => simp [tailStops item rfl]
  have runs := congrArg (List.takeWhile p) equal
  rw [List.takeWhile_append_of_pos firstRun, List.takeWhile_append_of_pos secondRun,
    stops restStops, stops othersStop, List.append_nil, List.append_nil] at runs
  subst runs
  exact ⟨rfl, List.append_cancel_left equal⟩

theorem toDigits_injective {first second : Nat}
    (equal : Nat.toDigits 10 first = Nat.toDigits 10 second) : first = second := by
  have values := congrArg (fun digits => Nat.ofDigitChars 10 digits 0) equal
  simpa using values

/-- The digits of a number end where no further digit comes. -/
theorem toDigits_append_inj {first second : Nat} {rest others : List Char}
    (restStops : ∀ char ∈ rest.head?, char.isDigit = false)
    (othersStop : ∀ char ∈ others.head?, char.isDigit = false)
    (equal : Nat.toDigits 10 first ++ rest = Nat.toDigits 10 second ++ others) :
    first = second ∧ rest = others := by
  have digits (number : Nat) : ∀ char ∈ Nat.toDigits 10 number, char.isDigit :=
    fun char member => Nat.isDigit_of_mem_toDigits (by decide) (by decide) member
  obtain ⟨numbers, rests⟩ :=
    append_inj_of_run (digits first) (digits second) restStops othersStop equal
  exact ⟨toDigits_injective numbers, rests⟩

theorem Value.Dotted.not_isDigit {rest : List Char} (dotted : Value.Dotted rest) :
    ∀ char ∈ rest.head?, char.isDigit = false := by
  intro char first
  rw [dotted char first]
  rfl

/-- The digits of a number start where no digit comes before. -/
theorem append_toDigits_inj {first second : List Char} {number other : Nat}
    (firstStops : ∀ char ∈ first.getLast?, char.isDigit = false)
    (secondStops : ∀ char ∈ second.getLast?, char.isDigit = false)
    (equal : first ++ Nat.toDigits 10 number = second ++ Nat.toDigits 10 other) :
    first = second ∧ number = other := by
  have digits (number : Nat) : ∀ char ∈ (Nat.toDigits 10 number).reverse, char.isDigit :=
    fun char member =>
      Nat.isDigit_of_mem_toDigits (by decide) (by decide) (List.mem_reverse.mp member)
  have reversed := congrArg List.reverse equal
  rw [List.reverse_append, List.reverse_append] at reversed
  rw [← List.head?_reverse] at firstStops secondStops
  obtain ⟨numbers, names⟩ :=
    append_inj_of_run (digits number) (digits other) firstStops secondStops reversed
  exact ⟨List.reverse_inj.mp names, toDigits_injective (List.reverse_inj.mp numbers)⟩

namespace Ty

theorem not_struct_of_isScalar {ty : Ty} (scalar : ty.isScalar) (name : String)
    (fields : List (String × Ty)) : ty ≠ .struct name fields := by
  rintro rfl
  exact absurd scalar (by simp [isScalar])

/-- Whether numbers of the type fit into registers.  Decimals of higher precision can be
declared, but they have no unit, and their codes run into the numbers behind them. -/
def isStorable : Ty → Bool
  | decimal precision => precision ≤ maxPrecision
  | int | bool | time | struct _ _ => true

theorem isStorable_of_isScalar {ty : Ty} (scalar : ty.isScalar) : ty.isStorable := by
  cases ty <;> simp_all [isScalar, isStorable]

theorem code_decimal (precision : Nat) :
    (decimal precision).code.toList = 'd' :: Nat.toDigits 10 precision := by
  simp only [code, String.toList_append, Nat.toString_eq_ofList_toDigits,
    String.toList_ofList]
  rfl

theorem code_decimal_storable {precision : Nat} (storable : (decimal precision).isStorable) :
    (decimal precision).code.toList = ['d', precision.digitChar] := by
  have bounded : precision ≤ maxPrecision := by simpa [isStorable] using storable
  have below : precision < 10 := Nat.lt_succ_of_le bounded
  rw [code_decimal, Nat.toDigits_of_lt_base below]

theorem code_struct (name : String) (fields : List (String × Ty)) :
    (struct name fields).code.toList = 's' :: name.toList := by
  simp only [code, String.toList_append]
  rfl

/-- The code of a scalar type can be told from what comes behind it. -/
theorem code_append_inj {first second : Ty} (scalar : first.isScalar)
    (storable : second.isStorable) {rest others : List Char}
    (equal : first.code.toList ++ rest = second.code.toList ++ others) :
    first = second ∧ rest = others := by
  cases first with
  | struct name fields => exact absurd rfl (not_struct_of_isScalar scalar name fields)
  | decimal precision =>
      have ownCode := code_decimal_storable (isStorable_of_isScalar scalar)
      cases second with
      | decimal other =>
          have otherCode := code_decimal_storable storable
          have digitsEq : precision.digitChar = other.digitChar ∧ rest = others := by
            simpa [ownCode, otherCode] using equal
          have codesEq : (decimal precision).code.toList = (decimal other).code.toList := by
            rw [ownCode, otherCode, digitsEq.1]
          rw [code_decimal, code_decimal, List.cons.injEq] at codesEq
          exact ⟨by rw [toDigits_injective codesEq.2], digitsEq.2⟩
      | struct name fields => simp [ownCode, code_struct] at equal
      | _ =>
          rw [ownCode] at equal
          simp [code] at equal
  | _ =>
      cases second with
      | decimal other =>
          rw [code_decimal_storable storable] at equal
          simp [code] at equal
      | struct name fields =>
          rw [code_struct] at equal
          simp [code] at equal
      | _ => simp_all [code]

/-- The code of a scalar type can be told from the number behind it. -/
theorem code_toDigits_inj {first second : Ty} (scalar : first.isScalar)
    (storable : second.isStorable) {position other : Nat} {rest others : List Char}
    (dotted : Value.Dotted rest) (othersDotted : Value.Dotted others)
    (equal : first.code.toList ++ (Nat.toDigits 10 position ++ rest) =
      second.code.toList ++ (Nat.toDigits 10 other ++ others)) :
    first = second ∧ position = other := by
  obtain ⟨types, digits⟩ := code_append_inj scalar storable equal
  exact ⟨types, (toDigits_append_inj dotted.not_isDigit othersDotted.not_isDigit digits).1⟩

end Ty

namespace Workspace

/-- The pools name their registers as they do by default. -/
structure DefaultStems (workspace : Workspace) : Prop where
  stacked : workspace.stacked.stem = ({} : Settings).stackStem
  counted : workspace.counted.stem = ({} : Settings).counterStem

theorem DefaultStems.of_sameScratch {before after : Workspace} (stems : DefaultStems before)
    (same : SameScratch before after) : DefaultStems after :=
  ⟨same.stackStem.trans stems.stacked, same.counterStem.trans stems.counted⟩

theorem DefaultStems.acquire {workspace : Workspace} (stems : DefaultStems workspace)
    (pool : Pool) (ty : Ty) (address : Address) :
    DefaultStems (workspace.acquire pool ty address).2 := by
  obtain ⟨stackStem, counterStem⟩ := acquire_stems workspace pool ty address
  exact ⟨stackStem.trans stems.stacked, counterStem.trans stems.counted⟩

/-- What the name of a scratch register starts with. -/
def stemChars (pool : Pool) (ty : Ty) (address : Address) : List Char :=
  match pool with
  | .stacked =>
      "_tmp".toList ++ (StackPool.scopeCode address.isGlobal).toList ++ ty.code.toList
  | .counted => "_temp".toList

theorem stemChars_stacked (ty : Ty) (address : Address) :
    stemChars .stacked ty address =
      "_tmp".toList ++ (StackPool.scopeCode address.isGlobal).toList ++ ty.code.toList :=
  rfl

theorem stemChars_counted (ty : Ty) (address : Address) :
    stemChars .counted ty address = "_temp".toList :=
  rfl

theorem scratchAt_ident {workspace : Workspace} (stems : DefaultStems workspace)
    (pool : Pool) (ty : Ty) (address : Address) (position : Nat) :
    (workspace.scratchAt pool ty address position).ident.toList =
      stemChars pool ty address ++ Nat.toDigits 10 position := by
  cases pool with
  | stacked => simp [scratchAt, StackPool.registerAt, stems.stacked, stemChars_stacked]
  | counted => simp [scratchAt, CounterPool.registerAt, stems.counted, stemChars_counted]

theorem scratchAt_ty (workspace : Workspace) (pool : Pool) (ty : Ty) (address : Address)
    (position : Nat) : (workspace.scratchAt pool ty address position).ty = ty := by
  cases pool <;> rfl

/-- What comes after the scope is the code of the type. -/
theorem stemChars_append_inj {ty otherTy : Ty} {address otherAddress : Address}
    {rest others : List Char}
    (equal : stemChars .stacked ty address ++ rest =
      stemChars .stacked otherTy otherAddress ++ others) :
    address.isGlobal = otherAddress.isGlobal ∧
      ty.code.toList ++ rest = otherTy.code.toList ++ others := by
  simp only [stemChars_stacked, List.append_assoc] at equal
  have behind := List.append_cancel_left equal
  have scopes : address.isGlobal = otherAddress.isGlobal := by
    cases own : address.isGlobal <;> cases another : otherAddress.isGlobal <;>
      simp_all [StackPool.scopeCode]
  rw [scopes] at behind
  exact ⟨scopes, List.append_cancel_left behind⟩

/-- A stem leaves room for seven digits. -/
theorem stemChars_length (pool : Pool) {ty : Ty} (address : Address)
    (scalar : ty.isScalar) : (stemChars pool ty address).length + 7 ≤ ty.nameLimit := by
  have scope : (StackPool.scopeCode address.isGlobal).toList.length = 1 := by
    cases address.isGlobal <;> rfl
  cases ty with
  | struct name fields => exact absurd rfl (Ty.not_struct_of_isScalar scalar name fields)
  | decimal precision =>
      have bounded : precision ≤ Ty.maxPrecision := by simpa [Ty.isScalar] using scalar
      have below : precision < 10 := Nat.lt_succ_of_le bounded
      cases pool with
      | stacked =>
          simp [stemChars_stacked, Ty.code_decimal, Nat.toDigits_of_lt_base below, scope,
            Ty.nameLimit]
          decide
      | counted => exact of_decide_eq_true rfl
  | _ =>
      cases pool with
      | stacked => simp [stemChars_stacked, Ty.code, scope, Ty.nameLimit, Name.maxLength]
      | counted => exact of_decide_eq_true rfl

/-- The first position whose name may be too long to be written out. -/
def namedPositions : Nat := 10 ^ 7

theorem scratchAt_ident_length_le {workspace : Workspace} (stems : DefaultStems workspace)
    {pool : Pool} {ty : Ty} {address : Address} {position : Nat} (scalar : ty.isScalar)
    (named : position < namedPositions) :
    (workspace.scratchAt pool ty address position).ident.length ≤ ty.nameLimit := by
  have digits : (Nat.toDigits 10 position).length ≤ 7 :=
    (Nat.length_toDigits_le_iff (by decide) (by decide)).mpr named
  have stem := stemChars_length pool address scalar
  rw [← String.length_toList, scratchAt_ident stems, List.length_append]
  omega

theorem scratchAt_name {workspace : Workspace} (stems : DefaultStems workspace)
    {pool : Pool} {ty : Ty} {address : Address} {position : Nat} (scalar : ty.isScalar)
    (named : position < namedPositions) :
    (workspace.scratchAt pool ty address position).name =
      (workspace.scratchAt pool ty address position).ident := by
  have short : (workspace.scratchAt pool ty address position).ident.length ≤ ty.nameLimit :=
    scratchAt_ident_length_le stems scalar named
  rw [Value.name, scratchAt_ty, Name.objective, if_neg (Nat.not_lt.mpr short)]

-- A long stem makes all names digests, and those of neighbouring registers coincide.
example :
    let workspace := (Compilation.start { stackStem := "abcdefghijklmnopqrstu" }).workspace
    (workspace.scratchAt .stacked .int .here 0).name =
      (workspace.scratchAt .stacked .int .here 1).name := by
  decide +kernel

/-- The name of a scratch register that a pool can hand out, but has not. -/
def Unheld (workspace : Workspace) (pool : Pool) (objective : String) : Prop :=
  ∃ ty address position, ty.isScalar ∧
    workspace.depth pool ⟨address.isGlobal, ty⟩ ≤ position ∧ position < namedPositions ∧
    objective ∈ (workspace.scratchAt pool ty address position).objectives

/-- The name of a scratch register that a pool has handed out. -/
def Held (workspace : Workspace) (pool : Pool) (objective : String) : Prop :=
  ∃ ty address position, position < workspace.depth pool ⟨address.isGlobal, ty⟩ ∧
    objective ∈ (workspace.scratchAt pool ty address position).objectives

/-- The name of a decimal of more than nine digits that is held, but reads like another one:
nothing stands between precision and position, so that the first digit can be taken for the
precision and the others for the position. -/
def Misread (workspace : Workspace) (pool : Pool) (objective : String) : Prop :=
  pool = .stacked ∧ ∃ precision position short other, ∃ address : Address,
    Ty.maxPrecision < precision ∧ short ≤ Ty.maxPrecision ∧
    position < workspace.depth pool ⟨address.isGlobal, .decimal precision⟩ ∧
    Nat.toDigits 10 precision ++ Nat.toDigits 10 position =
      Nat.toDigits 10 short ++ Nat.toDigits 10 other ∧
    objective ∈ (workspace.scratchAt pool (.decimal short) address other).objectives

variable {workspace : Workspace} {pool : Pool}

/-- The objectives of a register spell its stem and its position. -/
theorem objective_of_named (stems : DefaultStems workspace) {ty : Ty} {address : Address}
    {position : Nat} {objective : String} (scalar : ty.isScalar)
    (named : position < namedPositions)
    (member : objective ∈ (workspace.scratchAt pool ty address position).objectives) :
    ∃ rest, objective.toList =
        stemChars pool ty address ++ (Nat.toDigits 10 position ++ rest) ∧
      Value.Dotted rest := by
  have spelled := scratchAt_ident stems pool ty address position
  have simple (name : String) (fields : List (String × Ty)) :
      (workspace.scratchAt pool ty address position).ty ≠ .struct name fields := by
    rw [scratchAt_ty]
    exact Ty.not_struct_of_isScalar scalar name fields
  rw [Value.objectives_eq_parts simple, List.mem_map] at member
  obtain ⟨part, _, rfl⟩ := member
  cases part with
  | whole =>
      refine ⟨[], ?_, Value.dotted_nil⟩
      rw [Value.objective, scratchAt_name stems scalar named, spelled, List.append_nil]
  | fraction =>
      refine ⟨['.', 'd'], ?_, by simp [Value.Dotted]⟩
      rw [Value.objective, scratchAt_name stems scalar named, String.toList_append, spelled,
        List.append_assoc]
      rfl

/-- Registers that share an objective are spelled alike up to a suffix. -/
theorem spelled_alike (stems : DefaultStems workspace) {ty otherTy : Ty}
    {address otherAddress : Address} {position other : Nat} {objective : String}
    (scalar : ty.isScalar) (named : position < namedPositions)
    (member : objective ∈ (workspace.scratchAt pool ty address position).objectives)
    (otherMember :
      objective ∈ (workspace.scratchAt pool otherTy otherAddress other).objectives) :
    ∃ rest others, Value.Dotted rest ∧ Value.Dotted others ∧
      stemChars pool ty address ++ (Nat.toDigits 10 position ++ rest) =
        stemChars pool otherTy otherAddress ++ (Nat.toDigits 10 other ++ others) := by
  obtain ⟨rest, spelled, dotted⟩ := objective_of_named stems scalar named member
  rcases Value.mem_layout _ _ otherMember with ⟨long, others, hashed⟩ | ⟨others, otherSpelled,
    otherDotted⟩
  · -- a digest never starts like the name of a scratch register
    have underscore : ∃ chars, objective.toList = '_' :: chars := by
      rw [spelled]
      cases pool <;> exact ⟨_, rfl⟩
    obtain ⟨chars, start⟩ := underscore
    exact absurd (hashed.symm.trans start) (Name.digest_append_ne long others chars)
  · rw [scratchAt_ident stems, List.append_assoc] at otherSpelled
    exact ⟨rest, others, dotted, otherDotted, spelled.symm.trans otherSpelled⟩

/-- What a name says: registers that share an objective are at the same position
of the same stack. -/
theorem position_of_objective (stems : DefaultStems workspace) {ty otherTy : Ty}
    {address otherAddress : Address} {position other : Nat} {objective : String}
    (scalar : ty.isScalar) (named : position < namedPositions)
    (storable : pool = .stacked → otherTy.isStorable)
    (member : objective ∈ (workspace.scratchAt pool ty address position).objectives)
    (otherMember :
      objective ∈ (workspace.scratchAt pool otherTy otherAddress other).objectives) :
    position = other ∧ ∀ workspace : Workspace,
      workspace.depth pool ⟨address.isGlobal, ty⟩ =
        workspace.depth pool ⟨otherAddress.isGlobal, otherTy⟩ := by
  obtain ⟨rest, others, dotted, otherDotted, equal⟩ :=
    spelled_alike stems scalar named member otherMember
  cases pool with
  | counted =>
      have behind := List.append_cancel_left equal
      exact ⟨(toDigits_append_inj dotted.not_isDigit otherDotted.not_isDigit behind).1,
        fun _ => rfl⟩
  | stacked =>
      obtain ⟨scopes, behind⟩ := stemChars_append_inj equal
      obtain ⟨types, positions⟩ :=
        Ty.code_toDigits_inj scalar (storable rfl) dotted otherDotted behind
      refine ⟨positions, fun workspace => ?_⟩
      rw [scopes, types]

/-- Where codes can be told from positions, nothing that is held can be handed out. -/
theorem Unheld.not_mem_objectives (stems : DefaultStems workspace) {otherTy : Ty}
    {otherAddress : Address} {other : Nat} {objective : String}
    (unheld : workspace.Unheld pool objective) (storable : pool = .stacked → otherTy.isStorable)
    (below : other < workspace.depth pool ⟨otherAddress.isGlobal, otherTy⟩) :
    objective ∉ (workspace.scratchAt pool otherTy otherAddress other).objectives := by
  intro otherMember
  obtain ⟨ty, address, position, scalar, above, named, member⟩ := unheld
  obtain ⟨samePosition, sameStack⟩ :=
    position_of_objective stems scalar named storable member otherMember
  have sameDepth := sameStack workspace
  omega

/-- A name that can be handed out is that of a decimal of more than nine digits only if the
digits of precision and position are those of a shorter decimal. -/
theorem decimal_of_objective (stems : DefaultStems workspace) {ty : Ty} {precision : Nat}
    {address otherAddress : Address} {position other : Nat} {objective : String}
    (scalar : ty.isScalar) (named : position < namedPositions)
    (member : objective ∈ (workspace.scratchAt .stacked ty address position).objectives)
    (otherMember : objective ∈
      (workspace.scratchAt .stacked (.decimal precision) otherAddress other).objectives) :
    address.isGlobal = otherAddress.isGlobal ∧ ∃ short, ty = .decimal short ∧
      Nat.toDigits 10 precision ++ Nat.toDigits 10 other =
        Nat.toDigits 10 short ++ Nat.toDigits 10 position := by
  obtain ⟨rest, others, dotted, otherDotted, equal⟩ :=
    spelled_alike stems scalar named member otherMember
  obtain ⟨scopes, behind⟩ := stemChars_append_inj equal
  rw [Ty.code_decimal] at behind
  refine ⟨scopes, ?_⟩
  cases ty with
  | struct name fields => exact absurd rfl (Ty.not_struct_of_isScalar scalar name fields)
  | int | bool | time => simp [Ty.code] at behind
  | decimal short =>
      rw [Ty.code_decimal, List.cons_append, List.cons_append, List.cons.injEq,
        ← List.append_assoc, ← List.append_assoc] at behind
      have digits (first second : Nat) :
          ∀ char ∈ Nat.toDigits 10 first ++ Nat.toDigits 10 second, char.isDigit := by
        intro char inside
        rcases List.mem_append.mp inside with left | right
        · exact Nat.isDigit_of_mem_toDigits (by decide) (by decide) left
        · exact Nat.isDigit_of_mem_toDigits (by decide) (by decide) right
      have runs := append_inj_of_run (digits short position) (digits precision other)
        dotted.not_isDigit otherDotted.not_isDigit behind.2
      exact ⟨short, rfl, runs.1.symm⟩

/-- Decimals whose digits run together alike have the same names. -/
theorem objectives_of_digits_eq (workspace : Workspace) {precision position short other : Nat}
    (digits : Nat.toDigits 10 precision ++ Nat.toDigits 10 position =
      Nat.toDigits 10 short ++ Nat.toDigits 10 other) (address : Address) :
    (workspace.scratchAt .stacked (.decimal precision) address position).objectives =
      (workspace.scratchAt .stacked (.decimal short) address other).objectives := by
  have idents : (workspace.scratchAt .stacked (.decimal precision) address position).ident =
      (workspace.scratchAt .stacked (.decimal short) address other).ident := by
    rw [← String.toList_inj]
    simp only [scratchAt, StackPool.registerAt, String.toList_append, Ty.code_decimal,
      Nat.toString_eq_ofList_toDigits, String.toList_ofList, List.append_assoc, List.cons_append,
      digits]
  rw [Value.objectives, Value.objectives, idents, scratchAt_ty, scratchAt_ty]
  rfl

/-- Of what can be handed out, exactly the names that can be misread are held. -/
theorem Unheld.held_iff_misread (stems : DefaultStems workspace) {objective : String}
    (unheld : workspace.Unheld pool objective) :
    workspace.Held pool objective ↔ workspace.Misread pool objective := by
  constructor
  · rintro ⟨otherTy, otherAddress, other, below, otherMember⟩
    by_cases storable : pool = .stacked → otherTy.isStorable
    · exact absurd otherMember (unheld.not_mem_objectives stems storable below)
    · obtain ⟨rfl, notStorable⟩ := Classical.not_imp.mp storable
      cases otherTy with
      | int | bool | time | struct name fields => exact absurd rfl notStorable
      | decimal precision =>
          obtain ⟨ty, address, position, scalar, _, named, member⟩ := unheld
          obtain ⟨scopes, short, rfl, digits⟩ :=
            decimal_of_objective stems scalar named member otherMember
          have long : Ty.maxPrecision < precision := by simpa [Ty.isStorable] using notStorable
          exact ⟨rfl, precision, other, short, position, address, long,
            by simpa [Ty.isScalar] using scalar, scopes ▸ below, digits, member⟩
  · rintro ⟨rfl, precision, position, short, other, address, _, _, below, digits, member⟩
    rw [← objectives_of_digits_eq workspace digits address] at member
    exact ⟨.decimal precision, address, position, below, member⟩

/-- A name that can be handed out after an acquisition could be handed out before. -/
theorem Unheld.of_acquire {ty : Ty} {address : Address} {objective : String}
    (unheld : (workspace.acquire pool ty address).2.Unheld pool objective) :
    workspace.Unheld pool objective := by
  obtain ⟨otherTy, otherAddress, position, scalar, above, named, member⟩ := unheld
  rw [scratchAt_acquire] at member
  have longer := (depth_acquire workspace pool ty address ⟨otherAddress.isGlobal, otherTy⟩).1
  exact ⟨otherTy, otherAddress, position, scalar, Nat.le_trans longer above, named, member⟩

/-- The register of a new lease could be handed out, and cannot be any longer. -/
theorem unheld_acquired (stems : DefaultStems workspace) {ty : Ty} {address : Address}
    {objective : String} (scalar : ty.isScalar)
    (room : workspace.depth pool ⟨address.isGlobal, ty⟩ < namedPositions)
    (member : objective ∈ (workspace.acquire pool ty address).1.value.objectives) :
    workspace.Unheld pool objective ∧
      ¬ (workspace.acquire pool ty address).2.Unheld pool objective := by
  rw [acquire_value] at member
  refine ⟨⟨ty, address, _, scalar, Nat.le_refl _, room, member⟩, ?_⟩
  rintro ⟨otherTy, otherAddress, position, otherScalar, above, named, otherMember⟩
  rw [scratchAt_acquire] at otherMember
  obtain ⟨samePosition, sameStack⟩ := position_of_objective stems scalar room
    (fun _ => Ty.isStorable_of_isScalar otherScalar) member otherMember
  have longer := depth_acquire_self workspace pool ty address
  have sameDepth := sameStack (workspace.acquire pool ty address).2
  omega

/-- No stack of single values is this high. -/
def HoldsFewerThan (workspace : Workspace) (pool : Pool) (limit : Nat) : Prop :=
  ∀ key : StackKey, key.ty.isScalar → workspace.depth pool key < limit

theorem HoldsFewerThan.acquire {limit : Nat} (fewer : workspace.HoldsFewerThan pool limit)
    (ty : Ty) (address : Address) :
    (workspace.acquire pool ty address).2.HoldsFewerThan pool (limit + 1) := by
  intro key scalar
  have before := fewer key scalar
  have after := (depth_acquire workspace pool ty address key).2
  omega

/-- Acquire registers of these types, one after the other. -/
def acquireAll (workspace : Workspace) (pool : Pool) (types : List Ty) (address : Address) :
    Workspace :=
  types.foldl (fun workspace ty => (workspace.acquire pool ty address).2) workspace

theorem DefaultStems.acquireAll (stems : DefaultStems workspace) (pool : Pool) (types : List Ty)
    (address : Address) : DefaultStems (workspace.acquireAll pool types address) := by
  induction types generalizing workspace with
  | nil => exact stems
  | cons ty rest ih => exact ih (stems.acquire pool ty address)

theorem HoldsFewerThan.acquireAll {limit : Nat} (fewer : workspace.HoldsFewerThan pool limit)
    (types : List Ty) (address : Address) :
    (workspace.acquireAll pool types address).HoldsFewerThan pool (limit + types.length) := by
  induction types generalizing workspace limit with
  | nil => exact fewer
  | cons ty rest ih =>
      rw [List.length_cons, Nat.add_comm rest.length, ← Nat.add_assoc]
      exact ih (fewer.acquire ty address)

theorem HoldsFewerThan.of_sameScratch {before after : Workspace} {limit : Nat}
    (fewer : before.HoldsFewerThan pool limit) (same : SameScratch before after) :
    after.HoldsFewerThan pool limit := by
  intro key scalar
  rw [same.depth_eq]
  exact fewer key scalar

theorem Unheld.of_sameScratch {before after : Workspace} (same : SameScratch before after)
    {objective : String} (unheld : after.Unheld pool objective) :
    before.Unheld pool objective := by
  obtain ⟨ty, address, position, scalar, above, named, member⟩ := unheld
  rw [same.depth_eq] at above
  rw [same.scratchAt_eq] at member
  exact ⟨ty, address, position, scalar, above, named, member⟩

/-- Every name of a scratch register starts with an underscore. -/
theorem not_unheld_of_head (stems : DefaultStems workspace) {objective : String}
    (plain : objective.toList.head? ≠ some '_') : ¬ workspace.Unheld pool objective := by
  rintro ⟨ty, address, position, scalar, _, named, member⟩
  obtain ⟨rest, spelled, _⟩ := objective_of_named stems scalar named member
  apply plain
  rw [spelled]
  cases pool <;> rfl

end Workspace

namespace Compilation

theorem start_defaultStems : (start {}).workspace.DefaultStems :=
  ⟨rfl, rfl⟩

theorem start_holdsFewerThan (settings : Settings) (pool : Pool) {limit : Nat}
    (positive : 0 < limit) : (start settings).workspace.HoldsFewerThan pool limit := by
  intro key _
  have empty : (start settings).workspace.depth pool key = 0 := by cases pool <;> rfl
  rw [empty]
  exact positive

end Compilation

end ScoreLowering
