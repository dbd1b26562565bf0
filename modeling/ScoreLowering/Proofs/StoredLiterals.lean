import ScoreLowering.Proofs.LiteralSplits
import ScoreLowering.Proofs.NumberTransfers

/-!
# Literals assigned directly and through a value

A literal is cut down to the digits of a value before the program runs.  A value of the type of
the literal has room for all of its digits, and assigning that value cuts them off while the
program runs.  Both ways lead to the same registers, since both leave a settled number, and it
is the same one.
-/

namespace ScoreLowering

namespace Literal

/-- The number that a literal stands for, in units of its last digit. -/
def amount : Literal → Int
  | null => 0
  | bool value => if value then 1 else 0
  | int score | time score => score.toInt
  | decimal value => value.mantissa.toInt

/-- The number of digits after the point. -/
def digits : Literal → Nat
  | decimal value => value.precision
  | null | bool _ | int _ | time _ => 0

theorem ty_decimal {value : Decimal} {ty : Ty} (typed : (decimal value).ty = .ok ty) :
    value.precision ≤ Ty.maxPrecision ∧ ty = .decimal value.precision := by
  simp only [Literal.ty, Ty.decimal?, Ty.scale] at typed
  split at typed
  · rename_i small
    cases typed
    exact ⟨small, rfl⟩
  · cases typed

theorem digits_of_ty {literal : Literal} {ty : Ty} (typed : literal.ty = .ok ty) :
    literal.digits = ty.digits := by
  cases literal with
  | decimal value =>
      rw [(ty_decimal typed).2]
      rfl
  | bool _ | int _ | time _ =>
      cases typed
      rfl
  | null => cases typed

end Literal

namespace Plan

variable {executor : String} {this source : Value} {literal : Literal} {list : List Step}

theorem store_count {target : Operand} (stored : store target literal = .ok list)
    (count : target.ty.isCount) :
    ∃ score : Score, list = [.set target.whole score] ∧
      score.toInt = Score.rescaleAmount 0 literal.digits literal.amount := by
  cases tyEq : target.ty with
  | int =>
      cases literal with
      | int score | time score =>
          simp only [store, tyEq, Except.ok.injEq] at stored
          exact ⟨score, stored.symm, (Score.rescaleAmount_self 0 score.toInt).symm⟩
      | decimal value =>
          simp only [store, tyEq] at stored
          split at stored
          · rename_i whole found
            cases stored
            exact ⟨whole, rfl, Decimal.truncate?_toInt found⟩
          · cases stored
      | null | bool _ => simp [store, tyEq] at stored
  | time =>
      cases literal with
      | int score | time score =>
          simp only [store, tyEq, Except.ok.injEq] at stored
          exact ⟨score, stored.symm, (Score.rescaleAmount_self 0 score.toInt).symm⟩
      | null | bool _ | decimal _ => simp [store, tyEq] at stored
  | decimal precision | bool | struct name fields =>
      rw [tyEq] at count
      cases count

theorem store_decimal {target : Operand} {precision : Nat}
    (stored : store target literal = .ok list) (tyEq : target.ty = .decimal precision)
    (bounded : precision ≤ Ty.maxPrecision) :
    ∃ whole fraction, list = [.set target.whole whole, .set target.fraction fraction] ∧
      Score.amount precision whole fraction =
        Score.rescaleAmount precision literal.digits literal.amount := by
  cases literal with
  | int score =>
      simp only [store, tyEq, Except.ok.injEq] at stored
      refine ⟨score, 0, stored.symm, ?_⟩
      rw [Score.amount, Int32.toInt_zero, Int.add_zero]
      exact (Score.rescaleAmount_zero precision score.toInt).symm
  | decimal value =>
      simp only [store, tyEq] at stored
      split at stored
      · rename_i whole fraction found
        cases stored
        exact ⟨whole, fraction, rfl, Decimal.split?_amount bounded found⟩
      · cases stored
  | null | bool _ | time _ => simp [store, tyEq] at stored

/-- A stored literal is the number of the value, as far as there is room for its digits. -/
theorem store_number (numeric : this.ty.isNumeric)
    (stored : store this.operand literal = .ok list) (memory : Memory) :
    numberAt executor this ((steps list).run executor memory) =
      Score.rescaleAmount this.ty.digits literal.digits literal.amount := by
  have parts := locate_fraction_ne_whole executor this
  rcases Ty.isCount_or_decimal numeric with count | ⟨precision, bounded, tyEq⟩
  · obtain ⟨score, rfl, scoreEq⟩ := store_count stored count
    rw [numberAt_count count, Ty.digits_of_isCount count, ← scoreEq]
    simp [Step.run, Value.operand, partSlot]
  · obtain ⟨whole, fraction, rfl, amountEq⟩ := store_decimal stored tyEq bounded
    rw [numberAt_decimal tyEq, tyEq]
    refine Eq.trans ?_ amountEq
    simp [amountAt, Step.run, Value.operand, partSlot, parts.symm]

theorem splits_of_store {target : Operand} {value : Decimal} (scalar : target.ty.isScalar)
    (stored : store target (.decimal value) = .ok list) :
    ∃ places ≤ Ty.maxPrecision, (value.split? places).isSome := by
  cases tyEq : target.ty with
  | int =>
      simp only [store, tyEq] at stored
      split at stored
      · rename_i whole found
        rw [Decimal.truncate?] at found
        exact ⟨0, Nat.zero_le _, Option.isSome_map.symm.trans (Option.isSome_of_eq_some found)⟩
      · cases stored
  | decimal precision =>
      rw [tyEq] at scalar
      simp only [store, tyEq] at stored
      split at stored
      · rename_i found
        exact ⟨precision, of_decide_eq_true scalar, Option.isSome_of_eq_some found⟩
      · cases stored
  | bool | time | struct name fields => simp [store, tyEq] at stored

/-- A value of the type of a literal can hold it if any value can. -/
theorem store_typed {target : Operand} (scalar : target.ty.isScalar)
    (typed : literal.ty = .ok source.ty) (stored : store target literal = .ok list) :
    ∃ sourceList, store source.operand literal = .ok sourceList := by
  have sameTy : source.operand.ty = source.ty := rfl
  cases literal with
  | bool value | int score | time score =>
      have tyEq := Except.ok.inj typed
      simp [store, sameTy, ← tyEq]
  | decimal value =>
      obtain ⟨bounded, tyEq⟩ := Literal.ty_decimal typed
      obtain ⟨places, placesBounded, splits⟩ := splits_of_store scalar stored
      have sourceSplits : (value.split? value.precision).isSome := by
        rw [Decimal.isSome_split?_iff value placesBounded] at splits
        rwa [Decimal.isSome_split?_iff value bounded]
      obtain ⟨⟨whole, fraction⟩, found⟩ := Option.isSome_iff_exists.mp sourceSplits
      simp [store, sameTy, tyEq, found]
  | null => cases typed

theorem isNumeric_of_stored {target : Operand} (numeric : target.ty.isNumeric)
    (typed : literal.ty = .ok source.ty) (stored : store target literal = .ok list) :
    source.ty.isNumeric := by
  cases literal with
  | int score | time score =>
      rw [← Except.ok.inj typed]
      rfl
  | decimal value =>
      obtain ⟨bounded, tyEq⟩ := Literal.ty_decimal typed
      rw [tyEq]
      exact decide_eq_true bounded
  | bool value =>
      cases tyEq : target.ty with
      | bool => rw [tyEq] at numeric; cases numeric
      | int | time | decimal _ | struct _ _ => simp [store, tyEq] at stored
  | null => cases typed

theorem combine_bools (tyEq : this.ty = .bool) (sourceTy : source.ty = .bool) :
    combine this .set source = native this.operand .set source.operand := by
  have sameTy : source.operand.ty = source.ty := rfl
  rw [combine, tyEq, combineAt, combineScalars, tyEq, sameTy, sourceTy]
  rfl

end Plan

namespace Statement

variable {this source : Value} {literal : Literal} {pool : Pool} {executor : String}
variable {workspace later : Workspace} {scores after : Scores}

/-- No scratch register is taken to assign a literal. -/
theorem takesFresh_assign (this : Value) (literal : Literal) (pool : Pool) (executor : String)
    (workspace : Workspace) : (assign this literal).TakesFresh pool executor workspace := by
  rw [TakesFresh, plan]
  cases Plan.assignment this literal with
  | error error => trivial
  | ok list => trivial

theorem Executes.assign_workspace
    (run : (assign this literal).Executes pool executor (workspace, scores) (later, after)) :
    later = workspace := by
  obtain ⟨commands, _, _, lowered, _⟩ := run
  exact (Prod.mk.inj lowered).2.symm

theorem Executes.assign_stores
    (run : (assign this literal).Executes pool executor (workspace, scores) (later, after))
    (notNull : literal ≠ .null) :
    ∃ list, Plan.store this.operand literal = .ok list ∧
      (assign this literal).plan = .steps list := by
  obtain ⟨list, assigned, planEq⟩ := Plan.exists_of_ofExcept run.failure?_eq_none
  rw [Plan.assignment, if_neg notNull] at assigned
  exact ⟨list, assigned, planEq⟩

theorem plan_assign {list : List Step} (stored : Plan.store this.operand literal = .ok list)
    (notNull : literal ≠ .null) : (assign this literal).plan = .steps list := by
  rw [plan, Plan.assignment, if_neg notNull, stored]
  rfl

/-- A value that a literal was assigned to holds the number of the literal. -/
theorem Executes.assign_number
    (run : (assign this literal).Executes pool executor (workspace, scores) (later, after))
    (numeric : this.ty.isNumeric) (notNull : literal ≠ .null) :
    this.Settled executor after ∧ this.number executor after =
      Score.rescaleAmount this.ty.digits literal.digits literal.amount := by
  have fresh := takesFresh_assign this literal pool executor workspace
  have isOperand : this ∈ (assign this literal).operands := List.mem_cons_self
  obtain ⟨list, stored, planEq⟩ := run.assign_stores notNull
  have assigned : Plan.assignment this literal = .ok list := by
    rw [Plan.assignment, if_neg notNull, stored]
  constructor
  · apply run.settled_of_plan fresh isOperand
    rw [planEq]
    exact Plan.assignment_settles assigned _
  · rw [run.number_eq fresh isOperand numeric, planEq]
    exact Plan.store_number numeric stored _

/-- Assigning a number to another value always works, whatever that one held. -/
theorem ensures_receives {other : Value} (numeric : this.ty.isNumeric)
    (otherNumeric : other.ty.isNumeric) (apart : Plan.Apart executor this other)
    (fresh : (operate this .set other).TakesFresh pool executor workspace)
    (otherSettled : other.Settled executor scores) :
    (operate this .set other).Ensures pool executor (workspace, scores) fun after =>
      this.Receives executor other scores after := by
  obtain ⟨factor, scaled⟩ := Score.exists_scale
    (Plan.precisionGap_le (Ty.digits_le numeric) (Ty.digits_le otherNumeric))
  have otherStart : Plan.SettledIn executor other (Memory.ofScores scores) := otherSettled
  have moves : Operation.set.isTransfer := rfl
  obtain ⟨succeeds, left, _⟩ :=
    Plan.combine_moves moves numeric otherNumeric apart scaled nofun otherStart
  refine ensures_of_succeeds succeeds fun later after run => ?_
  exact run.receives fresh List.mem_cons_self numeric otherNumeric scaled otherSettled left

theorem Executes.assign_bool {value : Bool} (tyEq : this.ty = .bool)
    (run : (assign this (.bool value)).Executes pool executor (workspace, scores)
      (later, after)) :
    this.content executor after .whole = if value then 1 else 0 := by
  have fresh := takesFresh_assign this (.bool value) pool executor workspace
  have sameTy : this.operand.ty = this.ty := rfl
  have stored : Plan.store this.operand (.bool value) =
      .ok [.set this.operand.whole (if value then 1 else 0)] := by
    simp [Plan.store, sameTy, tyEq]
  rw [run.content_eq fresh List.mem_cons_self (by simp [tyEq]) (Ty.whole_mem_parts _),
    plan_assign stored (by simp)]
  simp [Step.run, Value.operand, Plan.partSlot]

/-- A truth value is copied. -/
theorem ensures_copied {other : Value} (tyEq : this.ty = .bool) (otherTy : other.ty = .bool)
    (fresh : (operate this .set other).TakesFresh pool executor workspace) :
    (operate this .set other).Ensures pool executor (workspace, scores) fun after =>
      this.content executor after .whole = other.content executor scores .whole := by
  have planEq : (operate this .set other).plan = _ := Plan.combine_bools tyEq otherTy
  have succeeds : (operate this .set other).plan.failure? = none := by
    rw [planEq]
    rfl
  refine ensures_of_succeeds succeeds fun later after run => ?_
  rw [run.content_eq fresh List.mem_cons_self (by simp [tyEq]) (Ty.whole_mem_parts _), planEq]
  have moves : Operation.set.isTransfer := rfl
  exact (Plan.run_native_transfer executor moves this.operand other.operand _).1

/-- A number that was cut down before the program runs is the one that is cut down while it
runs. -/
theorem ensures_same_number {direct stored : Scores} {directLater storedLater : Workspace}
    (numeric : this.ty.isNumeric) (sourceNumeric : source.ty.isNumeric)
    (typed : literal.ty = .ok source.ty)
    (disjoint : ∀ register ∈ this.located executor, register ∉ source.located executor)
    (fresh : (operate this .set source).TakesFresh pool executor workspace)
    (run : (assign this literal).Executes pool executor (workspace, scores) (directLater, direct))
    (storedRun : (assign source literal).Executes pool executor (workspace, scores)
      (storedLater, stored)) :
    (operate this .set source).Ensures pool executor (workspace, stored) fun after =>
      ∀ register ∈ this.located executor, after.read register = direct.read register := by
  have notNull : literal ≠ .null := by
    rintro rfl
    cases typed
  obtain ⟨settled, numberEq⟩ := run.assign_number numeric notNull
  obtain ⟨sourceSettled, sourceNumber⟩ := storedRun.assign_number sourceNumeric notNull
  -- the source has room for all digits and holds the literal itself
  rw [Literal.digits_of_ty typed] at numberEq sourceNumber
  rw [Score.rescaleAmount_self] at sourceNumber
  refine (ensures_receives numeric sourceNumeric (Or.inr disjoint) fresh sourceSettled).mono ?_
  intro after received register member
  refine Value.read_of_same_number numeric settled received.settled ?_ member
  rw [received.number, sourceNumber, numberEq]

theorem ensures_same_truth {direct stored : Scores} {directLater storedLater : Workspace}
    (tyEq : this.ty = .bool) (typed : literal.ty = .ok source.ty)
    (fresh : (operate this .set source).TakesFresh pool executor workspace)
    (run : (assign this literal).Executes pool executor (workspace, scores) (directLater, direct))
    (storedRun : (assign source literal).Executes pool executor (workspace, scores)
      (storedLater, stored)) :
    (operate this .set source).Ensures pool executor (workspace, stored) fun after =>
      ∀ register ∈ this.located executor, after.read register = direct.read register := by
  have sameTy : this.operand.ty = this.ty := rfl
  cases literal with
  | bool value =>
      have sourceTy : source.ty = .bool := (Except.ok.inj typed).symm
      refine (ensures_copied tyEq sourceTy fresh).mono fun after copied register member => ?_
      obtain ⟨part, partMem, rfl⟩ := Value.exists_part_of_located (by simp [tyEq]) member
      have isWhole : part = .whole := by simpa [tyEq, Ty.parts] using partMem
      rw [isWhole]
      exact copied.trans ((storedRun.assign_bool sourceTy).trans (run.assign_bool tyEq).symm)
  | int _ | time _ | decimal _ =>
      obtain ⟨list, stored, _⟩ := run.assign_stores (by simp)
      simp [Plan.store, sameTy, tyEq] at stored
  | null => cases typed

/-- A literal comes to the same whether it is assigned at once or by way of a register of its
own type. -/
theorem literals_assigned_alike (scalar : this.ty.isScalar) (typed : literal.ty = .ok source.ty)
    (disjoint : ∀ register ∈ this.located executor, register ∉ source.located executor)
    (fresh : (operate this .set source).TakesFresh pool executor workspace)
    {direct : Workspace × Scores}
    (run : (assign this literal).Executes pool executor (workspace, scores) direct) :
    (∃ stored, (assign source literal).Executes pool executor (workspace, scores) stored) ∧
      ∀ stored, (assign source literal).Executes pool executor (workspace, scores) stored →
        (operate this .set source).Ensures pool executor stored fun after =>
          ∀ register ∈ this.located executor,
            after.read register = direct.2.read register := by
  have notNull : literal ≠ .null := by
    rintro rfl
    cases typed
  obtain ⟨list, stored, _⟩ := run.assign_stores notNull
  obtain ⟨sourceList, sourceStored⟩ := Plan.store_typed scalar typed stored
  have succeeds : (assign source literal).plan.failure? = none := by
    rw [plan_assign sourceStored notNull]
    rfl
  refine ⟨⟨_, executes_lowered succeeds pool executor workspace scores⟩, ?_⟩
  rintro ⟨later, middle⟩ storedRun
  rw [storedRun.assign_workspace]
  by_cases numeric : this.ty.isNumeric
  · have sourceNumeric := Plan.isNumeric_of_stored numeric typed stored
    exact ensures_same_number numeric sourceNumeric typed disjoint fresh run storedRun
  · -- what can be stored and is no number is a truth value
    have tyEq : this.ty = .bool := by
      cases found : this.ty with
      | bool => rfl
      | int | time | decimal _ | struct _ _ =>
          rw [found] at scalar numeric
          exact absurd scalar numeric
    exact ensures_same_truth tyEq typed fresh run storedRun

/-- The least number of nine digits comes to a decimal of two digits and to an integer, and
truth to a truth value. -/
theorem literals_at_the_ends :
    let this : Value := ⟨"a", .decimal 2, .player "_", [.global]⟩
    let count : Value := ⟨"i", .int, .here, []⟩
    let source : Value := ⟨"b", .decimal 9, .here, []⟩
    let flag : Value := ⟨"f", .bool, .here, []⟩
    let truth : Value := ⟨"g", .bool, .here, []⟩
    let least : Literal := .decimal ⟨-2147483648999999999, 9⟩
    let before := ((Compilation.start {}).workspace, (⟨fun _ => 7⟩ : Scores))
    (∃ direct stored after, (assign this least).Executes .stacked "Steve" before direct ∧
        (assign source least).Executes .stacked "Steve" before stored ∧
        (operate this .set source).Executes .stacked "Steve" stored after ∧
        this.content "Steve" direct.2 .whole = -2147483648 ∧
        this.content "Steve" direct.2 .fraction = -99 ∧
        ∀ register ∈ this.located "Steve", after.2.read register = direct.2.read register) ∧
      (∃ direct stored after, (assign count least).Executes .counted "Steve" before direct ∧
        (assign source least).Executes .counted "Steve" before stored ∧
        (operate count .set source).Executes .counted "Steve" stored after ∧
        count.content "Steve" direct.2 .whole = -2147483648 ∧
        ∀ register ∈ count.located "Steve", after.2.read register = direct.2.read register) ∧
      ∃ direct stored after, (assign flag (.bool true)).Executes .stacked "Steve" before direct ∧
        (assign truth (.bool true)).Executes .stacked "Steve" before stored ∧
        (operate flag .set truth).Executes .stacked "Steve" stored after ∧
        flag.content "Steve" direct.2 .whole = 1 ∧
        ∀ register ∈ flag.located "Steve", after.2.read register = direct.2.read register := by
  intro this count source flag truth least before
  have thisSucceeds : (assign this least).plan.failure? = none := by decide
  have countSucceeds : (assign count least).plan.failure? = none := by decide
  have flagSucceeds : (assign flag (.bool true)).plan.failure? = none := by decide
  have thisRun := executes_lowered thisSucceeds .stacked "Steve" before.1 before.2
  have countRun := executes_lowered countSucceeds .counted "Steve" before.1 before.2
  have flagRun := executes_lowered flagSucceeds .stacked "Steve" before.1 before.2
  have thisFresh : (operate this .set source).TakesFresh .stacked "Steve" before.1 :=
    takesFresh_start .stacked "Steve" (by decide)
  have countFresh : (operate count .set source).TakesFresh .counted "Steve" before.1 :=
    takesFresh_start .counted "Steve" (by decide)
  have flagFresh : (operate flag .set truth).TakesFresh .stacked "Steve" before.1 :=
    takesFresh_start .stacked "Steve" (by decide)
  obtain ⟨⟨_, thisStored⟩, thisAlike⟩ :=
    literals_assigned_alike (by decide) (by decide) (by decide) thisFresh thisRun
  obtain ⟨⟨_, countStored⟩, countAlike⟩ :=
    literals_assigned_alike (by decide) (by decide) (by decide) countFresh countRun
  obtain ⟨⟨_, flagStored⟩, flagAlike⟩ :=
    literals_assigned_alike (by decide) (by decide) (by decide) flagFresh flagRun
  obtain ⟨⟨_, thisMoved⟩, thisSame⟩ := thisAlike _ thisStored
  obtain ⟨⟨_, countMoved⟩, countSame⟩ := countAlike _ countStored
  obtain ⟨⟨_, flagMoved⟩, flagSame⟩ := flagAlike _ flagStored
  exact ⟨⟨_, _, _, thisRun, thisStored, thisMoved, by decide +kernel, by decide +kernel,
      thisSame _ thisMoved⟩,
    ⟨_, _, _, countRun, countStored, countMoved, by decide +kernel, countSame _ countMoved⟩,
    ⟨_, _, _, flagRun, flagStored, flagMoved, by decide +kernel, flagSame _ flagMoved⟩⟩

/-- If digests make scratch registers coincide, the divisor is lost before digits are cut off:
0.5000 assigned to a decimal of two digits has the fraction 50, and through a value of its own
type it gets the fraction 5000. -/
theorem literal_with_shared_scratch :
    let this : Value := ⟨"a", .decimal 2, .here, []⟩
    let source : Value := ⟨"b", .decimal 4, .here, []⟩
    let half : Literal := .decimal ⟨5000, 4⟩
    let workspace := (Compilation.start { stackStem := "abcdefghijklmnopqrstu" }).workspace
    let before := (workspace, (⟨fun _ => 0⟩ : Scores))
    half.ty = .ok source.ty ∧
      (∀ register ∈ this.located "Steve", register ∉ source.located "Steve") ∧
      (∀ value ∈ [this, source], ∀ objective ∈ value.objectives, ∀ position < 3,
        ∀ ty ∈ [Ty.int, .decimal 2],
          objective ∉ (workspace.scratchAt .stacked ty .here position).objectives) ∧
      (∃ direct, (assign this half).Executes .stacked "Steve" before direct ∧
        this.content "Steve" direct.2 .fraction = 50) ∧
      ∃ stored after, (assign source half).Executes .stacked "Steve" before stored ∧
        (operate this .set source).Executes .stacked "Steve" stored after ∧
        this.content "Steve" after.2 .fraction = 5000 := by
  intro this source half workspace before
  have directSucceeds : (assign this half).plan.failure? = none := by decide
  have storedSucceeds : (assign source half).plan.failure? = none := by decide
  have movedSucceeds : (operate this .set source).plan.failure? = none := rfl
  have direct := executes_lowered directSucceeds .stacked "Steve" workspace before.2
  have stored := executes_lowered storedSucceeds .stacked "Steve" workspace before.2
  exact ⟨by decide, by decide, by decide +kernel, ⟨_, direct, by decide +kernel⟩,
    ⟨_, _, stored, executes_lowered movedSucceeds .stacked "Steve" _ _, by decide +kernel⟩⟩

end Statement
end ScoreLowering
