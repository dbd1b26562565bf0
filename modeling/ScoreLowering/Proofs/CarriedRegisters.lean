import ScoreLowering.Proofs.NumberReadings

/-!
# Carrying on the board

A carry counts the units in a fraction in a scratch register, moves them to the whole part and
borrows one back if the signs disagree.  It has to normalise any two parts: what is left is
settled and, as far as a whole part can hold it, the same number.  The count is multiplied by
the unit on the way, which may wrap around, and subtracting the product undoes that.

The unit is read from another scratch register.  If both registers are one, the count takes
the place of the unit, and parts remain that are not even settled.
-/

namespace ScoreLowering

namespace Score

/-- Parts that settle others: the same number, but for turns of the whole part, and without
any turns if the number fits. -/
structure Normalised (precision : Nat) (before after : Score × Score) : Prop where
  settled : Settled precision after.1 after.2
  congruent : (10 ^ precision * 2 ^ 32 : Int) ∣
    amount precision after.1 after.2 - amount precision before.1 before.2
  exact : Fits precision (amount precision before.1 before.2) →
    amount precision after.1 after.2 = amount precision before.1 before.2

theorem carried_normalised {precision : Nat} {unit : Score}
    (unitEq : unit.toInt = 10 ^ precision) (whole fraction : Score) :
    Normalised precision (whole, fraction) (carried unit whole fraction) where
  settled := carried_settled unitEq whole fraction
  congruent := carried_dvd unitEq whole fraction
  exact := carried_amount unitEq (Int32.ofInt_toInt whole).symm

end Score

namespace Scores

/-- The scores after the units of a fraction were counted and moved. -/
def moveUnits (scores : Scores) (count whole fraction unit : Register) : Scores :=
  ((((scores.operate count .copy fraction).operate count .divide unit).operate
    whole .add count).operate count .multiply unit).operate fraction .subtract count

variable {count whole fraction unit : Register}

/-- What is moved if the count has a register of its own. -/
theorem read_moveUnits (scores : Scores) (countNotWhole : count ≠ whole)
    (countNotFraction : count ≠ fraction) (countNotUnit : count ≠ unit)
    (unitNotWhole : unit ≠ whole) (partsApart : fraction ≠ whole) :
    let units := (scores.read fraction).floorDivide (scores.read unit)
    (scores.moveUnits count whole fraction unit).read whole = scores.read whole + units ∧
      (scores.moveUnits count whole fraction unit).read fraction =
        scores.read fraction - units * scores.read unit := by
  simp [moveUnits, operate, write, ScoreOperation.evaluate, countNotWhole, countNotWhole.symm,
    countNotFraction.symm, countNotUnit.symm, unitNotWhole, partsApart, partsApart.symm]

/-- What is moved if the count takes the place of the unit. -/
theorem read_moveUnits_shared (scores : Scores) (countNotWhole : count ≠ whole)
    (countNotFraction : count ≠ fraction) (partsApart : fraction ≠ whole) :
    let ratio := (scores.read fraction).floorDivide (scores.read fraction)
    (scores.moveUnits count whole fraction count).read whole = scores.read whole + ratio ∧
      (scores.moveUnits count whole fraction count).read fraction =
        scores.read fraction - ratio * ratio := by
  simp [moveUnits, operate, write, ScoreOperation.evaluate, countNotWhole, countNotWhole.symm,
    countNotFraction.symm, partsApart, partsApart.symm]

/-- Both parts after the units were moved and one was borrowed back, if need be. -/
def carriedParts (scores : Scores) (count whole fraction unit : Register) (unitScore : Score) :
    Score × Score :=
  let moved := scores.moveUnits count whole fraction unit
  Score.borrowed unitScore (moved.read whole) (moved.read fraction)

theorem normalised_carriedParts {precision : Nat} {unitScore : Score}
    (unitEq : unitScore.toInt = 10 ^ precision) (countNotWhole : count ≠ whole)
    (countNotFraction : count ≠ fraction) (countNotUnit : count ≠ unit)
    (unitNotWhole : unit ≠ whole) (partsApart : fraction ≠ whole) {scores : Scores}
    (unitHeld : scores.read unit = unitScore) :
    Score.Normalised precision (scores.read whole, scores.read fraction)
      (scores.carriedParts count whole fraction unit unitScore) := by
  obtain ⟨wholeEq, fractionEq⟩ := scores.read_moveUnits countNotWhole countNotFraction
    countNotUnit unitNotWhole partsApart
  rw [carriedParts, wholeEq, fractionEq, unitHeld]
  exact Score.carried_normalised unitEq _ _

/-- The largest fraction counts as one unit of its own size, and too much of it stays. -/
theorem exists_unsettled_carriedParts {precision : Nat} (short : precision ≤ 9)
    (unitScore : Score) (countNotWhole : count ≠ whole) (countNotFraction : count ≠ fraction)
    (shared : count = unit) (partsApart : fraction ≠ whole) :
    ∃ scores : Scores, scores.read unit = unitScore ∧
      ¬ Score.Normalised precision (scores.read whole, scores.read fraction)
        (scores.carriedParts count whole fraction unit unitScore) := by
  subst shared
  let scores : Scores := ⟨fun register =>
    if register = fraction then 2147483647 else if register = whole then 0 else unitScore⟩
  have fractionHeld : scores.read fraction = 2147483647 := if_pos rfl
  have wholeHeld : scores.read whole = 0 := by simp [scores, partsApart.symm]
  have unitHeld : scores.read count = unitScore := by
    simp [scores, countNotWhole, countNotFraction]
  refine ⟨scores, unitHeld, fun normalised => ?_⟩
  obtain ⟨wholeEq, fractionEq⟩ :=
    scores.read_moveUnits_shared countNotWhole countNotFraction partsApart
  have after : Score.borrowed unitScore (0 + Score.floorDivide 2147483647 2147483647)
      (2147483647 - Score.floorDivide 2147483647 2147483647 *
        Score.floorDivide 2147483647 2147483647) = (1, 2147483646) :=
    if_neg (by decide)
  have small := normalised.settled.small
  rw [carriedParts, wholeEq, fractionEq, wholeHeld, fractionHeld, after] at small
  have bound : 10 ^ precision ≤ 10 ^ 9 := Nat.pow_le_pow_right (by decide) short
  have tooLarge : (10 : Nat) ^ 9 ≤ (2147483646 : Score).toInt.natAbs := by decide
  exact absurd small (Nat.not_lt.mpr (Nat.le_trans bound tooLarge))

end Scores

namespace Value

/-- What the two parts of a value hold on the board. -/
def parts (executor : String) (scores : Scores) (value : Value) : Score × Score :=
  (value.content executor scores .whole, value.content executor scores .fraction)

/-- A borrow call on the board. -/
theorem parts_borrowCall {functions : String → List Command} (depth : Nat) {value : Value}
    {unit : Score} {path : String} (executor : String) (scores : Scores)
    (stored : functions path = Routines.borrowCommands value unit) :
    value.parts executor (Machine.step (Machine.call functions (depth + 1))
        (Routines.borrowCall value path) executor scores) =
      Score.borrowed unit (value.content executor scores .whole)
        (value.content executor scores .fraction) := by
  have apart := Plan.locate_fraction_ne_whole executor value
  rw [Machine.step_borrowCall depth executor scores stored]
  by_cases disagree : value.content executor scores .whole ≤ -1 ∧
      1 ≤ value.content executor scores .fraction
  · rw [Score.borrowed, if_pos disagree]
    simp only [content] at disagree
    simp only [parts, content, if_pos disagree, Scores.read_write_self,
      Scores.read_write_other _ _ apart.symm]
  · rw [Score.borrowed, if_neg disagree]
    simp only [content] at disagree
    simp only [parts, content, if_neg disagree]

end Value

namespace Plan

open Machine

/-- The commands of a carry move the units and call the routine of the value. -/
theorem exists_allocate_carry (pool : Pool) (held : List Value) (workspace : Workspace)
    (this : Value) (unit : Slot) (unitScore : Score) :
    let count := (workspace.acquire pool .int this.address).1.value
    ∃ commands later, (carry held.length this unit unitScore).allocate pool held workspace =
        (.ok commands, later) ∧
      ∀ functions depth executor scores, later.routines.Serves functions this unitScore →
        this.parts executor (runAll (call functions (depth + 1)) commands executor scores) =
          scores.carriedParts (locate executor (count.register .whole))
            (locate executor (this.register .whole)) (locate executor (this.register .fraction))
            (locate executor (unit.register (held ++ [count]))) unitScore := by
  intro count
  refine ⟨_, _, rfl, ?_⟩
  intro functions depth executor scores serves
  obtain ⟨routine, stored, pathEq⟩ := Routines.borrow_stored
    ((workspace.acquire pool .int this.address).2.discard
      (workspace.acquire pool .int this.address).1).routines this unitScore
  rw [runAll_append]
  refine Eq.trans (Value.parts_borrowCall depth executor _ (pathEq ▸ serves routine stored)) ?_
  have countEq : (Slot.scratch held.length .whole).register (held ++ [count]) =
      count.register .whole := by
    simp [Slot.register]
  simp only [Scores.carriedParts, Scores.moveUnits, ← countEq]
  rfl

/-- A carry normalises every content of its value if and only if the units are counted in
another register than the one that holds the unit. -/
theorem carry_normalises_iff_apart {precision : Nat} (short : precision ≤ 9) (pool : Pool)
    (held : List Value) (workspace : Workspace) (this : Value) (unit : Slot)
    (executor : String) :
    let unitScore := Int32.ofNat (10 ^ precision)
    let scratch := (workspace.acquire pool .int this.address).1.value
    let count := locate executor (scratch.register .whole)
    let unitPlace := locate executor (unit.register (held ++ [scratch]))
    (∀ part, count ≠ locate executor (this.register part)) →
    unitPlace ≠ locate executor (this.register .whole) →
      ∃ commands later, (carry held.length this unit unitScore).allocate pool held workspace =
          (.ok commands, later) ∧
        ∀ functions depth, later.routines.Serves functions this unitScore →
          ((∀ scores, scores.read unitPlace = unitScore →
            Score.Normalised precision (this.parts executor scores) (this.parts executor
              (runAll (call functions (depth + 1)) commands executor scores))) ↔
            count ≠ unitPlace) := by
  intro unitScore scratch count unitPlace countNotPart unitNotWhole
  have scaled : Ty.scale precision = .ok unitScore := if_pos short
  have unitEq := (Score.scale_toInt scaled).2
  have apart := locate_fraction_ne_whole executor this
  obtain ⟨commands, later, allocated, carries⟩ :=
    exists_allocate_carry pool held workspace this unit unitScore
  refine ⟨commands, later, allocated, fun functions depth serves => ⟨?_, ?_⟩⟩
  · intro normalises shared
    obtain ⟨scores, unitHeld, unsettled⟩ := Scores.exists_unsettled_carriedParts short unitScore
      (countNotPart .whole) (countNotPart .fraction) shared apart
    have normalised := normalises scores unitHeld
    rw [carries functions depth executor scores serves] at normalised
    exact unsettled normalised
  · intro different scores unitHeld
    rw [carries functions depth executor scores serves]
    exact Scores.normalised_carriedParts unitEq (countNotPart .whole) (countNotPart .fraction)
      different unitNotWhole apart unitHeld

/-- Nine digits and the least fraction there is: three units of it would be too much for a
register, and one of them is borrowed back. -/
theorem carry_of_least_fraction :
    let this : Value := ⟨"a", .decimal 9, .here, []⟩
    let opened := (Compilation.start {}).workspace.acquire .stacked .int .here
    let scores : Scores := ⟨fun register =>
      if register.objective = "a" then 0 else
      if register.objective = "a.d" then -2147483648 else 1000000000⟩
    ∃ commands later,
      (carry 1 this (.scratch 0 .whole) 1000000000).allocate .stacked [opened.1.value] opened.2 =
          (.ok commands, later) ∧
        scores.read (locate "Steve" (opened.1.value.register .whole)) = 1000000000 ∧
        this.parts "Steve" scores = (0, -2147483648) ∧
        let after := this.parts "Steve" (runAll (call (fun _ =>
          Routines.borrowCommands this 1000000000) 1) commands "Steve" scores)
        Score.Settled 9 after.1 after.2 ∧ Score.amount 9 after.1 after.2 = -2147483648 := by
  intro this opened scores
  obtain ⟨commands, later, allocated, normalises⟩ :=
    carry_normalises_iff_apart (Nat.le_refl 9) .stacked [opened.1.value] opened.2 this
      (.scratch 0 .whole) "Steve" (fun part => by cases part <;> decide +kernel)
      (by decide +kernel)
  have unitHeld : scores.read (locate "Steve" (opened.1.value.register .whole)) = 1000000000 := by
    decide +kernel
  have partsHeld : this.parts "Steve" scores = (0, -2147483648) := by decide
  refine ⟨commands, later, allocated, unitHeld, partsHeld, ?_⟩
  have normalised := (normalises (fun _ => Routines.borrowCommands this 1000000000) 0
    fun _ _ => rfl).mpr (by decide +kernel) scores unitHeld
  rw [partsHeld] at normalised
  have least : Score.amount 9 0 (-2147483648) = -2147483648 := by decide
  exact ⟨normalised.settled, (normalised.exact (by decide)).trans least⟩

/-- With digests for names, the count and the unit can share a register.  Of 0 and 120
hundredths a carry makes 1 and 119 then. -/
theorem carry_with_shared_registers :
    let this : Value := ⟨"a", .decimal 2, .here, []⟩
    let opened := (Compilation.start { stackStem := "abcdefghijklmnopqrstu" }).workspace.acquire
      .stacked .int .here
    let scores : Scores := ⟨fun register =>
      if register.objective = "a" then 0 else if register.objective = "a.d" then 120 else 100⟩
    ∃ commands later,
      (carry 1 this (.scratch 0 .whole) 100).allocate .stacked [opened.1.value] opened.2 =
          (.ok commands, later) ∧
        scores.read (locate "Steve" (opened.1.value.register .whole)) = 100 ∧
        this.parts "Steve" scores = (0, 120) ∧
        this.parts "Steve" (runAll (call (fun _ => Routines.borrowCommands this 100) 1) commands
          "Steve" scores) = (1, 119) ∧
        ¬ Score.Normalised 2 (0, 120) (1, 119) := by
  intro this opened scores
  refine ⟨_, _, rfl, by decide +kernel, by decide +kernel, by decide +kernel, ?_⟩
  exact fun normalised => absurd normalised.settled.small (by decide)

end Plan
end ScoreLowering
