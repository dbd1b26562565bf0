import Mathlib.Logic.Function.Basic
import ScoreLowering.Plan.Statement

/-!
# Running a plan before its registers have names

A plan means something before a pool has been asked for registers: its slots
are cells of a memory, and every step changes one or two of them.  This file
runs plans on such a memory and shows that a run leaves every cell alone that
the plan does not mention as a target.

Opening a scratch register does not clear its cell.  A plan that depends on
what it finds there therefore shows up as a plan whose result depends on the
memory it starts from.
-/

namespace ScoreLowering

/-- The content of every slot. -/
abbrev Memory := Slot → Score

namespace Slot

/-- The slot once `@s` is read as the executor.  Two ways of writing one
register become the same slot. -/
def located (executor : String) : Slot → Slot
  | fixed register => fixed (Machine.locate executor register)
  | scratch level part => scratch level part

@[simp]
theorem located_fixed (executor : String) (register : Register) :
    (fixed register).located executor = fixed (Machine.locate executor register) :=
  rfl

@[simp]
theorem located_scratch (executor : String) (level : Nat) (part : Part) :
    (scratch level part).located executor = scratch level part :=
  rfl

end Slot

namespace Step

/-- What one step does to the memory. -/
def run (executor : String) : Step → Memory → Memory
  | set target score, memory => Function.update memory (target.located executor) score
  | add target amount, memory =>
      let place := target.located executor
      Function.update memory place (memory place + amount)
  | remove target amount, memory =>
      let place := target.located executor
      Function.update memory place (memory place - amount)
  | operate target operation source, memory =>
      let place := target.located executor
      let origin := source.located executor
      let combined :=
        Function.update memory place (operation.evaluate (memory place) (memory origin))
      if operation = .swap then Function.update combined origin (memory place) else combined
  | guarded tests step, memory =>
      if tests.all fun test => test.2.contains (memory (test.1.located executor)) then
        step.run executor memory
      else
        memory

/-- The slots that a step may change. -/
def writes : Step → List Slot
  | set target _ => [target]
  | add target _ => [target]
  | remove target _ => [target]
  | operate target operation source =>
      if operation = .swap then [target, source] else [target]
  | guarded _ step => step.writes

theorem run_guarded_one (executor : String) (slot : Slot) (range : Range) (step : Step)
    (memory : Memory) :
    (guarded [(slot, range)] step).run executor memory =
      if range.contains (memory (slot.located executor)) then step.run executor memory
      else memory := by
  simp [run]

theorem run_of_not_mem_writes (executor : String) (step : Step) (memory : Memory)
    {slot : Slot} (untouched : slot ∉ step.writes.map (Slot.located executor)) :
    step.run executor memory slot = memory slot := by
  induction step with
  | set target score => simp_all [run, writes]
  | add target amount => simp_all [run, writes]
  | remove target amount => simp_all [run, writes]
  | operate target operation source =>
      by_cases exchange : operation = .swap
      · simp_all [run, writes]
      · simp_all [run, writes]
  | guarded tests step ih =>
      have inner := ih (by simpa [writes] using untouched)
      simp only [run]
      split
      · exact inner
      · rfl

end Step

namespace Plan

/-- The slot of a part of a value, with the executor in place. -/
def partSlot (executor : String) (value : Value) (part : Part) : Slot :=
  .fixed (Machine.locate executor (value.register part))

/-- Run steps one after the other. -/
def runSteps (executor : String) (list : List Step) (memory : Memory) : Memory :=
  list.foldl (fun memory step => step.run executor memory) memory

/-- What a plan does to the memory.  A borrow is carried out on the spot, and a
failing plan does nothing more. -/
def run (executor : String) : Plan → Memory → Memory
  | steps list, memory => runSteps executor list memory
  | borrow value unit, memory =>
      let whole := partSlot executor value .whole
      let fraction := partSlot executor value .fraction
      if memory whole ≤ -1 ∧ 1 ≤ memory fraction then
        Function.update (Function.update memory whole (memory whole + 1)) fraction
          (memory fraction - unit)
      else
        memory
  | fail _, memory => memory
  | sequence first next, memory => next.run executor (first.run executor memory)
  | scratch _ _ body, memory => body.run executor memory

/-- The slots that a plan may change. -/
def writes : Plan → List Slot
  | steps list => list.flatMap Step.writes
  | borrow value _ => [.fixed (value.register .whole), .fixed (value.register .fraction)]
  | fail _ => []
  | sequence first next => first.writes ++ next.writes
  | scratch _ _ body => body.writes

@[simp]
theorem run_append (executor : String) (first next : Plan) (memory : Memory) :
    (first ++ next).run executor memory = next.run executor (first.run executor memory) :=
  rfl

@[simp]
theorem writes_append (first next : Plan) :
    (first ++ next).writes = first.writes ++ next.writes :=
  rfl

@[simp]
theorem run_fail (executor : String) (error : LowerError) (memory : Memory) :
    (fail error).run executor memory = memory :=
  rfl

@[simp]
theorem run_steps_nil (executor : String) (memory : Memory) :
    (steps []).run executor memory = memory :=
  rfl

@[simp]
theorem run_steps_cons (executor : String) (step : Step) (rest : List Step)
    (memory : Memory) :
    (steps (step :: rest)).run executor memory =
      (steps rest).run executor (step.run executor memory) :=
  rfl

@[simp]
theorem run_withScratch (executor : String) (level : Nat) (ty : Ty) (address : Address)
    (body : Operand → Plan) (memory : Memory) :
    (withScratch level ty address body).run executor memory =
      (body (Operand.scratch level ty address)).run executor memory :=
  rfl

@[simp]
theorem run_withConstant (executor : String) (level : Nat) (score : Score)
    (address : Address) (body : Slot → Plan) (memory : Memory) :
    (withConstant level score address body).run executor memory =
      (body (.scratch level .whole)).run executor
        (Function.update memory (.scratch level .whole) score) :=
  rfl

theorem runSteps_of_not_mem_writes (executor : String) (list : List Step)
    (memory : Memory) {slot : Slot}
    (untouched : slot ∉ (list.flatMap Step.writes).map (Slot.located executor)) :
    runSteps executor list memory slot = memory slot := by
  induction list generalizing memory with
  | nil => rfl
  | cons step rest ih =>
      simp only [List.flatMap_cons, List.map_append, List.mem_append, not_or] at untouched
      have later := ih (step.run executor memory) untouched.2
      rw [Step.run_of_not_mem_writes executor step memory untouched.1] at later
      exact later

/-- A plan changes no slot but those it writes. -/
theorem run_of_not_mem_writes (executor : String) (plan : Plan) (memory : Memory)
    {slot : Slot} (untouched : slot ∉ plan.writes.map (Slot.located executor)) :
    plan.run executor memory slot = memory slot := by
  induction plan generalizing memory with
  | steps list => exact runSteps_of_not_mem_writes executor list memory untouched
  | borrow value unit =>
      obtain ⟨notWhole, notFraction⟩ :
          slot ≠ partSlot executor value .whole ∧ slot ≠ partSlot executor value .fraction := by
        simpa [writes, partSlot] using untouched
      simp only [run]
      split
      · rw [Function.update_of_ne notFraction, Function.update_of_ne notWhole]
      · rfl
  | fail error => rfl
  | sequence first next firstIH nextIH =>
      simp only [writes, List.map_append, List.mem_append, not_or] at untouched
      have later := nextIH (first.run executor memory) untouched.2
      rw [firstIH memory untouched.1] at later
      exact later
  | scratch ty address body ih => exact ih memory untouched

end Plan
end ScoreLowering
