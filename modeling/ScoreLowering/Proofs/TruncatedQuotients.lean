import ScoreLowering.Proofs.NumberReadings

/-!
# Dividing toward zero on the board

The board rounds quotients down.  Where a quotient is to be cut off toward zero, the remainder
is kept in a scratch register: a quotient that came out below zero and leaves something over is
one too small.  The tests of the correction read the quotient and not the dividend, and leave out
a divisor of zero, by which nothing was divided.

The remainder needs a register of its own.  If the target is that register, the remainder is
divided in its place, and zero comes out whatever the quotient should have been.
-/

namespace ScoreLowering

namespace Score

/-- The quotient of whole numbers cut off toward zero, which wraps around only for the least
score and minus one.  Without a divisor it is the dividend. -/
structure CutOff (dividend divisor quotient : Score) : Prop where
  undivided : divisor = 0 → quotient = dividend
  wrapped : divisor ≠ 0 →
    quotient.toInt = (dividend.toInt.tdiv divisor.toInt).bmod (2 ^ 32)
  exact : divisor ≠ 0 → ¬ (dividend.toInt = least ∧ divisor.toInt = -1) →
    quotient.toInt = dividend.toInt.tdiv divisor.toInt

variable {dividend divisor : Score}

theorem truncated_cutOff (dividend divisor : Score) :
    CutOff dividend divisor (truncated dividend divisor) where
  undivided zero := zero ▸ truncated_zero dividend
  wrapped nonzero := truncated_eq_div nonzero ▸ Int32.toInt_div dividend divisor
  exact := truncated_toInt_of_fits

/-- There is one such quotient. -/
theorem cutOff_iff {quotient : Score} :
    CutOff dividend divisor quotient ↔ quotient = truncated dividend divisor := by
  constructor
  · intro cutOff
    by_cases zero : divisor = 0
    · rw [cutOff.undivided zero, zero, truncated_zero]
    · apply Int32.toInt_inj.mp
      rw [cutOff.wrapped zero, (truncated_cutOff dividend divisor).wrapped zero]
  · rintro rfl
    exact truncated_cutOff dividend divisor

theorem truncated_eq_zero_iff (nonzero : divisor ≠ 0) :
    truncated dividend divisor = 0 ↔ dividend.toInt.natAbs < divisor.toInt.natAbs := by
  by_cases wraps : dividend.toInt = least ∧ divisor.toInt = -1
  · obtain rfl : dividend = Int32.minValue := Int32.toInt_inj.mp wraps.1
    obtain rfl : divisor = -1 := Int32.toInt_inj.mp wraps.2
    decide
  · have size := Int.natAbs_ne_zero.mpr (toInt_ne_zero nonzero)
    rw [← Int32.toInt_inj, truncated_toInt_of_fits nonzero wraps, Int32.toInt_zero,
      ← Int.natAbs_eq_zero, Int.natAbs_tdiv]
    exact Nat.div_eq_zero_iff_lt (Nat.pos_of_ne_zero size)

/-- Nothing is left to divide of a remainder. -/
theorem floorDivide_floorModulo (nonzero : divisor ≠ 0) :
    (dividend.floorModulo divisor).floorDivide divisor = 0 := by
  apply Int32.toInt_inj.mp
  rw [floorDivide_eq_fdiv nonzero, floorModulo_eq_fmod, Int.fmod_def,
    Int.sub_mul_fdiv_left _ _ (toInt_ne_zero nonzero), Int.sub_self]
  rfl

end Score

namespace Scores

variable {remainder target divisor : Register}

/-- The scores after a target was divided by the board, with the remainder in another register. -/
def divideWithRemainder (scores : Scores) (remainder target divisor : Register) : Scores :=
  ((scores.operate remainder .copy target).operate remainder .modulo divisor).operate
    target .divide divisor

/-- The scores after a quotient below zero that leaves something over was corrected. -/
def correctQuotient (scores : Scores) (remainder target divisor : Register) : Scores :=
  if scores.read target ≤ -1 ∧ scores.read remainder ≠ 0 ∧ scores.read divisor ≠ 0 then
    scores.write target (scores.read target + 1)
  else
    scores

/-- Both steps of a division toward zero. -/
def divideTowardZero (scores : Scores) (remainder target divisor : Register) : Scores :=
  (scores.divideWithRemainder remainder target divisor).correctQuotient remainder target divisor

theorem read_divideTowardZero_of_ne (scores : Scores) {register : Register}
    (notTarget : register ≠ target) (notRemainder : register ≠ remainder) :
    (scores.divideTowardZero remainder target divisor).read register =
      scores.read register := by
  have divided : (scores.divideWithRemainder remainder target divisor).read register =
      scores.read register := by
    simp [divideWithRemainder, operate, write, notTarget, notRemainder]
  unfold divideTowardZero correctQuotient
  split
  · rw [read_write_other _ _ notTarget, divided]
  · exact divided

theorem read_correctQuotient (scores : Scores) :
    (scores.correctQuotient remainder target divisor).read target =
      if scores.read target ≤ -1 ∧ scores.read remainder ≠ 0 ∧ scores.read divisor ≠ 0 then
        scores.read target + 1
      else
        scores.read target := by
  unfold correctQuotient
  split
  · exact read_write_self _ _ _
  · rfl

/-- A remainder in a register of its own makes the quotient that is cut off. -/
theorem read_divideTowardZero (scores : Scores) (divisorNotTarget : divisor ≠ target)
    (divisorNotRemainder : divisor ≠ remainder) (apart : target ≠ remainder) :
    (scores.divideTowardZero remainder target divisor).read target =
      Score.truncated (scores.read target) (scores.read divisor) := by
  rw [divideTowardZero, read_correctQuotient]
  simp [divideWithRemainder, operate, write, ScoreOperation.evaluate, divisorNotTarget,
    divisorNotRemainder, apart, apart.symm, Score.truncated]

/-- A remainder that takes the place of the dividend is divided itself. -/
theorem read_divideTowardZero_shared (scores : Scores) (divisorNotTarget : divisor ≠ target) :
    (scores.divideTowardZero target target divisor).read target =
      if scores.read divisor = 0 then scores.read target else 0 := by
  have quotient : (scores.divideWithRemainder target target divisor).read target =
      ((scores.read target).floorModulo (scores.read divisor)).floorDivide
        (scores.read divisor) := by
    simp [divideWithRemainder, operate, write, ScoreOperation.evaluate, divisorNotTarget]
  have kept : (scores.divideWithRemainder target target divisor).read divisor =
      scores.read divisor := by
    simp [divideWithRemainder, operate, write, divisorNotTarget]
  rw [divideTowardZero, read_correctQuotient, quotient, kept]
  by_cases zero : scores.read divisor = 0
  · simp [zero, Score.floorModulo, Score.floorDivide]
  · rw [Score.floorDivide_floorModulo zero, if_neg zero, if_neg (fun tests => tests.2.1 rfl)]

/-- The quotient is right if the remainder has a register of its own, and otherwise only where
there is nothing to divide. -/
theorem cutOff_divideTowardZero_iff (scores : Scores) (divisorNotTarget : divisor ≠ target)
    (divisorNotRemainder : divisor ≠ remainder) :
    Score.CutOff (scores.read target) (scores.read divisor)
        ((scores.divideTowardZero remainder target divisor).read target) ↔
      target ≠ remainder ∨ scores.read divisor = 0 ∨
        (scores.read target).toInt.natAbs < (scores.read divisor).toInt.natAbs := by
  rw [Score.cutOff_iff]
  by_cases shared : target = remainder
  · subst shared
    rw [read_divideTowardZero_shared scores divisorNotTarget]
    by_cases zero : scores.read divisor = 0
    · simp [zero, Score.truncated_zero]
    · simp only [zero, if_false, ne_eq, not_true_eq_false, false_or]
      rw [eq_comm, Score.truncated_eq_zero_iff zero]
  · simp [read_divideTowardZero scores divisorNotTarget divisorNotRemainder shared, shared]

end Scores

namespace Machine

/-- Adding to a register behind tests. -/
theorem step_guarded_add (call : String → String → Scores → Scores) (executor : String)
    (scores : Scores) (tests : List (Register × Range)) (target : Register) (amount : Score) :
    step call (.execute (tests.map fun test => .ifScore test.1 test.2) (.addScore target amount))
        executor scores =
      if tests.all fun test => test.2.contains (scores.read (locate executor test.1)) then
        scores.write (locate executor target) (scores.read (locate executor target) + amount)
      else
        scores := by
  rw [step, follow_ifScores]
  by_cases passed : tests.all fun test => test.2.contains (scores.read (locate executor test.1))
  · simp only [if_pos passed, step]
  · simp only [if_neg passed]

end Machine

namespace Plan

open Machine

/-- The commands of a division toward zero. -/
theorem exists_allocate_truncatingDivide (pool : Pool) (held : List Value)
    (workspace : Workspace) (target divisor : Slot) (address : Address) :
    let scratch := (workspace.acquire pool .int address).1.value
    ∃ commands later,
      (truncatingDivide held.length target divisor address).allocate pool held workspace =
          (.ok commands, later) ∧
        ∀ call executor scores, runAll call commands executor scores =
          scores.divideTowardZero (locate executor (scratch.register .whole))
            (locate executor (target.register (held ++ [scratch])))
            (locate executor (divisor.register (held ++ [scratch]))) := by
  intro scratch
  refine ⟨_, _, rfl, ?_⟩
  intro call executor scores
  have remainderEq : (Slot.scratch held.length .whole).register (held ++ [scratch]) =
      scratch.register .whole := by
    simp [Slot.register]
  rw [← remainderEq]
  refine (step_guarded_add call executor _
    [(target.register (held ++ [scratch]), .atMost (-1)),
      ((Slot.scratch held.length .whole).register (held ++ [scratch]), nonZero),
      (divisor.register (held ++ [scratch]), nonZero)] _ _).trans ?_
  simp only [List.all_cons, List.all_nil, Bool.and_true, Bool.and_eq_true, Range.contains_atMost,
    contains_nonZero]
  rfl

/-- A division toward zero changes nothing but its target and its scratch register.  The target
holds the quotient unless it is the scratch register itself; then it does so only if nothing is
divided or nothing comes out. -/
theorem quotient_cut_off_iff_apart (pool : Pool) (held : List Value) (workspace : Workspace)
    (target divisor : Slot) (address : Address) (executor : String) :
    let scratch := (workspace.acquire pool .int address).1.value
    let remainderPlace := locate executor (scratch.register .whole)
    let targetPlace := locate executor (target.register (held ++ [scratch]))
    let divisorPlace := locate executor (divisor.register (held ++ [scratch]))
    divisorPlace ≠ targetPlace → divisorPlace ≠ remainderPlace →
      ∃ commands later,
        (truncatingDivide held.length target divisor address).allocate pool held workspace =
            (.ok commands, later) ∧
          ∀ call scores,
            let after := runAll call commands executor scores
            after.read divisorPlace = scores.read divisorPlace ∧
            (∀ register, register ≠ targetPlace → register ≠ remainderPlace →
              after.read register = scores.read register) ∧
            (Score.CutOff (scores.read targetPlace) (scores.read divisorPlace)
                (after.read targetPlace) ↔
              targetPlace ≠ remainderPlace ∨ scores.read divisorPlace = 0 ∨
                (scores.read targetPlace).toInt.natAbs <
                  (scores.read divisorPlace).toInt.natAbs) := by
  intro scratch remainderPlace targetPlace divisorPlace divisorNotTarget divisorNotRemainder
  obtain ⟨commands, later, allocated, divides⟩ :=
    exists_allocate_truncatingDivide pool held workspace target divisor address
  refine ⟨commands, later, allocated, fun call scores => ?_⟩
  rw [divides call executor scores]
  exact ⟨scores.read_divideTowardZero_of_ne divisorNotTarget divisorNotRemainder,
    fun _ notTarget notRemainder => scores.read_divideTowardZero_of_ne notTarget notRemainder,
    scores.cutOff_divideTowardZero_iff divisorNotTarget divisorNotRemainder⟩

/-- A quotient below zero that is not exact, the one that wraps around, and no divisor. -/
theorem quotients_cut_off_at_the_ends :
    let opened := (Compilation.start {}).workspace.acquire .stacked .int .here
    let target := locate "Steve" (opened.1.value.register .whole)
    let scores (dividend divisor : Score) : Scores :=
      ⟨fun register => if register.objective = "i" then divisor else dividend⟩
    ∃ commands later,
      (truncatingDivide 1 (.scratch 0 .whole) (.fixed ⟨"@s", "i"⟩) .here).allocate .stacked
          [opened.1.value] opened.2 = (.ok commands, later) ∧
        ∀ call,
          let quotient (dividend divisor : Score) :=
            (runAll call commands "Steve" (scores dividend divisor)).read target
          (quotient (-7) 2).toInt = -3 ∧ (quotient (-2147483648) (-1)).toInt = -2147483648 ∧
            quotient 5 0 = 5 := by
  intro opened target scores
  obtain ⟨commands, later, allocated, divides⟩ := quotient_cut_off_iff_apart .stacked
    [opened.1.value] opened.2 (.scratch 0 .whole) (.fixed ⟨"@s", "i"⟩) .here "Steve"
    (by decide +kernel) (by decide +kernel)
  refine ⟨commands, later, allocated, fun call => ?_⟩
  have cutOff (dividend divisor : Score) :
      Score.CutOff dividend divisor
        ((runAll call commands "Steve" (scores dividend divisor)).read target) := by
    have targetHeld : (scores dividend divisor).read target = dividend :=
      if_neg (by decide +kernel)
    have divided : Score.CutOff ((scores dividend divisor).read target) divisor
        ((runAll call commands "Steve" (scores dividend divisor)).read target) :=
      (divides call (scores dividend divisor)).2.2.mpr (Or.inl (by decide +kernel))
    rwa [targetHeld] at divided
  exact ⟨(cutOff _ _).exact (by decide) (by decide), (cutOff _ _).wrapped (by decide),
    (cutOff _ _).undivided rfl⟩

/-- With digests for names, the eleventh and the twelfth scratch register can be one.  Nine are
held, the tenth holds a unit and the eleventh 350, which divided by two becomes nothing. -/
theorem quotient_in_remainder_register :
    let start := (Compilation.start { stackStem := "abcdefghijklmnopqrst" }).workspace
    let busy := Nat.repeat (fun workspace => (workspace.acquire .stacked .int .here).2) 9 start
    let unit := busy.acquire .stacked .int .here
    let joined := unit.2.acquire .stacked .int .here
    let scratch := (joined.2.acquire .stacked .int .here).1.value
    let target := locate "Steve" (joined.1.value.register .whole)
    let divisor : Register := ⟨"Steve", "i"⟩
    let scores : Scores := ⟨fun register =>
      if register = target then 350 else if register = divisor then 2 else 100⟩
    divisor ≠ target ∧ locate "Steve" (scratch.register .whole) = target ∧
      scores.read target = 350 ∧ scores.read divisor = 2 ∧
      ∃ commands later,
        (truncatingDivide 2 (.scratch 1 .whole) (.fixed ⟨"@s", "i"⟩) .here).allocate .stacked
            [unit.1.value, joined.1.value] joined.2 = (.ok commands, later) ∧
          (∀ call, (runAll call commands "Steve" scores).read target = 0) ∧
          ¬ Score.CutOff 350 2 0 := by
  intro start busy unit joined scratch target divisor scores
  have divisorNotTarget : divisor ≠ target := by decide +kernel
  have shared : locate "Steve" (scratch.register .whole) = target := by decide +kernel
  have targetHeld : scores.read target = 350 := by simp [scores]
  have divisorHeld : scores.read divisor = 2 := by simp [scores, divisorNotTarget]
  have nothing : (scores.divideTowardZero target target divisor).read target = 0 := by
    rw [scores.read_divideTowardZero_shared divisorNotTarget, divisorHeld, if_neg (by decide)]
  obtain ⟨commands, later, allocated, divides⟩ := exists_allocate_truncatingDivide .stacked
    [unit.1.value, joined.1.value] joined.2 (.scratch 1 .whole) (.fixed ⟨"@s", "i"⟩) .here
  refine ⟨divisorNotTarget, shared, targetHeld, divisorHeld, commands, later, allocated,
    fun call => ?_, fun cutOff => ?_⟩
  · have divided : runAll call commands "Steve" scores =
        scores.divideTowardZero (locate "Steve" (scratch.register .whole)) target divisor :=
      divides call "Steve" scores
    rw [divided, shared, nothing]
  · exact absurd (cutOff.exact (by decide) (by decide)) (by decide)

end Plan
end ScoreLowering
