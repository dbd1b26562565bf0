import ScoreLowering.Proofs.FieldPaths
import ScoreLowering.Proofs.NumberReadings

/-!
# Assigning and exchanging structs

A struct is moved field by field, and the names of its registers are made up anew at each of
them.  What comes out is one command for each register, in the order in which the struct is laid
out.  If no register occurs twice, the commands do not disturb each other, and the whole struct
is copied or exchanged.
-/

namespace ScoreLowering

namespace Ty

mutual

/-- Whether every decimal within a value of the type can be stored. -/
def isStorableThroughout : Ty → Bool
  | decimal precision => precision ≤ maxPrecision
  | int | bool | time => true
  | struct _ fields => fieldsStorable fields

def fieldsStorable : List (String × Ty) → Bool
  | [] => true
  | (_, ty) :: rest => ty.isStorableThroughout && fieldsStorable rest

end

end Ty

namespace Scores

variable {scores : Scores} {target source candidate : Register} {operation : ScoreOperation}

/-- An operation changes its target and, in an exchange, its source. -/
theorem read_operate_of_ne (notTarget : candidate ≠ target)
    (notSource : operation = .swap → candidate ≠ source) :
    (scores.operate target operation source).read candidate = scores.read candidate := by
  unfold operate
  split
  case isTrue exchange =>
      rw [read_write_other _ _ (notSource exchange), read_write_other _ _ notTarget]
  case isFalse => exact read_write_other _ _ notTarget

theorem read_operate_target (moves : operation = .copy ∨ operation = .swap)
    (distinct : target ≠ source) :
    (scores.operate target operation source).read target = scores.read source := by
  rcases moves with rfl | rfl
  · exact read_write_self _ _ _
  · exact (read_write_other _ _ distinct).trans (read_write_self _ _ _)

theorem operate_swap_comm (scores : Scores) (target source : Register) :
    scores.operate target .swap source = scores.operate source .swap target := by
  ext candidate
  simp only [operate, write, if_true, ScoreOperation.evaluate]
  by_cases isTarget : candidate = target
  · by_cases isSource : candidate = source
    · simp [← isTarget, ← isSource]
    · simp [isTarget, isTarget ▸ isSource]
  · simp [isTarget]

/-- Operate on one pair of registers after the other. -/
def operateAll (operation : ScoreOperation) (pairs : List (Register × Register))
    (scores : Scores) : Scores :=
  pairs.foldl (fun scores pair => scores.operate pair.1 operation pair.2) scores

theorem read_operateAll_of_not_mem {pairs : List (Register × Register)}
    (notTarget : candidate ∉ pairs.map Prod.fst)
    (notSource : operation = .swap → candidate ∉ pairs.map Prod.snd) (scores : Scores) :
    (operateAll operation pairs scores).read candidate = scores.read candidate := by
  induction pairs generalizing scores with
  | nil => rfl
  | cons pair rest ih =>
      simp only [List.map_cons, List.mem_cons, not_or] at notTarget notSource
      have later := ih notTarget.2 (fun exchange => (notSource exchange).2)
        (scores.operate pair.1 operation pair.2)
      exact later.trans (read_operate_of_ne notTarget.1 fun exchange => (notSource exchange).1)

/-- Every target receives what its source held before, if no register occurs twice. -/
theorem map_read_operateAll {pairs : List (Register × Register)}
    (moves : operation = .copy ∨ operation = .swap)
    (distinct : (pairs.map Prod.fst ++ pairs.map Prod.snd).Nodup) (scores : Scores) :
    (pairs.map Prod.fst).map (operateAll operation pairs scores).read =
      (pairs.map Prod.snd).map scores.read := by
  induction pairs generalizing scores with
  | nil => rfl
  | cons pair rest ih =>
      obtain ⟨target, source⟩ := pair
      obtain ⟨targets, sources, apart⟩ := List.nodup_append.mp distinct
      simp only [List.map_cons, List.nodup_cons] at targets sources
      simp only [List.map_cons, List.mem_cons, forall_eq_or_imp] at apart
      have restDistinct : (rest.map Prod.fst ++ rest.map Prod.snd).Nodup :=
        List.nodup_append.mpr ⟨targets.2, sources.2, fun register member other inside =>
          (apart.2 register member).2 other inside⟩
      have notSource : target ∉ rest.map Prod.snd := fun member => apart.1.2 target member rfl
      let middle := scores.operate target operation source
      -- the first target is not touched again, and no later source was touched before
      have first : (operateAll operation rest middle).read target = scores.read source :=
        (read_operateAll_of_not_mem targets.1 (fun _ => notSource) middle).trans
          (read_operate_target moves apart.1.1)
      have later : (rest.map Prod.snd).map middle.read = (rest.map Prod.snd).map scores.read := by
        refine List.map_congr_left fun register member => read_operate_of_ne ?_ fun _ => ?_
        · rintro rfl
          exact notSource member
        · rintro rfl
          exact sources.1 member
      exact congrArg₂ List.cons first ((ih restDistinct middle).trans later)

theorem operateAll_swap (pairs : List (Register × Register)) (scores : Scores) :
    operateAll .swap (pairs.map Prod.swap) scores = operateAll .swap pairs scores := by
  rw [operateAll, List.foldl_map]
  refine congrFun (congrFun (congrArg List.foldl ?_) scores) pairs
  funext scores pair
  exact operate_swap_comm scores pair.2 pair.1

end Scores

namespace Value

/-- The contents of all registers of a value, in the order of its objectives. -/
def contents (executor : String) (scores : Scores) (value : Value) : List Score :=
  (value.located executor).map scores.read

theorem length_layout (ident other : String) (ty : Ty) :
    (layout ident ty).length = (layout other ty).length := by
  rw [length_layout_eq_width, length_layout_eq_width]

theorem length_located {this other : Value} (sameTy : this.ty = other.ty) (executor : String) :
    (this.located executor).length = (other.located executor).length := by
  simp only [located, registers, List.length_map, objectives, sameTy]
  exact length_layout this.ident other.ident other.ty

end Value

namespace Plan

variable {operation : Operation} {this other : Value}

/-- One command for each pair of registers. -/
def moveCommands (operation : Operation) (targets sources : List Register) : List Command :=
  (targets.zip sources).map fun pair => .operate pair.1 operation.native pair.2

theorem moveCommands_append {targets sources : List Register}
    (sameLength : targets.length = sources.length) (moreTargets moreSources : List Register) :
    moveCommands operation (targets ++ moreTargets) (sources ++ moreSources) =
      moveCommands operation targets sources ++
        moveCommands operation moreTargets moreSources := by
  rw [moveCommands, List.zip_append sameLength, List.map_append]
  rfl

/-- Single values of one type are moved part by part. -/
theorem combineScalars_moves (moves : operation.isTransfer) (scalar : this.ty.isScalar)
    (sameTy : other.ty = this.ty) :
    combineScalars 0 this operation other.operand =
      steps (this.ty.parts.map fun part =>
        .operate (.fixed (this.register part)) operation.native (.fixed (other.register part))) := by
  have otherTy : other.operand.ty = this.ty := sameTy
  unfold combineScalars
  rw [otherTy]
  cases tyEq : this.ty with
  | int | time => rfl
  | bool =>
      simp only [moves, if_true]
      rfl
  | decimal precision =>
      rw [tyEq, Ty.isScalar] at scalar
      obtain ⟨unitScore, scaled⟩ := Score.exists_scale (of_decide_eq_true scalar)
      simp only [withUnit_ok scaled]
      cases operation with
      | set => simp [decimalByDecimal, isUnsupported, balancedDecimals, Ty.parts, Value.operand,
          Operation.native]
      | swap => simp [decimalByDecimal, isUnsupported, swapDecimals, Ty.parts, Value.operand,
          Operation.native]
      | add | sub | mul | div | mod => cases moves
  | struct name fields =>
      rw [tyEq] at scalar
      cases scalar

theorem allocate_combineScalars (moves : operation.isTransfer) (scalar : this.ty.isScalar)
    (sameTy : other.ty = this.ty) (pool : Pool) (workspace : Workspace) :
    (combineScalars 0 this operation other.operand).allocate pool [] workspace =
      (.ok (moveCommands operation this.registers other.registers), workspace) := by
  have simple := Ty.not_struct_of_isScalar scalar
  have otherSimple : ∀ name fields, other.ty ≠ .struct name fields := by rwa [sameTy]
  rw [combineScalars_moves moves scalar sameTy, Value.registers, Value.registers,
    Value.objectives_eq_parts simple, Value.objectives_eq_parts otherSimple, sameTy, allocate,
    moveCommands, List.map_map, List.map_map, List.map_map, List.zip_map', List.map_map]
  rfl

mutual

/-- Moving a value takes one command for each of its registers and nothing from the workspace. -/
theorem allocate_combineAt (moves : operation.isTransfer) (pool : Pool) (workspace : Workspace) :
    (ty : Ty) → ty.isStorableThroughout → (this other : Value) → this.ty = ty → other.ty = ty →
      (combineAt operation ty this other).allocate pool [] workspace =
        (.ok (moveCommands operation this.registers other.registers), workspace)
  | .struct name fields, storable, this, other, tyEq, otherTy => by
      rw [combineAt, if_pos ⟨otherTy, moves⟩,
        allocate_combineFields moves pool workspace fields storable this other, Value.registers,
        Value.registers, Value.objectives, Value.objectives, tyEq, otherTy, Value.layout,
        Value.layout]
  | .int, _, this, other, tyEq, otherTy
  | .bool, _, this, other, tyEq, otherTy
  | .time, _, this, other, tyEq, otherTy => by
      rw [combineAt]
      exact allocate_combineScalars moves (by rw [tyEq]; rfl) (otherTy.trans tyEq.symm) pool
        workspace
  | .decimal _, storable, this, other, tyEq, otherTy => by
      rw [combineAt]
      exact allocate_combineScalars moves (by rw [tyEq]; exact storable)
        (otherTy.trans tyEq.symm) pool workspace

theorem allocate_combineFields (moves : operation.isTransfer) (pool : Pool)
    (workspace : Workspace) :
    (fields : List (String × Ty)) → Ty.fieldsStorable fields → (this other : Value) →
      (combineFields operation fields this other).allocate pool [] workspace =
        (.ok (moveCommands operation
          ((Value.layoutFields this.ident fields).map (⟨this.address.holder, ·⟩))
          ((Value.layoutFields other.ident fields).map (⟨other.address.holder, ·⟩))), workspace)
  | [], _, _, _ => rfl
  | (name, ty) :: rest, storable, this, other => by
      rw [Ty.fieldsStorable, Bool.and_eq_true] at storable
      have field := allocate_combineAt moves pool workspace ty storable.1
        (this.fieldValue name ty) (other.fieldValue name ty) rfl rfl
      have others := allocate_combineFields moves pool workspace rest storable.2 this other
      have sameLength : (this.fieldValue name ty).registers.length =
          (other.fieldValue name ty).registers.length := by
        rw [Value.registers, Value.registers, List.length_map, List.length_map]
        exact Value.length_layout _ _ ty
      have joined := allocate_sequence_ok field (combineFields operation rest this other)
      rw [others] at joined
      rw [combineFields, Value.layoutFields, Value.layoutFields, List.map_append, List.map_append]
      refine joined.trans (Prod.ext (congrArg Except.ok ?_) rfl)
      exact (moveCommands_append sameLength _ _).symm

end

theorem runAll_moveCommands (call : String → String → Scores → Scores) (executor : String)
    (operation : Operation) (targets sources : List Register) (scores : Scores) :
    Machine.runAll call (moveCommands operation targets sources) executor scores =
      Scores.operateAll operation.native
        ((targets.map (Machine.locate executor)).zip (sources.map (Machine.locate executor)))
        scores := by
  rw [Machine.runAll, moveCommands, List.foldl_map, Scores.operateAll, List.zip_map,
    List.foldl_map]
  rfl

end Plan

namespace Value

variable {this other : Value} {executor : String} {operation : Operation}

/-- Running the commands for a transfer fills the left side with what the right side held. -/
theorem contents_moved (sameTy : this.ty = other.ty)
    (distinct : (this.located executor ++ other.located executor).Nodup)
    (moves : operation.isTransfer) (call : String → String → Scores → Scores) (scores : Scores) :
    this.contents executor (Machine.runAll call
        (Plan.moveCommands operation this.registers other.registers) executor scores) =
      other.contents executor scores := by
  have lengths := length_located sameTy executor
  have targets := List.map_fst_zip lengths.le
  have sources := List.map_snd_zip lengths.ge
  have native : operation.native = .copy ∨ operation.native = .swap := by
    cases operation with
    | set => exact Or.inl rfl
    | swap => exact Or.inr rfl
    | add | sub | mul | div | mod => cases moves
  have moved := Scores.map_read_operateAll native (by rwa [targets, sources]) scores
  rw [targets, sources] at moved
  rw [Plan.runAll_moveCommands]
  exact moved

/-- An exchange fills the right side with what the left side held. -/
theorem contents_exchanged (sameTy : this.ty = other.ty)
    (distinct : (this.located executor ++ other.located executor).Nodup)
    (call : String → String → Scores → Scores) (scores : Scores) :
    other.contents executor (Machine.runAll call
        (Plan.moveCommands .swap this.registers other.registers) executor scores) =
      this.contents executor scores := by
  have turned : Machine.runAll call (Plan.moveCommands .swap this.registers other.registers)
      executor scores = Machine.runAll call
        (Plan.moveCommands .swap other.registers this.registers) executor scores := by
    rw [Plan.runAll_moveCommands, Plan.runAll_moveCommands, ← List.zip_swap,
      Operation.native, Scores.operateAll_swap]
  rw [turned]
  exact contents_moved sameTy.symm (List.nodup_append_comm.mp distinct) rfl call scores

theorem read_moved_of_not_mem {register : Register} (notLeft : register ∉ this.located executor)
    (notRight : operation.native = .swap → register ∉ other.located executor)
    (call : String → String → Scores → Scores) (scores : Scores) :
    (Machine.runAll call (Plan.moveCommands operation this.registers other.registers) executor
        scores).read register = scores.read register := by
  rw [Plan.runAll_moveCommands]
  apply Scores.read_operateAll_of_not_mem
  · intro member
    obtain ⟨pair, inside, rfl⟩ := List.mem_map.mp member
    exact notLeft (List.of_mem_zip inside).1
  · intro exchange member
    obtain ⟨pair, inside, rfl⟩ := List.mem_map.mp member
    exact notRight exchange (List.of_mem_zip inside).2

theorem operate_structs_incompatible {name : String} {fields : List (String × Ty)}
    (tyEq : this.ty = .struct name fields)
    (refused : operation.isTransfer = false ∨ this.ty ≠ other.ty) (pool : Pool)
    (workspace : Workspace) :
    this.operate pool operation other workspace =
      (.error (Plan.incompatibleOperands this.ty operation other.ty), workspace) := by
  have notBoth : ¬ (other.ty = .struct name fields ∧ operation.isTransfer) := by
    rintro ⟨otherTy, moves⟩
    rcases refused with settles | different
    · rw [moves] at settles
      cases settles
    · exact different (tyEq.trans otherTy.symm)
  have planEq : Plan.combine this operation other =
      .fail (Plan.incompatibleOperands this.ty operation other.ty) := by
    unfold Plan.combine
    rw [tyEq, Plan.combineAt, if_neg notBoth, tyEq]
  rw [operate, planEq, Plan.allocate]

/-- Structs of one type are assigned and exchanged leaf by leaf, with nothing else touched.  No
other operation takes a struct, and none takes two types. -/
theorem structs_move_leaf_by_leaf (this other : Value) {name : String}
    {fields : List (String × Ty)} (tyEq : this.ty = .struct name fields) (pool : Pool)
    (workspace : Workspace) :
    (this.ty = other.ty → this.ty.isStorableThroughout →
      ∃ assignment exchange,
        this.operate pool .set other workspace = (.ok assignment, workspace) ∧
        this.operate pool .swap other workspace = (.ok exchange, workspace) ∧
        ∀ call executor scores, (this.located executor ++ other.located executor).Nodup →
          let assigned := Machine.runAll call assignment executor scores
          let exchanged := Machine.runAll call exchange executor scores
          (this.contents executor assigned = other.contents executor scores ∧
            other.contents executor assigned = other.contents executor scores ∧
            ∀ register, register ∉ this.located executor →
              assigned.read register = scores.read register) ∧
          this.contents executor exchanged = other.contents executor scores ∧
            other.contents executor exchanged = this.contents executor scores ∧
            ∀ register, register ∉ this.located executor → register ∉ other.located executor →
              exchanged.read register = scores.read register) ∧
    ∀ operation, operation.isTransfer = false ∨ this.ty ≠ other.ty →
      this.operate pool operation other workspace =
        (.error (.user (.incompatibleOperands operation.text this.ty.text other.ty.text)),
          workspace) := by
  refine ⟨fun sameTy storable => ?_, fun operation refused =>
    operate_structs_incompatible tyEq refused pool workspace⟩
  have lowered {operation : Operation} (moves : operation.isTransfer) :
      this.operate pool operation other workspace =
        (.ok (Plan.moveCommands operation this.registers other.registers), workspace) :=
    Plan.allocate_combineAt moves pool workspace this.ty storable this other rfl sameTy.symm
  refine ⟨_, _, lowered rfl, lowered rfl, fun call executor scores distinct => ?_⟩
  intro assigned exchanged
  have apart := (List.nodup_append.mp distinct).2.2
  have kept (register : Register) (notLeft : register ∉ this.located executor) :
      assigned.read register = scores.read register := by
    have notSwap : Operation.set.native ≠ .swap := nofun
    exact read_moved_of_not_mem notLeft (fun exchange => absurd exchange notSwap) call scores
  refine ⟨⟨contents_moved sameTy distinct rfl call scores, ?_, kept⟩,
    contents_moved sameTy distinct rfl call scores,
    contents_exchanged sameTy distinct call scores, fun register notLeft notRight =>
      read_moved_of_not_mem notLeft (fun _ => notRight) call scores⟩
  exact List.map_congr_left fun register member =>
    kept register fun inside => apart register inside register member rfl

/-- Two structs of one type with a struct inside, the names of whose registers are digests on the
left side and written out on the right side. -/
theorem nested_structs_move :
    let inner : Ty := .struct "Spin" [("rate", .decimal 9), ("on", .bool)]
    let outer : Ty := .struct "Body" [("t", .time), ("spin", inner)]
    let this : Value := ⟨"player_position", outer, .here, []⟩
    let other : Value := ⟨"b", outer, .player "_", [.global]⟩
    let scores : Scores := ⟨fun register =>
      if register.holder = "Steve" then 1 else .ofNat register.objective.length⟩
    let workspace := (Compilation.start {}).workspace
    ∃ assignment exchange,
      this.operate .stacked .set other workspace = (.ok assignment, workspace) ∧
      this.operate .stacked .swap other workspace = (.ok exchange, workspace) ∧
      ∀ call,
        this.contents "Steve" (Machine.runAll call assignment "Steve" scores) = [3, 11, 13, 9] ∧
        other.contents "Steve" (Machine.runAll call exchange "Steve" scores) = [1, 1, 1, 1] ∧
        this.operate .counted .add other workspace =
          (.error (.user (.incompatibleOperands "+=" "struct Body" "struct Body")), workspace) := by
  intro inner outer this other scores workspace
  obtain ⟨moved, _⟩ := structs_move_leaf_by_leaf this other rfl .stacked workspace
  obtain ⟨_, refused⟩ := structs_move_leaf_by_leaf this other rfl .counted workspace
  have distinct : (this.located "Steve" ++ other.located "Steve").Nodup := by decide +kernel
  have left : this.contents "Steve" scores = [1, 1, 1, 1] := by decide +kernel
  have right : other.contents "Steve" scores = [3, 11, 13, 9] := by decide +kernel
  obtain ⟨assignment, exchange, assigns, exchanges, effect⟩ := moved rfl (by decide)
  refine ⟨assignment, exchange, assigns, exchanges, fun call => ?_⟩
  obtain ⟨⟨assigned, _, _⟩, _, exchanged, _⟩ := effect call "Steve" scores distinct
  exact ⟨assigned.trans right, exchanged.trans left, refused .add (Or.inl rfl)⟩

end Value
end ScoreLowering
