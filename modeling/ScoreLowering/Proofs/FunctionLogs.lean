import ScoreLowering.Proofs.BorrowPaths

/-!
# Functions are logs

Commands reach a function one list at a time, while it is open.  Written down as a log of
names and lists, a run of a compilation determines every function: its body is what the
log has under its name, in order.  A statement that fails is not in the log.  Finishing
adds the generated routines behind the functions, and only a function whose name is the
path of a routine loses its body to it.
-/

namespace ScoreLowering

/-- Something done in a compilation.  A lowering may do anything to the workspace, also if
it fails. -/
inductive Action where
  | addFile (file : SourceFile)
  | declare (ident : String) (ty : Ty) (attributes : List Attribute)
  | openFunction (name : String)
  | append (commands : List Command)
  | lower (span : Span) (lowering : Registry → Workspace → Outcome (List Command))

/-- Names of functions with the commands that they receive, first to last. -/
abbrev FunctionLog := List (String × List Command)

namespace FunctionLog

def names (log : FunctionLog) : List String :=
  log.map Prod.fst

/-- Everything that a function receives. -/
def body (log : FunctionLog) (name : String) : List Command :=
  (log.filter fun entry => entry.1 = name).flatMap Prod.snd

theorem names_append (log more : FunctionLog) : names (log ++ more) = names log ++ names more :=
  List.map_append

theorem body_append (log more : FunctionLog) (name : String) :
    body (log ++ more) name = body log name ++ body more name := by
  rw [body, List.filter_append, List.flatMap_append, body, body]

theorem body_singleton_self (name : String) (commands : List Command) :
    body [(name, commands)] name = commands := by
  simp [body]

theorem body_singleton_of_ne {name other : String} (different : other ≠ name)
    (commands : List Command) : body [(name, commands)] other = [] := by
  simp [body, different.symm]

theorem body_of_not_mem {log : FunctionLog} {name : String} (absent : name ∉ names log) :
    body log name = [] := by
  have none : log.filter (fun entry => entry.1 = name) = [] := by
    rw [List.filter_eq_nil_iff]
    intro entry member same
    exact absent (List.mem_map.mpr ⟨entry, member, of_decide_eq_true same⟩)
  rw [body, none, List.flatMap_nil]

theorem body_open (log : FunctionLog) (name other : String) :
    body (log ++ [(name, [])]) other = body log other := by
  rw [body_append]
  by_cases same : other = name
  · subst same
    rw [body_singleton_self, List.append_nil]
  · rw [body_singleton_of_ne same, List.append_nil]

/-- The functions are those of the log, in the order in which it first mentions them. -/
structure Fills (log : FunctionLog) (functions : OrderedMap String (List Command)) : Prop where
  listed : functions.keys = (names log).eraseDups
  bodies : ∀ name ∈ names log, functions.get? name = some (body log name)

namespace Fills

variable {log : FunctionLog} {functions : OrderedMap String (List Command)}

theorem get?_eq_none (fills : Fills log functions) {name : String} (absent : name ∉ names log) :
    functions.get? name = none := by
  rwa [← OrderedMap.not_mem_keys_iff, fills.listed, List.mem_eraseDups]

theorem get?_getD (fills : Fills log functions) (name : String) :
    (functions.get? name).getD [] = body log name := by
  by_cases known : name ∈ names log
  · rw [fills.bodies name known, Option.getD_some]
  · rw [fills.get?_eq_none known, Option.getD_none, body_of_not_mem known]

theorem receive (fills : Fills log functions) (name : String) (commands : List Command) :
    Fills (log ++ [(name, commands)])
      (functions.insert name ((functions.get? name).getD [] ++ commands)) := by
  refine ⟨?_, fun other member => ?_⟩
  · rw [names_append]
    exact OrderedMap.keys_insert_eq_eraseDups fills.listed name _
  · rw [fills.get?_getD, body_append]
    by_cases same : other = name
    · subst same
      rw [OrderedMap.get?_insert_self, body_singleton_self]
    · rw [OrderedMap.get?_insert_of_ne _ _ same, body_singleton_of_ne same, List.append_nil]
      refine fills.bodies other ?_
      simpa [names, same] using member

theorem openNew (fills : Fills log functions) {name : String} (absent : name ∉ names log) :
    Fills (log ++ [(name, [])]) (functions.insert name []) := by
  have received := fills.receive name []
  rwa [fills.get?_eq_none absent] at received

/-- Opening a function once more changes nothing. -/
theorem openKnown (fills : Fills log functions) {name : String} (known : name ∈ names log) :
    Fills (log ++ [(name, [])]) functions := by
  have sameNames : (names (log ++ [(name, [])])).eraseDups = (names log).eraseDups := by
    rw [names_append]
    exact eraseDups_concat_of_mem known
  refine ⟨fills.listed.trans sameNames.symm, fun other member => ?_⟩
  rw [body_open]
  refine fills.bodies other ?_
  rwa [← List.mem_eraseDups, sameNames, List.mem_eraseDups] at member

end Fills
end FunctionLog

/-- The function opened last after an action. -/
def Action.lastOpened (opened : Option String) : Action → Option String
  | .openFunction name => some name
  | .addFile _ | .declare _ _ _ | .append _ | .lower _ _ => opened

namespace Compilation

open FunctionLog

def perform (compilation : Compilation) : Action → Compilation
  | .addFile file => (compilation.addFile file).2
  | .declare ident ty attributes => (compilation.declare ident ty attributes).2
  | .openFunction name => compilation.openFunction name
  | .append commands => compilation.append commands
  | .lower span lowering => (compilation.lower span lowering).2

def performAll (compilation : Compilation) (actions : List Action) : Compilation :=
  actions.foldl perform compilation

/-- What an action brings to the functions.  As long as no function was opened, the main
function receives the commands. -/
def entries (compilation : Compilation) (opened : Option String) : Action → FunctionLog
  | .addFile _ | .declare _ _ _ => []
  | .openFunction name => [(name, [])]
  | .append commands => [(opened.getD mainFunction, commands)]
  | .lower _ lowering =>
      match (lowering compilation.registry compilation.workspace).1 with
      | .ok commands => [(opened.getD mainFunction, commands)]
      | .error _ => []

/-- The log of a run, in which `opened` is the function opened last. -/
def log (compilation : Compilation) (opened : Option String) : List Action → FunctionLog
  | [] => []
  | action :: actions =>
      compilation.entries opened action ++
        (compilation.perform action).log (action.lastOpened opened) actions

/-- A function that is opened before it receives commands has the same body in the end. -/
theorem openFunction_appendTo (compilation : Compilation) (name : String)
    (commands : List Command) :
    ((compilation.openFunction name).appendTo name commands).functions =
      (compilation.appendTo name commands).functions := by
  simp only [openFunction, appendTo]
  by_cases known : compilation.functions.contains name = true
  · rw [if_pos known]
  · have absent := (OrderedMap.contains_eq_false_iff _ _).mp (Bool.eq_false_iff.mpr known)
    rw [if_neg known, OrderedMap.get?_insert_self, OrderedMap.insert_insert, absent]
    rfl

theorem lower_of_ok (compilation : Compilation) (span : Span)
    {lowering : Registry → Workspace → Outcome (List Command)} {commands : List Command}
    (lowered : (lowering compilation.registry compilation.workspace).1 = .ok commands) :
    (compilation.lower span lowering).2 =
      { compilation with
        workspace := (lowering compilation.registry compilation.workspace).2 }.append commands := by
  simp only [lower, lowered, record]

theorem lower_of_error (compilation : Compilation) (span : Span)
    {lowering : Registry → Workspace → Outcome (List Command)} {error : LowerError}
    (failed : (lowering compilation.registry compilation.workspace).1 = .error error) :
    compilation.lower span lowering = (.error (error.attach span),
      { compilation with
        workspace := (lowering compilation.registry compilation.workspace).2 }) := by
  simp only [lower, failed, record]

/-- The functions are those of a log, and the next commands go to the function opened
last. -/
structure Logs (compilation : Compilation) (opened : Option String) (log : FunctionLog) :
    Prop where
  current : compilation.current.getD mainFunction = opened.getD mainFunction
  fills : Fills log compilation.functions

namespace Logs

variable {compilation : Compilation} {opened : Option String} {log : FunctionLog}

theorem openFunction (logs : compilation.Logs opened log) (name : String) :
    (compilation.openFunction name).Logs (some name) (log ++ [(name, [])]) := by
  refine ⟨rfl, ?_⟩
  have contained : compilation.functions.contains name ↔ name ∈ names log := by
    rw [OrderedMap.contains_iff, logs.fills.listed, List.mem_eraseDups]
  simp only [Compilation.openFunction]
  split
  · rename_i known
    exact logs.fills.openKnown (contained.mp known)
  · rename_i unknown
    exact logs.fills.openNew (mt contained.mpr unknown)

theorem append (logs : compilation.Logs opened log) (commands : List Command) :
    (compilation.append commands).Logs opened
      (log ++ [(opened.getD mainFunction, commands)]) := by
  have receiver := logs.current
  unfold Compilation.append
  cases current : compilation.current with
  | some name =>
      rw [current, Option.getD_some] at receiver
      subst receiver
      exact ⟨logs.current, logs.fills.receive _ commands⟩
  | none =>
      rw [current, Option.getD_none] at receiver
      rw [← receiver]
      refine ⟨receiver, ?_⟩
      rw [openFunction_appendTo]
      exact logs.fills.receive mainFunction commands

theorem perform (logs : compilation.Logs opened log) (action : Action) :
    (compilation.perform action).Logs (action.lastOpened opened)
      (log ++ compilation.entries opened action) := by
  cases action with
  | addFile file =>
      rw [entries, List.append_nil]
      exact ⟨logs.current, logs.fills⟩
  | declare ident ty attributes =>
      rw [entries, List.append_nil]
      simp only [Compilation.perform, Compilation.declare]
      split
      · exact logs
      · exact ⟨logs.current, logs.fills⟩
  | openFunction name => exact logs.openFunction name
  | append commands => exact logs.append commands
  | lower span lowering =>
      have moved (workspace : Workspace) :
          Logs { compilation with workspace := workspace } opened log :=
        ⟨logs.current, logs.fills⟩
      cases outcome : (lowering compilation.registry compilation.workspace).1 with
      | ok commands =>
          rw [Compilation.perform, lower_of_ok compilation span outcome]
          simp only [entries, outcome]
          exact (moved _).append commands
      | error error =>
          rw [Compilation.perform, lower_of_error compilation span outcome]
          simp only [entries, outcome, List.append_nil]
          exact moved _

theorem performAll (logs : compilation.Logs opened log) (actions : List Action) :
    ∃ last, (compilation.performAll actions).Logs last
      (log ++ compilation.log opened actions) := by
  induction actions generalizing compilation opened log with
  | nil =>
      rw [Compilation.log, List.append_nil]
      exact ⟨opened, logs⟩
  | cons action actions ih =>
      rw [Compilation.log, ← List.append_assoc]
      exact ih (logs.perform action)

end Logs

theorem start_logs (settings : Settings) : (start settings).Logs none [] :=
  ⟨rfl, List.eraseDups_nil.symm, nofun⟩

/-- A finished program has, under every name that is not the path of a routine, what the
log has there.  The functions come in the order in which they were first opened, then the
paths of the routines.  A statement that fails has no part in this. -/
theorem functions_follow_log (settings : Settings) (actions : List Action) :
    let compilation := (start settings).performAll actions
    let log := (start settings).log none actions
    let functions := compilation.finish.functions
    let routines := compilation.workspace.routines.routines
    (∀ name ∉ routines.map Routine.path,
        functions.get? name = if name ∈ log.names then some (log.body name) else none) ∧
      functions.keys = log.names.eraseDups ++
        ((routines.map Routine.path).filter (· ∉ log.names)).eraseDups ∧
      (∀ path ∈ routines.map Routine.path, ∃ routine ∈ routines,
        routine.path = path ∧ functions.get? path = some routine.commands) ∧
      ∀ span lowering error,
        (lowering compilation.registry compilation.workspace).1 = .error error →
          (compilation.lower span lowering).1 = .error (error.attach span) ∧
            (compilation.lower span lowering).2.functions = compilation.functions ∧
            (compilation.lower span lowering).2.current = compilation.current := by
  intro compilation log functions routines
  obtain ⟨last, logs⟩ := (start_logs settings).performAll actions
  have fills : Fills log compilation.functions := logs.fills
  refine ⟨fun name absent => ?_, ?_, fun path present => ?_, ?_⟩
  · have apart : ∀ routine ∈ routines, routine.path ≠ name :=
      fun routine member same => absent (List.mem_map.mpr ⟨routine, member, same⟩)
    have kept : functions.get? name = compilation.functions.get? name :=
      Routines.get?_store_of_absent _ apart
    rw [kept]
    split
    · rename_i mentioned
      exact fills.bodies name mentioned
    · rename_i unmentioned
      exact fills.get?_eq_none unmentioned
  · have keys : functions.keys = (log.names ++ routines.map Routine.path).eraseDups :=
      Routines.keys_store fills.listed routines
    rw [keys, List.eraseDups_append]
    simp [List.removeAll]
  · exact Routines.get?_store_of_mem _ (List.mem_map.mp present)
  · intro span lowering error failed
    rw [lower_of_error compilation span failed]
    exact ⟨rfl, rfl, rfl⟩

/-- The main function is opened by the first command and once more at the end; in between
one statement generates a routine and another one fails. -/
theorem functions_follow_log_reopened :
    let coarse : Value := ⟨"x", .decimal 1, .here, []⟩
    let invalid : Value := ⟨"y", .decimal 10, .here, []⟩
    let triple (value : Value) (_ : Registry) (workspace : Workspace) :=
      (Statement.operateLiteral value .mul (.int 3)).lower .stacked workspace
    let actions : List Action :=
      [.append [.call "first"], .openFunction "f", .append [.call "second"],
        .lower ⟨0, 1⟩ (triple coarse), .lower ⟨2, 3⟩ (triple invalid),
        .openFunction "main", .append [.call "third"]]
    let functions := ((start {}).performAll actions).finish.functions
    functions.keys = ["main", "f", "_mcc/borrow/x"] ∧
      functions.get? "main" = some [.call "first", .call "third"] ∧
      functions.get? "f" = some (((start {}).log none actions).body "f") ∧
      (functions.get? "_mcc/borrow/x").isSome := by
  intro coarse invalid triple actions functions
  obtain ⟨bodies, keys, paths, _⟩ := functions_follow_log {} actions
  refine ⟨keys.trans (by decide +kernel), ?_, ?_, ?_⟩
  · exact (bodies "main" (by decide +kernel)).trans (by decide +kernel)
  · exact (bodies "f" (by decide +kernel)).trans (if_pos (by decide +kernel))
  · obtain ⟨routine, _, _, stored⟩ := paths "_mcc/borrow/x" (by decide +kernel)
    exact Option.isSome_iff_exists.mpr ⟨routine.commands, stored⟩

end Compilation
end ScoreLowering
