import ScoreLowering.Score.Operation
import ScoreLowering.Score.Range

/-!
# Commands

A lowered program is a list of commands.  They stay data until they are
printed: a command is a row of words, and its text joins them with single
blanks.
-/

namespace ScoreLowering

/-- One score of the board: whose it is and on which objective. -/
structure Register where
  holder : String
  objective : String
  deriving DecidableEq, Repr

namespace Register

def words (register : Register) : List String :=
  [register.holder, register.objective]

end Register

/-- A condition or change of executor in front of a command. -/
inductive Clause where
  | asEntity (selector : String)
  | ifScore (register : Register) (range : Range)
  deriving DecidableEq, Repr

namespace Clause

def words : Clause → List String
  | asEntity selector => ["as", selector]
  | ifScore register range =>
      ["if", "score"] ++ register.words ++ ["matches", range.text]

end Clause

/-- Every command a program may hold. -/
inductive Command where
  /-- Create an objective that only commands change. -/
  | addObjective (name : String)
  /-- Delete an objective with all its scores. -/
  | removeObjective (name : String)
  | setScore (register : Register) (score : Score)
  | addScore (register : Register) (amount : Score)
  | removeScore (register : Register) (amount : Score)
  | operate (target : Register) (operation : ScoreOperation) (source : Register)
  /-- Run a command if all clauses let it through. -/
  | execute (clauses : List Clause) (run : Command)
  /-- Run the function stored at a path. -/
  | call (path : String)
  /-- A command that was handed over as text. -/
  | raw (text : String)
  deriving DecidableEq, Repr

namespace Command

/-- The words of a list of clauses.  An empty list still takes one, empty,
place between its neighbours. -/
def clauseWords (clauses : List Clause) : List String :=
  if clauses.isEmpty then [""] else clauses.flatMap Clause.words

/-- The words of a command, in order. -/
def words : Command → List String
  | addObjective name => ["scoreboard", "objectives", "add", "\"" ++ name ++ "\"", "dummy"]
  | removeObjective name => ["scoreboard", "objectives", "remove", "\"" ++ name ++ "\""]
  | setScore register score =>
      ["scoreboard", "players", "set"] ++ register.words ++ [score.text]
  | addScore register amount =>
      ["scoreboard", "players", "add"] ++ register.words ++ [amount.text]
  | removeScore register amount =>
      ["scoreboard", "players", "remove"] ++ register.words ++ [amount.text]
  | operate target operation source =>
      ["scoreboard", "players", "operation"] ++ target.words ++ [operation.symbol] ++
        source.words
  | execute clauses run => ["execute"] ++ clauseWords clauses ++ ["run"] ++ run.words
  | call path => ["function", path]
  | raw text => [text]

/-- The line that is written into a function file. -/
def text (command : Command) : String :=
  " ".intercalate command.words

end Command
end ScoreLowering
