import ScoreLowering.Plan.Statement
import ScoreLowering.Score.Comparison

/-!
# Comparing with literals

A comparison of a value with a literal becomes a score filter: entries that name
an objective and the range in which its score has to be.  The bounds of the range
are found by exact arithmetic, so a filter is right for literals that no score
can equal as well.

A decimal is compared through a scratch register that joins its two parts; the
filter holds a lease on it.
-/

namespace ScoreLowering

/-- An objective and the range its score has to be in. -/
structure FilterEntry where
  objective : String
  range : Range
  deriving DecidableEq, Repr

/-- The test that a comparison turns into.  It can be made once the commands
ran, and as long as the lease lasts. -/
structure Filter where
  entries : List FilterEntry
  commands : List Command := []
  lease : Option Lease := none
  deriving DecidableEq, Repr

namespace FilterEntry

def text (entry : FilterEntry) : String :=
  entry.objective ++ "=" ++ entry.range.text

end FilterEntry

namespace Filter

/-- The filter as part of a selector. -/
def text (filter : Filter) : String :=
  "scores=\x7b" ++ ",".intercalate (filter.entries.map FilterEntry.text) ++ "\x7d"

/-- The scores up to an exact bound. -/
def atMost (bound : Int) : Range :=
  match Score.ofInt? bound with
  | some bound => .atMost bound
  | none => if bound < Score.least then .never else .always

/-- The scores from an exact bound on. -/
def atLeast (bound : Int) : Range :=
  match Score.ofInt? bound with
  | some bound => .atLeast bound
  | none => if Score.greatest < bound then .never else .always

/-- The scores equal to `numerator / denominator`: one or none. -/
def equalTo (numerator denominator : Int) : Range :=
  match Score.ofInt? (numerator / denominator) with
  | some score => if numerator % denominator = 0 then .exact score else .never
  | none => .never

/-- The scores that compare to `numerator / denominator` in the given way, for a
positive denominator. -/
def rangeFor (comparison : Comparison) (numerator denominator : Int) : Range :=
  let floor := numerator / denominator
  let ceiling := -(-numerator / denominator)
  match comparison with
  | .equal => equalTo numerator denominator
  | .notEqual => (equalTo numerator denominator).complement
  | .less => atMost (ceiling - 1)
  | .lessOrEqual => atMost floor
  | .greater => atLeast (floor + 1)
  | .greaterOrEqual => atLeast ceiling

/-- A literal as an exact fraction, in units of `10 ^ -precision`, for comparison
with a value of type `ty`. -/
def rational (ty : Ty) (literal : Literal) (precision : Nat) :
    Except UserError (Int × Int) := do
  let unit := (← Ty.scale precision).toInt
  match literal with
  | .int score => return (score.toInt * unit, 1)
  | .time score =>
      if ty = .time then return (score.toInt * unit, 1)
      else throw (Plan.incompatibleLiteral ty literal)
  | .decimal decimal =>
      match decimal.denominator? with
      | some denominator =>
          if ty = .time then throw (Plan.incompatibleLiteral ty literal)
          else return (decimal.mantissa.toInt * unit, denominator)
      | none => throw (Plan.incompatibleLiteral ty literal)
  | .null | .bool _ => throw (Plan.incompatibleLiteral ty literal)

/-- The filter that tests the register of a value itself. -/
def direct (this : Value) (comparison : Comparison) (fraction : Int × Int) : Filter :=
  { entries := [⟨this.name, rangeFor comparison fraction.1 fraction.2⟩] }

/-- Join the parts of a decimal in the scratch register of level zero. -/
def joinPlan (this : Value) (precision : Nat) : Plan :=
  Plan.withUnit precision fun unitScore =>
    Plan.withConstant 1 unitScore this.address fun unit =>
      .steps (Plan.combineInto (.scratch 0 .whole) this.operand unit)

/-- The filter that tests a decimal through a scratch register. -/
def joined (pool : Pool) (this : Value) (precision : Nat) (comparison : Comparison)
    (fraction : Int × Int) (workspace : Workspace) : Outcome Filter :=
  let (lease, workspace) := workspace.acquire pool .int this.address
  match (joinPlan this precision).allocate pool [lease.value] workspace with
  | (.error error, workspace) => (.error error, workspace.discard lease)
  | (.ok commands, workspace) =>
      (.ok
        { entries := [⟨lease.value.name, rangeFor comparison fraction.1 fraction.2⟩]
          commands := commands
          lease := some lease },
       workspace)

end Filter

namespace Value

/-- The filter for `this comparison literal`. -/
def compare (pool : Pool) (this : Value) (comparison : Comparison) (literal : Literal)
    (workspace : Workspace) : Outcome Filter :=
  let unsupported : LowerError :=
    .user (.unsupportedComparison comparison.symbol this.ty.text)
  let incompatible : LowerError := .user (Plan.incompatibleLiteral this.ty literal)
  match this.ty with
  | .bool =>
      if !comparison.isEquality then
        (.error unsupported, workspace)
      else
        match literal with
        | .bool value => (.ok (Filter.direct this comparison (value.toInt, 1)), workspace)
        | _ => (.error incompatible, workspace)
  | .int | .time =>
      match Filter.rational this.ty literal 0 with
      | .error error => (.error (.user error), workspace)
      | .ok fraction => (.ok (Filter.direct this comparison fraction), workspace)
  | .decimal precision =>
      match Filter.rational this.ty literal precision with
      | .error error => (.error (.user error), workspace)
      | .ok fraction => Filter.joined pool this precision comparison fraction workspace
  | .struct _ _ => (.error incompatible, workspace)

end Value
end ScoreLowering
