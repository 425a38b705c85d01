import DocMapper.Document.Basic
import DocMapper.Json.Collation
import DocMapper.Pattern.Engine
import DocMapper.Selector.Basic

/-!
# Matching documents

What a selector means: which documents it matches, and which selectors mean nothing. All
clauses have to hold; they are asked in key order, and the first that fails decides, so a
meaningless clause behind it goes unnoticed. An attribute may be a dotted path into nested
objects. Patterns are left to an engine.
-/

namespace DocMapper

/-- What makes a selector meaningless. -/
inductive SelectorError where
  | membersNotArray (key : String)
  | memberNotSelector (key : String)
  | negatedNotSelector
  | unknownCombination (key : String)
  | existsNotBoolean
  | operandNotArray (operator : String)
  | patternNotText
  | badPattern (reason : String)
  | unknownOperator (operator : String)
deriving DecidableEq, Repr

/-- The wording of a selector error. -/
def SelectorError.message : SelectorError → String
  | .membersNotArray key => key ++ " requires an array"
  | .memberNotSelector key => key ++ " members must be selectors"
  | .negatedNotSelector => "$not requires a selector"
  | .unknownCombination key => "unknown combination operator " ++ key
  | .existsNotBoolean => "$exists requires a boolean"
  | .operandNotArray operator => operator ++ " requires an array"
  | .patternNotText => "$regex requires a string"
  | .badPattern reason => "invalid regex: " ++ reason
  | .unknownOperator operator => "unknown operator " ++ operator

namespace Selector

/-- What a key of a selector asks. -/
inductive Role where
  | all
  | any
  | neither
  | not
  | unknown
  | attribute
deriving DecidableEq, Repr

/-- A key with a dollar sign is logical, any other names an attribute. -/
def role (key : String) : Role :=
  if key = "$and" then .all
  else if key = "$or" then .any
  else if key = "$nor" then .neither
  else if key = "$not" then .not
  else if Text.startsWith "$" key then .unknown
  else .attribute

/-- Whether a clause is an object of operators; anything else stands for equality. -/
def isOperatorObject : Json → Bool
  | .obj fields => !fields.isEmpty && fields.all fun entry => Text.startsWith "$" entry.1
  | _ => false

variable [PatternEngine]

/-- Apply an operator to a value that is there. -/
def applyOperator (operator : String) (value operand : Json) : Except SelectorError Bool :=
  if operator = "$eq" then .ok (value.collate operand == .eq)
  else if operator = "$ne" then .ok (value.collate operand != .eq)
  else if operator = "$gt" then .ok (value.collate operand == .gt)
  else if operator = "$gte" then .ok (value.collate operand != .lt)
  else if operator = "$lt" then .ok (value.collate operand == .lt)
  else if operator = "$lte" then .ok (value.collate operand != .gt)
  else if operator = "$in" ∨ operator = "$nin" then
    match operand with
    | .arr items =>
      let found := items.any value.equivalent
      .ok (if operator = "$in" then found else !found)
    | _ => .error (.operandNotArray operator)
  else if operator = "$regex" then
    match operand with
    | .str text =>
      match PatternEngine.search text with
      | .ok occursIn => .ok (match value with | .str s => occursIn s | _ => false)
      | .error reason => .error (.badPattern reason)
    | _ => .error .patternNotText
  else .error (.unknownOperator operator)

mutual

/-- Whether a value that may be missing satisfies a clause. -/
def test (value : Option Json) : Json → Except SelectorError Bool
  | .obj operators =>
    if isOperatorObject (.obj operators) then testAll value operators
    else .ok (value.any fun v => v.equivalent (.obj operators))
  | clause => .ok (value.any fun v => v.equivalent clause)
termination_by structural clause => clause

/-- Whether a value satisfies every operator. Operators other than `$exists` and `$not`
    do not hold for a missing value. -/
def testAll (value : Option Json) : List (String × Json) → Except SelectorError Bool
  | [] => .ok true
  | (operator, operand) :: rest => do
    let holds ←
      if operator = "$exists" then
        match operand with
        | .bool expected => pure (value.isSome == expected)
        | _ => throw .existsNotBoolean
      else if operator = "$not" then do
        let held ← test value operand
        pure !held
      else
        match value with
        | none => pure false
        | some v => applyOperator operator v operand
    if holds then testAll value rest else pure false
termination_by structural operators => operators

end

mutual

/-- Whether a document satisfies one clause of a selector. -/
def evalClause (doc : Document) (key : String) : Json → Except SelectorError Bool
  | .arr members =>
    match role key with
    | .all => if members.all Json.isObject then evalAll doc members
      else throw (.memberNotSelector key)
    | .any => if members.all Json.isObject then evalAny doc members
      else throw (.memberNotSelector key)
    | .neither =>
      if members.all Json.isObject then do
        let held ← evalAny doc members
        pure !held
      else throw (.memberNotSelector key)
    | .not => throw .negatedNotSelector
    | .unknown => throw (.unknownCombination key)
    | .attribute => test (doc.at? key) (.arr members)
  | .obj fields =>
    match role key with
    | .not => do
      let held ← eval doc fields
      pure !held
    | .unknown => throw (.unknownCombination key)
    | .attribute => test (doc.at? key) (.obj fields)
    | _ => throw (.membersNotArray key)
  | clause =>
    match role key with
    | .not => throw .negatedNotSelector
    | .unknown => throw (.unknownCombination key)
    | .attribute => test (doc.at? key) clause
    | _ => throw (.membersNotArray key)
termination_by structural clause => clause

/-- Whether a document satisfies every clause, in order up to the first that fails. -/
def eval (doc : Document) : List (String × Json) → Except SelectorError Bool
  | [] => .ok true
  | (key, clause) :: rest => do
    let holds ← evalClause doc key clause
    if holds then eval doc rest else pure false
termination_by structural clauses => clauses

/-- Whether a document satisfies every member. -/
def evalAll (doc : Document) : List Json → Except SelectorError Bool
  | [] => .ok true
  | .obj fields :: rest => do
    let holds ← eval doc fields
    if holds then evalAll doc rest else pure false
  | _ :: _ => .ok false
termination_by structural members => members

/-- Whether a document satisfies some member. -/
def evalAny (doc : Document) : List Json → Except SelectorError Bool
  | [] => .ok false
  | .obj fields :: rest => do
    let holds ← eval doc fields
    if holds then pure true else evalAny doc rest
  | _ :: _ => .ok false
termination_by structural members => members

end

/-- Whether the selector matches a document. -/
def matches? (s : Selector) (doc : Document) : Except SelectorError Bool := eval doc s.clauses

end Selector

end DocMapper
