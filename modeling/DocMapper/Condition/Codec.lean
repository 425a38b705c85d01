import DocMapper.Condition.Basic
import DocMapper.Json.Record

/-!
# Conditions as JSON

Each kind of condition is a record under its name.
-/

namespace DocMapper

namespace Operator

/-- All operators with the names they are kept under. -/
def names : List (String × Operator) := [
  ("equal", .equal), ("different", .different), ("bigger", .bigger), ("bigger_eq", .biggerEq),
  ("smaller", .smaller), ("smaller_eq", .smallerEq), ("not", .not), ("in", .oneOf),
  ("regexp", .regexp), ("between", .between)]

/-- The name an operator is kept under. -/
def name : Operator → String
  | .equal => "equal"
  | .different => "different"
  | .bigger => "bigger"
  | .biggerEq => "bigger_eq"
  | .smaller => "smaller"
  | .smallerEq => "smaller_eq"
  | .not => "not"
  | .oneOf => "in"
  | .regexp => "regexp"
  | .between => "between"

/-- The operator as JSON. -/
def encode (op : Operator) : Json := .str op.name

/-- The operator that a JSON value names. -/
def decode? (v : Json) : Option Operator := (Record.bareName? v).bind (Dict.get? names)

theorem decode?_encode (op : Operator) : decode? op.encode = some op := by cases op <;> decide

end Operator

namespace GroupOperator

/-- The name a group operator is kept under. -/
def name : GroupOperator → String
  | .and => "and"
  | .or => "or"

/-- The group operator as JSON. -/
def encode (op : GroupOperator) : Json := .str op.name

/-- The group operator that a JSON value names. -/
def decode? (v : Json) : Option GroupOperator :=
  (Record.bareName? v).bind (Dict.get? [("and", .and), ("or", .or)])

theorem decode?_encode (op : GroupOperator) : decode? op.encode = some op := by
  cases op <;> decide

end GroupOperator

namespace Condition

/-- The condition as JSON. -/
def encode : Condition → Json
  | .leaf attr operator value => .obj [("leaf", .obj [
      ("attribute", .str attr), ("operator", operator.encode), ("value", value)])]
  | .not condition comparison => .obj [("not", .obj [
      ("comparison", comparison), ("condition", condition.encode)])]
  | .group left operator right => .obj [("group", .obj [
      ("left", left.encode), ("operator", operator.encode), ("right", right.encode)])]

mutual

/-- The condition that a JSON value keeps: an object whose one member is named for the kind
    of condition. -/
def decode? : Json → Option Condition
  | .obj [(kind, .obj fields)] =>
    if kind = "leaf" then do
      let attr ← Record.required fields "attribute" Json.asString?
      let operator ← Record.required fields "operator" Operator.decode?
      let value ← Dict.get? fields "value"
      return .leaf attr operator value
    else if kind = "not" then do
      let condition ← decodeMember? "condition" fields
      let comparison ← Dict.get? fields "comparison"
      return .not condition comparison
    else if kind = "group" then do
      let left ← decodeMember? "left" fields
      let operator ← Record.required fields "operator" GroupOperator.decode?
      let right ← decodeMember? "right" fields
      return .group left operator right
    else none
  | _ => none
termination_by structural v => v

/-- The condition under a key. -/
def decodeMember? (name : String) : List (String × Json) → Option Condition
  | [] => none
  | (k, v) :: rest => if k = name then decode? v else decodeMember? name rest
termination_by structural fields => fields

end

end Condition

end DocMapper
