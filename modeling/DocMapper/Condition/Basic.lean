import DocMapper.Json.Basic

/-!
# Conditions

A condition restricts the attributes of a model: leaves compare one attribute with a value,
groups join two conditions, and a negation carries, besides the condition it negates, the
value that its attribute is bound to.
-/

namespace DocMapper

/-- How a leaf compares its attribute. -/
inductive Operator where
  | equal
  | different
  | bigger
  | biggerEq
  | smaller
  | smallerEq
  | not
  | oneOf
  | regexp
  | between
deriving DecidableEq, Repr

namespace Operator

/-- The name that messages show. -/
def display : Operator → String
  | .equal => "EQUAL"
  | .different => "DIFFERENT"
  | .bigger => "BIGGER"
  | .biggerEq => "BIGGER_EQ"
  | .smaller => "SMALLER"
  | .smallerEq => "SMALLER_EQ"
  | .not => "NOT"
  | .oneOf => "IN"
  | .regexp => "REGEXP"
  | .between => "BETWEEN"

end Operator

/-- How a group joins its conditions. -/
inductive GroupOperator where
  | and
  | or
deriving DecidableEq, Repr

namespace GroupOperator

/-- The key of such a group in a selector. -/
def token : GroupOperator → String
  | .and => "$and"
  | .or => "$or"

/-- The group operator with this key. -/
def ofToken? (token : String) : Option GroupOperator :=
  if token = "$and" then some .and else if token = "$or" then some .or else none

/-- The name that messages show. -/
def display : GroupOperator → String
  | .and => "AND"
  | .or => "OR"

theorem ofToken?_token (op : GroupOperator) : ofToken? op.token = some op := by
  cases op <;> decide

end GroupOperator

/-- A condition on the attributes of a model. -/
inductive Condition where
  | leaf (attr : String) (operator : Operator) (value : Json)
  | not (condition : Condition) (comparison : Json)
  | group (left : Condition) (operator : GroupOperator) (right : Condition)
deriving DecidableEq

namespace Condition

/-- The attribute of a leaf, or of the leaf under negations; a group has none. -/
def attributeName? : Condition → Option String
  | .leaf attr _ _ => some attr
  | .not condition _ => condition.attributeName?
  | .group _ _ _ => none

/-- Both conditions. -/
def and (left right : Condition) : Condition := .group left .and right

/-- At least one of the conditions. -/
def or (left right : Condition) : Condition := .group left .or right

/-- The attribute equals the value. -/
def equals (attr : String) (value : Json) : Condition := .leaf attr .equal value

end Condition

/-- What keeps a condition from becoming a selector. -/
inductive QueryError where
  | unsupported (operator : Operator)
  | betweenBounds
deriving DecidableEq, Repr

/-- The wording of a query error. -/
def QueryError.message : QueryError → String
  | .unsupported operator =>
    "could not find adapter translation for operator " ++ operator.display
  | .betweenBounds => "malformed condition: BETWEEN operator requires [min, max] comparison"

end DocMapper
