import DocMapper.Selector.Basic

/-!
# Conditions as selectors

Every condition with well-formed ranges compiles to a selector. A negation of something
with an attribute keeps what it negates and adds the negated comparison on that attribute;
a negation of a group negates the whole selector.
-/

namespace DocMapper

/-- The token of a comparison. A range has none of its own. -/
def Operator.token : Operator → Except QueryError String
  | .equal => .ok "$eq"
  | .different => .ok "$ne"
  | .bigger => .ok "$gt"
  | .biggerEq => .ok "$gte"
  | .smaller => .ok "$lt"
  | .smallerEq => .ok "$lte"
  | .not => .ok "$not"
  | .oneOf => .ok "$in"
  | .regexp => .ok "$regex"
  | .between => .error (.unsupported .between)

namespace Condition

/-- The clause of a leaf: one operator, or the two bounds of a range. -/
def leafClause (operator : Operator) (value : Json) : Except QueryError Json :=
  if operator = .between then
    match value with
    | .arr [low, high] => .ok (.obj [("$gte", low), ("$lte", high)])
    | _ => .error .betweenBounds
  else do
    let token ← operator.token
    return .obj [(token, value)]

/-- The selector of a condition. -/
def compile : Condition → Except QueryError Selector
  | .leaf attr operator value => do
    let clause ← leafClause operator value
    return ⟨[(attr, clause)]⟩
  | .not condition comparison => do
    let inner ← condition.compile
    match condition.attributeName? with
    | some attr => return inner.insert "$not" (.obj [(attr, comparison)])
    | none => return ⟨[("$not", inner.toJson)]⟩
  | .group left operator right => do
    let left ← left.compile
    let right ← right.compile
    return .group operator [left, right]

end Condition

end DocMapper
