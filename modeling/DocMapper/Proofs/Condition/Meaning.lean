import DocMapper.Condition.Compile
import DocMapper.Selector.Matching

/-!
# What conditions mean

The direct evaluation of a condition on a document, by recursion over the condition. It knows no
selectors and cannot fail: an operand that makes no sense for its operator just does not hold.
-/

namespace DocMapper

section Holds

variable [PatternEngine]

/-- Whether a value that is there stands in the relation of a comparison to the operand. -/
def Operator.relates : Operator → Json → Json → Bool
  | .equal, v, operand => v.collate operand == .eq
  | .different, v, operand => v.collate operand != .eq
  | .bigger, v, operand => v.collate operand == .gt
  | .biggerEq, v, operand => v.collate operand != .lt
  | .smaller, v, operand => v.collate operand == .lt
  | .smallerEq, v, operand => v.collate operand != .gt
  | .oneOf, v, .arr items => items.any v.equivalent
  | .regexp, .str s, .str text =>
    match PatternEngine.search text with
    | .ok occursIn => occursIn s
    | .error _ => false
  | .between, v, .arr [low, high] => v.collate low != .lt && v.collate high != .gt
  | _, _, _ => false

namespace Selector

/-- Whether a value that is there stands in the relation that a token names to the operand. -/
def related (token : String) (v operand : Json) : Bool :=
  if token = "$eq" then Operator.equal.relates v operand
  else if token = "$ne" then Operator.different.relates v operand
  else if token = "$gt" then Operator.bigger.relates v operand
  else if token = "$gte" then Operator.biggerEq.relates v operand
  else if token = "$lt" then Operator.smaller.relates v operand
  else if token = "$lte" then Operator.smallerEq.relates v operand
  else if token = "$in" then Operator.oneOf.relates v operand
  else if token = "$nin" then operand.asArray?.any fun items => !items.any v.equivalent
  else if token = "$regex" then Operator.regexp.relates v operand
  else false

mutual

/-- Whether a value that may be missing passes a test. An object of operators asks for all of
    them, anything else for a value that collates equal to it. -/
def passes (value : Option Json) : Json → Bool
  | .obj operators =>
    if isOperatorObject (.obj operators) then passesAll value operators
    else value.any fun v => v.equivalent (.obj operators)
  | operand => value.any fun v => v.equivalent operand
termination_by structural operand => operand

/-- Whether a value that may be missing passes every operator. -/
def passesAll (value : Option Json) : List (String × Json) → Bool
  | [] => true
  | (operator, operand) :: rest =>
    (if operator = "$exists" then operand.asBool? == some value.isSome
      else if operator = "$not" then !passes value operand
      else value.any fun v => related operator v operand) && passesAll value rest
termination_by structural operators => operators

end

end Selector

/-- Whether a leaf holds of the value at its attribute. A negated test also holds of a missing
    value that does not pass the test; every comparison needs a value. -/
def Operator.holds (operator : Operator) (value : Option Json) (operand : Json) : Bool :=
  if operator = .not then !Selector.passes value operand
  else value.any fun v => operator.relates v operand

namespace Condition

/-- Whether a condition holds of a document. The negation of a leaf is bound to a value: the leaf
    has to hold while its attribute does not match that value. -/
def holds (doc : Document) : Condition → Bool
  | .leaf attr operator operand => operator.holds (doc.at? attr) operand
  | .not (.leaf attr operator operand) comparison =>
    operator.holds (doc.at? attr) operand && !Selector.passes (doc.at? attr) comparison
  | .not condition _ => !condition.holds doc
  | .group left .and right => left.holds doc && right.holds doc
  | .group left .or right => left.holds doc || right.holds doc

end Condition

end Holds

namespace Condition

/-- No attribute is named like a logical key, and a negation that has an attribute is that of a
    leaf. -/
def Regular : Condition → Prop
  | .leaf attr _ _ => Text.startsWith "$" attr = false
  | .not condition _ => condition.Regular ∧
    (condition.attributeName? = none ∨
      ∃ attr operator operand, condition = .leaf attr operator operand)
  | .group left _ right => left.Regular ∧ right.Regular

/-- Some range in the condition does not have exactly two bounds. -/
def HasMalformedRange : Condition → Prop
  | .leaf _ operator operand =>
    operator = .between ∧ ¬∃ low high, operand = .arr [low, high]
  | .not condition _ => condition.HasMalformedRange
  | .group left _ right => left.HasMalformedRange ∨ right.HasMalformedRange

end Condition

end DocMapper
