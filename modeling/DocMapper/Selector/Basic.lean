import DocMapper.Condition.Basic

/-!
# Selectors

A selector is an object of clauses: attribute names with what is asked of them, and logical
keys with the selectors they join.
-/

namespace DocMapper

/-- A selector: its clauses in key order. -/
structure Selector where
  clauses : Fields
deriving DecidableEq

namespace Selector

/-- The selector without clauses. -/
def empty : Selector := ⟨[]⟩

/-- The selector as a JSON value. -/
def toJson (s : Selector) : Json := .obj s.clauses

/-- The attribute equals the value. -/
def equals (attr : String) (value : Json) : Selector := ⟨[(attr, .obj [("$eq", value)])]⟩

/-- The selectors joined by a logical operator. -/
def group (op : GroupOperator) (members : List Selector) : Selector :=
  ⟨[(op.token, .arr (members.map toJson))]⟩

/-- Put a clause under a key, in place of the one it has. -/
def insert (s : Selector) (key : String) (clause : Json) : Selector :=
  ⟨s.clauses.insert key clause⟩

/-- The clause under a key. -/
def get? (s : Selector) (key : String) : Option Json := s.clauses.get? key

/-- The operator and members of a selector that is one logical group and nothing else. -/
def singleGroup? (s : Selector) : Option (GroupOperator × List Json) :=
  match s.clauses with
  | [(key, .arr members)] => (GroupOperator.ofToken? key).map (·, members)
  | _ => none

/-- The members of a selector that is one conjunction and nothing else. -/
def conjunction? (s : Selector) : Option (List Json) :=
  match s.singleGroup? with
  | some (.and, members) => some members
  | _ => none

/-- Whether an attribute has a clause, at the top or in a member of a conjunction. -/
def constrains (s : Selector) (attr : String) : Bool :=
  s.clauses.contains attr ||
    match s.conjunction? with
    | some members => members.any fun m =>
      match m with
      | .obj fields => Dict.contains fields attr
      | _ => false
    | none => false

/-- The selector as members of a conjunction: those it has, or one for each clause. -/
def members (s : Selector) : List Json :=
  match s.conjunction? with
  | some members => members
  | none => s.clauses.map fun clause => .obj [clause]

/-- The conjunction of members. -/
def allOf (members : List Json) : Selector := ⟨[("$and", .arr members)]⟩

end Selector

end DocMapper
