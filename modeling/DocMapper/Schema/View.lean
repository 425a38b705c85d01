import DocMapper.Condition.Basic
import DocMapper.Query.Basic

/-!
# View declarations

A model declares the views that the document store keeps for it: what they are for, by
which attributes their rows are keyed, what the rows hold and which documents take part.
-/

namespace DocMapper

/-- What a view is for. -/
inductive ViewKind where
  | view
  | groupBy
  | count
  | sum
  | max
  | min
  | distinct
deriving DecidableEq, Repr

/-- The name of a kind of view. -/
def ViewKind.name : ViewKind → String
  | .view => "view"
  | .groupBy => "groupBy"
  | .count => "count"
  | .sum => "sum"
  | .max => "max"
  | .min => "min"
  | .distinct => "distinct"

/-- What the rows of a view hold. -/
inductive ViewValue where
  /-- The whole document. -/
  | doc
  /-- Attributes of the document. -/
  | fields (names : List String)
  /-- A constant, to which a view that counts also restricts the attribute. -/
  | literal (v : Json)
deriving DecidableEq

/-- How many of the listed roles a document has to name. -/
inductive RoleMode where
  | any
  | all
deriving DecidableEq, Repr

/-- Which documents a view may show. -/
inductive ViewAuth where
  /-- Those for which a JavaScript expression holds. -/
  | expression (script : String)
  /-- Those that list roles in a field. -/
  | roles (field : String) (roles : List String) (mode : RoleMode)
deriving DecidableEq, Repr

/-- A declared view. -/
structure ViewSpec where
  kind : ViewKind
  attr : String
  name : Option String := none
  ddoc : Option String := none
  key : Option (List String) := none
  value : Option ViewValue := none
  map : Option String := none
  reduce : Option String := none
  condition : Option Condition := none
  auth : Option ViewAuth := none
  compositions : List String := []
  directions : List Direction := []
  returnDocs : Bool := false
deriving DecidableEq

/-- The attributes that key the rows: the key, or else the attribute with those it is
    composed with. -/
def ViewSpec.keyFields (v : ViewSpec) : List String := v.key.getD (v.attr :: v.compositions)

end DocMapper
