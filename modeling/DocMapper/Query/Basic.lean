import DocMapper.Json.Record
import DocMapper.Selector.Basic

/-!
# Queries

A query asks the document store for the documents that a selector matches, in an order,
from a position on, up to a limit, and possibly only for some of their attributes.
-/

namespace DocMapper

/-- A direction to sort in. -/
inductive Direction where
  | asc
  | desc
deriving DecidableEq, Repr

namespace Direction

/-- The name of a direction. -/
def name : Direction → String
  | .asc => "asc"
  | .desc => "desc"

/-- The direction as JSON. -/
def encode (d : Direction) : Json := .str d.name

/-- The direction that a JSON value names. -/
def decode? (v : Json) : Option Direction :=
  (Record.bareName? v).bind (Dict.get? [("asc", .asc), ("desc", .desc)])

end Direction

/-- One field to sort by. -/
structure SortField where
  field : String
  direction : Direction
deriving DecidableEq, Repr

namespace SortField

/-- The entry as JSON: the direction under the name of the field. -/
def encode (s : SortField) : Json := .obj [(s.field, s.direction.encode)]

/-- The entry that a JSON value keeps; it has exactly one member. -/
def decode? : Json → Option SortField
  | .obj [(field, v)] => (Direction.decode? v).map fun direction => ⟨field, direction⟩
  | _ => none

end SortField

/-- A query for documents. -/
structure Query where
  selector : Selector
  fields : Option (List String) := none
  sort : List SortField := []
  limit : Option UInt64 := none
  skip : Option UInt64 := none
  bookmark : Option String := none
deriving DecidableEq

/-- The selector that a JSON value keeps. -/
def Selector.decode? : Json → Option Selector
  | .obj clauses => some ⟨clauses⟩
  | _ => none

namespace Query

/-- The query as JSON; parts that are unset, and an empty order, are left out. -/
def encode (q : Query) : Json := Record.ofMembers [
  ("bookmark", q.bookmark.map .str),
  ("fields", q.fields.map .ofStrings),
  ("limit", q.limit.map .ofUInt64),
  ("selector", some q.selector.toJson),
  ("skip", q.skip.map .ofUInt64),
  ("sort", if q.sort.isEmpty then none else some (.arr (q.sort.map SortField.encode)))]

/-- The query that a JSON value keeps. -/
def decode? (v : Json) : Option Query := do
  let fields ← Record.members? ["selector", "fields", "sort", "limit", "skip", "bookmark"] 1 v
  return {
    selector := ← Record.required fields "selector" Selector.decode?
    fields := ← Record.optional fields "fields" Record.strings?
    sort := ← Record.defaulted fields "sort" (Record.list? SortField.decode?) []
    limit := ← Record.optional fields "limit" Record.uint64?
    skip := ← Record.optional fields "skip" Record.uint64?
    bookmark := ← Record.optional fields "bookmark" Json.asString? }

end Query

end DocMapper
