import DocMapper.Design.View
import DocMapper.Store.Message

/-!
# Aggregates from views

Which declared views answer an aggregate. A model that never declared one has no answer,
and that is found without asking the store.
-/

namespace DocMapper

/-- A view to ask, and how. -/
structure ViewDescriptor where
  ddoc : String
  view : String
  options : ViewOptions
  spec : ViewSpec
deriving DecidableEq

/-- The views behind an aggregate: an average is a sum divided by a count. -/
inductive ViewTarget where
  | single (d : ViewDescriptor)
  | average (sum count : ViewDescriptor)
deriving DecidableEq

/-- An aggregate with the views that answer it. -/
structure ViewPlan where
  request : AggregateRequest
  target : ViewTarget
deriving DecidableEq

namespace ViewDescriptor

/-- How to ask a declared view. A view that returns documents is not reduced, unless it was
    given a reduce function; reduced views that tell values apart are grouped. -/
def ofSpec (table : String) (spec : ViewSpec) : ViewDescriptor :=
  let reduce := spec.reduce.isSome || !spec.returnDocs
  let grouped := reduce && (spec.kind = .distinct || spec.kind = .groupBy)
  { ddoc := spec.designName table
    view := spec.viewName table
    options := {
      reduce := some reduce
      group := if grouped then some true else none
      includeDocs := if spec.returnDocs && !reduce then some true else none }
    spec }

/-- The first declared view of a kind, on an attribute where one is given. -/
def find (schema : Schema) (kind : ViewKind) (attr : Option String) (requested : String) :
    Except Error ViewDescriptor :=
  match schema.viewsOf kind attr with
  | spec :: _ => .ok (ofSpec schema.table spec)
  | [] => .error (.viewMissing requested attr schema.table)

end ViewDescriptor

namespace AggregateKind

/-- The kind of view that answers an aggregate alone. -/
def viewKind? : AggregateKind → Option ViewKind
  | .count => some .count
  | .countDistinct | .distinct => some .distinct
  | .sum => some .sum
  | .min => some .min
  | .max => some .max
  | .avg => none

end AggregateKind

/-- The views behind an aggregate. -/
def ViewTarget.find (schema : Schema) (request : AggregateRequest) : Except Error ViewTarget :=
  match request.kind.viewKind? with
  | some kind => do
    let d ← ViewDescriptor.find schema kind request.attr kind.name
    return .single d
  | none =>
    match request.attr with
    | none => .error (.viewMissing "avg" none schema.table)
    | some attr => do
      let sum ← ViewDescriptor.find schema .sum (some attr) "avg"
      let count ← ViewDescriptor.find schema .count (some attr) "avg"
      return .average sum count

/-- The plan that answers an aggregate from declared views. -/
def ViewPlan.resolve (schema : Schema) (request : AggregateRequest) : Except Error ViewPlan := do
  let target ← ViewTarget.find schema request
  return ⟨request, target⟩

end DocMapper
