import DocMapper.Design.View
import DocMapper.Json.Record

/-!
# Design documents

The design documents that hold all views that models declare, in order of their names. Views
that share a design document name are kept in one document, and of two that share a view
name too the later stays.
-/

namespace DocMapper

/-- What the id of a design document begins with. -/
def designLead : String := "_design/"

/-- A design document. -/
structure DesignDocument where
  id : String
  rev : Option String := none
  language : String
  views : Dict ViewDefinition
deriving DecidableEq

namespace ViewDefinition

/-- The definition as JSON. -/
def encode (d : ViewDefinition) : Json :=
  Record.ofMembers [("map", some (.str d.map)), ("reduce", d.reduce.map .str)]

/-- The definition that a JSON value keeps. -/
def decode? (v : Json) : Option ViewDefinition := do
  let fields ← Record.members? ["map", "reduce"] 1 v
  return {
    map := ← Record.required fields "map" Json.asString?
    reduce := ← Record.optional fields "reduce" Json.asString? }

end ViewDefinition

namespace DesignDocument

/-- The empty design document of a name. -/
def named (ddoc : String) : DesignDocument :=
  { id := designLead ++ ddoc, language := "javascript", views := [] }

/-- The name in the id. -/
def name (d : DesignDocument) : String := (Text.after? designLead d.id).getD d.id

/-- The members of the document as JSON. -/
def fields (d : DesignDocument) : Fields := Record.present [
  ("_id", some (.str d.id)),
  ("_rev", d.rev.map .str),
  ("language", some (.str d.language)),
  ("views", some (.obj (d.views.mapValues ViewDefinition.encode)))]

/-- The views that a JSON value keeps. -/
def decodeViews? : Json → Option (Dict ViewDefinition) := Record.dict? ViewDefinition.decode?

/-- The document that a JSON value keeps. -/
def decode? (v : Json) : Option DesignDocument := do
  let fields ← Record.members? ["_id", "_rev", "language", "views"] 4 v
  return {
    id := ← Record.required fields "_id" Json.asString?
    rev := ← Record.optional fields "_rev" Json.asString?
    language := ← Record.required fields "language" Json.asString?
    views := ← Record.required fields "views" decodeViews? }

/-- Put a declared view into the design documents. -/
def addView (docs : Dict DesignDocument) (table : String) (spec : ViewSpec) :
    Dict DesignDocument :=
  let ddoc := spec.designName table
  let doc := (docs.get? ddoc).getD (named ddoc)
  docs.insert ddoc
    { doc with views := doc.views.insert (spec.viewName table) (spec.definition table) }

/-- The design documents of all views that the models declare. -/
def generate (schemas : List Schema) : List DesignDocument :=
  Dict.values (schemas.foldl (fun docs schema =>
    schema.views.foldl (fun docs spec => addView docs schema.table spec) docs) [])

end DesignDocument

end DocMapper
