import DocMapper.Store.Call

/-!
# Messages as JSON

Parts that are unset are left out. A call is the name of its primitive followed by what the
primitive is asked.
-/

namespace DocMapper

namespace WriteReceipt

/-- The receipt as JSON. -/
def encode (r : WriteReceipt) : Json :=
  .obj [("id", .str r.id), ("ok", .bool r.ok), ("rev", .str r.rev)]

/-- The receipt that a JSON value keeps. -/
def decode? (v : Json) : Option WriteReceipt := do
  let fields ← Record.members? ["ok", "id", "rev"] 3 v
  return {
    ok := ← Record.defaulted fields "ok" Json.asBool? false
    id := ← Record.required fields "id" Json.asString?
    rev := ← Record.required fields "rev" Json.asString? }

end WriteReceipt

namespace BulkOutcome

/-- The outcome as JSON. -/
def encode (r : BulkOutcome) : Json := Record.ofMembers [
  ("error", r.error.map .str),
  ("id", r.id.map .str),
  ("reason", r.reason.map .str),
  ("rev", r.rev.map .str)]

/-- The outcome that a JSON value keeps. -/
def decode? (v : Json) : Option BulkOutcome := do
  let fields ← Record.members? ["id", "rev", "error", "reason"] 0 v
  return {
    id := ← Record.optional fields "id" Json.asString?
    rev := ← Record.optional fields "rev" Json.asString?
    error := ← Record.optional fields "error" Json.asString?
    reason := ← Record.optional fields "reason" Json.asString? }

end BulkOutcome

namespace FetchedRow

/-- The row as JSON. -/
def encode (r : FetchedRow) : Json := Record.ofMembers [
  ("doc", r.doc.map .obj),
  ("error", r.error.map .str),
  ("id", some (.str r.id))]

/-- The row that a JSON value keeps. -/
def decode? (v : Json) : Option FetchedRow := do
  let fields ← Record.members? ["id", "doc", "error"] 1 v
  return {
    id := ← Record.required fields "id" Json.asString?
    doc := ← Record.optional fields "doc" Json.asObject?
    error := ← Record.optional fields "error" Json.asString? }

end FetchedRow

namespace FindAnswer

/-- The answer as JSON. -/
def encode (r : FindAnswer) : Json := Record.ofMembers [
  ("bookmark", r.bookmark.map .str),
  ("docs", some (.arr (r.docs.map .obj))),
  ("execution_stats", r.executionStats),
  ("warning", r.warning.map .str)]

/-- The answer that a JSON value keeps. -/
def decode? (v : Json) : Option FindAnswer := do
  let fields ← Record.members? ["docs", "bookmark", "warning", "execution_stats"] 1 v
  return {
    docs := ← Record.required fields "docs" (Record.list? Json.asObject?)
    bookmark := ← Record.optional fields "bookmark" Json.asString?
    warning := ← Record.optional fields "warning" Json.asString?
    executionStats := ← Record.optional fields "execution_stats" Record.any? }

end FindAnswer

namespace IndexDefinition

/-- The definition as JSON. -/
def encode (d : IndexDefinition) : Json := Record.ofMembers [
  ("fields", some (.arr d.fields)),
  ("partial_filter_selector", d.partialFilter.map Selector.toJson)]

/-- The definition that a JSON value keeps. -/
def decode? (v : Json) : Option IndexDefinition := do
  let fields ← Record.members? ["fields", "partial_filter_selector"] 1 v
  return {
    fields := ← Record.required fields "fields" Json.asArray?
    partialFilter := ← Record.optional fields "partial_filter_selector" Selector.decode? }

end IndexDefinition

namespace IndexRequest

/-- The request as JSON. -/
def encode (r : IndexRequest) : Json := Record.ofMembers [
  ("ddoc", r.ddoc.map .str),
  ("index", some r.index.encode),
  ("name", some (.str r.name)),
  ("type", some (.str r.kind))]

/-- The request that a JSON value keeps. -/
def decode? (v : Json) : Option IndexRequest := do
  let fields ← Record.members? ["index", "name", "ddoc", "type"] 2 v
  return {
    index := ← Record.required fields "index" IndexDefinition.decode?
    name := ← Record.required fields "name" Json.asString?
    ddoc := ← Record.optional fields "ddoc" Json.asString?
    kind := ← Record.defaulted fields "type" Json.asString? "json" }

end IndexRequest

namespace IndexReceipt

/-- The receipt as JSON. -/
def encode (r : IndexReceipt) : Json :=
  .obj [("id", .str r.id), ("name", .str r.name), ("result", .str r.result)]

/-- The receipt that a JSON value keeps. -/
def decode? (v : Json) : Option IndexReceipt := do
  let fields ← Record.members? ["result", "id", "name"] 3 v
  return {
    result := ← Record.required fields "result" Json.asString?
    id := ← Record.required fields "id" Json.asString?
    name := ← Record.required fields "name" Json.asString? }

end IndexReceipt

namespace ViewOptions

/-- The options as JSON. -/
def encode (o : ViewOptions) : Json := Record.ofMembers [
  ("descending", o.descending.map .bool),
  ("group", o.group.map .bool),
  ("include_docs", o.includeDocs.map .bool),
  ("key", o.key),
  ("limit", o.limit.map .ofUInt64),
  ("reduce", o.reduce.map .bool),
  ("skip", o.skip.map .ofUInt64)]

/-- The options that a JSON value keeps. -/
def decode? (v : Json) : Option ViewOptions := do
  let fields ← Record.members?
    ["reduce", "group", "include_docs", "descending", "limit", "skip", "key"] 0 v
  return {
    reduce := ← Record.optional fields "reduce" Json.asBool?
    group := ← Record.optional fields "group" Json.asBool?
    includeDocs := ← Record.optional fields "include_docs" Json.asBool?
    descending := ← Record.optional fields "descending" Json.asBool?
    limit := ← Record.optional fields "limit" Record.uint64?
    skip := ← Record.optional fields "skip" Record.uint64?
    key := ← Record.optional fields "key" Record.any? }

end ViewOptions

namespace ViewRow

/-- The row as JSON. -/
def encode (r : ViewRow) : Json := Record.ofMembers [
  ("doc", r.doc.map .obj),
  ("id", r.id.map .str),
  ("key", some r.key),
  ("value", some r.value)]

/-- The row that a JSON value keeps. -/
def decode? (v : Json) : Option ViewRow := do
  let fields ← Record.members? ["id", "key", "value", "doc"] 0 v
  return {
    id := ← Record.optional fields "id" Json.asString?
    key := ← Record.defaulted fields "key" Record.any? .null
    value := ← Record.defaulted fields "value" Record.any? .null
    doc := ← Record.optional fields "doc" Json.asObject? }

end ViewRow

namespace ViewAnswer

/-- The answer as JSON. -/
def encode (r : ViewAnswer) : Json := Record.ofMembers [
  ("offset", r.offset.map .ofUInt64),
  ("rows", some (.arr (r.rows.map ViewRow.encode))),
  ("total_rows", r.totalRows.map .ofUInt64)]

/-- The answer that a JSON value keeps. -/
def decode? (v : Json) : Option ViewAnswer := do
  let fields ← Record.members? ["rows", "total_rows", "offset"] 1 v
  return {
    rows := ← Record.required fields "rows" (Record.list? ViewRow.decode?)
    totalRows := ← Record.optional fields "total_rows" Record.uint64?
    offset := ← Record.optional fields "offset" Record.uint64? }

end ViewAnswer

namespace Primitive

/-- The name of a primitive. -/
def name : Primitive → String
  | .insert => "insert"
  | .get => "get"
  | .destroy => "destroy"
  | .bulk => "bulk"
  | .fetch => "fetch"
  | .find => "find"
  | .createIndex => "create_index"
  | .view => "view"

/-- All primitives. -/
def all : List Primitive := [.insert, .get, .destroy, .bulk, .fetch, .find, .createIndex, .view]

/-- The primitive with a name. -/
def ofName? (name : String) : Option Primitive := all.find? fun p => p.name = name

/-- The answer of a primitive that a JSON value keeps. -/
def decodeAnswer? : (p : Primitive) → Json → Option p.Answer
  | .insert, v | .destroy, v => WriteReceipt.decode? v
  | .get, v => v.asObject?
  | .bulk, v => Record.list? BulkOutcome.decode? v
  | .fetch, v => Record.list? FetchedRow.decode? v
  | .find, v => FindAnswer.decode? v
  | .createIndex, v => IndexReceipt.decode? v
  | .view, v => ViewAnswer.decode? v

end Primitive

namespace Call

/-- What the primitive is asked. -/
def arguments : Call → List Json
  | .insert doc => [.obj doc]
  | .get id => [.str id]
  | .destroy id rev => [.str id, .str rev]
  | .bulk docs => [.arr (docs.map .obj)]
  | .fetch ids => [.ofStrings ids]
  | .find query => [query.encode]
  | .createIndex request => [request.encode]
  | .view ddoc name options => [.str ddoc, .str name, options.encode]

/-- The call as JSON. -/
def encode (c : Call) : Json := .arr (.str c.primitive.name :: c.arguments)

end Call

end DocMapper
