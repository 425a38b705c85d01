import DocMapper.Condition.Codec
import DocMapper.Schema.Basic

/-!
# Schemas as JSON

Every part has its place, unset ones hold `null`. A sequence whose bounds do not fit a JSON
integer has no JSON form.
-/

namespace DocMapper

namespace AttributeType

/-- The name a type is kept under. -/
def name : AttributeType → String
  | .text => "Text"
  | .number => "Number"
  | .boolean => "Boolean"
  | .date => "Date"
  | .json => "Json"

/-- The type as JSON. -/
def encode (t : AttributeType) : Json := .str t.name

/-- The type that a JSON value names. -/
def decode? (v : Json) : Option AttributeType := (Record.bareName? v).bind (Dict.get? [
  ("Text", .text), ("Number", .number), ("Boolean", .boolean), ("Date", .date), ("Json", .json)])

end AttributeType

namespace SequenceOptions

/-- An integer as JSON, if it fits. -/
def encodeBound (n : Signed 128) : Option Json := (Integer.ofInt? n.val).map fun n => .num (.int n)

/-- The integer that a JSON value keeps; it always fits. -/
def decodeBound? : Json → Option (Signed 128)
  | .num (.int n) => Signed.ofInt? 128 n.val
  | _ => none

/-- The options as JSON. -/
def encode? (o : SequenceOptions) : Option Json := do
  return .obj [
    ("increment_by", ← encodeBound o.incrementBy),
    ("name", Record.orNull .str o.name),
    ("start_with", ← encodeBound o.startWith)]

/-- The options that a JSON value keeps. -/
def decode? (v : Json) : Option SequenceOptions := do
  let fields ← Record.members? ["name", "start_with", "increment_by"] 3 v
  return {
    name := ← Record.optional fields "name" Json.asString?
    startWith := ← Record.required fields "start_with" decodeBound?
    incrementBy := ← Record.required fields "increment_by" decodeBound? }

end SequenceOptions

namespace PrimaryKey

/-- The key as JSON. -/
def encode? (k : PrimaryKey) : Option Json := do
  let sequence ← match k.sequence with
    | some options => options.encode?
    | none => some .null
  return .obj [("attribute", .str k.attr), ("kind", k.kind.encode), ("sequence", sequence)]

/-- The key that a JSON value keeps. -/
def decode? (v : Json) : Option PrimaryKey := do
  let fields ← Record.members? ["attribute", "kind", "sequence"] 3 v
  return {
    attr := ← Record.required fields "attribute" Json.asString?
    kind := ← Record.required fields "kind" KeyKind.decode?
    sequence := ← Record.optional fields "sequence" SequenceOptions.decode? }

end PrimaryKey

namespace IndexSpec

/-- The index as JSON. -/
def encode (s : IndexSpec) : Json := .obj [
  ("attribute", .str s.attr),
  ("compositions", .ofStrings s.compositions),
  ("directions", .arr (s.directions.map Direction.encode))]

/-- The index that a JSON value keeps. -/
def decode? (v : Json) : Option IndexSpec := do
  let fields ← Record.members? ["attribute", "compositions", "directions"] 3 v
  return {
    attr := ← Record.required fields "attribute" Json.asString?
    compositions := ← Record.required fields "compositions" Record.strings?
    directions := ← Record.required fields "directions" (Record.list? Direction.decode?) }

end IndexSpec

namespace ViewKind

/-- The kind as JSON. -/
def encode (k : ViewKind) : Json := .str k.name

/-- The kind that a JSON value names. -/
def decode? (v : Json) : Option ViewKind := (Record.bareName? v).bind (Dict.get? [
  ("view", .view), ("groupBy", .groupBy), ("count", .count), ("sum", .sum), ("max", .max),
  ("min", .min), ("distinct", .distinct)])

end ViewKind

namespace ViewValue

/-- The value as JSON. -/
def encode : ViewValue → Json
  | .doc => .str "Doc"
  | .fields names => .obj [("Fields", .ofStrings names)]
  | .literal v => .obj [("Literal", v)]

/-- The value that a JSON value keeps. -/
def decode? (v : Json) : Option ViewValue :=
  match Record.alternative? v with
  | some ("Doc", none) | some ("Doc", some .null) => some .doc
  | some ("Fields", some names) => (Record.strings? names).map .fields
  | some ("Literal", some v) => some (.literal v)
  | _ => none

end ViewValue

namespace RoleMode

/-- The mode as JSON. -/
def encode : RoleMode → Json
  | .any => .str "Any"
  | .all => .str "All"

/-- The mode that a JSON value names. -/
def decode? (v : Json) : Option RoleMode :=
  (Record.bareName? v).bind (Dict.get? [("Any", .any), ("All", .all)])

end RoleMode

namespace ViewAuth

/-- The access rule as JSON. -/
def encode : ViewAuth → Json
  | .expression script => .obj [("Expression", .str script)]
  | .roles field names mode => .obj [("Roles", .obj [
      ("field", .str field), ("mode", mode.encode), ("roles", .ofStrings names)])]

/-- The access rule that a JSON value keeps. -/
def decode? (v : Json) : Option ViewAuth :=
  match Record.alternative? v with
  | some ("Expression", some (.str script)) => some (.expression script)
  | some ("Roles", some (.obj fields)) => do
    return .roles (← Record.required fields "field" Json.asString?)
      (← Record.required fields "roles" Record.strings?)
      (← Record.required fields "mode" RoleMode.decode?)
  | _ => none

end ViewAuth

namespace ViewSpec

/-- The view as JSON. -/
def encode (s : ViewSpec) : Json := .obj [
  ("attribute", .str s.attr),
  ("auth", Record.orNull ViewAuth.encode s.auth),
  ("compositions", .ofStrings s.compositions),
  ("condition", Record.orNull Condition.encode s.condition),
  ("ddoc", Record.orNull .str s.ddoc),
  ("directions", .arr (s.directions.map Direction.encode)),
  ("key", Record.orNull .ofStrings s.key),
  ("kind", s.kind.encode),
  ("map", Record.orNull .str s.map),
  ("name", Record.orNull .str s.name),
  ("reduce", Record.orNull .str s.reduce),
  ("return_docs", .bool s.returnDocs),
  ("value", Record.orNull ViewValue.encode s.value)]

/-- The view that a JSON value keeps. -/
def decode? (v : Json) : Option ViewSpec := do
  let fields ← Record.members? ["kind", "attribute", "name", "ddoc", "key", "value", "map",
    "reduce", "condition", "auth", "compositions", "directions", "return_docs"] 13 v
  return {
    kind := ← Record.required fields "kind" ViewKind.decode?
    attr := ← Record.required fields "attribute" Json.asString?
    name := ← Record.optional fields "name" Json.asString?
    ddoc := ← Record.optional fields "ddoc" Json.asString?
    key := ← Record.optional fields "key" Record.strings?
    value := ← Record.optional fields "value" ViewValue.decode?
    map := ← Record.optional fields "map" Json.asString?
    reduce := ← Record.optional fields "reduce" Json.asString?
    condition := ← Record.optional fields "condition" Condition.decode?
    auth := ← Record.optional fields "auth" ViewAuth.decode?
    compositions := ← Record.required fields "compositions" Record.strings?
    directions := ← Record.required fields "directions" (Record.list? Direction.decode?)
    returnDocs := ← Record.required fields "return_docs" Json.asBool? }

end ViewSpec

namespace Schema

/-- The schema as JSON. -/
def encode? (s : Schema) : Option Json := do
  return .obj [
    ("attributes", .obj (s.attributes.mapValues AttributeType.encode)),
    ("default_query_attributes", .ofStrings s.defaultQueryAttributes),
    ("indexes", .arr (s.indexes.map IndexSpec.encode)),
    ("primary_key", ← s.primaryKey.encode?),
    ("table", .str s.table),
    ("views", .arr (s.views.map ViewSpec.encode))]

/-- The schema that a JSON value keeps. -/
def decode? (v : Json) : Option Schema := do
  let fields ← Record.members?
    ["table", "primary_key", "attributes", "indexes", "default_query_attributes", "views"] 6 v
  return {
    table := ← Record.required fields "table" Json.asString?
    primaryKey := ← Record.required fields "primary_key" PrimaryKey.decode?
    attributes := ← Record.required fields "attributes" (Record.dict? AttributeType.decode?)
    indexes := ← Record.required fields "indexes" (Record.list? IndexSpec.decode?)
    defaultQueryAttributes := ← Record.required fields "default_query_attributes" Record.strings?
    views := ← Record.required fields "views" (Record.list? ViewSpec.decode?) }

end Schema

end DocMapper
