import DocMapper.Condition.Guard
import DocMapper.Schema.Basic

/-!
# Views in design documents

The names and the JavaScript of declared views. A map function emits a row for a document
that passes all its guards, and the first guard is always that the document belongs to the
view's table.
-/

namespace DocMapper

/-- The field that names a document's table. -/
def tableField : String := "??table"

namespace ViewSpec

/-- The name of the view: the one it was given, or one made of table, attribute and kind. -/
def viewName (table : String) (s : ViewSpec) : String :=
  match s.name with
  | some name => name
  | none => Text.underscored (separator.intercalate [table, s.attr, s.kind.name, "view"])

/-- The name of the design document that holds the view. -/
def designName (table : String) (s : ViewSpec) : String :=
  match s.ddoc with
  | some ddoc => ddoc
  | none => separator.intercalate [table, s.viewName table, "ddoc"]

/-- A field of the document that a map function is given. -/
def docField (name : String) : String := Guard.member "doc" name

/-- A text as a JavaScript literal. -/
def literal (s : String) : String := (Json.str s).text

/-- The guard of an access rule; a rule without roles lets everything pass. -/
def authGuard : ViewAuth → Option String
  | .expression script => some script
  | .roles _ [] _ => none
  | .roles field names mode =>
    let joiner := match mode with
      | .any => " || "
      | .all => " && "
    some ("(" ++ joiner.intercalate (names.map fun role =>
      "(" ++ docField field ++ " || []).indexOf(" ++ literal role ++ ") !== -1") ++ ")")

/-- Fields as one value: a field alone, or an array of fields. -/
def fieldsValue : List String → String
  | [name] => docField name
  | names => "[" ++ ", ".intercalate (names.map docField) ++ "]"

/-- The key of a row. -/
def emittedKey (s : ViewSpec) : String := fieldsValue s.keyFields

/-- The value of a row: what was declared, or else the document where documents are to be
    returned and nothing is summed up, or else the attribute. -/
def emittedValue (s : ViewSpec) : String :=
  match s.value with
  | some .doc => "doc"
  | some (.fields names) => fieldsValue names
  | some (.literal v) => v.text
  | none => if s.returnDocs && s.kind ≠ .sum then "doc" else docField s.attr

/-- The guards of the map function: the table, the condition, the constant of a view that
    counts, and the access rule. -/
def guards (table : String) (s : ViewSpec) : List String :=
  (Guard.test .strictEqual tableField (.str table)).text "doc" ::
    ((s.condition.map (Condition.script "doc")).toList ++
    (match s.kind, s.value with
      | .count, some (.literal v) => [(Guard.test .strictEqual s.attr v).text "doc"]
      | _, _ => []) ++
    (s.auth.bind authGuard).toList)

/-- The map function: the one given, or one that emits key and value behind the guards. -/
def mapFunction (table : String) (s : ViewSpec) : String :=
  match s.map with
  | some map => map
  | none => "function (doc) \x7b\n  if (!(" ++ " && ".intercalate (s.guards table) ++
      ")) return;\n  emit(" ++ s.emittedKey ++ ", " ++ s.emittedValue ++ ");\n\x7d"

end ViewSpec

namespace ViewKind

/-- The reduce function that keeps the value for which a comparison with the best one so
    far holds. -/
def bestReduce (sign : String) : String :=
  "function (keys, values, rereduce) \x7b\n" ++
  "  var best = null;\n" ++
  "  for (var i = 0; i < values.length; i++) \x7b\n" ++
  "    var val = values[i];\n" ++
  "    if (rereduce && val && typeof val === 'object' && 'value' in val) val = val.value;\n" ++
  "    if (best === null || val " ++ sign ++ " best) best = val;\n" ++
  "  \x7d\n" ++
  "  return best;\n" ++
  "\x7d"

/-- The reduce function of a kind of view. -/
def defaultReduce? : ViewKind → Option String
  | .count | .groupBy | .distinct => some "_count"
  | .sum => some "_sum"
  | .max => some (bestReduce ">")
  | .min => some (bestReduce "<")
  | .view => none

end ViewKind

/-- A view as a design document holds it. -/
structure ViewDefinition where
  map : String
  reduce : Option String := none
deriving DecidableEq, Repr

/-- The definition of a declared view; a given reduce function goes before the default. -/
def ViewSpec.definition (table : String) (s : ViewSpec) : ViewDefinition :=
  ⟨s.mapFunction table, s.reduce.or s.kind.defaultReduce?⟩

end DocMapper
