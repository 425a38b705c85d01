import DocMapper.Json.Basic
import DocMapper.Text.Basic

/-!
# Documents

A document is a JSON object. The store keeps a document's id, its revision and whether it is
deleted in fields of the document itself.
-/

namespace DocMapper

/-- A document: a JSON object. -/
abbrev Document := Fields

/-- The field with a document's id. -/
def idField : String := "_id"

/-- The field with a document's revision. -/
def revisionField : String := "_rev"

/-- The field that marks a deleted document. -/
def deletedField : String := "_deleted"

namespace Document

/-- The value that a path of names leads to. -/
def follow? : Fields → List String → Option Json
  | _, [] => none
  | fields, [name] => fields.get? name
  | fields, name :: rest =>
    match fields.get? name with
    | some (.obj inner) => follow? inner rest
    | _ => none

/-- The value at a dotted path. -/
def at? (doc : Document) (path : String) : Option Json := follow? doc (Text.split '.' path)

/-- The id of a document. -/
def id? (doc : Document) : Option String := (Dict.get? doc idField).bind Json.asString?

/-- The revision of a document. -/
def revision? (doc : Document) : Option String :=
  (Dict.get? doc revisionField).bind Json.asString?

/-- Whether a document is marked as deleted. -/
def isDeleted (doc : Document) : Bool := Dict.get? doc deletedField = some (.bool true)

end Document

end DocMapper
