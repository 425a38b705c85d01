import DocMapper.Design.View
import DocMapper.Document.Basic

/-!
# The envelope of a document

A document holds a model's attributes together with fields of the store's own: its id, its
revision, its table and whether it is deleted. Enclosing puts attributes into a document,
and restoring takes them out again with the primary key in its place.
-/

namespace DocMapper.Document

/-- Put the attributes of a record into a document of its table. Names with a leading
    underscore belong to the store, so attributes may not have them; an attribute with the
    name of the table field is left out. -/
def enclose (table id : String) (attributes : Fields) : Except Error Document :=
  match attributes.keys.find? (Text.startsWith "_") with
  | some name => .error (.attributeReserved name table)
  | none => .ok ((attributes.erase tableField).foldl
      (fun doc entry => Dict.insert doc entry.1 entry.2)
      [(tableField, .str table), (idField, .str id)])

/-- The attributes in a document, without the store's own fields. -/
def attributes (doc : Document) : Fields :=
  [idField, revisionField, deletedField, tableField].foldl Dict.erase doc

/-- The attributes in a document, with the primary key under its name. -/
def restore (doc : Document) (primary : String) (key : Key) : Fields :=
  doc.attributes.insert primary key.toJson

/-- The revision of a document that came from the store. -/
def revision (doc : Document) : Except Error String :=
  match doc.revision? with
  | some rev => .ok rev
  | none => .error .documentWithoutRevision

/-- The attributes that a model is made of; it has to be an object. -/
def attributesOf : Json → Except Error Fields
  | .obj fields => .ok fields
  | v => .error (.notAnObject v)

end DocMapper.Document
