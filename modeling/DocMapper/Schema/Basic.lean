import DocMapper.Key.Identity
import DocMapper.Schema.View

/-!
# Schemas

Everything to know about a model: its table, its primary key, the types of its attributes,
and the indexes and views that it wants.
-/

namespace DocMapper

/-- The type of an attribute. -/
inductive AttributeType where
  | text
  | number
  | boolean
  | date
  | json
deriving DecidableEq, Repr

/-- How a sequence of keys counts. -/
structure SequenceOptions where
  name : Option String := none
  startWith : Signed 128 := Signed.wrap 128 0
  incrementBy : Signed 128 := Signed.wrap 128 1
deriving DecidableEq

/-- The primary key of a model; with a sequence, missing keys are generated. -/
structure PrimaryKey where
  attr : String
  kind : KeyKind
  sequence : Option SequenceOptions := none
deriving DecidableEq

/-- An index on an attribute, possibly composed with others. No directions stand for
    both. -/
structure IndexSpec where
  attr : String
  compositions : List String := []
  directions : List Direction := []
deriving DecidableEq, Repr

/-- The schema of a model. -/
structure Schema where
  table : String
  primaryKey : PrimaryKey
  attributes : Dict AttributeType := []
  indexes : List IndexSpec := []
  defaultQueryAttributes : List String := []
  views : List ViewSpec := []
deriving DecidableEq

namespace Schema

/-- The declared type of an attribute. -/
def attributeType? (s : Schema) (attr : String) : Option AttributeType := s.attributes.get? attr

/-- The declared views of a kind, on an attribute where one is given. -/
def viewsOf (s : Schema) (kind : ViewKind) (attr : Option String) : List ViewSpec :=
  s.views.filter fun v => v.kind = kind && attr.all (v.attr = ·)

/-- The name of the sequence behind generated keys. -/
def sequenceName? (s : Schema) : Option String :=
  s.primaryKey.sequence.map fun options =>
    options.name.getD (s.table ++ "_" ++ s.primaryKey.attr)

/-- Refuse a schema whose document ids or documents would be ambiguous. -/
def check (s : Schema) : Except Error Unit :=
  if s.table = "" then .error .tableEmpty
  else if Text.contains separator s.table then .error (.tableAmbiguous s.table)
  else if Text.startsWith "_" s.primaryKey.attr then .error (.keyReserved s.primaryKey.attr)
  else .ok ()

end Schema

end DocMapper
