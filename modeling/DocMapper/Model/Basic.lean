import DocMapper.Adapter.Basic

/-!
# Models

A model type says how its values are written to JSON and read back, what schema they have,
and which of them may be stored.
-/

namespace DocMapper

/-- A type of models. Failing to write, to read or to be valid comes with a text. -/
structure Model (α : Type) where
  schema : Schema
  encode : α → Except String Json
  decode : Json → Except String α
  validate : α → Except String Unit

namespace Model

variable {α : Type}

/-- The attributes of a model. -/
def attributesOf (m : Model α) (x : α) : Except Error Fields :=
  match m.encode x with
  | .ok v => Document.attributesOf v
  | .error message => .error (.serialization message)

/-- The attributes of a model that may be stored. -/
def validAttributes (m : Model α) (x : α) : Except Error Fields :=
  match m.validate x with
  | .ok _ => m.attributesOf x
  | .error message => .error (.invalidModel message)

/-- The attributes of models, all of which may be stored. -/
def validBatch (m : Model α) (xs : List α) : Except Error (List Fields) :=
  xs.mapM m.validAttributes

/-- The model that attributes make. -/
def ofAttributes (m : Model α) (attributes : Fields) : Except Error α :=
  match m.decode (.obj attributes) with
  | .ok x => .ok x
  | .error message => .error (.serialization message)

/-- The attribute that holds the primary key. -/
def keyField (m : Model α) : String := m.schema.primaryKey.attr

/-- The key among the attributes of a model; `null` stands for no key. -/
def keyOf? (m : Model α) (attributes : Fields) : Option Key :=
  ((attributes.get? m.keyField).filter fun v => !v.isNull).bind
    (Key.ofJson? m.schema.primaryKey.kind)

/-- The key among the attributes of a model that has to have one. -/
def keyOf (m : Model α) (attributes : Fields) : Except Error Key :=
  match m.keyOf? attributes with
  | some key => .ok key
  | none => .error (.keyMissing m.keyField)

/-- The keys among the attributes of models. -/
def keysOf (m : Model α) (batch : List Fields) : Except Error (List Key) := batch.mapM m.keyOf

/-- The model in a document of its table, and the revision that came with it. -/
def ofDocument (m : Model α) (doc : Document) : Action α := do
  match doc.id? with
  | none => throw .documentWithoutId
  | some id =>
    let key ← Identity.keyOf m.schema.table m.schema.primaryKey.kind id
    match doc.revision? with
    | some rev => Adapter.remember id rev
    | none => pure ()
    m.ofAttributes (doc.restore m.keyField key)

end Model

end DocMapper
