import DocMapper.Model.Basic
import DocMapper.Sequence

/-!
# Repositories

Storing models: each operation turns models into records, has the adapter work on them and
turns the records back into models. Models that come without a key get one from the
sequence of their schema.
-/

namespace DocMapper.Model

variable {α : Type}

/-- The revision last seen for the record with a key. -/
def revision? (m : Model α) (key : Key) (table : RevisionTable) : Option String :=
  match Identity.documentId m.schema.table key with
  | .ok id => table.get? id
  | .error _ => none

/-- The model in a record whose revision is remembered. -/
def finish (m : Model α) (record : StoredRecord) : Action α := do
  Adapter.remember record.id record.rev
  m.ofAttributes record.attributes

/-- The model in a record that is gone, whose revision is forgotten. -/
def finishDeleted (m : Model α) (record : StoredRecord) : Action α := do
  Adapter.forget record.id
  m.ofAttributes record.attributes

/-- Reserve keys for models without one. -/
def reserve (m : Model α) (count : Nat) : Action (List Key) :=
  match m.schema.primaryKey.sequence, m.schema.sequenceName? with
  | some options, some name =>
    if count = 0 then pure []
    else (Sequence.ofOptions name m.schema.primaryKey.kind options).range count
  | _, _ => pure []

/-- Give the reserved keys to the models without one, in order. -/
def assign (m : Model α) : List Key → List Fields → Except Error (List (Key × Fields))
  | _, [] => .ok []
  | reserved, attributes :: rest =>
    match m.keyOf? attributes, reserved with
    | some key, reserved => (m.assign reserved rest).map ((key, attributes) :: ·)
    | none, key :: reserved =>
      (m.assign reserved rest).map ((key, attributes.insert m.keyField key.toJson) :: ·)
    | none, [] => .error (.keyMissing m.keyField)

/-- Keys for models that are to be created. -/
def assignKeys (m : Model α) (batch : List Fields) : Action (List (Key × Fields)) := do
  let reserved ← m.reserve (batch.filter fun a => (m.keyOf? a).isNone).length
  m.assign reserved batch

/-- Create the record of a model. -/
def create (m : Model α) (x : α) : Action α := do
  let attributes ← m.validAttributes x
  match ← m.assignKeys [attributes] with
  | (key, attributes) :: _ => m.finish (← Adapter.create m.schema.table key attributes)
  | [] => throw (.keyMissing m.keyField)

/-- Create the records of models. -/
def createAll (m : Model α) (xs : List α) : Action (List α) := do
  let batch ← m.validBatch xs
  let assigned ← m.assignKeys batch
  let records ← Adapter.createAll m.schema.table (assigned.map Prod.fst) (assigned.map Prod.snd)
  records.mapM m.finish

/-- Read the model with a key. -/
def read (m : Model α) (key : Key) : Action α := do
  m.finish (← Adapter.read m.schema.table key)

/-- Read the models with these keys. -/
def readAll (m : Model α) (keys : List Key) : Action (List α) := do
  (← Adapter.readAll m.schema.table keys).mapM m.finish

/-- Write a model over its record, which has to be the one last seen. -/
def update (m : Model α) (x : α) : Action α := do
  let attributes ← m.validAttributes x
  let key ← m.keyOf attributes
  let rev := m.revision? key (← get).revisions
  m.finish (← Adapter.update m.schema.table key attributes rev)

/-- Write models over their records. -/
def updateAll (m : Model α) (xs : List α) : Action (List α) := do
  let batch ← m.validBatch xs
  let keys ← m.keysOf batch
  let table := (← get).revisions
  let records ← Adapter.updateAll m.schema.table keys batch (keys.map fun k => m.revision? k table)
  records.mapM m.finish

/-- Delete the record with a key, and return its model. -/
def delete (m : Model α) (key : Key) : Action α := do
  m.finishDeleted (← Adapter.delete m.schema.table key)

/-- Delete the records with these keys, and return their models. -/
def deleteAll (m : Model α) (keys : List Key) : Action (List α) := do
  (← Adapter.deleteAll m.schema.table keys).mapM m.finishDeleted

end DocMapper.Model
