import DocMapper.Adapter.Basic

/-!
# Records

Creating, reading, updating and deleting records of a table, one at a time or many at once.
A record is the attributes of a model with the id and the revision of its document.
-/

namespace DocMapper

/-- A stored record. -/
structure StoredRecord where
  id : String
  key : Key
  rev : String
  attributes : Fields
deriving DecidableEq

namespace Adapter

/-! ## Single records -/

/-- The attributes in a document. Where the table is registered the primary key is among
    them. -/
def attributesOf (registry : Dict Schema) (table : String) (key : Key) (doc : Document) : Fields :=
  match registry.get? table with
  | some schema => doc.restore schema.primaryKey.attr key
  | none => doc.attributes

/-- The record in a document. -/
def recordOf (registry : Dict Schema) (table : String) (key : Key) (doc : Document) :
    Except Error StoredRecord := do
  let id ← Identity.documentId table key
  let rev ← doc.revision
  return ⟨id, key, rev, attributesOf registry table key doc⟩

/-- Create a record. -/
def create (table : String) (key : Key) (attributes : Fields) : Action StoredRecord := do
  let id ← Identity.documentId table key
  let doc ← Document.enclose table id attributes
  let receipt ← ask (some id) (.insert doc)
  return ⟨id, key, receipt.rev, attributes⟩

/-- Read a record. -/
def read (table : String) (key : Key) : Action StoredRecord := do
  let id ← Identity.documentId table key
  let doc ← ask (some id) (.get id)
  recordOf (← get).registry table key doc

/-- Replace a record of which this is the current revision. -/
def update (table : String) (key : Key) (attributes : Fields) (rev : Option String) :
    Action StoredRecord := do
  match rev with
  | none => throw (.revisionMissing key.toText)
  | some rev =>
    let id ← Identity.documentId table key
    let doc ← Document.enclose table id attributes
    let receipt ← ask (some id) (.insert (Dict.insert doc revisionField (.str rev)))
    return ⟨id, key, receipt.rev, attributes⟩

/-- Delete a record, and return it as it was. -/
def delete (table : String) (key : Key) : Action StoredRecord := do
  let id ← Identity.documentId table key
  let doc ← ask (some id) (.get id)
  let record ← recordOf (← get).registry table key doc
  let _ ← ask (some id) (.destroy id record.rev)
  return record

/-! ## Many records at once -/

/-- The refusals among the outcomes of a batch. -/
def failures (outcomes : List BulkOutcome) : List BatchFailure :=
  outcomes.zipIdx.filterMap fun (outcome, index) =>
    outcome.error.map fun error => ⟨index, error, outcome.reason⟩

/-- Write a batch of documents, all of which have to be accepted. -/
def writeAll (docs : List Document) : Action (List BulkOutcome) := do
  let outcomes ← ask none (.bulk docs)
  match failures outcomes with
  | [] => return outcomes
  | refused => throw (.batch refused)

/-- Refuse lists of different lengths. -/
def checkLengths (m n : Nat) : Except Error Unit :=
  if m = n then .ok () else .error .lengthMismatch

/-- The ids of the records with these keys. -/
def documentIds (table : String) (keys : List Key) : Except Error (List String) :=
  keys.mapM (Identity.documentId table)

/-- The records of a batch that was written. -/
def written (ids : List String) (keys : List Key) (attributes : List Fields)
    (outcomes : List BulkOutcome) : List StoredRecord :=
  (((ids.zip keys).zip attributes).zip outcomes).map fun (((id, key), fields), outcome) =>
    ⟨id, key, outcome.rev.getD "", fields⟩

/-- Create records. -/
def createAll (table : String) (keys : List Key) (attributes : List Fields) :
    Action (List StoredRecord) := do
  checkLengths keys.length attributes.length
  let ids ← documentIds table keys
  let docs ← (ids.zip attributes).mapM fun (id, fields) => Document.enclose table id fields
  return written ids keys attributes (← writeAll docs)

/-- The key of the first record without a revision. -/
def firstWithoutRevision? (keys : List Key) (revs : List (Option String)) : Option Key :=
  ((keys.zip revs).find? fun entry => entry.2.isNone).map Prod.fst

/-- The document of a record to be replaced. -/
def replacement (table : String) (id : String) (attributes : Fields) (rev : Option String) :
    Except Error Document := do
  let doc ← Document.enclose table id attributes
  return match rev with
    | some rev => Dict.insert doc revisionField (.str rev)
    | none => doc

/-- Replace records of which these are the current revisions. -/
def updateAll (table : String) (keys : List Key) (attributes : List Fields)
    (revs : List (Option String)) : Action (List StoredRecord) := do
  checkLengths keys.length attributes.length
  checkLengths keys.length revs.length
  match firstWithoutRevision? keys revs with
  | some key => throw (.revisionMissing key.toText)
  | none =>
    let ids ← documentIds table keys
    let docs ← ((ids.zip attributes).zip revs).mapM fun ((id, fields), rev) =>
      replacement table id fields rev
    return written ids keys attributes (← writeAll docs)

/-- The ids that a fetch did not find, with the reasons. -/
def missing (rows : List FetchedRow) : List (String × String) :=
  (rows.filter fun row => row.doc.isNone).map fun row => (row.id, row.error.getD "missing")

/-- The documents of records, all of which have to be there. -/
def fetchAll (table : String) (keys : List Key) : Action (List Document) := do
  let ids ← documentIds table keys
  let rows ← ask none (.fetch ids)
  match missing rows with
  | [] => return rows.filterMap FetchedRow.doc
  | absent => throw (.recordsMissing absent)

/-- Read records. -/
def readAll (table : String) (keys : List Key) : Action (List StoredRecord) := do
  let docs ← fetchAll table keys
  let registry := (← get).registry
  (keys.zip docs).mapM fun (key, doc) => recordOf registry table key doc

/-- Delete records, and return them as they were. -/
def deleteAll (table : String) (keys : List Key) : Action (List StoredRecord) := do
  let records ← readAll table keys
  let _ ← writeAll (records.map fun r => MemoryStore.tombstone r.id r.rev)
  return records

/-! ## Queries as they are given -/

/-- Ask for the documents of a query. -/
def find (query : Query) : Action FindAnswer := ask none (.find query)

/-- Ask a view. -/
def view (ddoc name : String) (options : ViewOptions) : Action ViewAnswer :=
  ask (some (ddoc ++ "/" ++ name)) (.view ddoc name options)

end Adapter

end DocMapper
