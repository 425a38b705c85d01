import DocMapper.Json.Text
import DocMapper.Store.Call
import DocMapper.Store.Revision

/-!
# The store in memory

A document store that keeps everything in memory: documents in the order of their ids,
indexes by name, and views whose rows are given to it, since it cannot run map functions.

A document is written only over the revision that it carries itself; a new document carries
none. A deleted document leaves a tombstone, so that revisions keep counting when the
document is created again.
-/

namespace DocMapper

/-- A document store in memory. The digest makes up the digits of a revision, from the
    previous revision and the document that is written. -/
structure MemoryStore where
  digest : Option String → Document → UInt64
  documents : Dict Document := []
  indexes : Dict IndexRequest := []
  views : List ((String × String) × ViewAnswer) := []
  /-- How often each primitive was called. -/
  calls : Primitive → Nat := fun _ => 0

namespace MemoryStore

/-- A digest of the texts of revision and document. -/
def textDigest (previous : Option String) (doc : Document) : UInt64 :=
  Revision.fingerprint (previous.getD "" ++ "\n" ++ (Json.obj doc).text)

/-- The store without documents. -/
def empty : MemoryStore := { digest := textDigest }

/-! ## Documents -/

/-- The revision that a write replaces. A live document has to be written with its current
    revision; a deleted one may be, and a document that never was may not be written with
    any. -/
def replaced (current : Option Document) (supplied : Option String) :
    Except StoreError (Option String) :=
  match current with
  | none => if supplied.isSome then .error .conflict else .ok none
  | some existing =>
    if existing.isDeleted then
      if supplied.isSome && supplied ≠ existing.revision? then .error .conflict
      else .ok existing.revision?
    else if supplied.isNone || supplied ≠ existing.revision? then .error .conflict
    else .ok existing.revision?

/-- What is kept of a deleted document. -/
def tombstone (id rev : String) : Document :=
  [(deletedField, .bool true), (idField, .str id), (revisionField, .str rev)]

/-- Write a document. One that is marked as deleted becomes a tombstone, provided there is
    something to delete. -/
def put (digest : Option String → Document → UInt64) (documents : Dict Document)
    (doc : Document) : Except StoreError (WriteReceipt × Dict Document) :=
  match doc.id? with
  | none => .error (.badRequest "bad_request" "Document must have an _id")
  | some id =>
    match replaced (documents.get? id) doc.revision? with
    | .error e => .error e
    | .ok previous =>
      if doc.isDeleted && previous.isNone then .error (.notFound "missing")
      else
        let rev := Revision.text ((previous.map Revision.generation).getD 0 + 1)
          (digest previous doc)
        .ok (⟨true, id, rev⟩, documents.insert id
          (if doc.isDeleted then tombstone id rev else Dict.insert doc revisionField (.str rev)))

/-- Delete the live document with an id. -/
def remove (digest : Option String → Document → UInt64) (documents : Dict Document)
    (id rev : String) : Except StoreError (WriteReceipt × Dict Document) :=
  match documents.get? id with
  | none => .error (.notFound "missing")
  | some existing =>
    if existing.isDeleted then .error (.notFound "deleted")
    else put digest documents (tombstone id rev)

/-- The outcome of a write as part of a batch. -/
def outcome (doc : Document) : Except StoreError WriteReceipt → BulkOutcome
  | .ok receipt => { id := some receipt.id, rev := some receipt.rev }
  | .error (.http _ error reason) => { id := doc.id?, error := some error, reason := some reason }
  | .error e => { id := doc.id?, error := some "unknown_error", reason := some e.detail }

/-- Write documents one after another; a refused one changes nothing. -/
def putAll (digest : Option String → Document → UInt64) :
    Dict Document → List Document → List BulkOutcome × Dict Document
  | documents, [] => ([], documents)
  | documents, doc :: rest =>
    match put digest documents doc with
    | .ok (receipt, documents) =>
      let (outcomes, documents) := putAll digest documents rest
      (outcome doc (.ok receipt) :: outcomes, documents)
    | .error e =>
      let (outcomes, documents) := putAll digest documents rest
      (outcome doc (.error e) :: outcomes, documents)

/-- The live document with an id. -/
def lookUp (documents : Dict Document) (id : String) : Except StoreError Document :=
  match documents.get? id with
  | none => .error (.notFound "missing")
  | some doc => if doc.isDeleted then .error (.notFound "deleted") else .ok doc

/-- The live document with an id, as a row of an answer. -/
def fetchRow (documents : Dict Document) (id : String) : FetchedRow :=
  match lookUp documents id with
  | .ok doc => { id, doc := some doc }
  | .error _ => { id, error := some "not_found" }

/-- The number of live documents. -/
def size (s : MemoryStore) : Nat := (s.documents.filter fun entry => !entry.2.isDeleted).length

/-! ## Queries -/

/-- The order of two documents by a field. A missing field comes before every value. -/
def compareAt (a b : Document) (s : SortField) : Ordering :=
  let order := Json.collateOptional (a.at? s.field) (b.at? s.field)
  match s.direction with
  | .asc => order
  | .desc => order.swap

/-- The order of two documents by fields, of which the first that differs decides. -/
def compareBy (a b : Document) : List SortField → Ordering
  | [] => .eq
  | s :: rest => (compareAt a b s).then (compareBy a b rest)

/-- The documents that a selector matches, among those that can be found: live ones that are
    not design documents. -/
def matching (selector : Selector) : Dict Document → Except StoreError (List Document)
  | [] => .ok []
  | (id, doc) :: rest =>
    if Text.startsWith "_design/" id || doc.isDeleted then matching selector rest
    else
      match selector.matches? doc with
      | .error e => .error (.badRequest "invalid_operator" e.message)
      | .ok held => (matching selector rest).map fun docs => if held then doc :: docs else docs

/-- What a bookmark begins with; the position follows. -/
def bookmarkLead : String := "g1A"

/-- The position of a bookmark. -/
def position? (bookmark : String) : Option UInt64 :=
  (Text.after? bookmarkLead bookmark).bind Reading.unsigned64?

/-- The position so many documents further, if 64 bits hold it. -/
def further (position skipped : UInt64) : Except StoreError UInt64 :=
  if position.toNat + skipped.toNat < UInt64.size then .ok (position + skipped)
  else .error .overflow

/-- The position where an answer begins. -/
def start (q : Query) : Except StoreError UInt64 :=
  match q.bookmark with
  | none => .ok (q.skip.getD 0)
  | some bookmark =>
    match position? bookmark with
    | some n => further n (q.skip.getD 0)
    | none => .error (.badRequest "invalid_bookmark" ("Invalid bookmark value: " ++ bookmark))

/-- Keep only the fields that a query asks for. -/
def project (fields : Option (List String)) (doc : Document) : Document :=
  match fields with
  | none => doc
  | some names => doc.filter fun entry => entry.1 ∈ names

/-- Whether some index covers a field. -/
def covers (indexes : Dict IndexRequest) (field : String) : Bool :=
  indexes.any fun entry => field ∈ entry.2.index.fieldNames

/-- The number of documents in an answer to a query without a limit. -/
def usualLimit : UInt64 := 25

/-- Answer a query: the matching documents in order, from the start on, up to the limit. The
    bookmark is the position behind the last of them, which is the start if there is none and else
    a position in a list. -/
def answerQuery (s : MemoryStore) (q : Query) : Except StoreError FindAnswer :=
  if q.sort.all fun field => covers s.indexes field.field then do
    let hits ← matching q.selector s.documents
    let sorted := hits.mergeSort fun a b => compareBy a b q.sort != .gt
    let start ← start q
    let docs := ((sorted.drop start.toNat).take (q.limit.getD usualLimit).toNat).map
      (project q.fields)
    return {
      docs
      bookmark := some (bookmarkLead ++ toString (start.toNat + docs.length))
      warning := if s.indexes.isEmpty then
        some "No matching index found, create an index to optimize query time." else none }
  else throw (.badRequest "no_usable_index"
    "No index exists for this sort, try indexing by the sort fields.")

/-! ## Indexes and views -/

/-- Create an index, unless there is one with its name. -/
def addIndex (indexes : Dict IndexRequest) (r : IndexRequest) :
    Except StoreError (IndexReceipt × Dict IndexRequest) :=
  if r.index.fields.isEmpty then .error (.badRequest "bad_request" "Index fields must not be empty")
  else
    let id := "_design/" ++ r.ddoc.getD r.name
    if indexes.contains r.name then .ok (⟨"exists", id, r.name⟩, indexes)
    else .ok (⟨"created", id, r.name⟩, indexes.insert r.name r)

/-- Give a view its rows. -/
def stubView (s : MemoryStore) (ddoc view : String) (answer : ViewAnswer) : MemoryStore :=
  { s with views := ((ddoc, view), answer) :: s.views }

/-- Answer a view: the rows it was given, with their documents only where they are asked
    for. -/
def answerView (s : MemoryStore) (ddoc view : String) (options : ViewOptions) :
    Except StoreError ViewAnswer :=
  match s.views.lookup (ddoc, view) with
  | none => .error (.notFound "missing_named_view")
  | some answer =>
    .ok (if options.includeDocs = some true then answer
      else { answer with rows := answer.rows.map fun row => { row with doc := none } })

/-! ## Calls -/

/-- Count a call of a primitive. -/
def count (s : MemoryStore) (p : Primitive) : MemoryStore :=
  { s with calls := fun q => if q = p then s.calls q + 1 else s.calls q }

/-- Keep what a write of documents did. -/
def keepDocuments {α : Type} (s : MemoryStore) :
    Except StoreError (α × Dict Document) → Except StoreError α × MemoryStore
  | .ok (a, documents) => (.ok a, { s with documents })
  | .error e => (.error e, s)

/-- What a call answers and leaves behind. -/
def effect (s : MemoryStore) : (c : Call) → Except StoreError c.Answer × MemoryStore
  | .insert doc => s.keepDocuments (put s.digest s.documents doc)
  | .get id => (lookUp s.documents id, s)
  | .destroy id rev => s.keepDocuments (remove s.digest s.documents id rev)
  | .bulk docs => s.keepDocuments (.ok (putAll s.digest s.documents docs))
  | .fetch ids => (.ok (ids.map (fetchRow s.documents)), s)
  | .find query => (s.answerQuery query, s)
  | .createIndex request =>
    match addIndex s.indexes request with
    | .ok (receipt, indexes) => (.ok receipt, { s with indexes })
    | .error e => (.error e, s)
  | .view ddoc view options => (s.answerView ddoc view options, s)

/-- Carry out a call. -/
def perform (s : MemoryStore) (c : Call) : Except StoreError c.Answer × MemoryStore :=
  (s.count c.primitive).effect c

end MemoryStore

end DocMapper
