import DocMapper.Aggregate.Basic
import DocMapper.Condition.Basic
import DocMapper.Json.Shown
import DocMapper.Key.Basic
import DocMapper.Store.Error

/-!
# Errors

Everything that can go wrong between a model and the document store, as causes. Each cause
belongs to a kind, which callers act on, and has a wording. Failures of the store get their
kind from the status of the answer or, failing that, from its text.
-/

namespace DocMapper

/-- What callers can tell apart. -/
inductive ErrorKind where
  | conflict
  | notFound
  | index
  | connection
  | validation
  | internal
  | query
  | unsupported
  | paging
  | batch
  /-- Checked arithmetic that left its width. The program ends, and no caller gets to act on it. -/
  | overflow
deriving DecidableEq, Repr

namespace ErrorKind

/-- The name of a kind. -/
def name : ErrorKind → String
  | .conflict => "Conflict"
  | .notFound => "NotFound"
  | .index => "Index"
  | .connection => "Connection"
  | .validation => "Validation"
  | .internal => "Internal"
  | .query => "Query"
  | .unsupported => "Unsupported"
  | .paging => "Paging"
  | .batch => "Batch"
  | .overflow => "Panic"

/-- What every message of a kind begins with. -/
def lead : ErrorKind → String
  | .conflict => "conflict: "
  | .notFound => "not found: "
  | .index => "index error: "
  | .connection => "connection error: "
  | .validation => "validation error: "
  | .internal => "internal error: "
  | .query => "query error: "
  | .unsupported => "unsupported: "
  | .paging => "paging error: "
  | .batch | .overflow => ""

end ErrorKind

namespace StoreError

/-- The kind that a text betrays, whatever the case of its letters. -/
def kindOfText (text : String) : ErrorKind :=
  let lower := Text.lowerAscii text
  if Text.contains "econnrefused" lower || Text.contains "connection refused" lower then
    .connection
  else if Text.contains "already exist" lower || Text.contains "update conflict" lower then
    .conflict
  else if Text.contains "missing" lower || Text.contains "deleted" lower then .notFound
  else .internal

/-- Whether a rejected request lacks an index. -/
def lacksIndex (error reason : String) : Bool :=
  error = "no_usable_index" || Text.contains "no index exists" (Text.lowerAscii reason)

/-- The kind of a failure. -/
def kind : StoreError → ErrorKind
  | .http status error reason =>
    if status = 401 ∨ status = 409 ∨ status = 412 then .conflict
    else if status = 404 then .notFound
    else if status = 400 then if lacksIndex error reason then .index else .internal
    else kindOfText (detail (.http status error reason))
  | .transport message => kindOfText message
  | .overflow => .overflow

end StoreError

/-- One refused document of a batch: its position and what the store says. -/
structure BatchFailure where
  index : Nat
  error : String
  reason : Option String
deriving DecidableEq, Repr

/-- The wording of a refusal. -/
def BatchFailure.message (f : BatchFailure) : String :=
  "el " ++ toString f.index ++ ": " ++ f.error ++
    match f.reason with
    | some reason => " - " ++ reason
    | none => ""

/-- What went wrong. -/
inductive Error where
  /-- A failure of the store, with what was being worked on where that is known. -/
  | store (subject : Option String) (cause : StoreError)
  | batch (failures : List BatchFailure)
  /-- The ids that were asked for in vain, with the store's word on each. -/
  | recordsMissing (records : List (String × String))
  | condition (cause : QueryError)
  | aggregateCombined (kind : AggregateKind)
  | notNumeric (operation attr typeName : String)
  | partialRows
  | aggregatedRows
  | noAggregate
  | viewMissing (kind : String) (attr : Option String) (table : String)
  | notPaginable
  | totalUnavailable
  | countUnavailable
  | pageZero
  | bookmarkMissing
  | pageOutOfOrder (page current : Nat)
  | pageSizeZero
  | invalidModel (message : String)
  | targetMissing
  | tableEmpty
  | tableAmbiguous (table : String)
  | keyReserved (attr : String)
  | idAmbiguous (table : String)
  | attributeReserved (attr table : String)
  | foreignId (id table : String)
  | badNumber (raw : String) (cause : IntegerError)
  | badBigInt (raw : String) (cause : IntegerError)
  | keyMissing (attr : String)
  | revisionMissing (key : String)
  | lengthMismatch
  | documentWithoutRevision
  | documentWithoutId
  | notAnObject (v : Json)
  | serialization (message : String)
  | sequenceKind (name : String)
  | sequenceValue (name : String) (v : Option Json)
  | sequenceOverflow (name : String) (n : Int)
  /-- A product or a sum that 128 bits do not hold. The program ends. -/
  | overflow (operation : String)
deriving DecidableEq

namespace Error

/-- The kind that a cause belongs to. -/
def kind : Error → ErrorKind
  | .store _ cause => cause.kind
  | .batch _ => .batch
  | .recordsMissing _ => .notFound
  | .condition _ | .aggregateCombined _ | .notNumeric _ _ _ | .partialRows | .aggregatedRows
  | .noAggregate => .query
  | .viewMissing _ _ _ | .notPaginable | .totalUnavailable | .countUnavailable => .unsupported
  | .pageZero | .bookmarkMissing | .pageOutOfOrder _ _ | .pageSizeZero => .paging
  | .invalidModel _ => .validation
  | .targetMissing | .tableEmpty | .tableAmbiguous _ | .keyReserved _ | .idAmbiguous _
  | .attributeReserved _ _ | .foreignId _ _ | .badNumber _ _ | .badBigInt _ _ | .keyMissing _
  | .revisionMissing _ | .lengthMismatch | .documentWithoutRevision | .documentWithoutId
  | .notAnObject _ | .serialization _ | .sequenceKind _ | .sequenceValue _ _
  | .sequenceOverflow _ _ => .internal
  | .overflow _ => .overflow

/-- The wording of a cause, without the lead of its kind. -/
def detail : Error → String
  | .store none cause => cause.detail
  | .store (some subject) cause => subject ++ ": " ++ cause.detail
  | .batch failures => "\n".intercalate (failures.map BatchFailure.message)
  | .recordsMissing records => "records not found: " ++
    ", ".intercalate (records.map fun r => r.1 ++ " (" ++ r.2 ++ ")")
  | .condition cause => cause.message
  | .aggregateCombined kind =>
    kind.name ++ " aggregation cannot be combined with select or group by"
  | .notNumeric operation attr typeName =>
    operation ++ " operation on \"" ++ attr ++ "\" requires numeric values, but got " ++ typeName
  | .partialRows => "statement selects a subset of fields; use execute() for partial rows"
  | .aggregatedRows => "statement aggregates or groups; use execute() or aggregate()"
  | .noAggregate => "statement has no aggregate"
  | .viewMissing kind attr table =>
    "a " ++ kind ++ " view must be declared for CouchDB " ++ kind ++ " aggregation" ++
      (match attr with | some a => " on \"" ++ a ++ "\"" | none => "") ++
      " on table \"" ++ table ++ "\""
  | .notPaginable => "aggregate and grouped statements cannot be paginated"
  | .totalUnavailable => "The total pages api is not available for couchdb"
  | .countUnavailable => "The record count api is not available for couchdb"
  | .pageZero => "page numbers start at 1"
  | .bookmarkMissing => "No bookmark. Did you start in the first page?"
  | .pageOutOfOrder page current => "page " ++ toString page ++ " cannot follow page " ++
    toString current ++ "; bookmarks only move forward"
  | .pageSizeZero => "page size must be at least 1"
  | .invalidModel message => message
  | .targetMissing => "No statement target defined"
  | .tableEmpty => "table name must not be empty"
  | .tableAmbiguous table =>
    "table name " ++ Text.quoted table ++ " contains the id separator \"__\""
  | .keyReserved attr => "primary key attribute " ++ Text.quoted attr ++ " is reserved"
  | .idAmbiguous table => "table " ++ Text.quoted table ++ " contains the id separator \"__\""
  | .attributeReserved attr table => "attribute " ++ Text.quoted attr ++ " on table " ++
    Text.quoted table ++ " uses a reserved name"
  | .foreignId id table =>
    "id " ++ Text.quoted id ++ " does not belong to table " ++ Text.quoted table
  | .badNumber raw cause => "invalid numeric key " ++ Text.quoted raw ++ ": " ++ cause.message
  | .badBigInt raw cause => "invalid bigint key " ++ Text.quoted raw ++ ": " ++ cause.message
  | .keyMissing attr => "No value for the Id is defined under the property " ++ attr
  | .revisionMissing key => "No revision number found for record with id " ++ key
  | .lengthMismatch => "Ids and models must have the same length"
  | .documentWithoutRevision => "store returned a document without a revision"
  | .documentWithoutId => "document without an id"
  | .notAnObject v => "models must serialize to an object, got " ++ v.text
  | .serialization message => "serialization error: " ++ message
  | .sequenceKind name => "sequence " ++ name ++ " needs a numeric key kind"
  | .sequenceValue name v => "Failed to retrieve current value for sequence " ++ name ++ ": " ++
    Json.shownOptional v
  | .sequenceOverflow name n => "sequence " ++ name ++ " overflowed at " ++ toString n
  | .overflow operation => "attempt to " ++ operation ++ " with overflow"

/-- The wording of a cause. -/
def message (e : Error) : String := e.kind.lead ++ e.detail

end Error

end DocMapper
