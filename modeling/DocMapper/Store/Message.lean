import DocMapper.Query.Basic
import DocMapper.Selector.Matching

/-!
# Messages of the document store

What the primitives of a document store answer, and the requests that are more than a
document or a query.
-/

namespace DocMapper

/-- The answer to a write of one document. -/
structure WriteReceipt where
  ok : Bool
  id : String
  rev : String
deriving DecidableEq, Repr

/-- The outcome for one document of a batch: a new revision, or an error with its reason. -/
structure BulkOutcome where
  id : Option String := none
  rev : Option String := none
  error : Option String := none
  reason : Option String := none
deriving DecidableEq, Repr

/-- Whether the document was refused. -/
def BulkOutcome.isError (r : BulkOutcome) : Bool := r.error.isSome

/-- The outcome for one document that was asked for by id. -/
structure FetchedRow where
  id : String
  doc : Option Document := none
  error : Option String := none
deriving DecidableEq

/-- The answer to a query: documents, and where the next ones begin. -/
structure FindAnswer where
  docs : List Document
  bookmark : Option String := none
  warning : Option String := none
  executionStats : Option Json := none
deriving DecidableEq

/-- What an index covers. Fields are names, or names with a direction. -/
structure IndexDefinition where
  fields : List Json
  partialFilter : Option Selector := none
deriving DecidableEq

/-- The names of the indexed fields, without directions. -/
def IndexDefinition.fieldNames (d : IndexDefinition) : List String :=
  d.fields.filterMap fun field =>
    match field with
    | .str name => some name
    | .obj ((name, _) :: _) => some name
    | _ => none

/-- A request to create an index. -/
structure IndexRequest where
  index : IndexDefinition
  name : String
  ddoc : Option String := none
  kind : String := "json"
deriving DecidableEq

/-- The answer to such a request: whether the index was created or was there before. -/
structure IndexReceipt where
  result : String
  id : String
  name : String
deriving DecidableEq, Repr

/-- How a view is to be asked. -/
structure ViewOptions where
  reduce : Option Bool := none
  group : Option Bool := none
  includeDocs : Option Bool := none
  descending : Option Bool := none
  limit : Option UInt64 := none
  skip : Option UInt64 := none
  key : Option Json := none
deriving DecidableEq

/-- A row of a view. -/
structure ViewRow where
  id : Option String := none
  key : Json := .null
  value : Json := .null
  doc : Option Document := none
deriving DecidableEq

/-- The answer of a view. -/
structure ViewAnswer where
  rows : List ViewRow
  totalRows : Option UInt64 := none
  offset : Option UInt64 := none
deriving DecidableEq

end DocMapper
