import DocMapper.Store.Error
import DocMapper.Store.Message

/-!
# Calls to the document store

The primitives that a document store offers, what each is asked and what it answers.
-/

namespace DocMapper

/-- The primitives of a document store. -/
inductive Primitive where
  | insert
  | get
  | destroy
  | bulk
  | fetch
  | find
  | createIndex
  | view
deriving DecidableEq, Repr

/-- What a primitive answers when it succeeds. -/
abbrev Primitive.Answer : Primitive → Type
  | .insert | .destroy => WriteReceipt
  | .get => Document
  | .bulk => List BulkOutcome
  | .fetch => List FetchedRow
  | .find => FindAnswer
  | .createIndex => IndexReceipt
  | .view => ViewAnswer

/-- A primitive with what it is asked. -/
inductive Call where
  /-- Write one document. -/
  | insert (doc : Document)
  | get (id : String)
  /-- Delete the document whose revision is given. -/
  | destroy (id rev : String)
  /-- Write many documents, each succeeding or failing on its own. -/
  | bulk (docs : List Document)
  | fetch (ids : List String)
  | find (query : Query)
  | createIndex (request : IndexRequest)
  | view (ddoc view : String) (options : ViewOptions)
deriving DecidableEq

/-- The primitive that is called. -/
abbrev Call.primitive : Call → Primitive
  | .insert _ => .insert
  | .get _ => .get
  | .destroy _ _ => .destroy
  | .bulk _ => .bulk
  | .fetch _ => .fetch
  | .find _ => .find
  | .createIndex _ => .createIndex
  | .view _ _ _ => .view

/-- What a call answers when it succeeds. -/
abbrev Call.Answer (c : Call) : Type := c.primitive.Answer

end DocMapper
