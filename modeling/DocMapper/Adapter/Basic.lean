import DocMapper.Adapter.Config
import DocMapper.Adapter.RevisionTable
import DocMapper.Document.Envelope
import DocMapper.Store.Connection

/-!
# Adapters

An adapter speaks to a document store on behalf of models. It knows the models that were
registered, and it remembers the revision it last saw of every record, since a record can be
replaced only over its current revision.
-/

namespace DocMapper

/-- An adapter with all that it knows. -/
structure Adapter where
  connection : Connection
  config : Config := {}
  /-- The registered schemas by table. -/
  registry : Dict Schema := []
  revisions : RevisionTable := {}

/-- What is done through an adapter. What was done before an error stays done. -/
abbrev Action := ExceptT Error (StateM Adapter)

/-- What comes of an action, success or error, as a value. -/
def Action.outcome {α : Type} (x : Action α) : Action (Except Error α) := fun a =>
  let (result, a) := x a
  (.ok result, a)

namespace Adapter

/-- An adapter for a store. -/
def ofStore (store : MemoryStore) (config : Config) : Adapter :=
  { connection := { store }, config,
    revisions := { capacity := config.revisionCapacity.toNat } }

/-- Make a call to the store, whatever comes of it. -/
def attempt (call : Call) : StateM Adapter (Except StoreError call.Answer) := fun a =>
  let (answer, connection) := a.connection.perform call
  (answer, { a with connection })

/-- Make a call to the store. A failure names the subject where one is given. -/
def ask (subject : Option String) (call : Call) : Action call.Answer := do
  match ← attempt call with
  | .ok answer => pure answer
  | .error cause => throw (.store subject cause)

/-- Remember the revision of a document. -/
def remember (id rev : String) : Action Unit :=
  modify fun a => { a with revisions := a.revisions.record id rev }

/-- Forget the revision of a document. -/
def forget (id : String) : Action Unit :=
  modify fun a => { a with revisions := a.revisions.forget id }

/-- Make a schema known. -/
def register (schema : Schema) : Action Unit := do
  schema.check
  modify fun a => { a with registry := a.registry.insert schema.table schema }

/-- The registered schemas in the order of their tables. -/
def schemas (a : Adapter) : List Schema := a.registry.values

end Adapter

end DocMapper
