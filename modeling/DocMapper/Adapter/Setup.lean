import DocMapper.Adapter.Basic
import DocMapper.Design.Document
import DocMapper.Design.Index

/-!
# Setting up a store

Creating the indexes and design documents that models need. What is there already stays as
it is: indexes are known by name, design documents by the views they hold.
-/

namespace DocMapper.Adapter

/-- Whether a failure to create an index only says that the index is there. -/
def alreadyExists (e : Error) : Bool := e.kind = .conflict && Text.contains "exist" e.detail

/-- Create one index. -/
def createIndex (r : IndexRequest) : Action Unit := do
  match ← attempt (.createIndex r) with
  | .ok _ => pure ()
  | .error cause =>
    let e := Error.store (some r.name) cause
    if alreadyExists e then pure () else throw e

/-- Create the indexes that models need. -/
def index (schemas : List Schema) : Action Unit := (IndexRequest.generate schemas).forM createIndex

/-- Whether a document holds exactly these views. -/
def holdsViews (doc : Document) (views : Dict ViewDefinition) : Bool :=
  (Dict.get? doc "views").bind DesignDocument.decodeViews? = some views

/-- Write a design document. -/
def putDesign (d : DesignDocument) : Action Unit := do
  let _ ← ask (some d.id) (.insert d.fields)

/-- Bring a design document up to date. -/
def updateDesign (d : DesignDocument) : Action Unit := do
  match ← attempt (.get d.id) with
  | .ok existing =>
    if holdsViews existing d.views then pure ()
    else
      let rev ← Document.revision existing
      putDesign { d with rev := some rev }
  | .error cause =>
    if cause.status? = some 404 then putDesign d else throw (.store (some d.id) cause)

/-- Create what all registered models need. -/
def setUp : Action Unit := do
  let schemas := (← get).schemas
  index schemas
  (DesignDocument.generate schemas).forM updateDesign

end DocMapper.Adapter
