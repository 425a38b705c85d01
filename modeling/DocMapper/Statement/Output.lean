import DocMapper.Adapter.Record
import DocMapper.Aggregate.Answer
import DocMapper.Aggregate.Compute
import DocMapper.Model.Basic
import DocMapper.Statement.Plan

/-!
# Running statements

What comes of a statement: rows, groups of rows or an aggregate. Rows are models, or parts
of documents where only some attributes were selected.
-/

namespace DocMapper

/-- Rows of an answer. -/
inductive Rows (α : Type) where
  | models (xs : List α)
  | parts (docs : List Document)
deriving DecidableEq

/-- The number of rows. -/
def Rows.size {α : Type} : Rows α → Nat
  | .models xs => xs.length
  | .parts docs => docs.length

/-- What comes of a statement. -/
inductive Output (α : Type) where
  | rows (rows : Rows α)
  | groups (groups : Dict (Rows α))
  | aggregate (answer : AggregateOutput)
deriving DecidableEq

namespace Adapter

/-! ## Aggregates -/

/-- Ask a view that answers an aggregate. -/
def askView (d : ViewDescriptor) : Action ViewAnswer := ask none (.view d.ddoc d.view d.options)

/-- The answer of views to an aggregate. -/
def viewAggregate (plan : ViewPlan) : Action AggregateOutput := do
  match plan.target with
  | .single d => return (← askView d).output plan.request.kind d.spec
  | .average sum count =>
    let sums ← askView sum
    let counts ← askView count
    return ViewAnswer.average sums counts

/-- The number of documents to ask for next, when so many are there already. -/
def nextPage (pageSize : Nat) (cap : Option UInt64) (found : Nat) : Nat :=
  match cap with
  | some cap => min pageSize (cap.toNat - found)
  | none => pageSize

/-- Find documents page after page. Every page but a staged one takes documents that no page
    before it did, so as many pages as there are documents and staged answers suffice. -/
def scanPages (cap : Option UInt64) (pageSize : Nat) :
    Nat → Query → List Document → Action (List Document)
  | 0, _, docs => pure docs
  | fuel + 1, page, docs => do
    let want := nextPage pageSize cap docs.length
    if want = 0 then return docs
    else
      let answer ← ask none (.find { page with limit := some (UInt64.ofNat want) })
      let docs := docs ++ answer.docs
      if answer.docs.length < want || answer.bookmark.isNone then return docs
      else scanPages cap pageSize fuel { page with bookmark := answer.bookmark, skip := none } docs

/-- Every document that a query matches, up to its limit. -/
def scan (query : Query) (pageSize : UInt64) : Action (List Document) := do
  let c := (← get).connection
  scanPages query.limit (max pageSize.toNat 1)
    ((c.staged .find).length + c.store.documents.length + 2) query []

end Adapter

namespace Model

variable {α : Type}

/-- The rows in documents. -/
def rowsOf (m : Model α) (selected : Bool) (docs : List Document) : Action (Rows α) := do
  if selected then return .parts docs
  else return .models (← docs.mapM m.ofDocument)

/-- Documents by the group they belong to, in order within each. -/
def groupDocuments (attr : String) (type : Option AttributeType) (docs : List Document) :
    Dict (List Document) :=
  docs.foldl (fun groups doc =>
    let key := Aggregate.groupKey (Dict.get? doc attr) type
    groups.insert key ((groups.get? key).getD [] ++ [doc])) []

/-- The rows or groups of rows that a query finds. -/
def findOutput (m : Model α) (query : Query) (groupBy : Option String) : Action (Output α) := do
  let docs := (← Adapter.find query).docs
  match groupBy with
  | none => return .rows (← m.rowsOf query.fields.isSome docs)
  | some attr =>
    let groups ← (groupDocuments attr (m.schema.attributeType? attr) docs).mapM fun (key, docs) =>
      return (key, ← m.rowsOf query.fields.isSome docs)
    return .groups groups

/-- Carry out a plan. -/
def carryOut (m : Model α) : Plan → Action (Output α)
  | .view plan => do return .aggregate (← Adapter.viewAggregate plan)
  | .find query (some request) _ => do
    let docs ← Adapter.scan query (← get).config.pageSize
    return .aggregate (← Aggregate.compute m.schema request docs)
  | .find query none groupBy => m.findOutput query groupBy

/-- The plan of a statement under the adapter's settings. -/
def planOf (s : Statement) : Action Plan := do
  let (plan, _) ← s.plan (← get).config.queryLimit
  return plan

/-- Run a statement. -/
def execute (m : Model α) (s : Statement) : Action (Output α) := do
  m.carryOut (← planOf s)

/-- Run a statement whose rows are models. -/
def fetch (m : Model α) (s : Statement) : Action (List α) := do
  match ← m.execute s with
  | .rows (.models xs) => return xs
  | .rows (.parts _) => throw .partialRows
  | _ => throw .aggregatedRows

/-- Run a statement that asks for an aggregate. -/
def aggregate (m : Model α) (s : Statement) : Action AggregateOutput := do
  match ← m.execute s with
  | .aggregate answer => return answer
  | _ => throw .noAggregate

/-- Run a query as it is given. -/
def raw (m : Model α) (query : Query) : Action (Rows α) := do
  m.rowsOf query.fields.isSome (← Adapter.find query).docs

end Model

end DocMapper
