import DocMapper.Aggregate.Plan
import DocMapper.Condition.Compile
import DocMapper.Query.Basic
import DocMapper.Selector.Conjunction
import DocMapper.Statement.Clause

/-!
# Plans

What a statement will do: ask views for an aggregate, or find documents and go on from
there. A found document always belongs to the table of the statement's target.
-/

namespace DocMapper

/-- What a statement will do. -/
inductive Plan where
  /-- Find documents, and compute an aggregate of them or group them where that is asked. -/
  | find (query : Query) (manual : Option AggregateRequest) (groupBy : Option String)
  /-- Let views answer. -/
  | view (plan : ViewPlan)
deriving DecidableEq

namespace Selector

/-- Add a clause: to the members of a conjunction where there is one, else at the top. -/
def addClause (s : Selector) (attr : String) (clause : Json) : Selector :=
  match s.get? "$and" with
  | some (.arr members) => s.insert "$and" (.arr (members ++ [.obj [(attr, clause)]]))
  | _ => s.insert attr clause

/-- Ask that an attribute has a value greater than `null`, unless it has a clause. -/
def bindField (s : Selector) (attr : String) : Selector :=
  if s.constrains attr then s else s.addClause attr (.obj [("$gt", .null)])

end Selector

namespace Statement

/-- The filters and the restriction to a table as one condition, if there is any filter. -/
def condition? (table : String) : List Condition → Option Condition
  | [] => none
  | first :: rest =>
    some (.and (rest.foldl Condition.and first) (.leaf tableField .equal (.str table)))

/-- The selector that filters and a table ask for. -/
def filtered (table : String) (filters : List Condition) :
    Except Error (Selector × List Warning) :=
  let base := Selector.equals tableField (.str table)
  match condition? table filters with
  | none => .ok (base, [])
  | some condition =>
    match condition.compile with
    | .ok added => .ok (base.merge added)
    | .error e => .error (.condition e)

/-- The limit of a query: the one given, or a default one with a warning; an aggregate of
    documents needs all of them. -/
def limitFor (queryLimit : UInt64) (given : Option UInt64) (manual : Bool) :
    Option UInt64 × List Warning :=
  match given with
  | some n => (some n, [])
  | none => if manual then (none, []) else (some queryLimit, [.defaultLimit queryLimit])

/-- The plan to find documents of a table. -/
def findPlan (s : Statement) (queryLimit : UInt64) (table : String)
    (manual : Option AggregateRequest) : Except Error (Plan × List Warning) :=
  match filtered table (s.each Clause.filter?) with
  | .error e => .error e
  | .ok (selector, overridden) =>
    let names := (s.each Clause.select?).flatten
    let sort := s.each Clause.orderBy?
    let (limit, defaulted) := limitFor queryLimit (s.last? Clause.limit?) manual.isSome
    .ok (.find {
        selector := sort.foldl (fun selector field => selector.bindField field.field) selector
        fields := if names.isEmpty then none else some names
        sort
        limit
        skip := s.last? Clause.offset? } manual (s.last? Clause.groupBy?),
      overridden ++ defaulted)

/-- Whether the statement selects attributes or groups. -/
def shapesRows (s : Statement) : Bool :=
  !(s.each Clause.select?).flatten.isEmpty || (s.last? Clause.groupBy?).isSome

/-- The plan of a statement, with warnings. Views answer an aggregate without filters; with
    filters it is computed of the documents found, though the views have to be declared all
    the same. -/
def plan (s : Statement) (queryLimit : UInt64) : Except Error (Plan × List Warning) :=
  match s.last? Clause.target? with
  | none => .error .targetMissing
  | some schema =>
    match s.last? Clause.aggregate? with
    | none => s.findPlan queryLimit schema.table none
    | some request =>
      if s.shapesRows then .error (.aggregateCombined request.kind)
      else
        match ViewPlan.resolve schema request with
        | .error e => .error e
        | .ok plan =>
          if (s.each Clause.filter?).isEmpty then .ok (.view plan, [])
          else s.findPlan queryLimit schema.table (some request)

end Statement

end DocMapper
