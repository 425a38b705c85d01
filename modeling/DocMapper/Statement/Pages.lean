import DocMapper.Statement.Output

/-!
# Pages

The rows of a statement page by page. The store's bookmarks only lead forward, so the pages
have to be asked for in order; asking for the first page starts again. A limit of the
statement holds for all pages together.
-/

namespace DocMapper

/-- A statement that is being paged through. -/
structure Pager where
  query : Query
  size : UInt64
  limit : Option UInt64
  /-- The number of rows up to the current page. -/
  fetched : Nat := 0
  /-- The current page, zero before the first. -/
  current : Nat := 0
  /-- Where the next page begins. -/
  bookmark : Option String := none
deriving DecidableEq

/-- What is done with a pager through an adapter. -/
abbrev Paging := ExceptT Error (StateT Pager (StateM Adapter))

/-- An action that leaves the pager alone. -/
def Paging.lift {α : Type} (x : Action α) : Paging α := fun pager a =>
  let (result, a) := x a
  ((result, pager), a)

namespace Pager

/-- The query that finds a page, but for its limit. -/
def queryFor (p : Pager) (page : Nat) : Except Error Query :=
  if page = 0 then .error .pageZero
  else if page = 1 then .ok { p.query with bookmark := none }
  else
    match p.bookmark with
    | none => .error .bookmarkMissing
    | some bookmark =>
      if page = p.current + 1 then .ok { p.query with bookmark := some bookmark, skip := none }
      else .error (.pageOutOfOrder page p.current)

/-- The number of rows before a page. -/
def before (p : Pager) (page : Nat) : Nat := if page = 1 then 0 else p.fetched

/-- The number of rows that a page may have. -/
def room (p : Pager) (page : Nat) : UInt64 :=
  match p.limit with
  | none => p.size
  | some limit => UInt64.ofNat (min p.size.toNat (limit.toNat - p.before page))

/-- The pager behind a page that the store answered. -/
def turned (p : Pager) (page : Nat) (answer : FindAnswer) : Pager :=
  { p with
    bookmark := answer.bookmark
    fetched := p.before page + answer.docs.length
    current := page }

/-- The number of pages. The store does not count them. -/
def total (_ : Pager) : Except Error Nat := .error .totalUnavailable

/-- The number of rows on all pages. The store does not count them. -/
def count (_ : Pager) : Except Error Nat := .error .countUnavailable

end Pager

namespace Model

variable {α : Type}

/-- The rows of a page. -/
def page (m : Model α) (n : Nat) : Paging (Rows α) := do
  let pager ← getThe Pager
  let query ← pager.queryFor n
  let selected := query.fields.isSome
  if pager.room n = 0 then
    set { pager with current := n }
    Paging.lift (m.rowsOf selected [])
  else
    let answer ← Paging.lift (Adapter.find { query with limit := some (pager.room n) })
    set (pager.turned n answer)
    Paging.lift (m.rowsOf selected answer.docs)

/-- The rows of the page behind the current one. -/
def nextPage (m : Model α) : Paging (Rows α) := do
  m.page ((← getThe Pager).current + 1)

/-- A pager for the rows of a statement. -/
def paginate (s : Statement) (size : UInt64) : Action Pager := do
  if size = 0 then throw .pageSizeZero
  else
    match ← planOf s with
    | .find query none none => return { query, size, limit := s.last? Clause.limit? }
    | _ => throw .notPaginable

end Model

end DocMapper
