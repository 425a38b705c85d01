import DocMapper.Proofs.Statement.Scan
import DocMapper.Statement.Pages

/-!
# Pages of a statement

A pager asks for one page after another with the bookmark of the page before. Main statement:
wherever a pager stands, the pages from the first on bring the rows of the statement in order,
each of them once, up to its limit.
-/

namespace DocMapper

open Adapter MemoryStore

/-- The number of rows that so many pages may have together. -/
def pagesRoom (size : UInt64) (limit : Option UInt64) (pages : Nat) : Nat :=
  match limit with
  | none => pages * size.toNat
  | some limit => min limit.toNat (pages * size.toNat)

theorem pagesRoom_zero (size : UInt64) (limit : Option UInt64) : pagesRoom size limit 0 = 0 := by
  cases limit with
  | none => exact Nat.zero_mul _
  | some limit => rw [pagesRoom, Nat.zero_mul, Nat.min_zero]

/-- One more page has room for what is left of the limit, and no more than its size. -/
theorem pagesRoom_succ (size : UInt64) (limit : Option UInt64) (pages : Nat) :
    pagesRoom size limit (pages + 1) = pagesRoom size limit pages +
      nextPage size.toNat limit (pagesRoom size limit pages) := by
  cases limit with
  | none => exact Nat.succ_mul _ _
  | some limit =>
    simp only [pagesRoom, nextPage, Nat.succ_mul]
    omega

namespace Statement

variable {s : Statement} {queryLimit : UInt64} {table : String} {query : Query}
  {groupBy : Option String} {warnings : List Warning}

/-- A clause of another kind does not count. -/
theorem each_add_of_none {α : Type} {part : Clause → Option α} {c : Clause} (hpart : part c = none)
    (s : Statement) : (s.add c).each part = s.each part := by
  rw [each, add, List.filterMap_append, List.filterMap_cons_none hpart, List.filterMap_nil,
    List.append_nil]
  rfl

/-- A clause of another kind does not take the last place. -/
theorem last?_add_of_none {α : Type} {part : Clause → Option α} {c : Clause} (hpart : part c = none)
    (s : Statement) : (s.add c).last? part = s.last? part := by
  rw [last?, each_add_of_none hpart, last?]

theorem last?_limit_add (s : Statement) (limit : UInt64) :
    (s.add (.limit limit)).last? Clause.limit? = some limit := by
  have heach : (s.add (.limit limit)).each Clause.limit? = s.each Clause.limit? ++ [limit] := by
    rw [each, add, List.filterMap_append]
    rfl
  rw [last?, heach, List.getLast?_concat]

/-- The plan asks for the aggregate that it was made for. -/
theorem asked_eq_of_findPlan {manual asked : Option AggregateRequest}
    (hplan : s.findPlan queryLimit table manual = .ok (.find query asked groupBy, warnings)) :
    asked = manual := by
  unfold findPlan at hplan
  split at hplan <;> cases hplan
  rfl

/-- With another limit, and under whatever settings, the same rows are asked for but for the
    limit. -/
theorem findPlan_rows
    (hplan : s.findPlan queryLimit table none = .ok (.find query none groupBy, warnings)) :
    query.bookmark = none ∧ query.skip = s.last? Clause.offset? ∧
      ∀ limit any : UInt64, ∃ later, (s.add (.limit limit)).findPlan any table none =
        .ok (.find { query with limit := some limit } none groupBy, later) := by
  unfold findPlan at hplan
  split at hplan
  · cases hplan
  · rename_i selector overridden hfiltered
    cases hplan
    refine ⟨rfl, rfl, fun limit any => ⟨overridden ++ [], ?_⟩⟩
    have hfiltered' := (congrArg (filtered table)
      (each_add_of_none (c := .limit limit) rfl s)).trans hfiltered
    simp only [findPlan, hfiltered', last?_limit_add]
    rw [each_add_of_none rfl, each_add_of_none rfl, last?_add_of_none rfl, last?_add_of_none rfl]
    rfl

/-- A plan to find rows is made from the offset of the statement. With another limit it asks for
    the same rows but for the limit. -/
theorem plan_find_rows (hplan : s.plan queryLimit = .ok (.find query none groupBy, warnings)) :
    query.bookmark = none ∧ query.skip = s.last? Clause.offset? ∧
      ∀ limit any : UInt64, ∃ later, (s.add (.limit limit)).plan any =
        .ok (.find { query with limit := some limit } none groupBy, later) := by
  unfold plan at hplan
  split at hplan
  · cases hplan
  · rename_i schema htarget
    split at hplan
    · rename_i haggregate
      obtain ⟨hbookmark, hskip, hlimited⟩ := findPlan_rows hplan
      refine ⟨hbookmark, hskip, fun limit any => ?_⟩
      have htarget' := (last?_add_of_none (c := .limit limit) rfl s).trans htarget
      have haggregate' := (last?_add_of_none (c := .limit limit) rfl s).trans haggregate
      simp only [plan, htarget', haggregate']
      exact hlimited limit any
    · -- An aggregate is asked for, so the plan is not for rows.
      split at hplan
      · cases hplan
      · split at hplan
        · cases hplan
        · split at hplan
          · cases hplan
          · cases asked_eq_of_findPlan hplan

end Statement

namespace Pager

/-- What a pager is about: its query, the size of its pages and its limit. -/
def task (q : Pager) : Query × UInt64 × Option UInt64 := (q.query, q.size, q.limit)

/-- The task of a pager is its query, its size and its limit. -/
theorem task_eq_iff {q r : Pager} :
    r.task = q.task ↔ r.query = q.query ∧ r.size = q.size ∧ r.limit = q.limit := by
  simp only [task, Prod.mk.injEq]

/-- The matching documents that are paged through: those behind the offset. -/
def span (q : Pager) (hits : List Document) : List Document :=
  hits.drop (q.query.skip.getD 0).toNat

/-- The documents of the first pages. -/
def head (q : Pager) (hits : List Document) (pages : Nat) : List Document :=
  (q.span hits).take (pagesRoom q.size q.limit pages)

/-- The first pages depend on the task alone. -/
theorem head_congr {q r : Pager} (htask : r.task = q.task) (hits : List Document) (pages : Nat) :
    r.head hits pages = q.head hits pages := by
  obtain ⟨hquery, hsize, hlimit⟩ := task_eq_iff.mp htask
  rw [head, head, span, span, hquery, hsize, hlimit]

theorem head_subset (q : Pager) (hits : List Document) (pages : Nat) : q.head hits pages ⊆ hits :=
  fun _ hmem => List.mem_of_mem_drop (List.mem_of_mem_take hmem)

/-- The pager stands behind so many pages: it has counted their rows, and its bookmark is the
    position behind them. -/
structure Behind (hits : List Document) (pages : Nat) (q : Pager) : Prop where
  current : q.current = pages
  fetched : q.fetched = (q.head hits pages).length
  bookmark : ∃ position : UInt64, q.bookmark = some (bookmarkAt position.toNat) ∧
    position.toNat = (q.query.skip.getD 0).toNat + q.fetched

variable {q r : Pager} {hits : List Document} {n : Nat}

/-- The room on a page is what the pages before it leave. -/
theorem room_toNat (q : Pager) (page : Nat) :
    (q.room page).toNat = nextPage q.size.toNat q.limit (q.before page) := by
  have hsize := q.size.toNat_lt
  unfold room nextPage
  cases q.limit with
  | none => rfl
  | some limit => exact UInt64.toNat_ofNat_of_lt' (Nat.lt_of_le_of_lt (Nat.min_le_left _ _) hsize)

/-- A page is asked for with the filters, the order and the fields of the pager. -/
theorem queryFor_keeps {page : Nat} {query : Query} (hquery : q.queryFor page = .ok query) :
    query.selector = q.query.selector ∧ query.sort = q.query.sort ∧
      query.fields = q.query.fields := by
  unfold queryFor at hquery
  split at hquery
  · cases hquery
  · split at hquery
    · cases hquery
      exact ⟨rfl, rfl, rfl⟩
    · split at hquery
      · cases hquery
      · split at hquery <;> cases hquery
        exact ⟨rfl, rfl, rfl⟩

/-- Behind the pages so far, and before the first page wherever the pager stands, the query for the
    next page begins where those pages end. -/
theorem queryFor_next (hready : n = 0 ∨ q.Behind hits n) :
    q.before (n + 1) = (q.head hits n).length ∧
      ∃ query first, q.queryFor (n + 1) = .ok query ∧ start query = .ok first ∧
        first.toNat = (q.query.skip.getD 0).toNat + q.before (n + 1) := by
  by_cases hlater : n = 0
  · subst hlater
    refine ⟨?_, { q.query with bookmark := none }, _, rfl, start_of_no_bookmark rfl, rfl⟩
    rw [head, pagesRoom_zero, List.take_zero]
    rfl
  · obtain ⟨hcurrent, hfetched, position, hbookmark, hposition⟩ := hready.resolve_left hlater
    have hbefore : q.before (n + 1) = q.fetched := if_neg (by omega)
    rw [hbefore]
    refine ⟨hfetched,
      { q.query with bookmark := some (bookmarkAt position.toNat), skip := none }, position, ?_,
      start_of_bookmarkAt rfl rfl, hposition⟩
    rw [queryFor, if_neg (by omega), if_neg (by omega), hbookmark, hcurrent]
    exact if_pos rfl

/-- The first page has room. -/
theorem room_ne_zero_of_first (hsize : q.size ≠ 0) (hlimit : q.limit ≠ some 0) : q.room 1 ≠ 0 := by
  have hpositive : q.size.toNat ≠ 0 := fun h => hsize (UInt64.toNat_inj.mp h)
  intro hroom
  have hpage := q.room_toNat 1
  rw [hroom, UInt64.toNat_zero] at hpage
  cases hgiven : q.limit with
  | none =>
    rw [hgiven] at hpage
    exact hpositive hpage.symm
  | some limit =>
    rw [hgiven] at hpage hlimit
    have hzero : limit.toNat = 0 := by
      have hmin : min q.size.toNat (limit.toNat - 0) = 0 := hpage.symm
      omega
    exact hlimit (congrArg some (UInt64.toNat_inj.mp hzero))

/-- A limit of zero leaves no room on any page. -/
theorem room_of_limit_zero (hlimit : q.limit = some 0) (page : Nat) : q.room page = 0 := by
  have hmin : (q.room page).toNat = min q.size.toNat (0 - q.before page) := by
    rw [room_toNat, hlimit]
    rfl
  rw [Nat.zero_sub, Nat.min_zero] at hmin
  exact UInt64.toNat_inj.mp hmin

/-- The documents of the next page come right behind those of the pages before. -/
theorem head_append (hbefore : q.before (n + 1) = (q.head hits n).length) :
    q.head hits n ++ ((q.span hits).drop (q.before (n + 1))).take (q.room (n + 1)).toNat =
      q.head hits (n + 1) := by
  rw [room_toNat, hbefore, head, head, pagesRoom_succ, List.length_take]
  by_cases hfull : pagesRoom q.size q.limit n ≤ (q.span hits).length
  · rw [Nat.min_eq_left hfull, List.take_add]
  · rw [Nat.min_eq_right (by omega), List.drop_length, List.take_nil, List.append_nil,
      List.take_of_length_le (by omega), List.take_of_length_le (by omega)]

/-- Nothing can be paged through with a limit of zero. -/
theorem head_of_limit_zero (hlimit : q.limit = some 0) (hits : List Document) (n : Nat) :
    q.head hits n = [] := by
  rw [head, hlimit, pagesRoom, UInt64.toNat_zero, Nat.zero_min, List.take_zero]

end Pager

namespace Paging

variable {α β : Type} {q : Pager} {a b : Adapter} {x : Action α} {f : α → Paging β}

theorem lift_eq (x : Action α) (q : Pager) (a : Adapter) :
    Paging.lift x q a = (((x a).1, q), (x a).2) := rfl

theorem get_bind (f : Pager → Paging β) : (getThe Pager >>= f) q a = f q q a := rfl

/-- A successful action hands its answer on and leaves the pager as it is. -/
theorem lift_bind_of_ok {v : α} (hx : x a = (.ok v, b)) : (Paging.lift x >>= f) q a = f v q b := by
  have hbind : (Paging.lift x >>= f) q a = ExceptT.bindCont f (x a).1 q (x a).2 := rfl
  rw [hbind, hx]
  rfl

/-- A failed action leaves the pager as it is. -/
theorem lift_bind_of_error {e : Error} (hx : x a = (.error e, b)) :
    (Paging.lift x >>= f) q a = ((.error e, q), b) := by
  have hbind : (Paging.lift x >>= f) q a = ExceptT.bindCont f (x a).1 q (x a).2 := rfl
  rw [hbind, hx]
  rfl

end Paging

namespace Model

variable {α : Type} {m : Model α} {a b : Adapter} {p q r : Pager} {n : Nat} {query : Query}
  {answer : FindAnswer} {e : Error} {hits : List Document}

/-! ## One page -/

/-- What asking for a page comes to. -/
theorem page_eq (m : Model α) (n : Nat) (q : Pager) (a : Adapter) :
    m.page n q a =
      match q.queryFor n with
      | .error e => ((.error e, q), a)
      | .ok query =>
        if q.room n = 0 then
          Paging.lift (m.rowsOf query.fields.isSome []) { q with current := n } a
        else
          match Adapter.find { query with limit := some (q.room n) } a with
          | (.error e, b) => ((.error e, q), b)
          | (.ok answer, b) =>
            Paging.lift (m.rowsOf query.fields.isSome answer.docs) (q.turned n answer) b := by
  have hpage : m.page n q a = (liftM (q.queryFor n) >>= fun query : Query =>
      if q.room n = 0 then do
        set { q with current := n }
        Paging.lift (m.rowsOf query.fields.isSome [])
      else do
        let answer ← Paging.lift (Adapter.find { query with limit := some (q.room n) })
        set (q.turned n answer)
        Paging.lift (m.rowsOf query.fields.isSome answer.docs) : Paging (Rows α)) q a := rfl
  rw [hpage]
  cases q.queryFor n with
  | error e => rfl
  | ok query =>
    have hok : ∀ f : Query → Paging (Rows α),
        (liftM (Except.ok query : Except Error Query) >>= f) = f query := fun _ => rfl
    rw [hok]
    by_cases hroom : q.room n = 0
    · simp only [if_pos hroom]
      rfl
    · simp only [if_neg hroom]
      rcases hfind : Adapter.find { query with limit := some (q.room n) } a with ⟨e | answer, b⟩
      · exact Paging.lift_bind_of_error hfind
      · exact Paging.lift_bind_of_ok hfind

/-- A page without room is empty and makes no call. -/
theorem page_of_no_room (hquery : q.queryFor n = .ok query) (hroom : q.room n = 0) :
    m.page n q a =
      Paging.lift (m.rowsOf query.fields.isSome []) { q with current := n } a := by
  rw [page_eq, hquery]
  exact if_pos hroom

/-- An answered page moves the pager before its rows are made. -/
theorem page_of_answer (hquery : q.queryFor n = .ok query) (hroom : q.room n ≠ 0)
    (hfind : Adapter.find { query with limit := some (q.room n) } a = (.ok answer, b)) :
    m.page n q a =
      Paging.lift (m.rowsOf query.fields.isSome answer.docs) (q.turned n answer) b := by
  rw [page_eq, hquery]
  simp only [if_neg hroom, hfind]

/-- A page that is refused leaves the pager where it was. -/
theorem page_of_no_answer (hquery : q.queryFor n = .ok query) (hroom : q.room n ≠ 0)
    (hfind : Adapter.find { query with limit := some (q.room n) } a = (.error e, b)) :
    m.page n q a = ((.error e, q), b) := by
  rw [page_eq, hquery]
  simp only [if_neg hroom, hfind]

/-- A page leaves the adapter as it was, or as making no rows does, or as its query does. -/
theorem page_snd {R : Adapter → Prop} (m : Model α) (n : Nat) (q : Pager) (hstays : R a)
    (hempty : ∀ selected, R (m.rowsOf selected [] a).2) (hraw : ∀ query, R (m.raw query a).2) :
    R (m.page n q a).2 := by
  cases hquery : q.queryFor n with
  | error e =>
    rw [page_eq, hquery]
    exact hstays
  | ok query =>
    by_cases hroom : q.room n = 0
    · rw [page_of_no_room hquery hroom]
      exact hempty query.fields.isSome
    · have hran := hraw { query with limit := some (q.room n) }
      rcases hfind : Adapter.find { query with limit := some (q.room n) } a with ⟨e | answer, b⟩
      · rw [raw, Adapter.bind_of_error hfind] at hran
        rw [page_of_no_answer hquery hroom hfind]
        exact hran
      · rw [raw, Adapter.bind_of_ok hfind] at hran
        rw [page_of_answer hquery hroom hfind]
        exact hran

/-- Turning the pages keeps the task. -/
theorem task_page (m : Model α) (n : Nat) (q : Pager) (a : Adapter) :
    (m.page n q a).1.2.task = q.task := by
  rw [page_eq]
  cases q.queryFor n with
  | error e => rfl
  | ok query =>
    by_cases hroom : q.room n = 0
    · simp only [if_pos hroom]
      rfl
    · simp only [if_neg hroom]
      rcases Adapter.find { query with limit := some (q.room n) } a with ⟨e | answer, b⟩ <;> rfl

/-- The rows of a page are made from its documents one by one. -/
theorem entries_of_page {selected : Bool} {docs : List Document} {rows : Rows α}
    (hpage : Paging.lift (m.rowsOf selected docs) q a = ((.ok rows, r), b)) :
    docs.mapM (m.entryOf selected) = .ok rows.entries := by
  have hrows : (m.rowsOf selected docs a).1 = .ok rows := congrArg (fun result => result.1.1) hpage
  rw [(m.computes_rowsOf _ docs a).1] at hrows
  rw [← map_entries_rowsIn, hrows]
  rfl

/-- With a limit of zero a page that comes back has no rows. -/
theorem page_of_limit_zero {rows : Rows α} (hlimit : q.limit = some 0)
    (hpage : m.page n q a = ((.ok rows, r), b)) : rows.entries = [] := by
  cases hquery : q.queryFor n with
  | error e =>
    rw [page_eq, hquery] at hpage
    cases hpage
  | ok query =>
    rw [page_of_no_room hquery (Pager.room_of_limit_zero hlimit n)] at hpage
    exact (Except.ok.inj (entries_of_page hpage)).symm

/-- The next page has the rows of the documents right behind those of the pages before, and the
    pager stands behind them. No document is written. -/
theorem page_next (m : Model α) (hsize : q.size ≠ 0) (hlimit : q.limit ≠ some 0)
    (hready : n = 0 ∨ q.Behind hits n) (hfinds : Finds q.query hits a) :
    ∃ docs r b, q.head hits n ++ docs = q.head hits (n + 1) ∧ r.task = q.task ∧
      r.Behind hits (n + 1) ∧ Finds q.query hits b ∧
      m.page (n + 1) q a =
        Paging.lift (m.rowsOf q.query.fields.isSome (docs.map (project q.query.fields))) r b := by
  obtain ⟨hbefore, query, first, hquery, hstart, hfirst⟩ := Pager.queryFor_next hready
  obtain ⟨hselector, hsort, hfields⟩ := Pager.queryFor_keeps hquery
  have hhead := Pager.head_append hbefore
  by_cases hroom : q.room (n + 1) = 0
  · -- The pages before have used up the limit, and the bookmark stays where it is.
    have hlater : n ≠ 0 := by
      rintro rfl
      exact Pager.room_ne_zero_of_first hsize hlimit hroom
    obtain ⟨_, hfetched, hbookmark⟩ := hready.resolve_left hlater
    rw [hroom, UInt64.toNat_zero, List.take_zero] at hhead
    rw [page_of_no_room hquery hroom, hfields]
    refine ⟨[], { q with current := n + 1 }, a, hhead, rfl, ⟨rfl, ?_, hbookmark⟩, hfinds, rfl⟩
    rw [List.append_nil] at hhead
    exact hfetched.trans (congrArg List.length hhead)
  · let asked : Query := { query with limit := some (q.room (n + 1)) }
    have hasked : Finds asked hits a := hfinds.congr hselector hsort
    obtain ⟨answer, next, hfind, hdocs, hbookmark, hnext⟩ :=
      hasked.ask_find (show start asked = .ok first from hstart) rfl
    have hproject : project asked.fields = project q.query.fields := congrArg project hfields
    rw [hproject, hfirst, ← List.drop_drop, ← Pager.span] at hdocs
    have hlength : answer.docs.length =
        (((q.span hits).drop (q.before (n + 1))).take (q.room (n + 1)).toNat).length := by
      rw [hdocs, List.length_map]
    rw [page_of_answer hquery hroom hfind, hfields, hdocs]
    refine ⟨_, q.turned (n + 1) answer, _, hhead, rfl, ⟨rfl, ?_, next, hbookmark, ?_⟩,
      hfinds.served_find asked, rfl⟩
    · have hsum := congrArg List.length hhead
      rw [List.length_append, ← hbefore, ← hlength] at hsum
      exact hsum
    · rw [hnext, hfirst, Nat.add_assoc]
      rfl

/-! ## Pages in order -/

/-- Behind so many pages, these pages come back when they are asked for one after another, each
    through some adapter of this sort. Between them the adapter may be used for other things. -/
inductive Turns (m : Model α) (P : Adapter → Prop) :
    Nat → Pager → List (Rows α) → Pager → Prop
  | nil (n : Nat) (q : Pager) : Turns m P n q [] q
  | cons {n : Nat} {q r last : Pager} {rows : Rows α} {pages : List (Rows α)} {a b : Adapter}
      (hadapter : P a) (hpage : m.page (n + 1) q a = ((.ok rows, r), b))
      (hrest : Turns m P (n + 1) r pages last) : Turns m P n q (rows :: pages) last

/-- A pager that came from another by calls for pages in any order, through any adapters, whether
    they succeeded or failed. -/
inductive Reached (m : Model α) (p : Pager) : Pager → Prop
  | start : Reached m p p
  | page {q : Pager} (hreached : Reached m p q) (n : Nat) (a : Adapter) :
      Reached m p (m.page n q a).1.2

/-- Every pager on the way has the task of the first. -/
theorem Reached.task_eq (hreached : m.Reached p q) : q.task = p.task := by
  induction hreached with
  | start => rfl
  | page _ n a ih => exact (m.task_page n _ a).trans ih

variable {pages : List (Rows α)} {last : Pager} {rows : Rows α} {docs : List Document}

/-- The rows of pages asked for one after another are those of the documents behind the pages so
    far. -/
theorem Turns.entries_eq (hturns : m.Turns (Finds query hits) n q pages last)
    (hquery : q.query = query) (hsize : q.size ≠ 0)
    (hready : q.limit = some 0 ∨ n = 0 ∨ q.Behind hits n) :
    ∃ docs, q.head hits n ++ docs = q.head hits (n + pages.length) ∧
      (docs.map (project query.fields)).mapM (m.entryOf query.fields.isSome) =
        .ok (pages.flatMap Rows.entries) := by
  induction hturns with
  | nil n q => exact ⟨[], List.append_nil _, rfl⟩
  | @cons n q r last rows pages a b hfinds hpage _ ih =>
    subst hquery
    have htask : r.task = q.task := by
      have hkeeps := m.task_page (n + 1) q a
      rw [hpage] at hkeeps
      exact hkeeps
    obtain ⟨hquery, hrsize, hrlimit⟩ := Pager.task_eq_iff.mp htask
    have hlength : n + (rows :: pages).length = n + 1 + pages.length := by
      rw [List.length_cons]
      omega
    rw [List.flatMap_cons, hlength]
    by_cases hlimit : q.limit = some 0
    · -- Such pages make no call, so there is no bookmark and no position to stand behind.
      obtain ⟨docs, hdocs, hentries⟩ :=
        ih hquery (hrsize ▸ hsize) (Or.inl (hrlimit.trans hlimit))
      rw [Pager.head_congr htask, Pager.head_congr htask, Pager.head_of_limit_zero hlimit,
        List.nil_append] at hdocs
      rw [page_of_limit_zero hlimit hpage]
      refine ⟨docs, ?_, hentries⟩
      rw [Pager.head_of_limit_zero hlimit, List.nil_append]
      exact hdocs
    · obtain ⟨docs, s, c, hhead, _, hbehind, _, heq⟩ :=
        page_next m hsize hlimit (hready.resolve_left hlimit) hfinds
      rw [heq] at hpage
      have hrows := entries_of_page hpage
      obtain rfl : s = r := congrArg (fun result => result.1.2) hpage
      obtain ⟨later, hlater, hentries⟩ := ih hquery (hrsize ▸ hsize) (Or.inr (Or.inr hbehind))
      rw [Pager.head_congr htask, Pager.head_congr htask] at hlater
      refine ⟨docs ++ later, ?_, ?_⟩
      · rw [← List.append_assoc, hhead, hlater]
      · rw [List.map_append, List.mapM_append, hrows, hentries]
        rfl

/-- Documents that all make a row make a page. -/
theorem exists_page {docs : List Document} {selected : Bool}
    (hdecodes : ∀ doc ∈ docs, ∃ entry, m.entryOf selected doc = .ok entry) (q : Pager)
    (a : Adapter) : ∃ rows b, Paging.lift (m.rowsOf selected docs) q a = ((.ok rows, q), b) := by
  obtain ⟨rows, hrows⟩ := m.exists_rowsIn hdecodes
  refine ⟨rows, (m.rowsOf selected docs a).2, ?_⟩
  rw [Paging.lift_eq, (m.computes_rowsOf selected docs a).1, hrows]

/-- As many pages come back as are asked for, given that the limit is not zero and every matching
    document makes a row. -/
theorem exists_turns (hsize : q.size ≠ 0) (hlimit : q.limit ≠ some 0)
    (hdecodes : ∀ doc ∈ hits, ∃ entry,
      m.entryOf query.fields.isSome (project query.fields doc) = .ok entry)
    (hready : n = 0 ∨ q.Behind hits n) (hquery : q.query = query) (hfinds : Finds query hits a)
    (count : Nat) :
    ∃ pages last, pages.length = count ∧ m.Turns (Finds query hits) n q pages last := by
  induction count generalizing n q a with
  | zero => exact ⟨[], q, rfl, .nil n q⟩
  | succ count ih =>
    subst hquery
    obtain ⟨docs, r, b, hhead, htask, hbehind, hnext, hpage⟩ :=
      page_next m hsize hlimit hready hfinds
    obtain ⟨hquery, hrsize, hrlimit⟩ := Pager.task_eq_iff.mp htask
    have hrow : ∀ doc ∈ docs.map (project q.query.fields),
        ∃ entry, m.entryOf q.query.fields.isSome doc = .ok entry := by
      refine List.forall_mem_map.mpr fun doc hmem => hdecodes doc ?_
      exact q.head_subset hits (n + 1) (hhead ▸ List.mem_append_right _ hmem)
    obtain ⟨rows, c, hrows⟩ := exists_page hrow r b
    obtain ⟨pages, last, hlength, hturns⟩ := ih (hrsize ▸ hsize) (hrlimit ▸ hlimit)
      (Or.inr hbehind) hquery hnext
    exact ⟨rows :: pages, last, congrArg Nat.succ hlength, .cons hfinds (hpage.trans hrows) hturns⟩

/-! ## Statements -/

variable {s : Statement} {size : UInt64} {b₀ a₀ : Adapter}

/-- A new pager stands before the first page of a statement that is planned to find rows. -/
theorem exists_query_of_paginate (hpaginate : paginate s size a₀ = (.ok p, b₀)) :
    size ≠ 0 ∧ ∃ query warnings,
      s.plan a₀.config.queryLimit = .ok (.find query none none, warnings) ∧
        p = { query, size, limit := s.last? Clause.limit? } := by
  unfold paginate at hpaginate
  by_cases hsize : size = 0
  · rw [if_pos hsize] at hpaginate
    cases hpaginate
  · rw [if_neg hsize] at hpaginate
    cases hplan : s.plan a₀.config.queryLimit with
    | error e =>
      rw [bind_of_error (planOf_of_error hplan)] at hpaginate
      cases hpaginate
    | ok result =>
      obtain ⟨plan, warnings⟩ := result
      rw [bind_of_ok (planOf_of_ok hplan)] at hpaginate
      rcases plan with ⟨query, _ | request, _ | attr⟩ | view <;> cases hpaginate
      exact ⟨hsize, query, warnings, rfl, rfl⟩

/-- A pager is made for a statement that is planned as a plain query. -/
theorem paginate_eq_ok (hpaginate : paginate s size a₀ = (.ok p, b₀)) :
    size ≠ 0 ∧ p.size = size ∧ p.limit = s.last? Clause.limit? ∧ ∃ warnings,
      s.plan a₀.config.queryLimit = .ok (.find p.query none none, warnings) := by
  obtain ⟨hsize, query, warnings, hplan, rfl⟩ := exists_query_of_paginate hpaginate
  exact ⟨hsize, rfl, rfl, warnings, hplan⟩

/-- A statement for rows brings a slice of the documents that its query matches. -/
theorem execute_of_finds {limit : UInt64} {warnings : List Warning} (m : Model α)
    (hplan : s.plan a.config.queryLimit = .ok (.find query none none, warnings))
    (hbookmark : query.bookmark = none) (hlimit : query.limit = some limit)
    (hfinds : Finds query hits a) :
    (m.execute s a).1 = (m.rowsIn query.fields.isSome
      (((hits.drop (query.skip.getD 0).toNat).take limit.toNat).map (project query.fields))).map
        .rows := by
  obtain ⟨answer, _, hfind, hdocs, _⟩ := hfinds.ask_find (start_of_no_bookmark hbookmark) hlimit
  rw [m.execute_of_rows hplan hfind, hdocs]

/-- Pages lose and repeat nothing. Take a pager of a statement wherever earlier calls, failed ones
    and restarts among them, have left it. If the first pages come back when they are asked for in
    order, then their rows are those of the matching documents, in order: the offset is dropped
    once, and then there are as many as the pages have room for, but no more than the limit of the
    statement. Running the statement with that limit brings the same rows. All this time the store
    matches the same documents, whatever else the adapters are used for. -/
theorem pages_complete (hpaginate : paginate s size a₀ = (.ok p, b₀)) (hreached : m.Reached p q)
    (hturns : m.Turns (Finds p.query hits) 0 q pages last) :
    (((hits.drop ((s.last? Clause.offset?).getD 0).toNat).take
          (pagesRoom size (s.last? Clause.limit?) pages.length)).map (project p.query.fields)).mapM
        (m.entryOf p.query.fields.isSome) = .ok (pages.flatMap Rows.entries) ∧
      ∀ (limit : UInt64) (a : Adapter),
        limit.toNat = pagesRoom size (s.last? Clause.limit?) pages.length →
          Finds p.query hits a → ∃ rows,
            (m.execute (s.add (.limit limit)) a).1 = .ok (.rows rows) ∧
              rows.entries = pages.flatMap Rows.entries := by
  obtain ⟨hsize, hpsize, hplimit, warnings, hplan⟩ := paginate_eq_ok hpaginate
  obtain ⟨hbookmark, hskip, hlimited⟩ := Statement.plan_find_rows hplan
  obtain ⟨hquery, hqsize, hqlimit⟩ := Pager.task_eq_iff.mp hreached.task_eq
  obtain ⟨docs, hdocs, hentries⟩ := hturns.entries_eq hquery
    (by rw [hqsize, hpsize]; exact hsize) (Or.inr (Or.inl rfl))
  have hhead : docs = (hits.drop ((s.last? Clause.offset?).getD 0).toNat).take
      (pagesRoom size (s.last? Clause.limit?) pages.length) := by
    rw [Pager.head, pagesRoom_zero, List.take_zero, List.nil_append, Nat.zero_add, Pager.head,
      Pager.span, hquery, hskip, hqsize, hpsize, hqlimit, hplimit] at hdocs
    exact hdocs
  rw [← hhead]
  refine ⟨hentries, fun limit a hlimit hfinds => ?_⟩
  obtain ⟨later, hlater⟩ := hlimited limit a.config.queryLimit
  have hexecute := execute_of_finds m hlater hbookmark rfl (hfinds.congr rfl rfl)
  rw [hlimit, hskip, ← hhead] at hexecute
  have hrows := m.map_entries_rowsIn p.query.fields.isSome (docs.map (project p.query.fields))
  rw [hentries] at hrows
  cases hfound : m.rowsIn p.query.fields.isSome (docs.map (project p.query.fields)) with
  | error e =>
    rw [hfound] at hrows
    cases hrows
  | ok rows =>
    rw [hfound] at hrows hexecute
    exact ⟨rows, hexecute, Except.ok.inj hrows⟩

/-- Red items in pages, without the first two and no more than five. -/
def shelfPages : Statement := ⟨[
  .target shelfSchema, .filter (.equals "color" (.str "red")), .offset 2, .limit 5]⟩

/-- Pages of two items each, after a first page and one that was asked for out of order: two full
    pages, one of the last item and one without any. -/
theorem pages_complete_shelfPages :
    let m := Model.plain shelfSchema [] []
    ∃ p pages last, paginate shelfPages 2 shelf = (.ok p, shelf) ∧ pages.length = 4 ∧
      m.Turns (Finds p.query (shelf.documents.values.drop 1)) 0
        (m.page 7 (m.page 1 p shelf).1.2 shelf).1.2 pages last ∧
      ((shelf.documents.values.drop 3).take 5).mapM (m.entryOf false) =
        .ok (pages.flatMap Rows.entries) ∧
      ∃ rows, (m.execute (shelfPages.add (.limit 5)) shelf).1 = .ok (.rows rows) ∧
        rows.entries = pages.flatMap Rows.entries := by
  intro m
  obtain ⟨p, hpaginate, hsort, hfields, hmatching⟩ : ∃ p,
      paginate shelfPages 2 shelf = (.ok p, shelf) ∧ p.query.sort = [] ∧ p.query.fields = none ∧
        matching p.query.selector shelf.documents = .ok (shelf.documents.values.drop 1) :=
    ⟨_, rfl, rfl, rfl, rfl⟩
  have hfinds : Finds p.query (shelf.documents.values.drop 1) shelf := by
    refine ⟨rfl, ?_, ?_, by decide⟩
    · rw [hsort]
      rfl
    · rw [found, hmatching, hsort]
      exact congrArg Except.ok (List.mergeSort_of_pairwise
        (List.pairwise_of_forall fun _ _ => rfl))
  have hreached : m.Reached p (m.page 7 (m.page 1 p shelf).1.2 shelf).1.2 :=
    .page (.page .start 1 _) 7 _
  obtain ⟨hquery, hsize, hlimit⟩ := Pager.task_eq_iff.mp hreached.task_eq
  have hdecodes : ∀ doc ∈ shelf.documents.values.drop 1,
      ∃ entry, m.entryOf p.query.fields.isSome (project p.query.fields doc) = .ok entry := by
    rw [hfields]
    have hall : ((shelf.documents.values.drop 1).all
        fun doc => (m.entryOf false doc).toBool) = true := by decide
    intro doc hmem
    have hdoc := List.all_eq_true.mp hall doc hmem
    cases hentry : m.entryOf false doc with
    | error e =>
      rw [hentry] at hdoc
      cases hdoc
    | ok entry => exact ⟨entry, hentry⟩
  obtain ⟨_, hpsize, hplimit, _⟩ := paginate_eq_ok hpaginate
  obtain ⟨pages, last, hlength, hturns⟩ := exists_turns
    (by rw [hsize, hpsize]; decide) (by rw [hlimit, hplimit]; decide) hdecodes (.inl rfl) hquery
    hfinds 4
  obtain ⟨hentries, hexecute⟩ := pages_complete hpaginate hreached hturns
  rw [hlength, hfields] at hentries
  refine ⟨p, pages, last, hpaginate, hlength, hturns, ?_, hexecute 5 shelf ?_ hfinds⟩
  · exact hentries
  · rw [hlength]
    rfl

end Model

end DocMapper
