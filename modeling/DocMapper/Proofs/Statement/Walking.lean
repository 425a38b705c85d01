import DocMapper.Proofs.Statement.Retries

/-!
# Walks through pages

A walk asks a pager for the next page again and again. Main statement: a walk from the start never
lacks a bookmark, unless the limit is zero. Behind the last row and at the limit it goes on with
empty pages.
-/

namespace DocMapper

open Adapter MemoryStore

/-! ## Kinds of failures -/

theorem StoreError.kindOfText_ne_paging (text : String) : kindOfText text ≠ .paging := by
  simp only [kindOfText]
  split
  · exact nofun
  · split
    · exact nofun
    · split <;> exact nofun

theorem StoreError.kind_ne_paging (cause : StoreError) : cause.kind ≠ .paging := by
  cases cause with
  | transport message => exact kindOfText_ne_paging message
  | overflow => exact nofun
  | http status error reason =>
    simp only [kind]
    split
    · exact nofun
    · split
      · exact nofun
      · split
        · split <;> exact nofun
        · exact kindOfText_ne_paging _

/-! ## Pagers on the way -/

/-- The next page can be asked for: it is the first, or there is a bookmark. -/
def Pager.Underway (q : Pager) : Prop := q.current = 0 ∨ q.bookmark ≠ none

namespace Pager

variable {q : Pager} {hits : List Document} {n : Nat}

theorem Underway.exists_query (hunderway : q.Underway) :
    ∃ query, q.queryFor (q.current + 1) = .ok query := by
  rw [queryFor, if_neg (Nat.succ_ne_zero _)]
  by_cases hfirst : q.current = 0
  · rw [if_pos (by omega)]
    exact ⟨_, rfl⟩
  · rw [if_neg (by omega)]
    cases hbookmark : q.bookmark with
    | none => exact absurd hbookmark (hunderway.resolve_left hfirst)
    | some bookmark => exact ⟨_, if_pos rfl⟩

theorem queryFor_of_no_bookmark (hcurrent : q.current ≠ 0) (hbookmark : q.bookmark = none) :
    q.queryFor (q.current + 1) = .error .bookmarkMissing := by
  rw [queryFor, if_neg (Nat.succ_ne_zero _), if_neg (by omega), hbookmark]

/-- The documents of the first pages are among those up to the limit. -/
theorem head_subset_upTo (q : Pager) (hits : List Document) (n : Nat) :
    q.head hits n ⊆ upTo q.limit 0 (q.span hits) := by
  rw [head]
  cases q.limit with
  | none => exact fun _ hmem => List.mem_of_mem_take hmem
  | some limit => exact List.take_subset_take_left _ (Nat.min_le_left _ _)

/-- One more page brings nothing exactly where all documents are on the pages before, or as many as
    the limit allows. -/
theorem length_head_succ_eq_iff (hsize : q.size ≠ 0) :
    (q.head hits (n + 1)).length = (q.head hits n).length ↔
      (q.span hits).length ≤ n * q.size.toNat ∨
        ∃ limit, q.limit = some limit ∧ limit.toNat ≤ n * q.size.toNat := by
  have hpositive : q.size.toNat ≠ 0 := fun hzero => hsize (UInt64.toNat_inj.mp hzero)
  have hsucc : (n + 1) * q.size.toNat = n * q.size.toNat + q.size.toNat := Nat.succ_mul _ _
  rw [head, head, List.length_take, List.length_take]
  cases q.limit with
  | none =>
    simp only [pagesRoom, hsucc, reduceCtorEq, false_and, exists_false, or_false]
    omega
  | some limit =>
    simp only [pagesRoom, hsucc, Option.some.injEq, exists_eq_left']
    omega

end Pager

namespace Model

variable {α : Type} {m : Model α} {a a₀ b₀ : Adapter} {as : List Adapter} {p q : Pager}
  {e : Error} {hits : List Document} {s : Statement} {size : UInt64}

/-! ## One step -/

theorem task_nextPage (m : Model α) (q : Pager) (a : Adapter) :
    (m.nextPage q a).1.2.task = q.task := by
  rw [nextPage_eq]
  exact m.task_page _ q a

theorem bookmark_of_find {query : Query} {answer : FindAnswer} (hunstaged : a.Unstaged)
    (hfind : (Adapter.find query a).1 = .ok answer) : answer.bookmark ≠ none := by
  obtain ⟨hanswer, _⟩ := ask_eq_ok hunstaged (Prod.ext hfind rfl)
  obtain ⟨position, hbookmark⟩ := bookmark_of_answerQuery hanswer
  rw [hbookmark]
  exact Option.some_ne_none _

theorem kind_ne_paging_of_find {query : Query} (hunstaged : a.Unstaged)
    (hfind : (Adapter.find query a).1 = .error e) : e.kind ≠ .paging := by
  cases hanswer : (a.connection.store.perform (.find query)).1 with
  | ok answer =>
    rw [Adapter.find, ask_of_ok hunstaged hanswer] at hfind
    cases hfind
  | error cause =>
    rw [Adapter.find, ask_of_error hunstaged hanswer] at hfind
    cases hfind
    exact cause.kind_ne_paging

/-- From where the next page can be asked for, a step leads to where the next one can be asked for,
    whether the store answers or fails. -/
theorem underway_nextPage (m : Model α) (hunstaged : a.Unstaged) (hsize : q.size ≠ 0)
    (hlimit : q.limit ≠ some 0) (hunderway : q.Underway) :
    (m.nextPage q a).1.2.Underway ∧ ∀ e, (m.nextPage q a).1.1 = .error e → e.kind ≠ .paging := by
  have hends := m.pageEnds_page (q.current + 1) q a
  rw [nextPage_eq]
  generalize (m.page (q.current + 1) q a).1.1 = result at hends ⊢
  generalize (m.page (q.current + 1) q a).1.2 = r at hends ⊢
  cases hends with
  | refused hrefused =>
    obtain ⟨query, hquery⟩ := hunderway.exists_query
    cases hquery.symm.trans hrefused
  | full hquery hroom =>
    -- There is room on the first page, so this is a later one and the bookmark stays.
    have hlater : q.current ≠ 0 := by
      intro hfirst
      rw [hfirst] at hroom
      exact Pager.room_ne_zero_of_first hsize hlimit hroom
    exact ⟨.inr (hunderway.resolve_left hlater), nofun⟩
  | unanswered hquery hroom hfind =>
    refine ⟨hunderway, fun e he => ?_⟩
    cases he
    exact kind_ne_paging_of_find hunstaged hfind
  | answered hquery hroom hfind hrows =>
    refine ⟨.inr (bookmark_of_find hunstaged hfind), fun e he => ?_⟩
    rw [kind_of_rowsIn (hrows.trans he)]
    exact nofun

theorem fresh_of_paginate (hpaginate : paginate s size a₀ = (.ok p, b₀)) :
    p.current = 0 ∧ p.bookmark = none := by
  obtain ⟨_, _, _, _, rfl⟩ := exists_query_of_paginate hpaginate
  exact ⟨rfl, rfl⟩

/-! ## Walks -/

/-- What comes of asking for the next page again and again, each time through an adapter as it is
    then. -/
def walk (m : Model α) : List Adapter → Pager → List (Except Error (Rows α))
  | [], _ => []
  | a :: as, q => (m.nextPage q a).1.1 :: m.walk as (m.nextPage q a).1.2

/-- A step of a walk can fail, but not over a bookmark. -/
theorem walk_ne_paging (has : ∀ a ∈ as, a.Unstaged) (hsize : q.size ≠ 0)
    (hlimit : q.limit ≠ some 0) (hunderway : q.Underway) :
    ∀ e, .error e ∈ m.walk as q → e.kind ≠ .paging := by
  induction as generalizing q with
  | nil => exact fun e hmem => absurd hmem List.not_mem_nil
  | cons a as ih =>
    obtain ⟨hunstaged, hrest⟩ := List.forall_mem_cons.mp has
    obtain ⟨hnext, hkind⟩ := m.underway_nextPage hunstaged hsize hlimit hunderway
    obtain ⟨_, hrsize, hrlimit⟩ := Pager.task_eq_iff.mp (m.task_nextPage q a)
    intro e hmem
    rcases List.mem_cons.mp hmem with hhead | hlater
    · exact hkind e hhead.symm
    · exact ih hrest (hrsize ▸ hsize) (hrlimit ▸ hlimit) hnext e hlater

/-- Behind the first page and without a bookmark there is no way on. -/
theorem walk_of_no_bookmark (m : Model α) (as : List Adapter) (hcurrent : q.current ≠ 0)
    (hbookmark : q.bookmark = none) :
    m.walk as q = as.map fun _ => .error .bookmarkMissing := by
  induction as with
  | nil => rfl
  | cons a as ih =>
    have hstays : m.nextPage q a = ((.error .bookmarkMissing, q), a) := by
      rw [nextPage_eq, page_eq, Pager.queryFor_of_no_bookmark hcurrent hbookmark]
    rw [walk, hstays, ih, List.map_cons]

/-- With a limit of zero the first page is empty, and then there is no way on. -/
theorem walk_of_limit_zero (m : Model α) (a : Adapter) (as : List Adapter)
    (hlimit : q.limit = some 0) (hcurrent : q.current = 0) (hbookmark : q.bookmark = none) :
    ∃ rows : Rows α, rows.size = 0 ∧
      m.walk (a :: as) q = .ok rows :: as.map fun _ => .error .bookmarkMissing := by
  obtain ⟨query, hquery⟩ := Pager.Underway.exists_query (.inl hcurrent)
  obtain ⟨rows, hrows, hempty⟩ := m.exists_rowsIn_nil query.fields.isSome
  have hpage : (m.nextPage q a).1 = (.ok rows, { q with current := q.current + 1 }) := by
    rw [nextPage_eq, page_of_no_room hquery (Pager.room_of_limit_zero hlimit _), Paging.lift_eq,
      (m.computes_rowsOf _ [] a).1, hrows]
  refine ⟨rows, ?_, ?_⟩
  · rw [← rows.length_entries, hempty, List.length_nil]
  · have hrest : m.walk as { q with current := q.current + 1 } = as.map fun _ =>
        .error .bookmarkMissing := walk_of_no_bookmark m as (Nat.succ_ne_zero _) hbookmark
    rw [walk, hpage, hrest]

/-- Through adapters that find the matching documents every step brings a page, and with its rows
    the first pages grow by one. -/
theorem walk_of_finds (hsize : q.size ≠ 0) (hlimit : q.limit ≠ some 0)
    (hready : q.current = 0 ∨ q.Behind hits q.current)
    (hdecodes : ∀ doc ∈ upTo q.limit 0 (q.span hits), ∃ entry,
      m.entryOf q.query.fields.isSome (project q.query.fields doc) = .ok entry)
    (has : ∀ a ∈ as, Finds q.query hits a) :
    ∃ pages : List (Rows α), m.walk as q = pages.map .ok ∧ ∀ k rows, pages[k]? = some rows →
      (q.head hits (q.current + k + 1)).length =
        (q.head hits (q.current + k)).length + rows.size := by
  induction as generalizing q with
  | nil => exact ⟨[], rfl, nofun⟩
  | cons a as ih =>
    obtain ⟨hfinds, hrest⟩ := List.forall_mem_cons.mp has
    obtain ⟨docs, r, b, hhead, htask, hcurrent, hbehind, _, hpage⟩ :=
      nextPage_of_finds m hsize hlimit hready hfinds
    obtain ⟨hquery, hrsize, hrlimit⟩ := Pager.task_eq_iff.mp htask
    have hdocs : ∀ doc ∈ docs.map (project q.query.fields),
        ∃ entry, m.entryOf q.query.fields.isSome doc = .ok entry := by
      refine List.forall_mem_map.mpr fun doc hmem => hdecodes doc ?_
      exact q.head_subset_upTo hits _ (hhead ▸ List.mem_append_right _ hmem)
    obtain ⟨rows, hrows⟩ := m.exists_rowsIn hdocs
    have hlater : ∀ doc ∈ upTo r.limit 0 (r.span hits),
        ∃ entry, m.entryOf r.query.fields.isSome (project r.query.fields doc) = .ok entry := by
      rw [hrlimit, Pager.span, hquery]
      exact hdecodes
    obtain ⟨pages, hwalk, hlengths⟩ := ih (q := r) (hrsize ▸ hsize) (hrlimit ▸ hlimit)
      (.inr hbehind) hlater (hquery ▸ hrest)
    refine ⟨rows :: pages, ?_, fun k shown hshown => ?_⟩
    · rw [walk, hpage, hrows, hwalk, List.map_cons]
    · cases k with
      | zero =>
        cases hshown
        rw [size_of_rowsIn hrows, List.length_map, ← List.length_append]
        exact congrArg List.length hhead.symm
      | succ k =>
        have hlength := hlengths k shown hshown
        have hshift : q.current + (k + 1) = q.current + 1 + k := by omega
        rw [Pager.head_congr htask, Pager.head_congr htask, hcurrent] at hlength
        rw [hshift]
        exact hlength

/-- A walk from the start is never told that it uses bookmarks the wrong way, however long it is
    and whatever the store holds meanwhile, provided that the limit of the statement is not zero.
    This is exact: with a limit of zero only the first page comes back, without any rows, and then
    a bookmark is lacking. Else, as long as the store matches the same documents and those up to
    the limit make rows, all pages come back. A page is empty where the pages before have brought
    all matching documents behind the offset, or as many as the limit allows. -/
theorem walk_never_lacks_bookmark_iff (m : Model α)
    (hpaginate : paginate s size a₀ = (.ok p, b₀)) :
    (s.last? Clause.limit? ≠ some 0 ↔ ∀ as : List Adapter, (∀ a ∈ as, a.Unstaged) →
      ∀ e, .error e ∈ m.walk as p → e.kind ≠ .paging) ∧
    (s.last? Clause.limit? = some 0 → ∀ a as, ∃ rows : Rows α, rows.size = 0 ∧
      m.walk (a :: as) p = .ok rows :: as.map fun _ => .error .bookmarkMissing) ∧
    (s.last? Clause.limit? ≠ some 0 → ∀ hits as,
      (∀ doc ∈ upTo (s.last? Clause.limit?) 0 (hits.drop ((s.last? Clause.offset?).getD 0).toNat),
        ∃ entry, m.entryOf p.query.fields.isSome (project p.query.fields doc) = .ok entry) →
      (∀ a ∈ as, Finds p.query hits a) →
        ∃ pages : List (Rows α), m.walk as p = pages.map .ok ∧ ∀ k rows, pages[k]? = some rows →
          (rows.size = 0 ↔
            (hits.drop ((s.last? Clause.offset?).getD 0).toNat).length ≤ k * size.toNat ∨
              ∃ limit, s.last? Clause.limit? = some limit ∧ limit.toNat ≤ k * size.toNat)) := by
  obtain ⟨hsize, hpsize, hplimit, warnings, hplan⟩ := paginate_eq_ok hpaginate
  obtain ⟨_, hskip, _⟩ := Statement.plan_find_rows hplan
  obtain ⟨hcurrent, hbookmark⟩ := fresh_of_paginate hpaginate
  rw [← hpsize] at hsize
  rw [← hplimit, ← hskip, ← hpsize]
  refine ⟨⟨fun hlimit as has => ?_, fun hnever hlimit => ?_⟩, fun hlimit a as => ?_,
    fun hlimit hits as hdecodes has => ?_⟩
  · exact walk_ne_paging has hsize hlimit (.inl hcurrent)
  · -- The second step of any walk fails.
    have hunstaged : (ofStore (fresh fun _ _ => 0) {}).Unstaged := rfl
    obtain ⟨rows, _, hwalk⟩ := walk_of_limit_zero m (ofStore (fresh fun _ _ => 0) {})
      [ofStore (fresh fun _ _ => 0) {}] hlimit hcurrent hbookmark
    refine hnever _ (List.forall_mem_cons.mpr ⟨hunstaged, List.forall_mem_singleton.mpr hunstaged⟩)
      .bookmarkMissing ?_ rfl
    rw [hwalk]
    exact List.mem_cons_of_mem _ List.mem_cons_self
  · exact walk_of_limit_zero m a as hlimit hcurrent hbookmark
  · obtain ⟨pages, hwalk, hlengths⟩ :=
      walk_of_finds hsize hlimit (.inl hcurrent) hdecodes has
    refine ⟨pages, hwalk, fun k rows hrows => ?_⟩
    have hlength := hlengths k rows hrows
    rw [hcurrent, Nat.zero_add] at hlength
    have hempty : rows.size = 0 ↔
        (p.head hits (k + 1)).length = (p.head hits k).length := by omega
    exact hempty.trans (Pager.length_head_succ_eq_iff hsize)

theorem exists_entry_paintShelf :
    ∀ doc ∈ [paleItem, redItem], ∃ entry, (itemModel []).entryOf false doc = .ok entry :=
  List.forall_mem_cons.mpr ⟨⟨_, rfl⟩, List.forall_mem_singleton.mpr ⟨_, rfl⟩⟩

/-- Four pages of one item each, from a store of two items: the last two of them are empty. -/
theorem walk_never_lacks_bookmark_iff_paintShelf :
    (∀ e, .error e ∈ (itemModel []).walk (List.replicate 4 paintShelf) (itemsPager 5) →
      e.kind ≠ .paging) ∧
    ∃ pages : List (Rows Json),
      (itemModel []).walk (List.replicate 4 paintShelf) (itemsPager 5) = pages.map .ok ∧
        ∀ k rows, pages[k]? = some rows → (rows.size = 0 ↔ 2 ≤ k) := by
  obtain ⟨hnever, _, hpages⟩ :=
    walk_never_lacks_bookmark_iff (itemModel []) (paginate_itemsUpTo 5)
  have hlimit : (itemsUpTo 5).last? Clause.limit? = some 5 := rfl
  have hoffset : (itemsUpTo 5).last? Clause.offset? = none := rfl
  refine ⟨hnever.mp (by rw [hlimit]; decide) _ fun a ha => ?_, ?_⟩
  · rw [List.eq_of_mem_replicate ha]
    rfl
  · obtain ⟨pages, hwalk, hempty⟩ := hpages (by rw [hlimit]; decide) [paleItem, redItem]
      (List.replicate 4 paintShelf) exists_entry_paintShelf
      fun a ha => List.eq_of_mem_replicate ha ▸ finds_paintShelf 5
    refine ⟨pages, hwalk, fun k rows hrows => (hempty k rows hrows).trans ?_⟩
    rw [hlimit, hoffset]
    have hshelf : ([paleItem, redItem].drop ((none : Option UInt64).getD 0).toNat).length = 2 := rfl
    have hsize : (1 : UInt64).toNat = 1 := rfl
    have hcap : (5 : UInt64).toNat = 5 := rfl
    simp only [hshelf, hsize, hcap, Nat.mul_one, Option.some.injEq, exists_eq_left']
    omega

/-- With a limit of zero a walk that began with the first page is told that it did not, though the
    store finds the items and rows can be made of them. -/
theorem bookmark_lacking_with_limit_zero :
    paginate (itemsUpTo 0) 1 paintShelf = (.ok (itemsPager 0), paintShelf) ∧
      Finds (itemsPager 0).query [paleItem, redItem] paintShelf ∧
      (∀ doc ∈ [paleItem, redItem], ∃ entry, (itemModel []).entryOf false doc = .ok entry) ∧
      (itemModel []).walk [paintShelf, paintShelf] (itemsPager 0) =
        [.ok (.models []), .error .bookmarkMissing] ∧
      Error.bookmarkMissing.kind = .paging :=
  ⟨rfl, finds_paintShelf 0, exists_entry_paintShelf, rfl, rfl⟩

end Model

end DocMapper
