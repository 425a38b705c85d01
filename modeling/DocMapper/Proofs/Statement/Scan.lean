import DocMapper.Model.Plain
import DocMapper.Proofs.Adapter.Finding
import DocMapper.Proofs.Statement.Rows

/-!
# Scans

A scan asks for one page after another until a page comes back short or the limit is reached.
Main statement: it ends by itself, and brings every document that the query matches, without the
ones that are skipped and up to the limit, however large the pages are.
-/

namespace DocMapper

open MemoryStore

/-- What is still to be had of documents under a limit, when so many were taken already. -/
def upTo (cap : Option UInt64) (taken : Nat) (docs : List Document) : List Document :=
  match cap with
  | none => docs
  | some cap => docs.take (cap.toNat - taken)

/-- The documents that a query asks for among those that it matches: without the skipped ones, up
    to the limit. -/
def Query.window (q : Query) (hits : List Document) : List Document :=
  upTo q.limit 0 (hits.drop (q.skip.getD 0).toNat)

namespace Adapter

variable {cap : Option UInt64} {pageSize taken : Nat} {docs : List Document}

theorem nextPage_le (pageSize : Nat) (cap : Option UInt64) (taken : Nat) :
    nextPage pageSize cap taken ≤ pageSize := by
  cases cap with
  | none => exact Nat.le_refl _
  | some cap => exact Nat.min_le_left _ _

/-- Pages have room for something, so that no page is asked for only at the limit. -/
theorem upTo_of_nextPage_eq_zero (hpageSize : 0 < pageSize)
    (hzero : nextPage pageSize cap taken = 0) : upTo cap taken docs = [] := by
  cases cap with
  | none =>
    have hpage : pageSize = 0 := hzero
    omega
  | some cap =>
    have hmin : min pageSize (cap.toNat - taken) = 0 := hzero
    have hcap : cap.toNat - taken = 0 := by omega
    rw [upTo, hcap, List.take_zero]

/-- A page that comes back short is the last one. -/
theorem upTo_of_short (hshort : (docs.take (nextPage pageSize cap taken)).length <
    nextPage pageSize cap taken) :
    upTo cap taken docs = docs.take (nextPage pageSize cap taken) := by
  have hlength : docs.length < nextPage pageSize cap taken := by
    rw [List.length_take] at hshort
    omega
  rw [List.take_of_length_le (Nat.le_of_lt hlength)]
  cases cap with
  | none => rfl
  | some cap =>
    have hmin : nextPage pageSize (some cap) taken ≤ cap.toNat - taken := Nat.min_le_right _ _
    exact List.take_of_length_le (by omega)

/-- A full page leaves what is behind it. -/
theorem upTo_of_full (cap : Option UInt64) (docs : List Document) (pageSize taken : Nat) :
    docs.take (nextPage pageSize cap taken) ++
        upTo cap (taken + nextPage pageSize cap taken) (docs.drop (nextPage pageSize cap taken)) =
      upTo cap taken docs := by
  cases cap with
  | none => exact List.take_append_drop _ _
  | some cap =>
    have hmin : nextPage pageSize (some cap) taken ≤ cap.toNat - taken := Nat.min_le_right _ _
    have hsum : cap.toNat - taken = nextPage pageSize (some cap) taken +
        (cap.toNat - (taken + nextPage pageSize (some cap) taken)) := by omega
    rw [upTo, upTo, hsum, List.take_add]

variable {a b : Adapter} {page : Query} {hits : List Document} {first : UInt64}

/-! ## Steps of the loop -/

section Steps

variable {want : Nat} {acc : List Document} {answer : FindAnswer} (fuel : Nat)
  (hwant : nextPage pageSize cap acc.length = want)

include hwant

theorem scanPages_of_no_room (a : Adapter) (hzero : want = 0) :
    scanPages cap pageSize (fuel + 1) page acc a = (.ok acc, a) := by
  rw [scanPages, hwant, if_pos hzero]
  rfl

variable (hne : want ≠ 0)
  (hask : ask none (.find { page with limit := some (UInt64.ofNat want) }) a = (.ok answer, b))

include hne hask

theorem scanPages_of_short (hshort : answer.docs.length < want) :
    scanPages cap pageSize (fuel + 1) page acc a = (.ok (acc ++ answer.docs), b) := by
  have hlast : (decide (answer.docs.length < want) || answer.bookmark.isNone) = true := by
    rw [decide_eq_true hshort, Bool.true_or]
  rw [scanPages, hwant, if_neg hne, bind_of_ok hask, if_pos hlast]
  rfl

theorem scanPages_of_full {bookmark : String} (hfull : ¬answer.docs.length < want)
    (hbookmark : answer.bookmark = some bookmark) :
    scanPages cap pageSize (fuel + 1) page acc a =
      scanPages cap pageSize fuel { page with bookmark := some bookmark, skip := none }
        (acc ++ answer.docs) b := by
  have hmore : ¬(decide (answer.docs.length < want) || answer.bookmark.isNone) = true := by
    rw [decide_eq_false hfull, hbookmark]
    exact Bool.false_ne_true
  rw [scanPages, hwant, if_neg hne, bind_of_ok hask, if_neg hmore, hbookmark]

end Steps

/-- From any position on the loop ends by itself: given fuel for the documents behind the position,
    more fuel makes no difference, not even to the calls that are made. -/
theorem scanPages_eq (cap : Option UInt64) (hpageSize : 0 < pageSize)
    (hsize : pageSize < UInt64.size) (acc : List Document) (hfinds : Finds page hits a)
    (hfields : page.fields = none) (hstart : start page = .ok first) :
    ∃ b, ∀ fuel, hits.length - first.toNat ≤ fuel →
      scanPages cap pageSize (fuel + 1) page acc a =
        (.ok (acc ++ upTo cap acc.length (hits.drop first.toNat)), b) := by
  induction hrest : hits.length - first.toNat using Nat.strongRecOn
    generalizing page acc a first with
  | ind rest ih =>
    obtain ⟨want, hwant⟩ : ∃ want, nextPage pageSize cap acc.length = want := ⟨_, rfl⟩
    by_cases hzero : want = 0
    · refine ⟨a, fun fuel _ => ?_⟩
      rw [scanPages_of_no_room fuel hwant a hzero,
        upTo_of_nextPage_eq_zero hpageSize (hwant.trans hzero), List.append_nil]
    · have hle : want ≤ pageSize := hwant ▸ nextPage_le pageSize cap acc.length
      have hlimit : (UInt64.ofNat want).toNat = want := UInt64.toNat_ofNat_of_lt' (by omega)
      let asked : Query := { page with limit := some (UInt64.ofNat want) }
      have hasked : Finds asked hits a := hfinds.congr rfl rfl
      obtain ⟨answer, next, hask, hdocs, hbookmark, hnext⟩ := hasked.ask_find hstart rfl
      have hproject : project asked.fields = id := by
        rw [show asked.fields = none from hfields]
        rfl
      rw [hlimit, hproject, List.map_id] at hdocs
      by_cases hshort : answer.docs.length < want
      · refine ⟨a.served (.find asked), fun fuel _ => ?_⟩
        rw [scanPages_of_short fuel hwant hzero hask hshort, hdocs, ← hwant, upTo_of_short]
        rw [hwant, ← hdocs]
        exact hshort
      · -- The page is full, so there are fewer documents behind the next position.
        have hlength : answer.docs.length = want := by
          have hbound := congrArg List.length hdocs
          rw [List.length_take] at hbound
          omega
        have hfewer : hits.length - next.toNat < rest := by
          have hbound := congrArg List.length hdocs
          rw [List.length_take, List.length_drop] at hbound
          omega
        let resumed : Query := { page with bookmark := some (bookmarkAt next.toNat), skip := none }
        have hresumed : Finds resumed hits (a.served (.find asked)) :=
          (hfinds.served_find asked).congr rfl rfl
        obtain ⟨b, hb⟩ := ih _ hfewer (acc ++ answer.docs) hresumed hfields
          (start_of_bookmarkAt rfl rfl) rfl
        refine ⟨b, fun fuel hfuel => ?_⟩
        obtain ⟨fuel, rfl⟩ := Nat.exists_eq_add_one_of_ne_zero (n := fuel) (by omega)
        have hsplit := upTo_of_full cap (hits.drop first.toNat) pageSize acc.length
        rw [hwant, List.drop_drop] at hsplit
        rw [scanPages_of_full _ hwant hzero hask hshort hbookmark, hb fuel (by omega),
          List.append_assoc, List.length_append, hlength, hnext, hlength, ← hsplit, hdocs]

/-! ## Whole scans -/

theorem scan_eq (query : Query) (size : UInt64) (hunstaged : a.Unstaged) :
    scan query size a = scanPages query.limit (max size.toNat 1) (a.documents.length + 1 + 1)
      query [] a := by
  have hnone : (a.connection.staged .find).length = 0 := by
    rw [hunstaged]
    rfl
  rw [scan, get_bind, hnone, Nat.zero_add]
  rfl

/-- A scan brings the documents that the query asks for among those that it matches. -/
theorem scan_of_finds {query : Query} (size : UInt64) (hfinds : Finds query hits a)
    (hlength : hits.length ≤ a.documents.length) (hbookmark : query.bookmark = none)
    (hfields : query.fields = none) : ∃ b, scan query size a = (.ok (query.window hits), b) := by
  have hsize : max size.toNat 1 < UInt64.size := Nat.max_lt.mpr ⟨size.toNat_lt, by decide⟩
  obtain ⟨b, hb⟩ := scanPages_eq query.limit (by omega) hsize [] hfinds hfields
    (start_of_no_bookmark hbookmark)
  exact ⟨b, (scan_eq query size hfinds.unstaged).trans (hb _ (by omega))⟩

/-- An aggregate that no view is asked for is computed of what the scan brings. -/
theorem execute_of_scan {α : Type} (m : Model α) {s : Statement} {query : Query}
    {request : AggregateRequest} {groupBy : Option String} {warnings : List Warning}
    (hplan : s.plan a.config.queryLimit = .ok (.find query (some request) groupBy, warnings))
    (hscan : scan query a.config.pageSize a = (.ok docs, b)) :
    (m.execute s a).1 = (Aggregate.compute m.schema request docs).map .aggregate := by
  have hcarry : m.execute s a = (liftM (Aggregate.compute m.schema request docs) >>= fun output =>
      pure (Output.aggregate output) : Action (Output α)) b :=
    (bind_of_ok (Model.planOf_of_ok hplan)).trans ((get_bind _).trans (bind_of_ok hscan))
  rw [hcarry]
  cases Aggregate.compute m.schema request docs <;> rfl

/-- A scan of a query that the store can answer brings exactly the documents that it matches, in
    order, without the skipped ones and up to the limit; without a limit all of them. The loop ends
    by itself: fuel for as many pages as there are documents is enough, and with more it gives the
    same answer and makes the same calls. The size of pages does not matter, not even zero. So an
    aggregate with filters is computed of all these documents and no others. The store holds at most
    as many documents as its positions of 64 bits can tell apart. -/
theorem scan_complete {query : Query} {answer : FindAnswer} (hunstaged : a.Unstaged)
    (hcountable : a.documents.length < UInt64.size) (hbookmark : query.bookmark = none)
    (hfields : query.fields = none)
    (hfind : (a.connection.store.perform (.find query)).1 = .ok answer) :
    ∃ hits, found a.documents query = .ok hits ∧
      (∀ size : UInt64, (scan query size a).1 = .ok (query.window hits) ∧
        ∃ b, ∀ fuel, a.documents.length < fuel →
          scanPages query.limit (max size.toNat 1) fuel query [] a =
            (.ok (query.window hits), b)) ∧
      ∀ {α : Type} (m : Model α) (s : Statement) (request : AggregateRequest)
        (groupBy : Option String) (warnings : List Warning),
        s.plan a.config.queryLimit = .ok (.find query (some request) groupBy, warnings) →
          (m.execute s a).1 =
            (Aggregate.compute m.schema request (query.window hits)).map .aggregate := by
  obtain ⟨hcovers, hits, _, hfound, _⟩ := answerQuery_eq_ok hfind
  have hlength : hits.length ≤ a.documents.length := length_le_of_found hfound
  have hfinds : Finds query hits a :=
    ⟨hunstaged, hcovers, hfound, by omega⟩
  have hloop : ∀ size : UInt64, ∃ b, ∀ fuel, a.documents.length < fuel →
      scanPages query.limit (max size.toNat 1) fuel query [] a =
        (.ok (query.window hits), b) := by
    intro size
    have hsize : max size.toNat 1 < UInt64.size := Nat.max_lt.mpr ⟨size.toNat_lt, by decide⟩
    obtain ⟨b, hb⟩ := scanPages_eq query.limit (by omega) hsize [] hfinds hfields
      (start_of_no_bookmark hbookmark)
    refine ⟨b, fun fuel hfuel => ?_⟩
    obtain ⟨fuel, rfl⟩ := Nat.exists_eq_add_one_of_ne_zero (n := fuel) (by omega)
    rw [hb fuel (by omega)]
    rfl
  have hscan : ∀ size : UInt64, ∃ b, scan query size a = (.ok (query.window hits), b) := by
    intro size
    obtain ⟨b, hb⟩ := hloop size
    exact ⟨b, (scan_eq query size hunstaged).trans (hb _ (by omega))⟩
  refine ⟨hits, hfound, fun size => ⟨?_, hloop size⟩, ?_⟩
  · obtain ⟨b, hb⟩ := hscan size
    rw [hb]
  · intro α m s request groupBy warnings hplan
    obtain ⟨b, hb⟩ := hscan a.config.pageSize
    have hcarry : m.execute s a =
        (liftM (Aggregate.compute m.schema request (query.window hits)) >>= fun output =>
          pure (Output.aggregate output) : Action (Output α)) b :=
      (bind_of_ok (Model.planOf_of_ok hplan)).trans ((get_bind _).trans (bind_of_ok hb))
    rw [hcarry]
    cases Aggregate.compute m.schema request (query.window hits) <;> rfl

/-- More items than an answer without a limit would hold, and a document of another table. -/
def shelf : Adapter :=
  let item (n : Nat) : Document := [("??table", .str "items"),
    ("_id", .str ("items__" ++ toString n)), ("_rev", .str (Revision.text 1 0)),
    ("color", .str "red")]
  let other : Document := [("??table", .str "gadgets"), ("_id", .str "gadgets__1"),
    ("_rev", .str (Revision.text 1 0)), ("color", .str "red")]
  ofStore { digest := fun _ _ => 0, documents := ("gadgets__1", other) ::
    (List.range 27).map fun n => ("items__" ++ toString (n + 10), item (n + 10)) } {}

/-- The schema of the items. -/
def shelfSchema : Schema :=
  { table := "items", primaryKey := ⟨"id", .text, none⟩,
    views := [{ kind := .count, attr := "color" }] }

/-- The red items are counted, but for the first. -/
def shelfCount : Statement := ⟨[
  .target shelfSchema, .filter (.equals "color" (.str "red")), .offset 1,
  .aggregate ⟨.count, none⟩]⟩

theorem scan_complete_shelf : ∃ query,
    shelfCount.plan 250 = .ok (.find query (some ⟨.count, none⟩) none, []) ∧
      (scan query 13 shelf).1 = .ok (shelf.documents.values.drop 2) ∧
      (scan query 0 shelf).1 = .ok (shelf.documents.values.drop 2) ∧
      ((Model.plain shelfSchema [] []).execute shelfCount shelf).1 =
        .ok (.aggregate (.count 26)) := by
  obtain ⟨query, hplan, hsort, hbookmark, hfields, hskip, hlimit, hmatching⟩ : ∃ query,
      shelfCount.plan 250 = .ok (.find query (some ⟨.count, none⟩) none, []) ∧
        query.sort = [] ∧ query.bookmark = none ∧ query.fields = none ∧ query.skip = some 1 ∧
        query.limit = none ∧
        matching query.selector shelf.documents = .ok (shelf.documents.values.drop 1) :=
    ⟨_, rfl, rfl, rfl, rfl, rfl, rfl, rfl⟩
  have hfound : found shelf.documents query = .ok (shelf.documents.values.drop 1) := by
    rw [found, hmatching, hsort]
    exact congrArg Except.ok (List.mergeSort_of_pairwise
      (List.pairwise_of_forall fun _ _ => rfl))
  have hcovers : CoversSort shelf.connection.store.indexes query.sort := by
    rw [hsort]
    rfl
  obtain ⟨answer, hanswer, _⟩ :=
    answerQuery_of_found hcovers hfound (start_of_no_bookmark hbookmark)
  obtain ⟨hits, hhits, hscan, hexecute⟩ :=
    scan_complete (a := shelf) rfl (by decide) hbookmark hfields hanswer
  have hwindow : query.window hits = shelf.documents.values.drop 2 := by
    rw [hfound] at hhits
    cases hhits
    rw [Query.window, hskip, hlimit]
    rfl
  rw [hwindow] at hscan hexecute
  refine ⟨query, hplan, (hscan 13).1, (hscan 0).1, ?_⟩
  rw [hexecute (Model.plain shelfSchema [] []) shelfCount ⟨.count, none⟩ none [] hplan]
  rfl

end Adapter

end DocMapper
