import DocMapper.Proofs.Repository.Settings
import DocMapper.Proofs.Statement.Filter
import DocMapper.Proofs.Statement.Retries

/-!
# Limits of requests

No request for documents goes out without a limit. Main statement: over every run of statements and
pages, each request has the limit that its sort allows, and neither a statement nor a pass through
its pages fetches more documents than the limit of the statement.
-/

namespace DocMapper

open DocMapper.Action Adapter MemoryStore

/-! ## Documents that are fetched -/

namespace MemoryStore

/-- The number of documents in the answer to a call to find some. -/
def given (s : MemoryStore) : Call → Nat
  | .find query =>
    match (s.perform (.find query)).1 with
    | .ok answer => answer.docs.length
    | .error _ => 0
  | _ => 0

/-- The number of documents in the answers to calls to find some, made one after another. -/
def givenInAll : MemoryStore → List Call → Nat
  | _, [] => 0
  | s, call :: rest => s.given call + givenInAll (s.perform call).2 rest

variable {s : MemoryStore} {query : Query} {answer : FindAnswer} {limit : UInt64}

/-- A query brings the documents of its answer. -/
theorem given_of_answer (hanswer : (s.perform (.find query)).1 = .ok answer) :
    s.given (.find query) = answer.docs.length := by
  rw [given, hanswer]

/-- A failed query brings nothing. -/
theorem given_of_error {e : StoreError} (hanswer : (s.perform (.find query)).1 = .error e) :
    s.given (.find query) = 0 := by
  rw [given, hanswer]

/-- The store never answers with more documents than the limit of the query. -/
theorem length_le_of_answer (hlimit : query.limit = some limit)
    (hanswer : (s.perform (.find query)).1 = .ok answer) :
    answer.docs.length ≤ limit.toNat := by
  obtain ⟨_, hits, first, _, _, hdocs⟩ := answerQuery_eq_ok hanswer
  rw [hdocs, hlimit, Option.getD_some, List.length_map]
  exact List.length_take_le _ _

/-- The store gives no more documents than it is asked for. -/
theorem given_le (hlimit : query.limit = some limit) : s.given (.find query) ≤ limit.toNat := by
  cases hanswer : (s.perform (.find query)).1 with
  | error e =>
    rw [given_of_error hanswer]
    exact Nat.zero_le _
  | ok answer =>
    rw [given_of_answer hanswer]
    exact length_le_of_answer hlimit hanswer

/-- Calls that are no queries bring nothing. -/
theorem givenInAll_of_no_find {calls : List Call} (hcalls : ∀ query, .find query ∉ calls) :
    s.givenInAll calls = 0 := by
  induction calls generalizing s with
  | nil => rfl
  | cons call rest ih =>
    have hrest : ∀ query, .find query ∉ rest := fun query hmem =>
      hcalls query (List.mem_cons_of_mem _ hmem)
    have hcall : s.given call = 0 := by
      cases call with
      | find query => exact absurd List.mem_cons_self (hcalls query)
      | _ => rfl
    rw [givenInAll, hcall, ih hrest]

theorem givenInAll_singleton (s : MemoryStore) (call : Call) :
    s.givenInAll [call] = s.given call := Nat.add_zero _

end MemoryStore

/-- The number of documents that an adapter was given on its way to another. -/
def Adapter.fetchedUpTo (a b : Adapter) : Nat :=
  a.connection.store.givenInAll (b.connection.log.drop a.connection.log.length)

variable {a b : Adapter} {calls : List Call}

/-- What was fetched since is read off the log. -/
theorem Adapter.fetchedUpTo_of_log (hlog : b.connection.log = a.connection.log ++ calls) :
    a.fetchedUpTo b = a.connection.store.givenInAll calls := by
  rw [fetchedUpTo, hlog, List.drop_left]

/-! ## Requests with limits -/

/-- On the way from one adapter to another calls were made, where requests for documents had limits
    of this sort, and this many documents were fetched at most. -/
structure Adapter.Bounded (P : UInt64 → Prop) (most : Option UInt64) (a b : Adapter) : Prop where
  staged : b.connection.staged = a.connection.staged
  calls : ∃ calls, b.connection.log = a.connection.log ++ calls ∧
    ∀ query, .find query ∈ calls → ∃ limit, query.limit = some limit ∧ P limit
  fetched : ∀ limit, most = some limit → a.fetchedUpTo b ≤ limit.toNat

namespace Adapter

variable {P Q : UInt64 → Prop} {most : Option UInt64} {query : Query}

/-- A stretch of calls is bounded by what its queries ask and bring. -/
theorem bounded_of_calls (hconnection : b.connection = a.connection.after calls)
    (hlimits : ∀ query, .find query ∈ calls → ∃ limit, query.limit = some limit ∧ P limit)
    (hgiven : ∀ limit, most = some limit → a.connection.store.givenInAll calls ≤ limit.toNat) :
    Bounded P most a b := by
  have hlog : b.connection.log = a.connection.log ++ calls := congrArg Connection.log hconnection
  refine ⟨(congrArg Connection.staged hconnection).trans rfl, ⟨calls, hlog, hlimits⟩, ?_⟩
  rw [fetchedUpTo_of_log hlog]
  exact hgiven

/-- Where no documents are asked for, none are fetched. -/
theorem bounded_of_no_find (hconnection : b.connection = a.connection.after calls)
    (hcalls : ∀ query, .find query ∉ calls) : Bounded P most a b := by
  refine bounded_of_calls hconnection (fun query hmem => absurd hmem (hcalls query)) ?_
  rw [givenInAll_of_no_find hcalls]
  exact fun _ _ => Nat.zero_le _

theorem bounded_refl (P : UInt64 → Prop) (most : Option UInt64) (a : Adapter) : Bounded P most a a :=
  bounded_of_no_find (Connection.after_nil _).symm fun _ => List.not_mem_nil

/-- Only the connection is looked at. -/
theorem Bounded.of_connection {c : Adapter} (hbounded : Bounded P most a b)
    (hconnection : c.connection = b.connection) : Bounded P most a c := by
  obtain ⟨hstaged, hcalls, hfetched⟩ := hbounded
  rw [fetchedUpTo, ← hconnection] at hfetched
  rw [← hconnection] at hstaged hcalls
  exact ⟨hstaged, hcalls, hfetched⟩

/-! ## Scans -/

/-- A turn of the loop asks for one page. It ends the loop with the documents of the page, or goes
    on behind them. -/
theorem scanPages_turn {cap : Option UInt64} {pageSize want : Nat} {acc : List Document}
    (fuel : Nat) (page : Query) (hunstaged : a.Unstaged)
    (hwant : nextPage pageSize cap acc.length = want) (hne : want ≠ 0) :
    let call := Call.find { page with limit := some (UInt64.ofNat want) }
    ((scanPages cap pageSize (fuel + 1) page acc a).2 = a.served call ∧
        ∀ docs, (scanPages cap pageSize (fuel + 1) page acc a).1 = .ok docs →
          ∃ answer, (a.connection.store.perform call).1 = .ok answer ∧ docs = acc ++ answer.docs) ∨
      ∃ answer later, (a.connection.store.perform call).1 = .ok answer ∧
        scanPages cap pageSize (fuel + 1) page acc a =
          scanPages cap pageSize fuel later (acc ++ answer.docs) (a.served call) := by
  intro call
  rw [scanPages, hwant, if_neg hne]
  cases hanswer : (a.connection.store.perform call).1 with
  | error e =>
    rw [bind_of_error (ask_of_error hunstaged hanswer)]
    refine Or.inl ⟨rfl, fun docs hdocs => ?_⟩
    cases hdocs
  | ok answer =>
    rw [bind_of_ok (ask_of_ok hunstaged hanswer)]
    by_cases hlast : (decide (answer.docs.length < want) || answer.bookmark.isNone) = true
    · rw [if_pos hlast]
      refine Or.inl ⟨rfl, fun docs hdocs => ⟨answer, rfl, ?_⟩⟩
      exact (Except.ok.inj hdocs).symm
    · rw [if_neg hlast]
      exact Or.inr ⟨answer, _, rfl, rfl⟩

/-- Every page of a scan is limited to the size of pages, and together they bring no more documents
    than are still to be had. -/
theorem scanPages_calls (cap : Option UInt64) {pageSize : Nat} (hsize : pageSize < UInt64.size)
    (fuel : Nat) (page : Query) (acc : List Document) (hunstaged : a.Unstaged) :
    ∃ calls, (scanPages cap pageSize fuel page acc a).2.connection = a.connection.after calls ∧
      (∀ query, .find query ∈ calls → ∃ limit, query.limit = some limit ∧
        limit.toNat ≤ pageSize) ∧
      ∀ limit, cap = some limit → acc.length ≤ limit.toNat →
        acc.length + a.connection.store.givenInAll calls ≤ limit.toNat := by
  induction fuel generalizing page acc a with
  | zero =>
    exact ⟨[], (Connection.after_nil _).symm, fun _ hmem => absurd hmem List.not_mem_nil,
      fun _ _ hle => hle⟩
  | succ fuel ih =>
    obtain ⟨want, hwant⟩ : ∃ want, nextPage pageSize cap acc.length = want := ⟨_, rfl⟩
    by_cases hzero : want = 0
    · rw [scanPages_of_no_room fuel hwant a hzero]
      exact ⟨[], (Connection.after_nil _).symm, fun _ hmem => absurd hmem List.not_mem_nil,
        fun _ _ hle => hle⟩
    · have hle : want ≤ pageSize := hwant ▸ nextPage_le pageSize cap acc.length
      have hlimit : (UInt64.ofNat want).toNat = want := UInt64.toNat_ofNat_of_lt' (by omega)
      have hroom : ∀ limit, cap = some limit → want ≤ limit.toNat - acc.length := by
        rintro limit rfl
        rw [← hwant]
        exact Nat.min_le_right _ _
      let asked : Query := { page with limit := some (UInt64.ofNat want) }
      have hfits : (UInt64.ofNat want).toNat ≤ pageSize := by omega
      have hgiven : a.connection.store.given (.find asked) ≤ want := hlimit ▸ given_le rfl
      rcases scanPages_turn fuel page hunstaged hwant hzero with
        ⟨hends, _⟩ | ⟨answer, later, hanswer, hgoes⟩
      · refine ⟨[.find asked], congrArg Adapter.connection hends, ?_, fun limit hcap hacc => ?_⟩
        · intro query hmem
          rw [Call.find.inj (List.mem_singleton.mp hmem)]
          exact ⟨_, rfl, hfits⟩
        · have hmost := hroom limit hcap
          rw [givenInAll_singleton]
          omega
      · obtain ⟨calls, hconnection, hlimits, htotal⟩ :=
          ih later (acc ++ answer.docs) (a := a.served (.find asked)) hunstaged
        refine ⟨.find asked :: calls, ?_, ?_, fun limit hcap hacc => ?_⟩
        · rw [hgoes, hconnection]
          exact (Connection.after_append a.connection [.find asked] calls).symm
        · intro query hmem
          rcases List.mem_cons.mp hmem with hcall | hrest
          · rw [Call.find.inj hcall]
            exact ⟨_, rfl, hfits⟩
          · exact hlimits query hrest
        · have hmost := hroom limit hcap
          have hdocs : a.connection.store.given (.find asked) = answer.docs.length :=
            given_of_answer hanswer
          have hrest := htotal limit hcap (by rw [List.length_append]; omega)
          rw [List.length_append] at hrest
          rw [givenInAll, hdocs]
          exact Nat.add_assoc _ _ _ ▸ hrest

end Adapter

/-! ## Statements -/

/-- The limits that a statement may send: the one it was given or the default one for rows, and that
    of a page of a scan for an aggregate. -/
def Statement.Allows (s : Statement) (config : Config) (limit : UInt64) : Prop :=
  match s.last? Clause.aggregate? with
  | none => limit = (s.last? Clause.limit?).getD config.queryLimit
  | some _ => limit.toNat ≤ max config.pageSize.toNat 1

namespace Statement

variable {s : Statement} {queryLimit : UInt64} {query : Query}
  {manual : Option AggregateRequest} {groupBy : Option String} {warnings : List Warning}

/-- A plan to find documents sends the limit of the statement, or the default one for rows. -/
theorem limit_of_plan (hplan : s.plan queryLimit = .ok (.find query manual groupBy, warnings)) :
    manual = s.last? Clause.aggregate? ∧
      query.limit = (limitFor queryLimit (s.last? Clause.limit?) manual.isSome).1 := by
  obtain ⟨_, _, _, _, _, hmanual, rfl, _⟩ := plan_eq_find hplan
  exact ⟨hmanual, rfl⟩

end Statement

namespace Model

variable {α : Type}

section Plans

variable (m : Model α) {P : UInt64 → Prop} {most : Option UInt64} (hunstaged : a.Unstaged)
include hunstaged

/-- Views are asked, and no documents. -/
theorem bounded_carryOut_view (views : ViewPlan) :
    Bounded P most a (m.carryOut (.view views) a).2 := by
  have hquiet : Quiet (fun c => c.primitive = .view) (viewAggregate views) :=
    along_viewAggregate fun _ _ _ => allows_passing rfl
  obtain ⟨calls, hcalls, hconnection, _⟩ := hquiet a hunstaged
  refine bounded_of_no_find ((m.connection_carryOut_view views).trans hconnection) ?_
  intro query hmem
  cases hcalls _ hmem

/-- A query is asked once, with the limit that it has. -/
theorem bounded_carryOut_find {query : Query} {limit : UInt64} (groupBy : Option String)
    (hlimit : query.limit = some limit) (hallowed : P limit)
    (hmost : ∀ bound, most = some bound → bound = limit) :
    Bounded P most a (m.carryOut (.find query none groupBy) a).2 := by
  refine bounded_of_calls (m.connection_carryOut_find query groupBy hunstaged) ?_ ?_
  · intro asked hmem
    cases List.mem_singleton.mp hmem
    exact ⟨limit, hlimit, hallowed⟩
  · intro bound hbound
    rw [givenInAll_singleton, hmost bound hbound]
    exact given_le hlimit

/-- A scan asks page after page, and the limit of its query is that of all pages together. -/
theorem bounded_carryOut_scan (query : Query) (request : AggregateRequest)
    (groupBy : Option String)
    (hallowed : ∀ limit, limit.toNat ≤ max a.config.pageSize.toNat 1 → P limit) :
    Bounded P query.limit a (m.carryOut (.find query (some request) groupBy) a).2 := by
  have hsize : max a.config.pageSize.toNat 1 < UInt64.size :=
    Nat.max_lt.mpr ⟨a.config.pageSize.toNat_lt, by decide⟩
  obtain ⟨calls, hconnection, hlimits, htotal⟩ := scanPages_calls query.limit hsize
    (a.documents.length + 1 + 1) query [] hunstaged
  rw [← scan_eq query a.config.pageSize hunstaged,
    ← m.connection_carryOut_scan query request groupBy] at hconnection
  refine bounded_of_calls hconnection (fun asked hmem => ?_) fun limit hlimit => ?_
  · obtain ⟨limit, hsent, hle⟩ := hlimits asked hmem
    exact ⟨limit, hsent, hallowed limit hle⟩
  · have hall := htotal limit hlimit (Nat.zero_le _)
    rwa [List.length_nil, Nat.zero_add] at hall

end Plans

/-- Executing keeps to the limit of the statement, or to the configured ones. -/
theorem bounded_execute (m : Model α) (s : Statement) (hunstaged : a.Unstaged) :
    Bounded (s.Allows a.config) (s.last? Clause.limit?) a (m.execute s a).2 := by
  cases hplan : s.plan a.config.queryLimit with
  | error e =>
    rw [m.execute_of_plan_error hplan]
    exact bounded_refl _ _ _
  | ok planned =>
    obtain ⟨plan, warnings⟩ := planned
    rw [m.execute_of_plan hplan]
    cases plan with
    | view views => exact m.bounded_carryOut_view hunstaged views
    | find query manual groupBy =>
      obtain ⟨hmanual, hlimit⟩ := Statement.limit_of_plan hplan
      cases manual with
      | none =>
        have hsent : query.limit = some ((s.last? Clause.limit?).getD a.config.queryLimit) := by
          rw [hlimit]
          cases s.last? Clause.limit? <;> rfl
        refine m.bounded_carryOut_find hunstaged groupBy hsent ?_ fun bound hbound => ?_
        · rw [Statement.Allows, ← hmanual]
        · rw [hbound, Option.getD_some]
      | some request =>
        have hcap : query.limit = s.last? Clause.limit? := by
          rw [hlimit]
          cases s.last? Clause.limit? <;> rfl
        rw [← hcap]
        refine m.bounded_carryOut_scan hunstaged query request groupBy fun limit hle => ?_
        rw [Statement.Allows, ← hmanual]
        exact hle

/-- Fetching makes the calls of executing. -/
theorem connection_fetch (m : Model α) (s : Statement) :
    (m.fetch s a).2.connection = (m.execute s a).2.connection := by
  refine connection_bind fun output => ?_
  split
  · exact along_pure _
  · exact along_throw _
  · exact along_throw _

/-- Aggregating makes the calls of executing. -/
theorem connection_aggregate (m : Model α) (s : Statement) :
    (m.aggregate s a).2.connection = (m.execute s a).2.connection := by
  refine connection_bind fun output => ?_
  split
  · exact along_pure _
  · exact along_throw _

/-- Making a pager calls nothing. -/
theorem paginate_snd (s : Statement) (size : UInt64) (a : Adapter) : (paginate s size a).2 = a := by
  unfold paginate
  by_cases hsize : size = 0
  · rw [if_pos hsize]
    rfl
  · rw [if_neg hsize]
    cases hplan : s.plan a.config.queryLimit with
    | error e => rw [bind_of_error (planOf_of_error hplan)]
    | ok planned =>
      rw [bind_of_ok (planOf_of_ok hplan)]
      rcases planned.1 with ⟨query, _ | request, _ | attr⟩ | view <;> rfl

/-- A request for a page makes a single call at most, which has the room on the page for its limit.
    The pager counts what is fetched, from the first page on. -/
theorem page_fetches (m : Model α) (n : Nat) (q : Pager) (hunstaged : a.Unstaged) :
    ∃ calls, (m.page n q a).2.connection = a.connection.after calls ∧
      (∀ query, .find query ∈ calls → query.limit = some (q.room n)) ∧
      (a.connection.store.givenInAll calls = 0 ∧ (m.page n q a).1.2.fetched = q.fetched ∨
        (m.page n q a).1.2.fetched = q.before n + a.connection.store.givenInAll calls ∧
          a.connection.store.givenInAll calls ≤ (q.room n).toNat) := by
  have hnone : ∀ query, Call.find query ∉ [] := fun _ => List.not_mem_nil
  cases hquery : q.queryFor n with
  | error e =>
    rw [page_eq, hquery]
    exact ⟨[], (Connection.after_nil _).symm, fun query hmem => absurd hmem (hnone query),
      Or.inl ⟨rfl, rfl⟩⟩
  | ok query =>
    by_cases hroom : q.room n = 0
    · rw [page_of_no_room hquery hroom, Paging.lift_eq]
      refine ⟨[], ?_, fun query hmem => absurd hmem (hnone query), Or.inl ⟨rfl, rfl⟩⟩
      rw [Connection.after_nil]
      exact (m.notes_rows _ _ a).connection
    · let asked : Query := { query with limit := some (q.room n) }
      have hlimits : ∀ other, Call.find other ∈ [Call.find asked] →
          other.limit = some (q.room n) := by
        intro other hmem
        rw [Call.find.inj (List.mem_singleton.mp hmem)]
      refine ⟨[.find asked], ?_⟩
      rw [givenInAll_singleton]
      cases hanswer : (a.connection.store.perform (.find asked)).1 with
      | error cause =>
        rw [page_of_no_answer hquery hroom (ask_of_error hunstaged hanswer)]
        exact ⟨rfl, hlimits, Or.inl ⟨given_of_error hanswer, rfl⟩⟩
      | ok answer =>
        rw [page_of_answer hquery hroom (ask_of_ok hunstaged hanswer), Paging.lift_eq,
          given_of_answer hanswer]
        exact ⟨(m.notes_rows _ _ _).connection, hlimits,
          Or.inr ⟨rfl, length_le_of_answer rfl hanswer⟩⟩

end Model

end DocMapper
