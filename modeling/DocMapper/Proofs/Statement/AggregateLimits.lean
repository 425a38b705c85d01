import DocMapper.Proofs.Statement.Filter
import DocMapper.Proofs.Statement.Limits
import DocMapper.Proofs.Statement.Routing

/-!
# Limits of aggregates

A limit and an offset of a statement with an aggregate would have the aggregate be of fewer
documents. Main statement: its plan goes by them exactly if it has a filter, or neither of the two
is given. With a filter no more documents than the limit are aggregated; without one the statement
does what it would do if the two were not given.
-/

namespace DocMapper

open DocMapper.Action Adapter MemoryStore

/-- The plan goes by a limit and an offset: they are those of its query, or of all the views that it
    asks. -/
def Plan.Carries (limit skip : Option UInt64) : Plan → Prop
  | .find query _ _ => query.limit = limit ∧ query.skip = skip
  | .view plan => ∀ d ∈ plan.target.descriptors, d.options.limit = limit ∧ d.options.skip = skip

/-! ## Views -/

section Views

variable {schema : Schema} {request : AggregateRequest}

theorem ViewTarget.descriptors_ne_nil (target : ViewTarget) : target.descriptors ≠ [] := by
  cases target <;> exact List.cons_ne_nil _ _

/-- Views are asked without a limit and without an offset, whatever the statement says. -/
theorem ViewPlan.carries_iff {plan : ViewPlan} (hresolve : resolve schema request = .ok plan)
    {limit skip : Option UInt64} :
    (Plan.view plan).Carries limit skip ↔ limit = none ∧ skip = none := by
  have hplain : ∀ d ∈ plan.target.descriptors,
      d.options.limit = none ∧ d.options.skip = none := by
    intro d hd
    rw [(ViewTarget.descriptors_of_find (resolve_eq_ok_iff.mp hresolve).1 d hd).2]
    exact ⟨rfl, rfl⟩
  constructor
  · intro hcarries
    obtain ⟨d, hd⟩ := List.exists_mem_of_ne_nil _ plan.target.descriptors_ne_nil
    obtain ⟨hlimit, hskip⟩ := hplain d hd
    exact ⟨(hcarries d hd).1.symm.trans hlimit, (hcarries d hd).2.symm.trans hskip⟩
  · rintro ⟨rfl, rfl⟩
    exact hplain

end Views

/-! ## Scans -/

namespace Adapter

variable {a : Adapter} {limit : UInt64} {docs : List Document}

/-- However the pages come, a scan takes no more documents than its limit. -/
theorem scanPages_length_le {pageSize : Nat} (hsize : pageSize < UInt64.size) (fuel : Nat)
    (page : Query) {acc : List Document} (hunstaged : a.Unstaged) (hacc : acc.length ≤ limit.toNat)
    (hscan : (scanPages (some limit) pageSize fuel page acc a).1 = .ok docs) :
    docs.length ≤ limit.toNat := by
  induction fuel generalizing page acc a with
  | zero =>
    cases hscan
    exact hacc
  | succ fuel ih =>
    obtain ⟨want, hwant⟩ : ∃ want, nextPage pageSize (some limit) acc.length = want := ⟨_, rfl⟩
    by_cases hzero : want = 0
    · rw [scanPages_of_no_room fuel hwant a hzero] at hscan
      cases hscan
      exact hacc
    · have hroom : want ≤ limit.toNat - acc.length := hwant ▸ Nat.min_le_right _ _
      have hpage : want ≤ pageSize := hwant ▸ nextPage_le pageSize (some limit) acc.length
      have hasked : (UInt64.ofNat want).toNat = want := UInt64.toNat_ofNat_of_lt' (by omega)
      have hgrown : ∀ answer, (a.connection.store.perform
          (.find { page with limit := some (UInt64.ofNat want) })).1 = .ok answer →
            (acc ++ answer.docs).length ≤ limit.toNat := by
        intro answer hanswer
        have hdocs := length_le_of_answer rfl hanswer
        rw [List.length_append]
        omega
      rcases scanPages_turn fuel page hunstaged hwant hzero with
        ⟨_, hends⟩ | ⟨answer, later, hanswer, hgoes⟩
      · obtain ⟨answer, hanswer, rfl⟩ := hends docs hscan
        exact hgrown answer hanswer
      · rw [hgoes] at hscan
        exact ih later (a := a.served _) hunstaged (hgrown answer hanswer) hscan

theorem scan_length_le {query : Query} {size : UInt64} (hunstaged : a.Unstaged)
    (hlimit : query.limit = some limit) (hscan : (scan query size a).1 = .ok docs) :
    docs.length ≤ limit.toNat := by
  have hsize : max size.toNat 1 < UInt64.size := Nat.max_lt.mpr ⟨size.toNat_lt, by decide⟩
  rw [scan_eq query size hunstaged, hlimit] at hscan
  exact scanPages_length_le hsize _ query hunstaged (Nat.zero_le _) hscan

theorem exists_scan_of_execute {α : Type} {m : Model α} {s : Statement} {query : Query}
    {request : AggregateRequest} {groupBy : Option String} {warnings : List Warning}
    {output : Output α}
    (hplan : s.plan a.config.queryLimit = .ok (.find query (some request) groupBy, warnings))
    (hrun : (m.execute s a).1 = .ok output) :
    ∃ docs b, scan query a.config.pageSize a = (.ok docs, b) := by
  obtain ⟨b, hpair⟩ : ∃ b, m.execute s a = (.ok output, b) := ⟨_, Prod.ext hrun rfl⟩
  rw [m.execute_of_plan hplan, Model.carryOut, get_bind] at hpair
  obtain ⟨docs, c, hscan, _⟩ := bind_eq_ok hpair
  exact ⟨docs, c, hscan⟩

end Adapter

/-! ## Statements -/

namespace Statement

variable {s : Statement} {queryLimit : UInt64} {request : AggregateRequest} {plan : Plan}
  {warnings : List Warning}

/-- The statement without its limits and offsets. -/
def unlimited (s : Statement) : Statement :=
  ⟨s.clauses.filter fun c => c.limit?.isNone && c.offset?.isNone⟩

theorem each_unlimited {β : Type} {part : Clause → Option β}
    (hlimit : ∀ n, part (.limit n) = none) (hoffset : ∀ n, part (.offset n) = none)
    (s : Statement) : s.unlimited.each part = s.each part := by
  refine each_filter (fun c hkeep => ?_) s
  cases c with
  | limit n => exact hlimit n
  | offset n => exact hoffset n
  | _ => cases hkeep

theorem last?_unlimited {β : Type} {part : Clause → Option β}
    (hlimit : ∀ n, part (.limit n) = none) (hoffset : ∀ n, part (.offset n) = none)
    (s : Statement) : s.unlimited.last? part = s.last? part := by
  rw [last?, each_unlimited hlimit hoffset, last?]

theorem shapesRows_unlimited (s : Statement) : s.unlimited.shapesRows = s.shapesRows := by
  rw [shapesRows, each_unlimited (fun _ => rfl) fun _ => rfl,
    last?_unlimited (fun _ => rfl) fun _ => rfl, shapesRows]

/-- Without a filter nothing but a view is planned, for which limits and offsets play no part. -/
theorem plan_unlimited (haggregate : s.last? Clause.aggregate? = some request)
    (hfilters : s.each Clause.filter? = []) :
    s.unlimited.plan queryLimit = s.plan queryLimit := by
  have htarget : s.unlimited.last? Clause.target? = s.last? Clause.target? :=
    last?_unlimited (fun _ => rfl) (fun _ => rfl) s
  have hrequest : s.unlimited.last? Clause.aggregate? = some request :=
    (last?_unlimited (fun _ => rfl) (fun _ => rfl) s).trans haggregate
  have hnone : s.unlimited.each Clause.filter? = [] :=
    (each_unlimited (fun _ => rfl) (fun _ => rfl) s).trans hfilters
  simp only [Statement.plan, htarget, hrequest, haggregate, shapesRows_unlimited, hnone, hfilters,
    List.isEmpty_nil, if_true]

theorem skip_of_plan {query : Query} {manual : Option AggregateRequest} {groupBy : Option String}
    (hplan : s.plan queryLimit = .ok (.find query manual groupBy, warnings)) :
    query.skip = s.last? Clause.offset? := by
  obtain ⟨_, _, _, _, _, _, rfl, _⟩ := plan_eq_find hplan
  rfl

/-- A plan to find documents for an aggregate has the limit and the offset of the statement. -/
theorem carries_of_plan_find {query : Query} {groupBy : Option String}
    (hplan : s.plan queryLimit = .ok (.find query (some request) groupBy, warnings)) :
    (Plan.find query (some request) groupBy).Carries (s.last? Clause.limit?)
      (s.last? Clause.offset?) := by
  refine ⟨?_, skip_of_plan hplan⟩
  rw [(limit_of_plan hplan).2]
  cases s.last? Clause.limit? <;> rfl

/-- Of a statement with an aggregate that has a plan, whatever its clauses are and in whatever
    order, the plan goes by the last limit and the last offset if and only if there is a filter, or
    neither of the two is given. With a filter no run aggregates more documents than the limit
    allows. Without one the plan is that of the statement without limits and offsets, so that they
    make no difference at all. -/
theorem aggregate_carries_iff (haggregate : s.last? Clause.aggregate? = some request)
    (hplan : s.plan queryLimit = .ok (plan, warnings)) :
    (plan.Carries (s.last? Clause.limit?) (s.last? Clause.offset?) ↔
        (∃ c, .filter c ∈ s.clauses) ∨
          (∀ n, .limit n ∉ s.clauses) ∧ ∀ n, .offset n ∉ s.clauses) ∧
      ((∃ c, .filter c ∈ s.clauses) → ∃ query groupBy,
        plan = .find query (some request) groupBy ∧
          ∀ {α : Type} (m : Model α) {a : Adapter} {output : Output α}, a.Unstaged →
            a.config.queryLimit = queryLimit → (m.execute s a).1 = .ok output →
              ∃ docs value, (scan query a.config.pageSize a).1 = .ok docs ∧
                (∀ n, s.last? Clause.limit? = some n → docs.length ≤ n.toNat) ∧
                Aggregate.compute m.schema request docs = .ok value ∧
                output = .aggregate value) ∧
      ((∀ c, .filter c ∉ s.clauses) → s.unlimited.plan queryLimit = .ok (plan, warnings)) := by
  have hunfiltered := each_eq_nil_iff (s := s) Clause.filter?_eq_some_iff
  obtain ⟨schema, views, htarget, hshapes, hresolve, ⟨hnil, rfl⟩ | ⟨hne, query, groupBy, rfl⟩⟩ :=
    plan_eq_ok_of_aggregate haggregate hplan
  · have hnone := hunfiltered.mp hnil
    refine ⟨?_, fun ⟨c, hc⟩ => absurd hc (hnone c),
      fun _ => (plan_unlimited haggregate hnil).trans hplan⟩
    rw [ViewPlan.carries_iff hresolve, last?_eq_none_iff Clause.limit?_eq_some_iff,
      last?_eq_none_iff Clause.offset?_eq_some_iff]
    exact ⟨Or.inr, fun hgiven => hgiven.resolve_left fun ⟨c, hc⟩ => hnone c hc⟩
  · have hcarries := carries_of_plan_find hplan
    have hsome : ∃ c, .filter c ∈ s.clauses := by
      by_contra hnone
      exact hne (hunfiltered.mpr fun c hc => hnone ⟨c, hc⟩)
    refine ⟨iff_of_true hcarries (Or.inl hsome), fun _ => ⟨query, groupBy, rfl, ?_⟩,
      fun hnone => absurd hsome fun ⟨c, hc⟩ => hnone c hc⟩
    intro α m a output hunstaged hconfig hrun
    subst hconfig
    obtain ⟨docs, b, hscan⟩ := exists_scan_of_execute hplan hrun
    rw [execute_of_scan m hplan hscan] at hrun
    obtain ⟨value, hvalue, rfl⟩ := map_eq_ok hrun
    have hdocs : (scan query a.config.pageSize a).1 = .ok docs := congrArg Prod.fst hscan
    exact ⟨docs, value, hdocs, fun n hn => scan_length_le hunstaged (hcarries.1.trans hn) hdocs,
      hvalue, rfl⟩

/-! ## Five items -/

/-- The first five red items but two are counted. -/
def fewReds : Statement := ⟨[
  .limit 9, .target shelfSchema, .filter (.equals "color" (.str "red")), .limit 5,
  .aggregate ⟨.count, none⟩, .offset 2]⟩

/-- The same of items of any color. -/
def fewItems : Statement := ⟨[
  .limit 9, .target shelfSchema, .limit 5, .aggregate ⟨.count, none⟩, .offset 2]⟩

/-- The items with the answer of the view that counts them. -/
def countedShelf : Adapter :=
  ofStore { shelf.connection.store with views := shelfSchema.views.map fun v =>
    ((v.designName "items", v.viewName "items"), .counted 27) } {}

theorem execute_fewReds :
    ((Model.plain shelfSchema [] []).execute fewReds shelf).1 = .ok (.aggregate (.count 5)) := by
  obtain ⟨query, hplan, hsort, hbookmark, hfields, hlimit, hskip, hmatching⟩ : ∃ query,
      fewReds.plan 250 = .ok (.find query (some ⟨.count, none⟩) none, []) ∧ query.sort = [] ∧
        query.bookmark = none ∧ query.fields = none ∧ query.limit = some 5 ∧
        query.skip = some 2 ∧
        matching query.selector shelf.documents = .ok (shelf.documents.values.drop 1) :=
    ⟨_, rfl, rfl, rfl, rfl, rfl, rfl, rfl⟩
  have hfinds : Finds query (shelf.documents.values.drop 1) shelf := by
    refine ⟨rfl, ?_, found_of_no_sort hsort hmatching, by decide⟩
    rw [hsort]
    rfl
  obtain ⟨b, hscan⟩ := scan_of_finds shelf.config.pageSize hfinds (by decide) hbookmark hfields
  rw [execute_of_scan _ hplan hscan, Query.window, hlimit, hskip]
  rfl

/-- Of the red items five are counted. The count of five items of any color has the plan of a count
    of all items. -/
theorem aggregate_carries_iff_fewReds :
    let m := Model.plain shelfSchema [] []
    ∃ query plan, fewReds.plan 250 = .ok (.find query (some ⟨.count, none⟩) none, []) ∧
      query.limit = some 5 ∧ query.skip = some 2 ∧
      (∃ docs, docs.length ≤ 5 ∧ Aggregate.compute m.schema ⟨.count, none⟩ docs = .ok (.count 5)) ∧
      fewItems.plan 250 = .ok (plan, []) ∧ fewItems.unlimited.plan 250 = .ok (plan, []) := by
  intro m
  obtain ⟨query, hplan⟩ : ∃ query,
      fewReds.plan 250 = .ok (.find query (some ⟨.count, none⟩) none, []) := ⟨_, rfl⟩
  obtain ⟨plan, hitems⟩ : ∃ plan, fewItems.plan 250 = .ok (plan, []) := ⟨_, rfl⟩
  have hfilter : ∃ c, .filter c ∈ fewReds.clauses :=
    ⟨.equals "color" (.str "red"), by simp [fewReds]⟩
  have hnone : ∀ c, .filter c ∉ fewItems.clauses := by simp [fewItems]
  obtain ⟨hcarries, hruns, _⟩ := aggregate_carries_iff rfl hplan
  obtain ⟨hlimit, hskip⟩ := hcarries.mpr (Or.inl hfilter)
  obtain ⟨_, _, _, hdocs⟩ := hruns hfilter
  have hunstaged : shelf.Unstaged := rfl
  obtain ⟨docs, value, _, hlength, hvalue, houtput⟩ := hdocs m hunstaged rfl execute_fewReds
  cases houtput
  exact ⟨query, plan, hplan, hlimit, hskip, ⟨docs, hlength 5 rfl, hvalue⟩, hitems,
    (aggregate_carries_iff rfl hitems).2.2 hnone⟩

/-- Without a filter the limit and the offset are lost: the plan goes by neither, and all the items
    are counted. -/
theorem limit_lost_without_filter :
    fewItems.last? Clause.limit? = some 5 ∧ fewItems.last? Clause.offset? = some 2 ∧
      (∃ plan, fewItems.plan 250 = .ok (plan, []) ∧ ¬plan.Carries (some 5) (some 2)) ∧
      ((Model.plain shelfSchema [] []).execute fewItems countedShelf).1 =
        .ok (.aggregate (.count 27)) := by
  refine ⟨rfl, rfl, ⟨_, rfl, fun hcarries => ?_⟩, rfl⟩
  cases (hcarries _ List.mem_cons_self).1

end Statement

end DocMapper
