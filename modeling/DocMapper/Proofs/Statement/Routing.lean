import DocMapper.Model.Plain
import DocMapper.Proofs.Aggregate.Choice
import DocMapper.Proofs.Repository.Queries
import Mathlib.Data.List.Basic

/-!
# Where aggregates are asked for

A statement with an aggregate asks views or finds documents, never both. Main statement: with a
filter it only finds documents, without one it only asks the views that the aggregate needs, and
what cannot be answered is refused before the store is asked at all.
-/

namespace DocMapper

open DocMapper.Action Adapter MemoryStore

/-! ## Clauses -/

namespace Clause

variable {c : Clause}

theorem target?_eq_some_iff {schema : Schema} : c.target? = some schema ↔ c = .target schema := by
  cases c <;> simp [target?]

theorem select?_eq_some_iff {names : List String} :
    c.select? = some names ↔ c = .select names := by
  cases c <;> simp [select?]

theorem filter?_eq_some_iff {condition : Condition} :
    c.filter? = some condition ↔ c = .filter condition := by
  cases c <;> simp [filter?]

theorem groupBy?_eq_some_iff {attr : String} : c.groupBy? = some attr ↔ c = .groupBy attr := by
  cases c <;> simp [groupBy?]

theorem limit?_eq_some_iff {n : UInt64} : c.limit? = some n ↔ c = .limit n := by
  cases c <;> simp [limit?]

theorem offset?_eq_some_iff {n : UInt64} : c.offset? = some n ↔ c = .offset n := by
  cases c <;> simp [offset?]

end Clause

namespace Statement

variable {s : Statement} {queryLimit : UInt64} {request : AggregateRequest} {plan : Plan}
  {warnings : List Warning} {schema : Schema} {views : ViewPlan}

section Kinds

variable {α : Type} {part : Clause → Option α} {wrap : α → Clause}
  (hpart : ∀ {c v}, part c = some v ↔ c = wrap v)

include hpart

/-- A part is collected if and only if a clause carries it. -/
theorem mem_each_iff {v : α} : v ∈ s.each part ↔ wrap v ∈ s.clauses := by
  rw [each, List.mem_filterMap]
  constructor
  · rintro ⟨c, hc, hv⟩
    rw [hpart] at hv
    exact hv ▸ hc
  · exact fun hmem => ⟨wrap v, hmem, hpart.mpr rfl⟩

/-- Nothing is collected where no clause carries the part. -/
theorem each_eq_nil_iff : s.each part = [] ↔ ∀ v, wrap v ∉ s.clauses := by
  rw [List.eq_nil_iff_forall_not_mem]
  exact forall_congr' fun v => not_congr (mem_each_iff hpart)

/-- There is no last part where no clause carries one. -/
theorem last?_eq_none_iff : s.last? part = none ↔ ∀ v, wrap v ∉ s.clauses := by
  rw [last?, List.getLast?_eq_none_iff, each_eq_nil_iff hpart]

end Kinds

/-- Clauses that say nothing of a kind can be left out. -/
theorem each_filter {α : Type} {part : Clause → Option α} {keep : Clause → Bool}
    (hpart : ∀ c, keep c = false → part c = none) (s : Statement) :
    each ⟨s.clauses.filter keep⟩ part = s.each part := by
  rw [each, List.filterMap_filter, each]
  refine List.filterMap_congr fun c _ => ?_
  cases hkeep : keep c with
  | true => exact if_pos rfl
  | false =>
    rw [hpart c hkeep]
    exact if_neg Bool.false_ne_true

/-- Rows are left as they are without a selection and a grouping. -/
theorem shapesRows_eq_false_iff : s.shapesRows = false ↔
    (∀ names, .select names ∈ s.clauses → names = []) ∧ ∀ attr, .groupBy attr ∉ s.clauses := by
  rw [shapesRows, Bool.or_eq_false_iff, Bool.not_eq_false', List.isEmpty_iff,
    List.flatten_eq_nil_iff, Option.isSome_eq_false_iff, Option.isNone_iff_eq_none,
    last?_eq_none_iff Clause.groupBy?_eq_some_iff]
  simp only [mem_each_iff Clause.select?_eq_some_iff]

/-! ## Plans for aggregates -/

/-- Why a statement with an aggregate has no answer. -/
inductive Refuses (s : Statement) (request : AggregateRequest) : Prop
  | selects (names : List String) (hclause : .select names ∈ s.clauses) (hne : names ≠ [])
  | groups (attr : String) (hclause : .groupBy attr ∈ s.clauses)
  | untargeted (hnone : ∀ schema, .target schema ∉ s.clauses)
  /-- An average has to name its attribute. -/
  | unnamed (havg : request.kind = .avg) (hattr : request.attr = none)
  /-- A view that the aggregate needs is not declared. -/
  | lacks (schema : Schema) (kind : ViewKind) (htarget : s.last? Clause.target? = some schema)
      (hkind : kind ∈ request.viewKinds)
      (hlacks : ∀ v ∈ schema.views, v.fits kind request.attr = false)

/-- A statement with an aggregate has a plan only where views could answer it. Whether they are
    asked is up to the filters. -/
theorem plan_eq_ok_of_aggregate (haggregate : s.last? Clause.aggregate? = some request)
    (hplan : s.plan queryLimit = .ok (plan, warnings)) :
    ∃ schema views, s.last? Clause.target? = some schema ∧ s.shapesRows = false ∧
      ViewPlan.resolve schema request = .ok views ∧
      (s.each Clause.filter? = [] ∧ plan = .view views ∨
        s.each Clause.filter? ≠ [] ∧ ∃ query groupBy, plan = .find query (some request) groupBy) := by
  unfold Statement.plan at hplan
  rw [haggregate] at hplan
  cases htarget : s.last? Clause.target? with
  | none =>
    rw [htarget] at hplan
    cases hplan
  | some schema =>
    simp only [htarget] at hplan
    by_cases hshapes : s.shapesRows = true
    · rw [if_pos hshapes] at hplan
      cases hplan
    · rw [if_neg hshapes] at hplan
      cases hresolve : ViewPlan.resolve schema request with
      | error e =>
        rw [hresolve] at hplan
        cases hplan
      | ok views =>
        simp only [hresolve] at hplan
        refine ⟨schema, views, rfl, eq_false_of_ne_true hshapes, hresolve, ?_⟩
        by_cases hfilters : (s.each Clause.filter?).isEmpty = true
        · rw [if_pos hfilters] at hplan
          cases hplan
          exact Or.inl ⟨List.isEmpty_iff.mp hfilters, rfl⟩
        · rw [if_neg hfilters] at hplan
          refine Or.inr ⟨fun hnil => hfilters (List.isEmpty_iff.mpr hnil), ?_⟩
          unfold findPlan at hplan
          split at hplan <;> cases hplan
          exact ⟨_, _, rfl⟩

/-- Without filters an aggregate is planned for its views. -/
theorem plan_eq_view (haggregate : s.last? Clause.aggregate? = some request)
    (htarget : s.last? Clause.target? = some schema) (hshapes : s.shapesRows = false)
    (hresolve : ViewPlan.resolve schema request = .ok views)
    (hfilters : s.each Clause.filter? = []) : s.plan queryLimit = .ok (.view views, []) := by
  simp only [Statement.plan, htarget, haggregate, hshapes, hresolve, hfilters]
  rfl

/-- Every statement that is refused lacks a plan. -/
theorem Refuses.plan_eq_error (hrefuses : s.Refuses request)
    (haggregate : s.last? Clause.aggregate? = some request) (queryLimit : UInt64) :
    ∃ e, s.plan queryLimit = .error e := by
  cases hplan : s.plan queryLimit with
  | error e => exact ⟨e, rfl⟩
  | ok planned =>
    obtain ⟨schema, views, htarget, hshapes, hresolve, _⟩ :=
      plan_eq_ok_of_aggregate haggregate hplan
    obtain ⟨hselects, hgroups⟩ := shapesRows_eq_false_iff.mp hshapes
    obtain ⟨hfind, _⟩ := ViewPlan.resolve_eq_ok_iff.mp hresolve
    cases hrefuses with
    | selects names hclause hne => exact absurd (hselects names hclause) hne
    | groups attr hclause => exact absurd hclause (hgroups attr)
    | untargeted hnone =>
      rw [(last?_eq_none_iff Clause.target?_eq_some_iff).mpr hnone] at htarget
      cases htarget
    | unnamed havg hattr => exact absurd hattr (ViewTarget.attr_ne_none_of_avg hfind havg)
    | lacks asked kind hasked hkind hlacks =>
      cases hasked.symm.trans htarget
      obtain ⟨v, hv⟩ := ViewTarget.exists_find?_of_find hfind hkind
      have hfits := List.find?_some hv
      rw [hlacks v (List.mem_of_find?_eq_some hv)] at hfits
      cases hfits

/-- An aggregate that is not refused has views to ask. -/
theorem exists_resolve_of_not_refuses (hanswers : ¬s.Refuses request) :
    ∃ schema views, s.last? Clause.target? = some schema ∧ s.shapesRows = false ∧
      ViewPlan.resolve schema request = .ok views := by
  have hshapes : s.shapesRows = false := shapesRows_eq_false_iff.mpr
    ⟨fun names hclause => Classical.byContradiction fun hne => hanswers (.selects names hclause hne),
      fun attr hclause => hanswers (.groups attr hclause)⟩
  cases htarget : s.last? Clause.target? with
  | none =>
    exact absurd (.untargeted ((last?_eq_none_iff Clause.target?_eq_some_iff).mp htarget)) hanswers
  | some schema =>
    have hfits : ∀ kind ∈ request.viewKinds, ∃ v ∈ schema.views,
        v.fits kind request.attr = true := by
      intro kind hkind
      refine Classical.byContradiction fun hnone => hanswers (.lacks schema kind htarget hkind ?_)
      exact fun v hv => eq_false_of_ne_true fun hfits => hnone ⟨v, hv, hfits⟩
    obtain ⟨target, hfind⟩ := ViewTarget.exists_find schema
      (fun havg hattr => hanswers (.unnamed havg hattr)) hfits
    exact ⟨schema, ⟨request, target⟩, rfl, hshapes,
      ViewPlan.resolve_eq_ok_iff.mpr ⟨hfind, rfl⟩⟩

end Statement

/-! ## Views -/

/-- The call that asks a view. -/
def ViewDescriptor.call (d : ViewDescriptor) : Call := .view d.ddoc d.view d.options

/-- The calls that ask the views behind an aggregate, over a store. -/
inductive ViewPlan.Asks (s : MemoryStore) (plan : ViewPlan) : List Call → Prop
  | one {d : ViewDescriptor} (hkind : plan.request.kind ≠ .avg) (htarget : plan.target = .single d) :
      Asks s plan [d.call]
  | two {sum count : ViewDescriptor} {answer : ViewAnswer} (hkind : plan.request.kind = .avg)
      (htarget : plan.target = .average sum count) (hanswer : (s.perform sum.call).1 = .ok answer) :
      Asks s plan [sum.call, count.call]
  /-- An average is given up where there is no sum. -/
  | first {sum count : ViewDescriptor} {e : StoreError} (hkind : plan.request.kind = .avg)
      (htarget : plan.target = .average sum count) (hfails : (s.perform sum.call).1 = .error e) :
      Asks s plan [sum.call]

variable {a : Adapter} {schema : Schema} {request : AggregateRequest} {plan : ViewPlan}

/-- An average alone is answered by two views. -/
theorem ViewTarget.exists_of_find {target : ViewTarget}
    (hfind : ViewTarget.find schema request = .ok target) :
    (request.kind ≠ .avg ∧ ∃ d, target = .single d) ∨
      request.kind = .avg ∧ ∃ sum count, target = .average sum count := by
  have hlength := congrArg List.length (ViewTarget.find_eq_ok hfind)
  rw [List.length_map, List.length_map, AggregateRequest.viewKinds] at hlength
  cases target with
  | single d =>
    refine Or.inl ⟨fun havg => ?_, d, rfl⟩
    rw [havg] at hlength
    cases hlength
  | average sum count =>
    refine Or.inr ⟨?_, sum, count, rfl⟩
    cases hkind : request.kind <;> rw [hkind] at hlength <;> first | rfl | cases hlength

theorem Adapter.viewAggregate_single (request : AggregateRequest) (d : ViewDescriptor) :
    viewAggregate ⟨request, .single d⟩ =
      askView d >>= fun answer => pure (answer.output request.kind d.spec) := rfl

theorem Adapter.viewAggregate_average (request : AggregateRequest) (sum count : ViewDescriptor) :
    viewAggregate ⟨request, .average sum count⟩ =
      askView sum >>= fun sums => askView count >>= fun counts =>
        pure (ViewAnswer.average sums counts) := rfl

/-- The views of a plan are asked, and nothing else. -/
theorem Adapter.viewAggregate_asks (hunstaged : a.Unstaged)
    (hresolve : ViewPlan.resolve schema request = .ok plan) :
    ∃ calls, plan.Asks a.connection.store calls ∧
      (viewAggregate plan a).2.connection = a.connection.after calls := by
  obtain ⟨hfind, hrequest⟩ := ViewPlan.resolve_eq_ok_iff.mp hresolve
  obtain ⟨asked, target⟩ := plan
  cases hrequest
  obtain ⟨hkind, d, rfl⟩ | ⟨hkind, sum, count, rfl⟩ := ViewTarget.exists_of_find hfind
  · refine ⟨[d.call], .one hkind rfl, ?_⟩
    rw [viewAggregate_single, connection_bind fun _ => along_pure _]
    exact connection_ask hunstaged
  · cases hanswer : (a.connection.store.perform sum.call).1 with
    | ok answer =>
      have hsum : askView sum a = (.ok answer, a.served sum.call) := ask_of_ok hunstaged hanswer
      refine ⟨[sum.call, count.call], .two hkind rfl hanswer, ?_⟩
      have hcount : (askView count (a.served sum.call)).2.connection =
          (a.served sum.call).connection.after [count.call] :=
        connection_ask (a := a.served sum.call) hunstaged
      rw [viewAggregate_average, bind_of_ok hsum, connection_bind fun _ => along_pure _, hcount]
      exact (Connection.after_append a.connection [sum.call] [count.call]).symm
    | error e =>
      have hsum : askView sum a = (.error (.store none e), a.served sum.call) :=
        ask_of_error hunstaged hanswer
      refine ⟨[sum.call], .first hkind rfl hanswer, ?_⟩
      rw [viewAggregate_average, bind_of_error hsum]
      rfl

/-! ## Statements -/

variable {α : Type} {s : Statement}

/-- A statement with an aggregate, of whatever clauses and over whatever store. What selects or
    groups as well, or needs a view that is not declared, is refused with the adapter left as it
    was, with filters and without. Anything else without a filter asks the views of its plan and
    makes no other calls: one view, or two for an average, the second only if the first one
    answers. With a filter documents are found and no view is asked. -/
theorem Model.execute_aggregate_calls (m : Model α) (hunstaged : a.Unstaged)
    (haggregate : s.last? Clause.aggregate? = some request) :
    (s.Refuses request → ∃ e, m.execute s a = (.error e, a)) ∧
      (¬s.Refuses request → (∀ c, .filter c ∉ s.clauses) →
        ∃ schema plan calls, s.last? Clause.target? = some schema ∧
          ViewPlan.resolve schema request = .ok plan ∧ plan.Asks a.connection.store calls ∧
          (m.execute s a).2.connection = a.connection.after calls) ∧
      ((∃ c, .filter c ∈ s.clauses) → ∃ calls, (∀ c ∈ calls, c.primitive = .find) ∧
        (m.execute s a).2.connection = a.connection.after calls) := by
  refine ⟨fun hrefuses => ?_, fun hanswers hnone => ?_, fun ⟨c, hc⟩ => ?_⟩
  · obtain ⟨e, hplan⟩ := hrefuses.plan_eq_error haggregate a.config.queryLimit
    exact ⟨e, m.execute_of_plan_error hplan⟩
  · have hfilters := (Statement.each_eq_nil_iff Clause.filter?_eq_some_iff).mpr hnone
    obtain ⟨schema, plan, htarget, hshapes, hresolve⟩ :=
      Statement.exists_resolve_of_not_refuses hanswers
    have hplan : s.plan a.config.queryLimit = .ok (.view plan, []) :=
      Statement.plan_eq_view haggregate htarget hshapes hresolve hfilters
    obtain ⟨calls, hasks, hcalls⟩ := viewAggregate_asks hunstaged hresolve
    refine ⟨schema, plan, calls, htarget, hresolve, hasks, ?_⟩
    rw [m.execute_of_plan hplan, m.connection_carryOut_view, hcalls]
  · cases hplan : s.plan a.config.queryLimit with
    | error e =>
      rw [m.execute_of_plan_error hplan]
      exact ⟨[], List.forall_mem_nil _, (Connection.after_nil _).symm⟩
    | ok planned =>
      obtain ⟨schema, views, _, _, _, ⟨hnil, _⟩ | ⟨_, query, groupBy, hfind⟩⟩ :=
        Statement.plan_eq_ok_of_aggregate haggregate hplan
      · exact absurd hc ((Statement.each_eq_nil_iff Clause.filter?_eq_some_iff).mp hnil c)
      · have hquiet : Quiet (fun c => c.primitive = .find) (scan query a.config.pageSize) :=
          along_scan (fun _ => allows_passing rfl) query _
        obtain ⟨calls, hcalls, hconnection, _⟩ := hquiet a hunstaged
        refine ⟨calls, hcalls, ?_⟩
        rw [m.execute_of_plan hplan, hfind, m.connection_carryOut_scan, hconnection]

/-! ## The average price of items -/

/-- Items whose prices are summed and counted. -/
def pricedSchema : Schema :=
  { table := "items", primaryKey := ⟨"id", .text, none⟩,
    views := [{ kind := .sum, attr := "price" }, { kind := .count, attr := "price" }] }

/-- The average price of all items. -/
def averagePrice : Statement := ⟨[.target pricedSchema, .aggregate ⟨.avg, some "price"⟩]⟩

/-- A store with the answers of both views. -/
def priced : Adapter :=
  ofStore { digest := fun _ _ => 0, views := pricedSchema.views.map fun v =>
    ((v.designName "items", v.viewName "items"), .counted 2) } {}

theorem averagePrice_answerable : ¬averagePrice.Refuses ⟨.avg, some "price"⟩ ∧
    ∀ c, .filter c ∉ averagePrice.clauses := by
  refine ⟨fun hrefuses => ?_, by simp [averagePrice]⟩
  obtain ⟨e, hplan⟩ := hrefuses.plan_eq_error rfl 250
  cases hplan

/-- The average price asks both views, the average price of red items finds documents, and average
    prices by color are refused. -/
theorem Model.execute_aggregate_calls_priced :
    let m := Model.plain pricedSchema [] []
    let red := averagePrice.add (.filter (.equals "color" (.str "red")))
    let colors := averagePrice.add (.groupBy "color")
    (∃ plan calls, ViewPlan.resolve pricedSchema ⟨.avg, some "price"⟩ = .ok plan ∧
        plan.Asks priced.connection.store calls ∧
        (m.execute averagePrice priced).2.connection = priced.connection.after calls) ∧
      (∃ calls, (∀ c ∈ calls, c.primitive = .find) ∧
        (m.execute red priced).2.connection = priced.connection.after calls) ∧
      ∃ e, m.execute colors priced = (.error e, priced) := by
  intro m red colors
  obtain ⟨hanswers, hnone⟩ := averagePrice_answerable
  obtain ⟨schema, plan, calls, htarget, hresolve, hasks, hcalls⟩ :=
    (m.execute_aggregate_calls (a := priced) (s := averagePrice) rfl rfl).2.1 hanswers hnone
  cases htarget
  refine ⟨⟨plan, calls, hresolve, hasks, hcalls⟩, ?_, ?_⟩
  · exact (m.execute_aggregate_calls (a := priced) (s := red) rfl rfl).2.2
      ⟨_, List.mem_append_right _ List.mem_cons_self⟩
  · exact (m.execute_aggregate_calls (a := priced) (s := colors) rfl rfl).1
      (.groups "color" (List.mem_append_right _ List.mem_cons_self))

/-- A store without the views. -/
def unpriced : Adapter := ofStore (fresh fun _ _ => 0) {}

/-- An average that has no filter and all the views it needs makes a single call where the first
    view fails. -/
theorem Model.execute_averagePrice_unpriced :
    averagePrice.last? Clause.aggregate? = some ⟨.avg, some "price"⟩ ∧
      (∀ c, .filter c ∉ averagePrice.clauses) ∧ ¬averagePrice.Refuses ⟨.avg, some "price"⟩ ∧
      ((Model.plain pricedSchema [] []).execute averagePrice unpriced).2.connection.log.length =
        1 :=
  ⟨rfl, averagePrice_answerable.2, averagePrice_answerable.1, rfl⟩

end DocMapper
