import DocMapper.Model.Plain
import DocMapper.Proofs.Adapter.Setup
import DocMapper.Proofs.Aggregate.Choice
import DocMapper.Proofs.Statement.Filter
import DocMapper.Proofs.Statement.Rows

/-!
# Statements in an indexed order

The store refuses a query where no index covers a field that it sorts by. Once a store is set up,
statements that are ordered by attributes that models want indexed are not refused so.
-/

namespace DocMapper

namespace MemoryStore

/-- The failure of a query with an order that no index covers. -/
def noUsableIndex : StoreError :=
  .badRequest "no_usable_index" "No index exists for this sort, try indexing by the sort fields."

variable {s : MemoryStore} {q : Query} {documents : Dict Document} {e : StoreError}

/-- Matching fails on an operator. -/
theorem matching_eq_error {selector : Selector}
    (hmatching : matching selector documents = .error e) :
    ∃ reason, e = .badRequest "invalid_operator" reason := by
  induction documents with
  | nil => cases hmatching
  | cons entry rest ih =>
    rw [matching] at hmatching
    split at hmatching
    · exact ih hmatching
    · split at hmatching
      · exact ⟨_, (Except.error.inj hmatching).symm⟩
      · cases hrest : matching selector rest with
        | ok hits =>
          rw [hrest] at hmatching
          cases hmatching
        | error cause =>
          rw [hrest] at hmatching ih
          cases hmatching
          exact ih rfl

/-- A starting place is refused for its bookmark or is out of reach. -/
theorem start_eq_error (hstart : start q = .error e) :
    (∃ reason, e = .badRequest "invalid_bookmark" reason) ∨ e = .overflow := by
  unfold start at hstart
  split at hstart
  · cases hstart
  · split at hstart
    · unfold further at hstart
      split at hstart <;> cases hstart
      exact .inr rfl
    · exact .inl ⟨_, (Except.error.inj hstart).symm⟩

/-- The want of an index is told from every other bad request. -/
theorem badRequest_ne_noUsableIndex {error : String} (hne : error ≠ "no_usable_index")
    (reason : String) : StoreError.badRequest error reason ≠ noUsableIndex :=
  fun hsame => hne (StoreError.http.inj hsame).2.1

/-- A query is refused for want of an index exactly where its order is not covered. -/
theorem answerQuery_eq_noUsableIndex_iff :
    s.answerQuery q = .error noUsableIndex ↔ ¬CoversSort s.indexes q.sort := by
  unfold answerQuery
  by_cases hcovers : CoversSort s.indexes q.sort
  · rw [if_pos hcovers]
    refine ⟨fun hanswer => ?_, fun hnot => absurd hcovers hnot⟩
    cases hmatching : matching q.selector s.documents with
    | error cause =>
      rw [hmatching] at hanswer
      obtain ⟨reason, rfl⟩ := matching_eq_error hmatching
      exact absurd (Except.error.inj hanswer) (badRequest_ne_noUsableIndex (by decide) reason)
    | ok hits =>
      cases hstart : start q with
      | error cause =>
        rw [hmatching, hstart] at hanswer
        obtain ⟨reason, rfl⟩ | rfl := start_eq_error hstart
        · exact absurd (Except.error.inj hanswer) (badRequest_ne_noUsableIndex (by decide) reason)
        · cases hanswer
      | ok first =>
        rw [hmatching, hstart] at hanswer
        cases hanswer
  · rw [if_neg hcovers]
    exact ⟨fun _ => hcovers, fun _ => rfl⟩

end MemoryStore

open MemoryStore Adapter

namespace Action

variable {α β : Type} {indexes : Dict IndexRequest} {x : Action α} {f : α → Action β}

/-- As long as its store has these indexes, an adapter keeps them in the action, which is not
refused for want of another. -/
def Suffice (indexes : Dict IndexRequest) (x : Action α) : Prop :=
  ∀ a : Adapter, a.Unstaged → a.connection.store.indexes = indexes →
    (x a).1 ≠ .error (.store none noUsableIndex) ∧ (x a).2.Unstaged ∧
      (x a).2.connection.store.indexes = indexes

/-- A computation that never asks the store needs no index. -/
theorem suffice_of_computes {e : Except Error α} (hx : Computes x e)
    (he : e ≠ .error (.store none noUsableIndex)) : Suffice indexes x := by
  intro a hunstaged hindexes
  obtain ⟨hresult, hconnection⟩ := hx a
  rw [hresult, Unstaged, hconnection]
  exact ⟨he, hunstaged, hindexes⟩

theorem suffice_pure (v : α) : Suffice indexes (pure v) :=
  suffice_of_computes (computes_pure v) fun hne => by cases hne

theorem suffice_lift {e : Except Error α} (he : e ≠ .error (.store none noUsableIndex)) :
    Suffice indexes (liftM e) := suffice_of_computes (computes_lift e) he

/-- One action after the other needs no further index if neither does. -/
theorem suffice_bind (hx : Suffice indexes x) (hf : ∀ v, Suffice indexes (f v)) :
    Suffice indexes (x >>= f) := by
  intro a hunstaged hindexes
  obtain ⟨hresult, hstill, hkept⟩ := hx a hunstaged hindexes
  rcases hrun : x a with ⟨e | v, b⟩
  · rw [hrun] at hresult hstill hkept
    rw [bind_of_error hrun]
    refine ⟨fun herror => hresult ?_, hstill, hkept⟩
    rw [Except.error.inj herror]
  · rw [hrun] at hstill hkept
    rw [bind_of_ok hrun]
    exact hf v b hstill hkept

theorem suffice_get_bind {f : Adapter → Action β} (hf : ∀ a, Suffice indexes (f a)) :
    Suffice indexes (get >>= f) := fun a hunstaged hindexes => hf a a hunstaged hindexes

/-- A traversal needs no index that none of its steps needs. -/
theorem suffice_mapM {xs : List α} (hf : ∀ v, Suffice indexes (f v)) :
    Suffice indexes (xs.mapM f) := by
  induction xs with
  | nil =>
    rw [List.mapM_nil]
    exact suffice_pure []
  | cons head rest ih =>
    rw [List.mapM_cons]
    exact suffice_bind (hf head) fun v => suffice_bind ih fun vs => suffice_pure (v :: vs)

/-- A call needs no index where no answer is the want of one. -/
theorem suffice_ask {call : Call}
    (hkeeps : ∀ s : MemoryStore, (s.perform call).2.indexes = s.indexes)
    (hanswer : ∀ s : MemoryStore, s.indexes = indexes →
      (s.perform call).1 ≠ .error noUsableIndex) : Suffice indexes (ask none call) := by
  intro a hunstaged hindexes
  rw [ask_snd hunstaged]
  refine ⟨fun hrefused => hanswer _ hindexes ?_, hunstaged, (hkeeps _).trans hindexes⟩
  cases hperform : (a.connection.store.perform call).1 with
  | ok answer =>
    rw [ask_of_ok hunstaged hperform] at hrefused
    cases hrefused
  | error cause =>
    rw [ask_of_error hunstaged hperform] at hrefused
    cases hrefused
    rfl

/-- A query whose order is covered is not refused for want of an index. -/
theorem suffice_ask_find {q : Query} (hcovers : CoversSort indexes q.sort) :
    Suffice indexes (ask none (.find q)) := by
  refine suffice_ask (fun s => rfl) fun s hindexes hrefused => ?_
  refine answerQuery_eq_noUsableIndex_iff.mp hrefused ?_
  rw [← hindexes] at hcovers
  exact hcovers

/-- Views need no index. -/
theorem suffice_askView (d : ViewDescriptor) : Suffice indexes (askView d) := by
  refine suffice_ask (fun s => rfl) fun s _ hrefused => ?_
  have hview : (s.count .view).answerView d.ddoc d.view d.options = .error noUsableIndex := hrefused
  rw [answerView] at hview
  split at hview <;> cases hview

/-- A scan needs the index of its sort, on every page. -/
theorem suffice_scanPages (cap : Option UInt64) (pageSize fuel : Nat) {page : Query}
    (hcovers : CoversSort indexes page.sort) (docs : List Document) :
    Suffice indexes (scanPages cap pageSize fuel page docs) := by
  induction fuel generalizing page docs with
  | zero => exact suffice_pure docs
  | succ fuel ih =>
    rw [scanPages]
    by_cases hzero : nextPage pageSize cap docs.length = 0
    · rw [if_pos hzero]
      exact suffice_pure docs
    · rw [if_neg hzero]
      refine suffice_bind (suffice_ask_find hcovers) fun answer => ?_
      split
      · exact suffice_pure _
      · have hnext : CoversSort indexes
            { page with bookmark := answer.bookmark, skip := none : Query }.sort := hcovers
        exact ih hnext _

theorem suffice_scan {query : Query} (size : UInt64) (hcovers : CoversSort indexes query.sort) :
    Suffice indexes (scan query size) :=
  suffice_get_bind fun _ => suffice_scanPages _ _ _ hcovers _

end Action

open DocMapper.Action

namespace Aggregate

/-- Only values that are no numbers keep an aggregate of documents from being computed. -/
theorem sum_eq_error {operation attr : String} {type : Option AttributeType} {values : List Json}
    {e : Error} (hsum : sum operation attr type values = .error e) : e.kind = .query := by
  unfold sum at hsum
  generalize Quantity.finite .zero = total at hsum
  induction values generalizing total with
  | nil => cases hsum
  | cons v rest ih =>
    rw [List.foldlM_cons] at hsum
    cases hnumber : numeric v type with
    | some x =>
      simp only [hnumber] at hsum
      exact ih _ hsum
    | none =>
      simp only [hnumber] at hsum
      cases hsum
      rfl

/-- An aggregate over documents fails as a query. -/
theorem compute_eq_error {schema : Schema} {request : AggregateRequest} {docs : List Document}
    {e : Error} (hcompute : compute schema request docs = .error e) : e.kind = .query := by
  unfold compute at hcompute
  cases hattr : request.attr with
  | none =>
    rw [hattr] at hcompute
    cases hcompute
  | some attr =>
    simp only [hattr, computeAt] at hcompute
    cases hkind : request.kind <;> simp only [hkind] at hcompute
    case sum => exact sum_eq_error (map_eq_error hcompute)
    case avg =>
      split at hcompute
      · cases hcompute
      · exact sum_eq_error (map_eq_error hcompute)
    all_goals cases hcompute

end Aggregate

/-- A view that is not declared is unsupported. -/
theorem ViewDescriptor.find_eq_error {schema : Schema} {kind : ViewKind} {attr : Option String}
    {requested : String} {e : Error} (hfind : find schema kind attr requested = .error e) :
    e.kind = .unsupported := by
  rw [find_eq] at hfind
  split at hfind
  · cases hfind
  · cases hfind
    rfl

/-- An aggregate without its views is unsupported. -/
theorem ViewTarget.find_eq_error {schema : Schema} {request : AggregateRequest} {e : Error}
    (hfind : find schema request = .error e) : e.kind = .unsupported := by
  unfold find at hfind
  cases hkind : request.kind.viewKind? with
  | some kind =>
    simp only [hkind] at hfind
    obtain hd | ⟨d, _, hpure⟩ := bind_eq_error hfind
    · exact ViewDescriptor.find_eq_error hd
    · cases hpure
  | none =>
    simp only [hkind] at hfind
    cases hattr : request.attr with
    | none =>
      rw [hattr] at hfind
      cases hfind
      rfl
    | some attr =>
      rw [hattr] at hfind
      obtain hsum | ⟨sum, _, hrest⟩ := bind_eq_error hfind
      · exact ViewDescriptor.find_eq_error hsum
      · obtain hcount | ⟨count, _, hpure⟩ := bind_eq_error hrest
        · exact ViewDescriptor.find_eq_error hcount
        · cases hpure

/-- A view that was not declared is all that keeps an aggregate from being planned. -/
theorem ViewPlan.resolve_eq_error {schema : Schema} {request : AggregateRequest} {e : Error}
    (hresolve : ViewPlan.resolve schema request = .error e) : e.kind = .unsupported := by
  obtain hfind | ⟨target, _, hpure⟩ := bind_eq_error hresolve
  · exact ViewTarget.find_eq_error hfind
  · cases hpure

namespace Statement

variable {s : Statement} {queryLimit : UInt64} {e : Error}

/-- A statement that cannot be planned fails as a query. -/
theorem findPlan_eq_error {table : String} {manual : Option AggregateRequest}
    (hplan : s.findPlan queryLimit table manual = .error e) : e.kind = .query := by
  unfold findPlan at hplan
  split at hplan
  · rename_i cause hfiltered
    cases hplan
    unfold filtered at hfiltered
    split at hfiltered
    · cases hfiltered
    · split at hfiltered
      · cases hfiltered
      · cases hfiltered
        rfl
  · cases hplan

/-- A statement is not planned for reasons of its own, never for those of a store. -/
theorem plan_eq_error (hplan : s.plan queryLimit = .error e) : e.kind ≠ .index := by
  unfold plan at hplan
  split at hplan
  · cases hplan
    decide
  · split at hplan
    · rw [findPlan_eq_error hplan]
      decide
    · split at hplan
      · cases hplan
        exact fun hkind => by cases hkind
      · split at hplan
        · rename_i hresolve
          cases hplan
          rw [ViewPlan.resolve_eq_error hresolve]
          decide
        · split at hplan
          · cases hplan
          · rw [findPlan_eq_error hplan]
            decide

/-- A plan to find documents sorts by the fields that the statement is ordered by. -/
theorem sort_of_plan {query : Query} {manual : Option AggregateRequest} {groupBy : Option String}
    {warnings : List Warning}
    (hplan : s.plan queryLimit = .ok (.find query manual groupBy, warnings)) :
    query.sort = s.each Clause.orderBy? := by
  obtain ⟨_, _, _, _, _, _, rfl, _⟩ := plan_eq_find hplan
  rfl

end Statement

namespace Model

variable {α : Type} {indexes : Dict IndexRequest} {a b : Adapter} {s : Statement}

/-- The failure of a statement whose order no index covers. -/
abbrev unindexed : Error := .store none noUsableIndex

/-- The want of an index is told by the kind of the error. -/
theorem ne_unindexed_of_kind {β : Type} {r : Except Error β}
    (hkind : ∀ e, r = .error e → e.kind ≠ .index) : r ≠ .error unindexed :=
  fun herror => hkind _ herror (by decide)

theorem suffice_rowsOf (m : Model α) (selected : Bool) (docs : List Document) :
    Suffice indexes (m.rowsOf selected docs) := by
  refine suffice_of_computes (m.computes_rowsOf selected docs) (ne_unindexed_of_kind ?_)
  intro e he
  rw [kind_of_rowsIn he]
  decide

/-- A planned query needs the index of its sort. -/
theorem suffice_findOutput (m : Model α) {query : Query} (groupBy : Option String)
    (hcovers : CoversSort indexes query.sort) : Suffice indexes (m.findOutput query groupBy) := by
  refine suffice_bind (suffice_ask_find hcovers) fun answer => ?_
  cases groupBy with
  | none => exact suffice_bind (suffice_rowsOf m _ _) fun rows => suffice_pure _
  | some attr =>
    refine suffice_bind (suffice_mapM fun group => ?_) fun groups => suffice_pure _
    exact suffice_bind (suffice_rowsOf m _ _) fun rows => suffice_pure _

/-- A plan whose order is covered is not refused for want of an index. -/
theorem suffice_carryOut (m : Model α) {plan : Plan} (hcovers : ∀ query manual groupBy,
    plan = .find query manual groupBy → CoversSort indexes query.sort) :
    Suffice indexes (m.carryOut plan) := by
  cases plan with
  | view plan =>
    refine suffice_bind ?_ fun answer => suffice_pure _
    rw [viewAggregate]
    cases plan.target with
    | single d => exact suffice_bind (suffice_askView d) fun answer => suffice_pure _
    | average sum count =>
      exact suffice_bind (suffice_askView sum) fun sums =>
        suffice_bind (suffice_askView count) fun counts => suffice_pure _
  | find query manual groupBy =>
    have hquery := hcovers query manual groupBy rfl
    cases manual with
    | none => exact suffice_findOutput m groupBy hquery
    | some request =>
      refine suffice_get_bind fun a => suffice_bind (suffice_scan _ hquery) fun docs => ?_
      refine suffice_bind (suffice_lift (ne_unindexed_of_kind ?_)) fun answer => suffice_pure _
      intro e he
      rw [Aggregate.compute_eq_error he]
      decide

/-- A statement whose order is covered is not refused for want of an index. -/
theorem suffice_execute (m : Model α) (hcovers : CoversSort indexes (s.each Clause.orderBy?)) :
    Suffice indexes (m.execute s) := by
  intro a hunstaged hindexes
  cases hplan : s.plan a.config.queryLimit with
  | error e =>
    rw [execute, bind_of_error (planOf_of_error hplan)]
    refine ⟨fun herror => Statement.plan_eq_error hplan ?_, hunstaged, hindexes⟩
    rw [Except.error.inj herror]
    decide
  | ok planned =>
    obtain ⟨plan, warnings⟩ := planned
    rw [execute, bind_of_ok (planOf_of_ok hplan)]
    refine suffice_carryOut m (fun query manual groupBy hfind => ?_) a hunstaged hindexes
    subst hfind
    rw [Statement.sort_of_plan hplan]
    exact hcovers

end Model

/-! ## Stores that are set up -/

open Schema IndexRequest Model

variable {α : Type} {a b : Adapter} {i : IndexedAttributes} {field : String}

/-- No other index of the store has the name of one that the registered models need. -/
def Adapter.Unclaimed (a : Adapter) : Prop :=
  ∀ r ∈ generate a.schemas, ∀ q, a.connection.store.indexes.get? r.name = some q → q = r

/-- An index has the fields that it was asked for. -/
theorem IndexRequest.mem_fieldNames_plain {table : String} {attributes : List String}
    (hattr : field ∈ attributes) : field ∈ (plain table attributes).index.fieldNames :=
  List.mem_filterMap.mpr
    ⟨.str field, List.mem_map_of_mem (List.mem_cons_of_mem _ hattr), rfl⟩

/-- Where its indexes have names of their own, a store that is set up covers all attributes that
models want indexed. -/
theorem Adapter.SetUp.covers (hdone : a.SetUp b) (hapart : NamesApart a.schemas)
    (hunclaimed : a.Unclaimed) (hi : i ∈ indexed a.schemas) (hattr : field ∈ i.attributes) :
    MemoryStore.covers b.connection.store.indexes field = true := by
  have hmade : plain i.table i.attributes ∈ generate a.schemas :=
    namesApart_iff.mp hapart _
      (mem_wanted_iff.mpr (Or.inr ⟨i, hi, mem_ofIndexed_iff.mpr (Or.inl rfl)⟩))
  have hfind := (find?_name_eq_some_iff (nodup_names_generate a.schemas)).mpr hmade
  have hkept : b.connection.store.indexes.get? (plain i.table i.attributes).name =
      some (plain i.table i.attributes) := by
    rw [hdone.indexes_eq, get?_foldl_withIndex, hfind]
    cases hold : a.connection.store.indexes.get? (plain i.table i.attributes).name with
    | none => rfl
    | some q => rw [hunclaimed _ hmade q hold, Option.some_or]
  exact covers_of_get? hkept (mem_fieldNames_plain hattr)

/-- No two indexes have one name, and all that models want indexed is, exactly where no two
different indexes would have one; plain names see to that. A store that is set up then has an index
for every statement that is ordered by attributes that the registered models want indexed. -/
theorem indexes_provided_iff_namesApart (schemas : List Schema) :
    ((generate schemas).map IndexRequest.name).Nodup ∧
    ((∀ i ∈ indexed schemas, Provides (generate schemas) i) ↔ NamesApart schemas) ∧
    ((∀ i ∈ indexed schemas, PlainlyNamed i) → NamesApart schemas) ∧
    (NamesApart schemas → ∀ a : Adapter, a.schemas = schemas → a.Unstaged → Revised a.documents →
      a.Unclaimed → ∃ b, setUp a = (.ok (), b) ∧ ∀ (m : Model α) (s : Statement),
        (∀ field ∈ s.each Clause.orderBy?, ∃ i ∈ indexed schemas, field.field ∈ i.attributes) →
          ∀ c : Adapter, c.Unstaged → c.connection.store.indexes = b.connection.store.indexes →
            (m.execute s c).1 ≠ .error unindexed) := by
  refine ⟨nodup_names_generate schemas, forall_provides_iff, namesApart_of_plainlyNamed, ?_⟩
  rintro hapart a rfl hunstaged hrevised hunclaimed
  obtain ⟨b, hsetUp, hdone⟩ | ⟨hunrevised, _⟩ := setUp_spec hunstaged
  · refine ⟨b, hsetUp, fun m s hordered c hunstaged hindexes => ?_⟩
    have hcovers : CoversSort b.connection.store.indexes (s.each Clause.orderBy?) := by
      refine List.all_eq_true.mpr fun field hfield => ?_
      obtain ⟨i, hi, hattr⟩ := hordered field hfield
      exact hdone.covers hapart hunclaimed hi hattr
    exact (suffice_execute m hcovers c hunstaged hindexes).1
  · exact absurd hrevised hunrevised

/-- Orders with an index, a default query attribute and a view. -/
def ordersSchema : Schema :=
  { table := "orders", primaryKey := ⟨"id", .text, none⟩
    indexes := [{ attr := "total", compositions := ["placed"], directions := [.desc] }]
    defaultQueryAttributes := ["customer"]
    views := [{ kind := .groupBy, attr := "status" }] }

/-- The records of a model in the order of an attribute. -/
def orderedBy (schema : Schema) (attr : String) : Statement :=
  ⟨[.target schema, .orderBy ⟨attr, .asc⟩, .limit 10]⟩

theorem indexes_provided_orders :
    let a := Adapter.knowing ordersSchema
    (∀ i ∈ indexed a.schemas, PlainlyNamed i) ∧ a.Unstaged ∧ Revised a.documents ∧ a.Unclaimed ∧
      NamesApart a.schemas ∧ ∃ b, setUp a = (.ok (), b) ∧
        ((Model.plain ordersSchema [] []).execute (orderedBy ordersSchema "placed") b).1 ≠
          .error unindexed := by
  intro a
  have hunstaged : a.Unstaged := rfl
  have hplain : ∀ i ∈ indexed a.schemas, PlainlyNamed i := by decide
  obtain ⟨_, _, hnames, hserved⟩ := indexes_provided_iff_namesApart (α := Json) a.schemas
  have hunclaimed : a.Unclaimed := by
    intro r _ q hget
    cases hget
  obtain ⟨b, hsetUp, hexecute⟩ := hserved (hnames hplain) a rfl hunstaged revised_empty hunclaimed
  refine ⟨hplain, hunstaged, revised_empty, hunclaimed, hnames hplain, b, hsetUp,
    hexecute _ _ ?_ b (setUp_eq_ok hunstaged hsetUp).unstaged rfl⟩
  intro field hfield
  obtain rfl := List.mem_singleton.mp hfield
  exact ⟨⟨"orders", ["total", "placed"], [.desc]⟩, by decide, by decide⟩

/-- Items with an index on one attribute, and one on two whose names are joined to the same. -/
def clashingSchema : Schema :=
  { table := "items", primaryKey := ⟨"id", .text, none⟩
    indexes := [{ attr := "a__b" }, { attr := "a", compositions := ["b"] }] }

/-- The second index is not created; statements that are ordered by its attribute are refused. -/
theorem order_refused_of_joined_names :
    ⟨"items", ["a", "b"], []⟩ ∈ indexed [clashingSchema] ∧
      ¬Provides (generate [clashingSchema]) ⟨"items", ["a", "b"], []⟩ ∧
      ∃ b, setUp (Adapter.knowing clashingSchema) = (.ok (), b) ∧
        ((Model.plain clashingSchema [] []).execute (orderedBy clashingSchema "a") b).1 =
          .error unindexed := by
  refine ⟨by decide, fun hprovides => ?_, ?_⟩
  · obtain ⟨r, hr, hname, hindex⟩ := hprovides.plain
    revert r
    decide
  · have hunstaged : (Adapter.knowing clashingSchema).Unstaged := rfl
    obtain ⟨b, hsetUp, hdone⟩ | ⟨hunrevised, _⟩ := setUp_spec hunstaged
    · refine ⟨b, hsetUp, ?_⟩
      obtain ⟨query, warnings, hplan⟩ : ∃ query warnings,
          (orderedBy clashingSchema "a").plan b.config.queryLimit =
            .ok (.find query none none, warnings) := ⟨_, _, rfl⟩
      have hsort : query.sort = [⟨"a", .asc⟩] := Statement.sort_of_plan hplan
      have hrefused : (b.connection.store.perform (.find query)).1 = .error noUsableIndex := by
        change (b.connection.store.count .find).answerQuery query = _
        refine answerQuery_eq_noUsableIndex_iff.mpr ?_
        rw [MemoryStore.count, hdone.indexes_eq, hsort]
        decide
      rw [Model.execute, bind_of_ok (planOf_of_ok hplan)]
      exact congrArg Prod.fst (bind_of_error (ask_of_error hdone.unstaged hrefused))
    · exact absurd revised_empty hunrevised

end DocMapper
