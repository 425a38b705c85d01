import DocMapper.Proofs.Aggregate.Agreement
import DocMapper.Proofs.Statement.Filter
import DocMapper.Proofs.Statement.Scan

/-!
# Aggregates with and without a filter

Without a filter an aggregate comes from a view; with a filter it is computed of the documents that
are found. Main statement: what the two come to for a filter that every document of the table
satisfies, and when that is the same.
-/

namespace DocMapper

open Adapter MemoryStore Aggregate

/-! ## Documents of a table -/

/-- The documents of a table that can be found, in order. -/
def MemoryStore.ofTable (table : String) (documents : Dict Document) : List Document :=
  (documents.filter fun entry => isFindable entry &&
    Dict.get? entry.2 tableField = some (.str table)).map Prod.snd

variable {documents : Dict Document} {table : String} {selector : Selector} {hits : List Document}

theorem length_ofTable_le (table : String) (documents : Dict Document) :
    (ofTable table documents).length ≤ documents.length := by
  rw [ofTable, List.length_map]
  exact List.length_filter_le _ _

theorem table_of_mem_ofTable {doc : Document} (hmem : doc ∈ ofTable table documents) :
    Dict.get? doc tableField = some (.str table) := by
  obtain ⟨entry, hentry, rfl⟩ := List.mem_map.mp hmem
  have hkept := (List.mem_filter.mp hentry).2
  rw [Bool.and_eq_true, decide_eq_true_eq] at hkept
  exact hkept.2

theorem ofTable_cons (table : String) (entry : String × Document) (documents : Dict Document) :
    ofTable table (entry :: documents) =
      if isFindable entry = true ∧ Dict.get? entry.2 tableField = some (.str table) then
        entry.2 :: ofTable table documents
      else ofTable table documents := by
  simp only [ofTable, List.filter_cons, Bool.and_eq_true, decide_eq_true_eq]
  split <;> rfl

/-- A selector that asks for a table, and for nothing else that some document of the table is
    without, matches the documents of the table. -/
theorem matching_eq_ofTable (hmatching : matching selector documents = .ok hits)
    (htable : ∀ doc, selector.Satisfied doc → Dict.get? doc tableField = some (.str table))
    (hall : ∀ doc ∈ ofTable table documents, selector.Satisfied doc) :
    hits = ofTable table documents := by
  induction documents generalizing hits with
  | nil =>
    cases hmatching
    rfl
  | cons entry rest ih =>
    rw [ofTable_cons] at hall ⊢
    by_cases htaken : isFindable entry = true ∧ Dict.get? entry.2 tableField = some (.str table)
    · rw [if_pos htaken] at hall ⊢
      obtain ⟨hsatisfied, hlater⟩ := List.forall_mem_cons.mp hall
      obtain ⟨hhidden, _⟩ | ⟨_, held, docs, hheld, hrest, rfl⟩ := matching_cons_eq_ok hmatching
      · exact absurd htaken.1 (Bool.eq_false_iff.mp hhidden)
      · cases hsatisfied.symm.trans hheld
        rw [if_pos rfl, ih hrest hlater]
    · rw [if_neg htaken] at hall ⊢
      obtain ⟨_, hrest⟩ | ⟨hfindable, held, docs, hheld, hrest, rfl⟩ :=
        matching_cons_eq_ok hmatching
      · exact ih hrest hall
      · cases held with
        | false => exact ih hrest hall
        | true => exact absurd ⟨hfindable, htable _ hheld⟩ htaken

/-! ## Plans -/

/-- The statement that asks for an aggregate of all documents of a model. -/
def Statement.aggregating (schema : Schema) (request : AggregateRequest) : Statement :=
  ⟨[.target schema, .aggregate request]⟩

/-- The statement that asks for an aggregate of the documents that satisfy a condition. -/
def Statement.aggregatingWhere (schema : Schema) (c : Condition) (request : AggregateRequest) :
    Statement :=
  ⟨[.target schema, .filter c, .aggregate request]⟩

variable {schema : Schema} {request : AggregateRequest} {plan : ViewPlan} {c : Condition}
  {queryLimit : UInt64}

theorem Statement.plan_aggregating (hplan : ViewPlan.resolve schema request = .ok plan) :
    (aggregating schema request).plan queryLimit = .ok (.view plan, []) := by
  have htarget : (aggregating schema request).last? Clause.target? = some schema := rfl
  have haggregate : (aggregating schema request).last? Clause.aggregate? = some request := rfl
  have hshapes : (aggregating schema request).shapesRows = false := rfl
  simp only [Statement.plan, htarget, haggregate, hshapes, hplan]
  rfl

/-- All documents that the filter selects are asked for, in no order and from the first on. -/
theorem Statement.plan_aggregatingWhere {query : Query} {asked : Option AggregateRequest}
    {groupBy : Option String} {warnings : List Warning}
    (hplan : (aggregatingWhere schema c request).plan queryLimit =
      .ok (.find query asked groupBy, warnings)) :
    asked = some request ∧ ∃ selector overridden,
      filtered schema.table [c] = .ok (selector, overridden) ∧ query = { selector } := by
  have htarget : (aggregatingWhere schema c request).last? Clause.target? = some schema := rfl
  have haggregate : (aggregatingWhere schema c request).last? Clause.aggregate? = some request :=
    rfl
  have hshapes : (aggregatingWhere schema c request).shapesRows = false := rfl
  have hfilters : (aggregatingWhere schema c request).each Clause.filter? = [c] := rfl
  simp only [Statement.plan, htarget, haggregate, hshapes, hfilters] at hplan
  cases hresolve : ViewPlan.resolve schema request with
  | error e =>
    rw [hresolve] at hplan
    cases hplan
  | ok plan =>
    have hfind : (aggregatingWhere schema c request).findPlan queryLimit schema.table
        (some request) = .ok (.find query asked groupBy, warnings) := by
      rw [hresolve] at hplan
      exact hplan
    unfold findPlan at hfind
    rw [hfilters] at hfind
    split at hfind
    · cases hfind
    · rename_i selector overridden hfiltered
      cases hfind
      exact ⟨rfl, selector, overridden, hfiltered, rfl⟩

/-! ## Runs -/

variable {α : Type} {m : Model α} {a : Adapter} {d : ViewDescriptor} {answer : ViewAnswer}

/-- Without a filter the view answers. -/
theorem Model.execute_aggregating (hunstaged : a.Unstaged)
    (hplan : ViewPlan.resolve m.schema request = .ok ⟨request, .single d⟩)
    (hanswer : (a.connection.store.perform (.view d.ddoc d.view d.options)).1 = .ok answer) :
    (m.execute (.aggregating m.schema request) a).1 =
      .ok (.aggregate (answer.output request.kind d.spec)) := by
  have hask : askView d a = (.ok answer, a.served (.view d.ddoc d.view d.options)) :=
    ask_of_ok hunstaged hanswer
  have hviewed : viewAggregate ⟨request, .single d⟩ a =
      (.ok (answer.output request.kind d.spec), a.served (.view d.ddoc d.view d.options)) :=
    bind_of_ok hask
  have hcarry : m.execute (.aggregating m.schema request) a =
      (.ok (.aggregate (answer.output request.kind d.spec)),
        a.served (.view d.ddoc d.view d.options)) :=
    (bind_of_ok (planOf_of_ok (Statement.plan_aggregating hplan))).trans (bind_of_ok hviewed)
  rw [hcarry]

/-- With a filter that every document of the table satisfies, the aggregate is computed of all
    documents of the table. -/
theorem Model.execute_aggregatingWhere {query : Query} {asked : Option AggregateRequest}
    {groupBy : Option String} {warnings : List Warning} {answer : FindAnswer}
    (hunstaged : a.Unstaged) (hcountable : a.documents.length < UInt64.size)
    (hplan : (Statement.aggregatingWhere m.schema c request).plan a.config.queryLimit =
      .ok (.find query asked groupBy, warnings))
    (hfind : (a.connection.store.perform (.find query)).1 = .ok answer)
    (hall : ∀ doc ∈ ofTable m.schema.table a.documents, c.SatisfiedBy doc) :
    (m.execute (.aggregatingWhere m.schema c request) a).1 =
      (compute m.schema request (ofTable m.schema.table a.documents)).map .aggregate := by
  obtain ⟨rfl, selector, overridden, hfiltered, hquery⟩ := Statement.plan_aggregatingWhere hplan
  obtain ⟨_, _, _, hsatisfied⟩ := Statement.filtered_spec hfiltered
  obtain ⟨hcovers, hits, _, hfound, _⟩ := answerQuery_eq_ok hfind
  have hselector : query.selector = selector := by rw [hquery]
  have hsort : query.sort = [] := by rw [hquery]
  have hlength := length_le_of_found hfound
  have hhits : hits = ofTable m.schema.table a.documents := by
    obtain ⟨docs, hmatching, _⟩ := found_eq_ok hfound
    cases (found_of_no_sort hsort hmatching).symm.trans hfound
    rw [hselector] at hmatching
    refine matching_eq_ofTable hmatching (fun doc hdoc => ((hsatisfied doc).mp hdoc).1) ?_
    intro doc hdoc
    refine (hsatisfied doc).mpr ⟨table_of_mem_ofTable hdoc, ?_⟩
    rw [List.forall_mem_singleton]
    exact hall doc hdoc
  have hfinds : Finds query hits a :=
    ⟨hunstaged, hcovers, hfound, Nat.lt_of_le_of_lt hlength hcountable⟩
  have hbookmark : query.bookmark = none := by rw [hquery]
  have hfields : query.fields = none := by rw [hquery]
  have hwindow : query.window hits = hits := by
    rw [hquery]
    rfl
  obtain ⟨b, hscan⟩ := scan_of_finds a.config.pageSize hfinds hlength hbookmark hfields
  rw [execute_of_scan m hplan hscan, hwindow, hhits]

/-- Where a plain view that counts answers by its definition, a count without a filter is what the
    view answers, and a count with a filter that every document of the table satisfies is computed
    of the documents of the table, which hold texts, integers of at most 53 bits, `null` or nothing
    at the attribute. The two are the same where every document has a value other than `null` there
    and, for a count of distinct values of an attribute declared as a date, no two texts name one
    instant. Only then the filter makes no difference. -/
theorem Model.count_where_eq_iff {kind : AggregateKind} {attr : String}
    (hkind : kind = .count ∨ kind = .countDistinct) (hunstaged : a.Unstaged)
    (hcountable : a.documents.length < UInt64.size)
    (hplan : ViewPlan.resolve m.schema ⟨kind, some attr⟩ = .ok ⟨⟨kind, some attr⟩, .single d⟩)
    (hplain : d.spec.Plain)
    (hanswer : (a.connection.store.perform (.view d.ddoc d.view d.options)).1 = .ok answer)
    (hgives : d.Gives (ofTable m.schema.table a.documents) answer)
    (hsimple : ∀ doc ∈ ofTable m.schema.table a.documents, Simple (keyAt attr doc)) :
    d.spec.definition m.schema.table = .counting m.schema.table attr ∧
    ∃ viewed computed,
      (m.execute (.aggregating m.schema ⟨kind, some attr⟩) a).1 = .ok (.aggregate viewed) ∧
      compute m.schema ⟨kind, some attr⟩ (ofTable m.schema.table a.documents) = .ok computed ∧
      (∀ c query asked groupBy warnings found,
        (Statement.aggregatingWhere m.schema c ⟨kind, some attr⟩).plan a.config.queryLimit =
          .ok (.find query asked groupBy, warnings) →
        (a.connection.store.perform (.find query)).1 = .ok found →
        (∀ doc ∈ ofTable m.schema.table a.documents, c.SatisfiedBy doc) →
          (m.execute (.aggregatingWhere m.schema c ⟨kind, some attr⟩) a).1 =
            .ok (.aggregate computed)) ∧
      (viewed = computed ↔
        (∀ doc ∈ ofTable m.schema.table a.documents, keyAt attr doc ≠ .null) ∧
          (kind = .countDistinct → m.schema.attributeType? attr = some .date →
            InstantsApart ((ofTable m.schema.table a.documents).map (keyAt attr)))) := by
  have hfind := (ViewPlan.resolve_eq_ok_iff.mp hplan).1
  obtain ⟨hview, hattr, _⟩ := ViewDescriptor.of_single hfind
  have hreduce : d.spec.kind.defaultReduce? = some "_count" := by
    obtain rfl | rfl := hkind <;>
    · rw [← Option.some.inj hview]
      rfl
  have hlength : (ofTable m.schema.table a.documents).length < UInt64.size :=
    Nat.lt_of_le_of_lt (length_ofTable_le _ _) hcountable
  obtain ⟨computed, hcompute, hagree⟩ :=
    output_eq_iff hkind hfind hplain hgives hlength hsimple
  refine ⟨hattr ▸ hplain.definition_eq hreduce m.schema.table, answer.output kind d.spec, computed,
    execute_aggregating hunstaged hplan hanswer, hcompute, ?_, hagree⟩
  intro c query asked groupBy warnings found hplan hfind hall
  rw [execute_aggregatingWhere hunstaged hcountable hplan hfind hall, hcompute]
  rfl

/-- A store that can match documents to a selector answers a query for them. -/
theorem exists_answer_of_matching (hmatching : matching selector a.documents = .ok hits) :
    ∃ found, (a.connection.store.perform (.find { selector })).1 = .ok found := by
  have hfound : found a.documents { selector } = .ok hits := found_of_no_sort rfl hmatching
  obtain ⟨found, hanswer, _⟩ := answerQuery_of_found (s := a.connection.store) rfl hfound rfl
  exact ⟨found, hanswer⟩

theorem satisfiedBy_equals_table {doc : Document} (hmem : doc ∈ ofTable table documents) :
    (Condition.equals tableField (.str table)).SatisfiedBy doc := by
  have hcompile : (Condition.equals tableField (.str table)).compile =
      .ok (Selector.equals tableField (.str table)) := rfl
  exact (Condition.satisfiedBy_iff_of_compile hcompile).mpr
    ((Statement.satisfied_equals_table table).mpr (table_of_mem_ofTable hmem))

/-! ## Items with and without a color -/

/-- A view that counts items by color. -/
def colorView (kind : ViewKind) : ViewSpec := { kind, attr := "color" }

/-- Items that are counted by color. -/
def stockSchema : Schema :=
  { table := "items", primaryKey := ⟨"id", .text, none⟩,
    views := [colorView .count, colorView .distinct] }

/-- The models of items. -/
abbrev stockModel : Model Json := Model.plain stockSchema [] []

/-- An item with some attributes. -/
def stockItem (n : String) (attributes : Fields) : String × Document :=
  ("items__" ++ n, ("??table", .str "items") :: ("_id", .str ("items__" ++ n)) ::
    ("_rev", .str (Revision.text 1 0)) :: attributes)

/-- A store with items and the answer of a view. -/
def stock (items : Dict Document) (v : ViewSpec) (answer : ViewAnswer) : Adapter :=
  ofStore { digest := fun _ _ => 0, documents := items,
            views := [((v.designName "items", v.viewName "items"), answer)] } {}

/-- A count of items. -/
def stockCount (kind : AggregateKind) : Statement :=
  .aggregating stockSchema ⟨kind, some "color"⟩

/-- A count of items with a filter that every item satisfies. -/
def stockCountWhere (kind : AggregateKind) : Statement :=
  .aggregatingWhere stockSchema (.equals tableField (.str "items")) ⟨kind, some "color"⟩

/-- Two colors among three items. -/
def coloredItems : Dict Document := [
  stockItem "1" [("color", .str "red")], stockItem "2" [("color", .str "red")],
  stockItem "3" [("color", .num (.int ⟨5, by decide, by decide⟩))]]

/-- The three items by color. -/
def coloredGroups : ViewAnswer where
  rows := [{ key := .str "red", value := .ofUInt64 2 },
    { key := .num (.int ⟨5, by decide, by decide⟩), value := .ofUInt64 1 }]

/-- Every item has a color, so a filter that all of them satisfy does not change the count of
    colors. -/
theorem Model.count_where_eq_iff_colored :
    let a := stock coloredItems (colorView .distinct) coloredGroups
    (stockModel.execute (stockCount .countDistinct) a).1 = .ok (.aggregate (.count 2)) ∧
      (stockModel.execute (stockCountWhere .countDistinct) a).1 =
        .ok (.aggregate (.count 2)) := by
  intro a
  have hkeys : (ofTable "items" coloredItems).map (keyAt "color") =
      [.str "red", .str "red", .num (.int ⟨5, by decide, by decide⟩)] := rfl
  have hgroups : coloredGroups.Groups ((ofTable "items" coloredItems).map (keyAt "color")) := by
    rw [hkeys]
    exact ⟨by decide, fun key => by simp [coloredGroups], by decide⟩
  have hsimple : ∀ key ∈ (ofTable "items" coloredItems).map (keyAt "color"),
      Simple key ∧ key ≠ .null := by
    have hshort : (5 : Int).natAbs < Nat.pow 2 53 := by decide
    rw [hkeys, List.forall_mem_cons, List.forall_mem_cons, List.forall_mem_singleton]
    exact ⟨⟨trivial, by simp⟩, ⟨trivial, by simp⟩, hshort, by simp⟩
  rw [List.forall_mem_map] at hsimple
  obtain ⟨_, viewed, computed, hviewed, _, hwhere, hagree⟩ :=
    Model.count_where_eq_iff (m := stockModel) (a := a)
      (d := .ofSpec "items" (colorView .distinct)) (.inr rfl) rfl (by decide) rfl
      ⟨rfl, rfl, rfl, rfl, rfl, rfl, rfl, rfl⟩ rfl hgroups fun doc hdoc => (hsimple doc hdoc).1
  have hview : (stockModel.execute (stockCount .countDistinct) a).1 =
      .ok (.aggregate (.count 2)) := rfl
  cases hview.symm.trans hviewed
  have hsame : AggregateOutput.count 2 = computed :=
    hagree.mpr ⟨fun doc hdoc => (hsimple doc hdoc).2, fun _ hdate => by cases hdate⟩
  obtain ⟨selector, warnings, hplan, hmatching⟩ : ∃ selector warnings,
      (stockCountWhere .countDistinct).plan 250 =
        .ok (.find { selector } (some ⟨.countDistinct, some "color"⟩) none, warnings) ∧
      matching selector coloredItems = .ok coloredItems.values := ⟨_, _, rfl, rfl⟩
  obtain ⟨found, hfind⟩ := exists_answer_of_matching (a := a) hmatching
  have hcomputed := hwhere _ _ _ _ _ found hplan hfind fun _ hdoc => satisfiedBy_equals_table hdoc
  rw [← hsame] at hcomputed
  exact ⟨hview, hcomputed⟩

/-- An item without a color. -/
def plainItem : Dict Document := [stockItem "1" []]

/-- An item without a color has a row in the view that counts colors. So it is counted where the
    view answers, but not with a filter that it satisfies. -/
theorem Model.count_where_ne_of_missing :
    let a := stock plainItem (colorView .count) (.counted 1)
    (colorView .count).Plain ∧
      (ViewDescriptor.ofSpec "items" (colorView .count)).Gives (ofTable "items" plainItem)
        (.counted 1) ∧
      (∀ doc ∈ ofTable "items" plainItem, Dict.get? doc "color" = none ∧
        (Condition.equals tableField (.str "items")).SatisfiedBy doc) ∧
      (stockModel.execute (stockCount .count) a).1 = .ok (.aggregate (.count 1)) ∧
      (stockModel.execute (stockCountWhere .count) a).1 = .ok (.aggregate (.count 0)) := by
  intro a
  have hitems : ∀ doc ∈ ofTable "items" plainItem, Dict.get? doc "color" = none := by
    intro doc hdoc
    cases List.mem_singleton.mp hdoc
    rfl
  obtain ⟨selector, warnings, hplan, hmatching⟩ : ∃ selector warnings,
      (stockCountWhere .count).plan 250 =
        .ok (.find { selector } (some ⟨.count, some "color"⟩) none, warnings) ∧
      matching selector plainItem = .ok plainItem.values := ⟨_, _, rfl, rfl⟩
  obtain ⟨found, hfind⟩ := exists_answer_of_matching (a := a) hmatching
  have hcomputed := execute_aggregatingWhere (m := stockModel) (a := a) rfl (by decide) hplan hfind
    fun _ hdoc => satisfiedBy_equals_table hdoc
  exact ⟨⟨rfl, rfl, rfl, rfl, rfl, rfl, rfl, rfl⟩, rfl,
    fun doc hdoc => ⟨hitems doc hdoc, satisfiedBy_equals_table hdoc⟩, rfl, hcomputed⟩

end DocMapper
