import DocMapper.Proofs.Dict.Grouping
import DocMapper.Proofs.Statement.Routing

/-!
# Groups of rows

A statement that groups finds the documents that it finds without its groups, and then gathers them
under the keys that they have. Main statement: the groups have every row of the statement without
groups once and no other, each row under the key of its document, in the order of those rows.
-/

namespace DocMapper

open Adapter MemoryStore

/-! ## Plans -/

namespace Statement

variable {s : Statement} {queryLimit : UInt64} {attr : String} {plan : Plan}
  {warnings : List Warning}

/-- The attributes that a statement selects. -/
def selection (s : Statement) : List String := (s.each Clause.select?).flatten

/-- Nothing is selected if every selection is empty. -/
theorem selection_eq_nil_iff : s.selection = [] ↔ ∀ names, .select names ∈ s.clauses → names = [] := by
  rw [selection, List.flatten_eq_nil_iff]
  simp only [mem_each_iff Clause.select?_eq_some_iff]

/-- The statement without the clauses that group. -/
def ungrouped (s : Statement) : Statement := ⟨s.clauses.filter fun c => c.groupBy?.isNone⟩

/-- The other clauses stand as before. -/
theorem each_ungrouped {β : Type} {part : Clause → Option β}
    (hpart : ∀ attr, part (.groupBy attr) = none) (s : Statement) :
    s.ungrouped.each part = s.each part := by
  refine each_filter (fun c hkeep => ?_) s
  cases c with
  | groupBy attr => exact hpart attr
  | _ => cases hkeep

/-- The last of the other clauses stands as before. -/
theorem last?_ungrouped {β : Type} {part : Clause → Option β}
    (hpart : ∀ attr, part (.groupBy attr) = none) (s : Statement) :
    s.ungrouped.last? part = s.last? part := by
  rw [last?, each_ungrouped hpart, last?]

theorem last?_groupBy_ungrouped (s : Statement) : s.ungrouped.last? Clause.groupBy? = none := by
  rw [last?_eq_none_iff Clause.groupBy?_eq_some_iff]
  intro attr hmem
  cases (List.mem_filter.mp hmem).2

/-- Without its grouping the statement asks the same query. -/
theorem findPlan_ungrouped {table : String} {query : Query}
    {manual asked : Option AggregateRequest} {groupBy : Option String}
    (hplan : s.findPlan queryLimit table manual = .ok (.find query asked groupBy, warnings)) :
    s.ungrouped.findPlan queryLimit table manual = .ok (.find query asked none, warnings) := by
  unfold findPlan at hplan ⊢
  rw [each_ungrouped (fun _ => rfl), each_ungrouped (fun _ => rfl), each_ungrouped (fun _ => rfl),
    last?_ungrouped (fun _ => rfl), last?_ungrouped (fun _ => rfl), last?_groupBy_ungrouped]
  split at hplan
  · cases hplan
  · cases hplan
    rfl

/-- A statement with a target and no aggregate is planned as a query. -/
theorem plan_of_no_aggregate {schema : Schema} (htarget : s.last? Clause.target? = some schema)
    (haggregate : s.last? Clause.aggregate? = none) :
    s.plan queryLimit = s.findPlan queryLimit schema.table none := by
  simp only [Statement.plan, htarget, haggregate]

/-- A statement that groups has a plan only where it asks for no aggregate. -/
theorem findPlan_of_groupBy (hgroup : s.last? Clause.groupBy? = some attr)
    (hplan : s.plan queryLimit = .ok (plan, warnings)) :
    ∃ schema, s.last? Clause.target? = some schema ∧ s.last? Clause.aggregate? = none ∧
      s.findPlan queryLimit schema.table none = .ok (plan, warnings) := by
  have hshapes : s.shapesRows = true := by
    rw [shapesRows, hgroup, Option.isSome_some, Bool.or_true]
  cases htarget : s.last? Clause.target? with
  | none =>
    simp only [Statement.plan, htarget] at hplan
    cases hplan
  | some schema =>
    cases haggregate : s.last? Clause.aggregate? with
    | none =>
      rw [plan_of_no_aggregate htarget haggregate] at hplan
      exact ⟨schema, rfl, rfl, hplan⟩
    | some request =>
      simp only [Statement.plan, htarget, haggregate, hshapes, if_true] at hplan
      cases hplan

/-- What the plan of a statement that groups is made of: it finds documents, the same as without
    the clauses that group. -/
theorem plan_of_groupBy (hgroup : s.last? Clause.groupBy? = some attr)
    (hplan : s.plan queryLimit = .ok (plan, warnings)) :
    ∃ query, plan = .find query none (some attr) ∧
      s.ungrouped.plan queryLimit = .ok (.find query none none, warnings) ∧
      query.fields = if s.selection.isEmpty then none else some s.selection := by
  obtain ⟨schema, htarget, haggregate, hfind⟩ := findPlan_of_groupBy hgroup hplan
  have hparts := hfind
  unfold findPlan at hparts
  split at hparts
  · cases hparts
  · cases hparts
    refine ⟨_, by rw [hgroup], ?_, rfl⟩
    rw [plan_of_no_aggregate ((last?_ungrouped (fun _ => rfl) s).trans htarget)
      ((last?_ungrouped (fun _ => rfl) s).trans haggregate)]
    exact findPlan_ungrouped hfind

end Statement

/-! ## Runs -/

namespace Model

variable {α : Type} {m : Model α} {a b : Adapter} {s : Statement} {attr : String} {query : Query}
  {answer : FindAnswer} {plan : Plan} {warnings : List Warning} {docs : List Document}
  {manual : Option AggregateRequest} {groupBy : Option String}

/-- The key of the group that a document belongs to. -/
def groupOf (m : Model α) (attr : String) (doc : Document) : String :=
  Aggregate.groupKey (doc.get? attr) (m.schema.attributeType? attr)

/-- The groups of rows that documents make. -/
def groupsIn (m : Model α) (attr : String) (selected : Bool) (docs : List Document) :
    Except Error (Dict (Rows α)) :=
  (Dict.grouped (m.groupOf attr) docs).mapM fun group =>
    m.rowsIn selected group.2 >>= fun rows => .ok (group.1, rows)

/-- The groups are made from the documents found. -/
theorem execute_of_groups (m : Model α)
    (hplan : s.plan a.config.queryLimit = .ok (.find query none (some attr), warnings))
    (hfind : Adapter.find query a = (.ok answer, b)) :
    (m.execute s a).1 = (m.groupsIn attr query.fields.isSome answer.docs).map .groups := by
  rw [m.execute_of_plan hplan, carryOut, findOutput, bind_of_ok hfind]
  have hgroups := Action.computes_mapM
    (fun group : String × List Document =>
      Action.computes_bind (m.computes_rowsOf query.fields.isSome group.2) fun rows =>
        Action.computes_pure (group.1, rows))
    (Dict.grouped (m.groupOf attr) answer.docs)
  have hrun := Action.computes_bind hgroups fun groups => Action.computes_pure (Output.groups groups)
  exact (hrun b).1.trans (bind_ok_eq_map _ Output.groups)

/-- A document stands beside the model that it makes. -/
theorem modelOf_of_mem_zip {xs : List α} (hmodels : docs.mapM m.modelOf = .ok xs)
    {row : Document × α} (hrow : row ∈ docs.zip xs) : m.modelOf row.1 = .ok row.2 := by
  obtain ⟨i, hi⟩ := List.mem_iff_getElem?.mp hrow
  obtain ⟨hdoc, hx⟩ := List.getElem?_zip_eq_some.mp hi
  obtain ⟨doc, hdoc', hmodel⟩ := getElem?_of_mapM hmodels hx
  cases hdoc.symm.trans hdoc'
  exact hmodel

/-- Rows that are models, each beside its document, under the keys of the documents. -/
def modelGroups (m : Model α) (attr : String) (rows : List (Document × α)) : Dict (Rows α) :=
  (Dict.grouped (fun row => m.groupOf attr row.1) rows).mapValues fun members =>
    .models (members.map Prod.snd)

/-- Where every document makes a model, the groups are made of the models. -/
theorem groupsIn_of_models {xs : List α} (hmodels : docs.mapM m.modelOf = .ok xs) :
    m.groupsIn attr false docs = .ok (m.modelGroups attr (docs.zip xs)) := by
  have hlength := length_of_mapM hmodels
  have hdocs : (docs.zip xs).map Prod.fst = docs := List.map_fst_zip (Nat.le_of_eq hlength.symm)
  have hgrouped := Dict.grouped_map (m.groupOf attr) Prod.fst (docs.zip xs)
  rw [hdocs] at hgrouped
  rw [groupsIn, hgrouped, Dict.mapValues, List.mapM_map, modelGroups, Dict.mapValues]
  refine mapM_eq_ok_map fun group hgroup => ?_
  obtain ⟨_, hmembers⟩ := Dict.mem_grouped_iff.mp (show (group.1, group.2) ∈ _ from hgroup)
  have hrows : (group.2.map Prod.fst).mapM m.modelOf = .ok (group.2.map Prod.snd) := by
    rw [List.mapM_map]
    refine mapM_eq_ok_map fun row hrow => modelOf_of_mem_zip hmodels ?_
    rw [hmembers] at hrow
    exact List.mem_of_mem_filter hrow
  simp only [Function.comp_apply, rowsIn, if_neg Bool.false_ne_true, hrows]
  rfl

/-- Groups partition rows, each of which is a model beside its document. -/
structure Partitions (m : Model α) (attr : String) (rows : List (Document × α))
    (groups : Dict (Rows α)) : Prop where
  /-- No two groups have one key. -/
  ordered : groups.Ordered
  /-- A group has the rows with its key, in the order of all rows. -/
  members : ∀ group ∈ groups, group.2 =
    .models ((rows.filter fun row => m.groupOf attr row.1 = group.1).map Prod.snd)
  nonempty : ∀ group ∈ groups, group.2.size ≠ 0
  /-- Every row has its group. -/
  covers : ∀ row ∈ rows, ∃ group ∈ groups, group.1 = m.groupOf attr row.1
  /-- Together the groups have every row once, and no other. -/
  once : (groups.values.flatMap Rows.entries).Perm (rows.map fun row => .inl row.2)

/-- Grouping partitions the rows. -/
theorem partitions_modelGroups (m : Model α) (attr : String) (rows : List (Document × α)) :
    m.Partitions attr rows (m.modelGroups attr rows) where
  ordered := Dict.ordered_mapValues _ (Dict.ordered_grouped _ rows)
  members group hgroup := by
    obtain ⟨⟨key, members⟩, hmem, rfl⟩ := List.mem_map.mp hgroup
    obtain ⟨_, rfl⟩ := Dict.mem_grouped_iff.mp hmem
    rfl
  nonempty group hgroup := by
    obtain ⟨own, hmem, rfl⟩ := List.mem_map.mp hgroup
    rw [Rows.size, List.length_map]
    exact mt List.length_eq_zero_iff.mp (Dict.ne_nil_of_mem_grouped hmem)
  covers row hrow :=
    ⟨_, List.mem_map_of_mem (Dict.mem_grouped_iff.mpr ⟨⟨row, hrow, rfl⟩, rfl⟩), rfl⟩
  once := by
    have hflat : ((m.modelGroups attr rows).values.flatMap Rows.entries) =
        (Dict.grouped (fun row => m.groupOf attr row.1) rows).values.flatten.map
          fun row => .inl row.2 := by
      rw [modelGroups, Dict.values, Dict.mapValues, Dict.values, List.map_map, List.flatMap_map,
        List.map_flatten, List.map_map, List.flatMap_def]
      refine congrArg List.flatten (List.map_congr_left fun group _ => ?_)
      exact List.map_map
    rw [hflat]
    exact (Dict.flatten_grouped_perm _ rows).map _

/-- A statement that groups and selects nothing partitions the rows that it has without its groups.
    Whatever the store answers, as long as every document that it answers makes a model: no row gets
    lost, none comes twice, each is in the group that the value of its document at the attribute
    belongs to, no group is empty, and within a group the rows keep their order. -/
theorem execute_groups_partition (m : Model α) (hgroup : s.last? Clause.groupBy? = some attr)
    (hselect : ∀ names, .select names ∈ s.clauses → names = [])
    (hplan : s.plan a.config.queryLimit = .ok (.find query manual groupBy, warnings))
    (hfind : Adapter.find query a = (.ok answer, b))
    (hdecodes : ∀ doc ∈ answer.docs, ∃ x, m.modelOf doc = .ok x) :
    ∃ xs groups, answer.docs.mapM m.modelOf = .ok xs ∧
      (m.execute s.ungrouped a).1 = .ok (.rows (.models xs)) ∧
      (m.execute s a).1 = .ok (.groups groups) ∧
      m.Partitions attr (answer.docs.zip xs) groups := by
  obtain ⟨_, hfound, hungrouped, hfields⟩ := Statement.plan_of_groupBy hgroup hplan
  cases hfound
  have hselected : query.fields.isSome = false := by
    rw [hfields, Statement.selection_eq_nil_iff.mpr hselect]
    rfl
  obtain ⟨xs, hmodels⟩ := exists_mapM_eq_ok hdecodes
  refine ⟨xs, _, hmodels, ?_, ?_, m.partitions_modelGroups attr _⟩
  · rw [m.execute_of_rows hungrouped hfind, hselected, rowsIn, if_neg Bool.false_ne_true, hmodels]
    rfl
  · rw [m.execute_of_groups hplan hfind, hselected, groupsIn_of_models hmodels]
    rfl

/-- Items of which one has no color, one has `null` for it and one the text of that. -/
def paintRack : Adapter :=
  let item (n : String) (attributes : Fields) : String × Document :=
    ("items__" ++ n, ("??table", .str "items") :: ("_id", .str ("items__" ++ n)) :: attributes)
  ofStore { digest := fun _ _ => 0, documents := [
    item "1" [("color", .str "red")], item "2" [], item "3" [("color", .null)],
    item "4" [("color", .str "red")], item "5" [("color", .str "null")]] } {}

/-- The items by color. -/
def paintGroups : Statement := ⟨[.target shelfSchema, .groupBy "color"]⟩

/-- All items are found, in the order in which they are held. -/
theorem plan_paintGroups : ∃ query,
    paintGroups.plan 250 = .ok (.find query none (some "color"), [.defaultLimit 250]) ∧
      query.fields = none ∧ ∃ answer, paintRack.connection.store.answerQuery query = .ok answer ∧
        answer.docs = paintRack.documents.values := by
  obtain ⟨query, hplan, hsort, hbookmark, hskip, hlimit, hfields, hmatching⟩ : ∃ query,
      paintGroups.plan 250 = .ok (.find query none (some "color"), [.defaultLimit 250]) ∧
        query.sort = [] ∧ query.bookmark = none ∧ query.skip = none ∧ query.limit = some 250 ∧
        query.fields = none ∧
        matching query.selector paintRack.documents = .ok paintRack.documents.values :=
    ⟨_, rfl, rfl, rfl, rfl, rfl, rfl, rfl⟩
  obtain ⟨answer, hanswer, hdocs, _⟩ := answerQuery_of_found
    (s := paintRack.connection.store) (by rw [hsort]; rfl) (found_of_no_sort hsort hmatching)
    (start_of_no_bookmark hbookmark)
  rw [hskip, hlimit, hfields] at hdocs
  exact ⟨query, hplan, hfields, answer, hanswer, hdocs⟩

theorem decodes_paintRack : ∀ doc ∈ paintRack.documents.values,
    ∃ x, (Model.plain shelfSchema [] []).modelOf doc = .ok x :=
  forall_exists_ok_of_all (by decide)

theorem execute_groups_partition_paintRack :
    let m := Model.plain shelfSchema [] []
    ∃ xs groups, paintRack.documents.values.mapM m.modelOf = .ok xs ∧
      (m.execute ⟨[.target shelfSchema]⟩ paintRack).1 = .ok (.rows (.models xs)) ∧
      (m.execute paintGroups paintRack).1 = .ok (.groups groups) ∧
      m.Partitions "color" (paintRack.documents.values.zip xs) groups := by
  intro m
  obtain ⟨query, hplan, _, answer, hanswer, hdocs⟩ := plan_paintGroups
  have hpartition := m.execute_groups_partition (s := paintGroups) rfl
    (fun names hmem => by simp [paintGroups] at hmem) hplan
    (find_of_answer (a := paintRack) rfl hanswer)
    (by rw [hdocs]; exact decodes_paintRack)
  rw [hdocs] at hpartition
  exact hpartition

end Model

end DocMapper
