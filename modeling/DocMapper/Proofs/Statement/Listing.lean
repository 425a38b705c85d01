import DocMapper.Proofs.Condition.Agreement
import DocMapper.Proofs.Statement.Aggregates
import DocMapper.Proofs.Statement.Grouping
import DocMapper.Proofs.Store.SortedFind

/-!
# Statements for whole records

A statement that selects no attributes, has no aggregate and no offset, and that has a limit of at
least as many documents as are live, comes to the models in those documents of its table that its
filters select, in its order. Nothing stops short of them: the store is asked once, and answers
whenever the order is covered.
-/

namespace DocMapper

open DocMapper.Action Adapter MemoryStore

/-! ## The documents of a table -/

namespace MemoryStore

variable {table id : String} {documents : Dict Document} {doc : Document} {selector : Selector}
  {hits : List Document}

/-- The document is live, and a record of the table under the id. -/
structure IsRecord (table id : String) (documents : Dict Document) (doc : Document) : Prop where
  get?_eq : documents.get? id = some doc
  live : doc.isDeleted = false
  table_eq : Dict.get? doc tableField = some (.str table)

theorem mem_ofTable_iff (hkept : WellKept documents) : doc ∈ ofTable table documents ↔
    ∃ id, doc.id? = some id ∧ Text.startsWith "_design/" id = false ∧
      IsRecord table id documents doc := by
  constructor
  · intro hmem
    have htable := table_of_mem_ofTable hmem
    obtain ⟨⟨id, own⟩, hentry, rfl⟩ := List.mem_map.mp hmem
    obtain ⟨hheld, htaken⟩ := List.mem_filter.mp hentry
    have hfindable := (Bool.and_eq_true_iff.mp htaken).1
    rw [isFindable, Bool.not_eq_true', Bool.or_eq_false_iff] at hfindable
    exact ⟨id, hkept.id?_eq _ hheld, hfindable.1, Dict.get?_of_mem hkept.ordered hheld,
      hfindable.2, htable⟩
  · rintro ⟨id, _, hplain, hget, hlive, htable⟩
    refine List.mem_map.mpr ⟨(id, doc), List.mem_filter.mpr ⟨Dict.mem_of_get? hget, ?_⟩, rfl⟩
    rw [isFindable, hplain, hlive, htable, decide_eq_true rfl]
    rfl

/-- The documents that match are at most as many as there are live ones. -/
theorem length_le_size_of_matching {s : MemoryStore}
    (hmatching : matching selector s.documents = .ok hits) : hits.length ≤ s.size := by
  have hlive := (sublist_of_matching hmatching).length_le
  rwa [Dict.values, List.filter_map, List.length_map] at hlive

/-- A selector that asks for a table and for more matches some of the documents of the table, and
    matching them does not fail. -/
theorem matching_of_table {wanted : Document → Bool} (documents : Dict Document)
    (hmatches : ∀ doc, selector.matches? doc =
      .ok (decide (Dict.get? doc tableField = some (.str table)) && wanted doc)) :
    matching selector documents = .ok ((ofTable table documents).filter wanted) := by
  refine matching_eq_ok_iff.mpr ⟨fun entry _ _ => ⟨_, hmatches entry.2⟩, ?_⟩
  rw [ofTable, List.filter_map, List.filter_filter, selected]
  refine congrArg Dict.values (List.filter_congr fun entry _ => Bool.eq_iff_iff.mpr ?_)
  simp only [Selects, hmatches, toOption_ok, Option.some.injEq, decide_eq_true_eq,
    Bool.and_eq_true, Function.comp_apply]
  rw [and_comm, and_assoc]

theorem nodup_ids_of_matching (hkept : WellKept documents)
    (hmatching : matching selector documents = .ok hits) : (hits.map Document.id?).Nodup := by
  rw [(matching_eq_ok_iff.mp hmatching).2]
  exact nodup_ids_of_pairwise (hkept.pairwise_selected _)

end MemoryStore

/-! ## Plans -/

namespace Statement

variable {s : Statement} {schema : Schema} {filters : List Condition} {sort : List SortField}
  {limit : UInt64}

/-- The statement asks for whole records of a schema, in groups or not, with these filters, in this
    order and up to a limit. -/
structure AsksFor (s : Statement) (schema : Schema) (filters : List Condition)
    (sort : List SortField) (limit : UInt64) : Prop where
  target : s.last? Clause.target? = some schema
  aggregate : s.last? Clause.aggregate? = none
  selection : s.selection = []
  filters : s.each Clause.filter? = filters
  sort : s.each Clause.orderBy? = sort
  offset : s.last? Clause.offset? = none
  limit : s.last? Clause.limit? = some limit

theorem AsksFor.plan_eq (hasks : s.AsksFor schema filters sort limit) (queryLimit : UInt64)
    {base : Selector} {warnings : List Warning}
    (hfiltered : filtered schema.table filters = .ok (base, warnings)) :
    s.plan queryLimit = .ok (.find {
      selector := sort.foldl (fun selector field => selector.bindField field.field) base
      sort
      limit := some limit } none (s.last? Clause.groupBy?), warnings) := by
  have hnames : (s.each Clause.select?).flatten = [] := hasks.selection
  rw [plan_of_no_aggregate hasks.target hasks.aggregate, findPlan, hasks.filters, hfiltered]
  simp only [hasks.sort, hasks.offset, hasks.limit, hnames, limitFor, List.append_nil]
  rfl

end Statement

/-! ## Outputs -/

/-- The rows of an output, within whatever groups, one by one. -/
def Output.entries {α : Type} : Output α → List (α ⊕ Document)
  | .rows own => own.entries
  | .groups own => own.values.flatMap Rows.entries
  | .aggregate _ => []

namespace Model

variable {α : Type} {m : Model α} {a : Adapter} {s : Statement} {filters : List Condition}
  {sort : List SortField} {limit : UInt64} {docs hits : List Document} {doc : Document}
  {output : Output α} {xs : List α}

/-- What whole documents come to, in groups or not. -/
def outputIn (m : Model α) (groupBy : Option String) (docs : List Document) :
    Except Error (Output α) :=
  match groupBy with
  | none => (m.rowsIn false docs).map Output.rows
  | some attr => (m.groupsIn attr false docs).map Output.groups

/-- The documents that match are found in the order of the statement, and all of them come to the
    output. -/
theorem execute_of_asksFor (hunstaged : a.Unstaged)
    (hasks : s.AsksFor m.schema filters sort limit)
    (hlimit : a.connection.store.size ≤ limit.toNat) {base : Selector} {warnings : List Warning}
    (hfiltered : Statement.filtered m.schema.table filters = .ok (base, warnings))
    (hcovers : CoversSort a.connection.store.indexes sort)
    (hmatching : matching (sort.foldl (fun selector field => selector.bindField field.field) base)
      a.documents = .ok hits) :
    (m.execute s a).1 = m.outputIn (s.last? Clause.groupBy?)
      (hits.mergeSort fun a b => compareBy a b sort != .gt) := by
  have hplan := hasks.plan_eq a.config.queryLimit hfiltered
  obtain ⟨answer, hanswer, hdocs, _⟩ := answerQuery_of_found (s := a.connection.store)
    (q := { selector := sort.foldl (fun selector field => selector.bindField field.field) base
            sort, limit := some limit })
    hcovers (found_of_matching hmatching) (start_of_no_bookmark rfl)
  have hfind := find_of_answer hunstaged hanswer
  have hwhole : answer.docs = hits.mergeSort fun a b => compareBy a b sort != .gt := by
    have hbound := (length_le_size_of_matching hmatching).trans hlimit
    have hproject : project none = id := rfl
    rw [hdocs, hproject, List.map_id]
    refine List.take_of_length_le (Nat.le_trans (Nat.le_of_eq ?_) hbound)
    exact List.length_mergeSort _
  rw [← hwhole]
  cases hgroup : s.last? Clause.groupBy? with
  | none =>
    rw [hgroup] at hplan
    exact m.execute_of_rows hplan hfind
  | some attr =>
    rw [hgroup] at hplan
    exact m.execute_of_groups hplan hfind

/-- Without an order they stay as they match. -/
theorem execute_of_unordered (hunstaged : a.Unstaged) (hasks : s.AsksFor m.schema filters [] limit)
    (hlimit : a.connection.store.size ≤ limit.toNat) {base : Selector} {warnings : List Warning}
    (hfiltered : Statement.filtered m.schema.table filters = .ok (base, warnings))
    (hmatching : matching base a.documents = .ok hits) :
    (m.execute s a).1 = m.outputIn (s.last? Clause.groupBy?) hits := by
  rw [execute_of_asksFor hunstaged hasks hlimit hfiltered rfl hmatching]
  exact congrArg _ (List.mergeSort_of_pairwise (List.pairwise_of_forall fun _ _ => rfl))

theorem modelOf_of_rowsIn {rows : Rows α} (hrows : m.rowsIn false docs = .ok rows) :
    ∀ doc ∈ docs, ∃ x, m.modelOf doc = .ok x := by
  rw [rowsIn, if_neg Bool.false_ne_true] at hrows
  obtain ⟨xs, hmodels, _⟩ := bind_eq_ok_iff.mp hrows
  intro doc hdoc
  obtain ⟨x, _, hx⟩ := mem_of_mapM hmodels hdoc
  exact ⟨x, hx⟩

/-- There is an output only where every document makes a model. -/
theorem modelOf_of_outputIn {groupBy : Option String}
    (houtput : m.outputIn groupBy docs = .ok output) :
    ∀ doc ∈ docs, ∃ x, m.modelOf doc = .ok x := by
  cases groupBy with
  | none =>
    obtain ⟨rows, hrows, _⟩ := map_eq_ok houtput
    exact modelOf_of_rowsIn hrows
  | some attr =>
    obtain ⟨groups, hgroups, _⟩ := map_eq_ok houtput
    intro doc hdoc
    have hgroup := Dict.mem_grouped_iff.mpr ⟨⟨doc, hdoc, Eq.refl (m.groupOf attr doc)⟩, rfl⟩
    obtain ⟨_, _, hgroup⟩ := mem_of_mapM hgroups hgroup
    obtain ⟨rows, hrows, _⟩ := bind_eq_ok_iff.mp hgroup
    exact modelOf_of_rowsIn hrows doc (List.mem_filter.mpr ⟨hdoc, decide_eq_true rfl⟩)

/-- Then its rows are the models, each of them once. -/
theorem entries_of_models (groupBy : Option String) (hmodels : docs.mapM m.modelOf = .ok xs) :
    ∃ output, m.outputIn groupBy docs = .ok output ∧ output.entries.Perm (xs.map .inl) := by
  cases groupBy with
  | none =>
    refine ⟨.rows (.models xs), ?_, List.Perm.rfl⟩
    rw [outputIn, rowsIn, if_neg Bool.false_ne_true, hmodels]
    rfl
  | some attr =>
    refine ⟨.groups (m.modelGroups attr (docs.zip xs)), ?_, ?_⟩
    · rw [outputIn, groupsIn_of_models hmodels]
      rfl
    · have honce := (m.partitions_modelGroups attr (docs.zip xs)).once
      have hsecond : (docs.zip xs).map Prod.snd = xs :=
        List.map_snd_zip (Nat.le_of_eq (length_of_mapM hmodels))
      have hrows : (docs.zip xs).map (fun row => (.inl row.2 : α ⊕ Document)) = xs.map .inl := by
        rw [← hsecond, List.map_map, hsecond]
        rfl
      rwa [hrows] at honce

end Model

end DocMapper
