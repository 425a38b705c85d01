import DocMapper.Proofs.Adapter.Actions
import DocMapper.Proofs.Traversal
import DocMapper.Statement.Output

/-!
# Rows of documents

What becomes of documents that are answered as rows: a document alone decides which row it makes,
or why it makes none. Making rows leaves the connection of the adapter alone.
-/

namespace DocMapper

namespace Action

variable {α β : Type}

/-- The action leaves the connection alone, and what comes of it is the same for every adapter. -/
def Computes (x : Action α) (e : Except Error α) : Prop :=
  ∀ a : Adapter, (x a).1 = e ∧ (x a).2.connection = a.connection

theorem computes_pure (v : α) : Computes (pure v) (.ok v) := fun _ => ⟨rfl, rfl⟩

/-- A computation without an adapter comes to its own outcome. -/
theorem computes_lift (e : Except Error α) : Computes (liftM e) e := by
  intro a
  cases e <;> exact ⟨rfl, rfl⟩

theorem computes_throw (e : Error) : Computes (throw e : Action α) (.error e) :=
  computes_lift (.error e)

/-- One computation after the other comes to the outcomes in sequence. -/
theorem computes_bind {x : Action α} {f : α → Action β} {e : Except Error α}
    {g : α → Except Error β} (hx : Computes x e) (hf : ∀ v, Computes (f v) (g v)) :
    Computes (x >>= f) (e >>= g) := by
  intro a
  obtain ⟨hresult, hconnection⟩ := hx a
  rcases hrun : x a with ⟨error | v, b⟩
  · rw [hrun] at hresult hconnection
    rw [Adapter.bind_of_error hrun, ← hresult]
    exact ⟨rfl, hconnection⟩
  · rw [hrun] at hresult hconnection
    rw [Adapter.bind_of_ok hrun, ← hresult]
    obtain ⟨hnext, hkept⟩ := hf v b
    exact ⟨hnext, hkept.trans hconnection⟩

/-- A traversal comes to the traversal of the outcomes. -/
theorem computes_mapM {f : α → Action β} {g : α → Except Error β}
    (hf : ∀ v, Computes (f v) (g v)) (xs : List α) : Computes (xs.mapM f) (xs.mapM g) := by
  induction xs with
  | nil =>
    rw [List.mapM_nil, List.mapM_nil]
    exact computes_pure []
  | cons head rest ih =>
    rw [List.mapM_cons, List.mapM_cons]
    exact computes_bind (hf head) fun v => computes_bind ih fun vs => computes_pure (v :: vs)

end Action

/-- Rows one by one. -/
def Rows.entries {α : Type} : Rows α → List (α ⊕ Document)
  | .models xs => xs.map .inl
  | .parts docs => docs.map .inr

theorem Rows.length_entries {α : Type} (rows : Rows α) : rows.entries.length = rows.size := by
  cases rows with
  | models xs => exact List.length_map _
  | parts docs => exact List.length_map _

namespace Model

variable {α : Type} {a : Adapter}

/-- The plan is made from the limit that the adapter is configured with. -/
theorem planOf_of_ok {s : Statement} {plan : Plan} {warnings : List Warning}
    (hplan : s.plan a.config.queryLimit = .ok (plan, warnings)) : planOf s a = (.ok plan, a) := by
  rw [planOf, Adapter.get_bind, hplan, Adapter.lift_ok_bind]
  rfl

theorem planOf_of_error {s : Statement} {e : Error}
    (hplan : s.plan a.config.queryLimit = .error e) : planOf s a = (.error e, a) := by
  rw [planOf, Adapter.get_bind, hplan, Adapter.lift_error_bind]

/-- The model in a document of its table. -/
def modelOf (m : Model α) (doc : Document) : Except Error α :=
  match doc.id? with
  | none => .error .documentWithoutId
  | some id => do
    let key ← Identity.keyOf m.schema.table m.schema.primaryKey.kind id
    m.ofAttributes (doc.restore m.keyField key)

/-- A document alone decides which model it makes. -/
theorem computes_ofDocument (m : Model α) (doc : Document) :
    Action.Computes (m.ofDocument doc) (m.modelOf doc) := by
  unfold ofDocument modelOf
  cases doc.id? with
  | none => exact Action.computes_throw _
  | some id =>
    refine Action.computes_bind (Action.computes_lift _) fun key => ?_
    cases doc.revision? with
    | none => exact Action.computes_lift _
    | some rev =>
      exact fun a => Action.computes_lift _ { a with revisions := a.revisions.record id rev }

/-- The row that a document makes: the document itself where only parts were selected, else the
    model in it. -/
def entryOf (m : Model α) (selected : Bool) (doc : Document) : Except Error (α ⊕ Document) :=
  if selected then .ok (.inr doc) else (m.modelOf doc).map .inl

/-- Every selected part is a row. -/
theorem mapM_entryOf_parts (m : Model α) (docs : List Document) :
    docs.mapM (m.entryOf true) = .ok (docs.map .inr) := by
  induction docs with
  | nil => rfl
  | cons doc rest ih =>
    rw [List.mapM_cons, ih]
    rfl

/-- Whole documents are rows where their models are made. -/
theorem mapM_entryOf_models (m : Model α) (docs : List Document) :
    docs.mapM (m.entryOf false) = (docs.mapM m.modelOf).map (List.map .inl) := by
  induction docs with
  | nil => rfl
  | cons doc rest ih =>
    rw [List.mapM_cons, List.mapM_cons, ih]
    have hentry : m.entryOf false doc = (m.modelOf doc).map .inl := rfl
    rw [hentry]
    cases m.modelOf doc with
    | error e => rfl
    | ok x => cases rest.mapM m.modelOf <;> rfl

/-- The rows in documents. -/
def rowsIn (m : Model α) (selected : Bool) (docs : List Document) : Except Error (Rows α) :=
  if selected then .ok (.parts docs) else docs.mapM m.modelOf >>= fun xs => .ok (.models xs)

/-- Documents alone decide which rows they make. -/
theorem computes_rowsOf (m : Model α) (selected : Bool) (docs : List Document) :
    Action.Computes (m.rowsOf selected docs) (m.rowsIn selected docs) := by
  cases selected with
  | true => exact Action.computes_pure (Rows.parts docs)
  | false =>
    exact Action.computes_bind (Action.computes_mapM m.computes_ofDocument docs) fun xs =>
      Action.computes_pure (Rows.models xs)

/-- The rows in documents are the rows that they make, one by one; there are none where one of the
    documents makes none. -/
theorem map_entries_rowsIn (m : Model α) (selected : Bool) (docs : List Document) :
    (m.rowsIn selected docs).map Rows.entries = docs.mapM (m.entryOf selected) := by
  cases selected with
  | true => exact (m.mapM_entryOf_parts docs).symm
  | false =>
    rw [mapM_entryOf_models, rowsIn, if_neg Bool.false_ne_true]
    cases docs.mapM m.modelOf <;> rfl

/-- Where every document makes a row there are rows. -/
theorem exists_rowsIn {selected : Bool} {docs : List Document} (m : Model α)
    (hdecodes : ∀ doc ∈ docs, ∃ entry, m.entryOf selected doc = .ok entry) :
    ∃ rows, m.rowsIn selected docs = .ok rows := by
  obtain ⟨entries, hentries⟩ := exists_mapM_eq_ok hdecodes
  rw [← map_entries_rowsIn] at hentries
  cases hrows : m.rowsIn selected docs with
  | error e =>
    rw [hrows] at hentries
    cases hentries
  | ok rows => exact ⟨rows, rfl⟩

theorem exists_rowsIn_nil (m : Model α) (selected : Bool) :
    ∃ rows : Rows α, m.rowsIn selected [] = .ok rows ∧ rows.entries = [] := by
  cases selected with
  | true => exact ⟨.parts [], rfl, rfl⟩
  | false => exact ⟨.models [], rfl, rfl⟩

/-- There are as many rows as documents. -/
theorem size_of_rowsIn {selected : Bool} {docs : List Document} {rows : Rows α} {m : Model α}
    (hrows : m.rowsIn selected docs = .ok rows) : rows.size = docs.length := by
  have hentries := m.map_entries_rowsIn selected docs
  rw [hrows] at hentries
  rw [← rows.length_entries, length_of_mapM hentries.symm]

/-- A statement for rows brings those that the documents found make. -/
theorem execute_of_rows {s : Statement} {query : Query} {answer : FindAnswer}
    {warnings : List Warning} {b : Adapter} (m : Model α)
    (hplan : s.plan a.config.queryLimit = .ok (.find query none none, warnings))
    (hfind : Adapter.find query a = (.ok answer, b)) :
    (m.execute s a).1 = (m.rowsIn query.fields.isSome answer.docs).map .rows := by
  have hexecute : m.execute s a = (m.rowsOf query.fields.isSome answer.docs >>= fun rows =>
      pure (Output.rows rows)) b :=
    (Adapter.bind_of_ok (planOf_of_ok hplan)).trans (Adapter.bind_of_ok hfind)
  have hcomputes := Action.computes_bind (m.computes_rowsOf query.fields.isSome answer.docs)
    fun rows => Action.computes_pure (Output.rows rows)
  rw [hexecute, (hcomputes b).1]
  exact bind_ok_eq_map _ Output.rows

/-! ## Documents that make no row -/

section Faults

variable {m : Model α} {e : Error}

theorem kind_of_ofAttributes {attributes : Fields}
    (hfails : m.ofAttributes attributes = .error e) : e.kind = .internal := by
  unfold ofAttributes at hfails
  cases hdecode : m.decode (.obj attributes) with
  | ok x =>
    rw [hdecode] at hfails
    cases hfails
  | error message =>
    rw [hdecode] at hfails
    cases hfails
    rfl

/-- An id that does not spell a key is an internal failure. -/
theorem kind_of_keyOf {table id : String} {kind : KeyKind}
    (hfails : Identity.keyOf table kind id = .error e) : e.kind = .internal := by
  unfold Identity.keyOf at hfails
  cases htext : Identity.keyText table id with
  | error cause =>
    rw [htext] at hfails
    cases hfails
    unfold Identity.keyText at htext
    split at htext <;> cases htext
    rfl
  | ok text =>
    rw [htext] at hfails
    have hkey : Identity.key kind text = .error e := hfails
    unfold Identity.key at hkey
    split at hkey
    · cases hkey
    · split at hkey <;> cases hkey <;> rfl

/-- A document that makes no model is an internal failure. -/
theorem kind_of_modelOf {doc : Document} (hfails : m.modelOf doc = .error e) :
    e.kind = .internal := by
  unfold modelOf at hfails
  cases hid : doc.id? with
  | none =>
    rw [hid] at hfails
    cases hfails
    rfl
  | some id =>
    rw [hid] at hfails
    cases hkey : Identity.keyOf m.schema.table m.schema.primaryKey.kind id with
    | error cause =>
      simp only [hkey] at hfails
      cases hfails
      exact kind_of_keyOf hkey
    | ok key =>
      simp only [hkey] at hfails
      exact kind_of_ofAttributes hfails

/-- A document that makes no row is a defect of what is stored, not of a request. -/
theorem kind_of_rowsIn {selected : Bool} {docs : List Document}
    (hfails : m.rowsIn selected docs = .error e) : e.kind = .internal := by
  cases selected with
  | true => cases hfails
  | false =>
    rw [rowsIn, if_neg Bool.false_ne_true] at hfails
    cases hmodels : docs.mapM m.modelOf with
    | error cause =>
      rw [hmodels] at hfails
      cases hfails
      obtain ⟨doc, _, hmodel⟩ := exists_mem_of_mapM_error hmodels
      exact kind_of_modelOf hmodel
    | ok xs =>
      rw [hmodels] at hfails
      cases hfails

end Faults

end Model

end DocMapper
