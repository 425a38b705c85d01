import DocMapper.Proofs.Repository.GivenKeys
import DocMapper.Proofs.Repository.RoundTrip
import DocMapper.Proofs.Statement.Listing

/-!
# Listing what was created

A statement that asks for all records of a model finds the documents of its table, except those
under ids of design documents, and makes a model of each. Main statement: a live record that was
created is listed, once, exactly where its table does not have the name of a design document and
every document that is found makes a model (`Creation.created_listed_iff`).
-/

namespace DocMapper

open DocMapper.Action Adapter MemoryStore KeyedMap

/-! ## Names of design documents -/

/-- The separator does not make the name of a table begin like a design document. -/
theorem Text.startsWith_design_recordId (table text : String) :
    startsWith "_design/" (recordId table text) = startsWith "_design/" table := by
  have hlead : "_design/".toList = '_' :: "design/".toList := rfl
  have hseparator : separator.toList = ['_', '_'] := rfl
  refine Bool.eq_iff_iff.mpr ?_
  rw [startsWith_iff, startsWith_iff, recordId, String.append_assoc, String.toList_append,
    String.toList_append, hseparator, hlead]
  constructor
  · rintro ⟨rest, hrest⟩
    obtain ⟨more, htable, _⟩ | ⟨beyond, hmore, hbehind⟩ := List.append_eq_append_iff.mp hrest
    · exact ⟨more, htable.symm⟩
    · -- What reaches over the table's name would have an underscore that is not the first.
      cases htable : table.toList with
      | nil =>
        rw [htable, List.nil_append] at hmore
        rw [← hmore] at hbehind
        exact absurd (List.cons.inj (List.cons.inj hbehind).2).1 (by decide)
      | cons c name =>
        rw [htable, List.cons_append, List.cons.injEq] at hmore
        cases beyond with
        | nil =>
          rw [hmore.1, hmore.2, List.append_nil]
        | cons d beyond =>
          have hmem : d ∈ "design/".toList := by
            rw [hmore.2]
            exact List.mem_append_right _ List.mem_cons_self
          rw [← (List.cons.inj hbehind).1] at hmem
          exact absurd hmem (by decide)
  · exact fun hprefix => hprefix.trans (List.prefix_append _ _)

/-- Records under ids of keys are found, unless the table has the name of a design document. -/
theorem MemoryStore.mem_ofTable_of_isRecord {table text : String} {documents : Dict Document}
    {doc : Document} (hkept : WellKept documents)
    (hplain : Text.startsWith "_design/" table = false)
    (hrecord : IsRecord table (recordId table text) documents doc) :
    doc ∈ ofTable table documents := by
  have hid := hkept.id?_eq _ (Dict.mem_of_get? hrecord.get?_eq)
  refine (mem_ofTable_iff hkept).mpr ⟨_, hid, ?_, hrecord⟩
  rwa [Text.startsWith_design_recordId]

/-! ## Rows of records -/

namespace Model

variable {α : Type} {m : Model α} {a : Adapter} {s : Statement} {limit : UInt64} {doc : Document}

/-- All documents of a table match where nothing else is asked for. -/
theorem matching_equals_table (table : String) (documents : Dict Document) :
    matching (.equals tableField (.str table)) documents = .ok (ofTable table documents) := by
  have hmatches : ∀ doc, (Selector.equals tableField (.str table)).matches? doc =
      .ok (decide (Dict.get? doc tableField = some (.str table)) && true) := fun doc => by
    rw [Statement.matches?_equals_table, Bool.and_true]
  rw [matching_of_table documents hmatches, List.filter_true]

theorem execute_of_asksForAll (hunstaged : a.Unstaged) (hasks : s.AsksFor m.schema [] [] limit)
    (hlimit : a.connection.store.size ≤ limit.toNat) : (m.execute s a).1 =
      m.outputIn (s.last? Clause.groupBy?) (ofTable m.schema.table a.documents) :=
  execute_of_unordered hunstaged hasks hlimit rfl (matching_equals_table _ _)

/-- The rows of a statement are the models in records of the table that have different ids, and the
    document is one of those records. -/
def ListsOnce (m : Model α) (s : Statement) (a : Adapter) (doc : Document) : Prop :=
  ∃ (output : Output α) (docs : List Document) (xs : List α), (m.execute s a).1 = .ok output ∧
    output.entries.Perm (xs.map .inl) ∧ docs.mapM m.modelOf = .ok xs ∧
    (docs.map Document.id?).Nodup ∧ doc ∈ docs ∧
    ∀ other ∈ docs, ∃ id, other.id? = some id ∧ IsRecord m.schema.table id a.documents other

/-- A document makes a model only under an id of its table. -/
theorem exists_text_of_modelOf {x : α} (hmodel : m.modelOf doc = .ok x) :
    ∃ text, doc.id? = some (recordId m.schema.table text) := by
  unfold modelOf at hmodel
  cases hid : doc.id? with
  | none =>
    rw [hid] at hmodel
    cases hmodel
  | some id =>
    rw [hid] at hmodel
    obtain ⟨key, hkey, _⟩ := bind_eq_ok_iff.mp hmodel
    obtain ⟨text, htext, _⟩ := bind_eq_ok_iff.mp hkey
    exact ⟨text, congrArg some (Identity.keyText_eq_ok_iff.mp htext)⟩

/-- A record under an id of its table is listed by a statement for all records exactly where the
    name of the table is not one of design documents and all documents that are found make
    models. -/
theorem listsOnce_iff (hsound : Sound a) (hasks : s.AsksFor m.schema [] [] limit)
    (hlimit : a.connection.store.size ≤ limit.toNat) {text : String}
    (hrecord : IsRecord m.schema.table (recordId m.schema.table text) a.documents doc) :
    m.ListsOnce s a doc ↔ Text.startsWith "_design/" m.schema.table = false ∧
      ∀ other ∈ ofTable m.schema.table a.documents, ∃ x, m.modelOf other = .ok x := by
  have hexecute := execute_of_asksForAll hsound.unstaged hasks hlimit
  constructor
  · rintro ⟨output, docs, xs, hanswer, hentries, hmodels, _, hdoc, _⟩
    rw [hexecute] at hanswer
    have hall := modelOf_of_outputIn hanswer
    refine ⟨?_, hall⟩
    -- There is a row, so some document is found that makes a model.
    obtain ⟨x, hx, _⟩ := mem_of_mapM hmodels hdoc
    obtain ⟨found, hfound⟩ := exists_mapM_eq_ok hall
    obtain ⟨own, hown, hrows⟩ := entries_of_models (s.last? Clause.groupBy?) hfound
    cases hanswer.symm.trans hown
    have hrow := (hentries.symm.trans hrows).subset (List.mem_map_of_mem hx)
    obtain ⟨y, hy, _⟩ := List.mem_map.mp hrow
    obtain ⟨i, hi⟩ := List.mem_iff_getElem?.mp hy
    obtain ⟨other, hother, hmodel⟩ := getElem?_of_mapM hfound hi
    obtain ⟨rest, hid⟩ := exists_text_of_modelOf hmodel
    obtain ⟨id, hown, hplain, _⟩ :=
      (mem_ofTable_iff hsound.kept).mp (List.mem_of_getElem? hother)
    cases hid.symm.trans hown
    rwa [Text.startsWith_design_recordId] at hplain
  · rintro ⟨hplain, hall⟩
    obtain ⟨xs, hmodels⟩ := exists_mapM_eq_ok hall
    obtain ⟨output, houtput, hentries⟩ := entries_of_models (s.last? Clause.groupBy?) hmodels
    refine ⟨output, _, xs, hexecute.trans houtput, hentries, hmodels,
      nodup_ids_of_matching hsound.kept (matching_equals_table _ _),
      mem_ofTable_of_isRecord hsound.kept hplain hrecord, fun other hother => ?_⟩
    obtain ⟨id, hid, _, hrecord⟩ := (mem_ofTable_iff hsound.kept).mp hother
    exact ⟨id, hid, hrecord⟩

end Model

/-! ## Records that were created -/

namespace Creation

variable {α : Type} {m : Model α} {c : Creation α} {ys : List α} {a b : Adapter}

/-- The creation as an operation of a run. -/
def operation : Creation α → Operation α
  | .one x => .create x
  | .all xs => .createAll xs

theorem run_operation (hrun : c.run m a = (.ok ys, b)) : c.operation.run m a = b := by
  cases c with
  | one x =>
    obtain ⟨y, e, hcreate, hanswer⟩ := bind_eq_ok hrun
    cases hanswer
    rw [operation, Operation.run, hcreate]
  | all xs =>
    have hcreate : m.createAll xs a = (.ok ys, b) := hrun
    rw [operation, Operation.run, hcreate]

theorem sound_of_run (hsound : Sound a) (hrun : c.run m a = (.ok ys, b)) : Sound b := by
  have hstep := ((Step.own m c.operation).advances_run hsound).sound hsound
  rwa [Step.run, run_operation hrun] at hstep

/-- What was created is a record under the id of its key. -/
theorem isRecord_of_keepsEntry {table : String} {documents : Dict Document} {entry : Key × Fields}
    (hkept : KeepsEntry table documents entry) :
    ∃ rev, Document.reserves entry.2 = false ∧
      IsRecord table (recordId table entry.1.toText) documents
        (Document.kept table (recordId table entry.1.toText) entry.2 rev) := by
  obtain ⟨id, rev, hencloses⟩ := hkept
  have hid : recordId table entry.1.toText = id :=
    (Identity.documentId_eq_ok_iff.mp hencloses.id_eq).2
  rw [hid]
  exact ⟨rev, hencloses.unreserved, hencloses.get?_eq,
    Document.isDeleted_kept hencloses.unreserved, Document.table_kept hencloses.unreserved⟩

/-- Each of the models that are created has a record under the key that was made out for it. As long
    as that is live, whatever was done since and whoever did it, a statement for all records, with a
    limit of at least as many as there are live documents, lists the record and lists it once,
    exactly where the name of the table does not begin like that of a design document and every
    document that is found makes a model. So a table that does begin so is hidden, though its schema
    is accepted and its records can be read. -/
theorem created_listed_iff (m : Model α) (hsound : Sound a) (hrun : c.run m a = (.ok ys, b)) :
    ∃ batch assigned d, m.validBatch c.models = .ok batch ∧
      m.assignKeys batch a = (.ok assigned, d) ∧ assigned.length = c.models.length ∧
      ∀ entry ∈ assigned, KeepsEntry m.schema.table b.documents entry ∧
        let id := recordId m.schema.table entry.1.toText
        (∃ doc, IsRecord m.schema.table id b.documents doc) ∧
        ∀ since s limit doc, IsRecord m.schema.table id (runAll since b).documents doc →
          s.AsksFor m.schema [] [] limit →
          (runAll since b).connection.store.size ≤ limit.toNat →
            (m.ListsOnce s (runAll since b) doc ↔
              Text.startsWith "_design/" m.schema.table = false ∧
                ∀ other ∈ ofTable m.schema.table (runAll since b).documents,
                  ∃ x, m.modelOf other = .ok x) := by
  obtain ⟨batch, assigned, d, hbatch, hassign, hkept⟩ := keepsEntry_of_run hsound.unstaged hrun
  have hlength : assigned.length = c.models.length :=
    (Model.length_of_assignKeys hassign).trans (length_of_mapM hbatch)
  refine ⟨batch, assigned, d, hbatch, hassign, hlength, fun entry hentry => ?_⟩
  obtain ⟨_, _, hcreated⟩ := isRecord_of_keepsEntry (hkept entry hentry)
  refine ⟨hkept entry hentry, ⟨_, hcreated⟩, fun since s limit doc hrecord hasks hlimit => ?_⟩
  exact Model.listsOnce_iff (sound_runAll since (sound_of_run hsound hrun)) hasks hlimit hrecord

/-- All jobs, by their numbers. -/
def jobsByNumber : Statement := ⟨[.limit 9, .target Model.jobSchema, .groupBy "no", .limit 1]⟩

theorem created_listed_jobBoard :
    let posted := (Creation.one (Model.job (.ofSigned Model.seven))).run Model.jobModel
      Model.jobBoard
    posted.1 = .ok [Model.job (.ofSigned Model.seven)] ∧
      jobsByNumber.AsksFor Model.jobSchema [] [] 1 ∧
      ∃ id doc, IsRecord "jobs" id posted.2.documents doc ∧
        Model.jobModel.ListsOnce jobsByNumber posted.2 doc := by
  intro posted
  have hposted : posted.1 = .ok [Model.job (.ofSigned Model.seven)] := rfl
  have hasks : jobsByNumber.AsksFor Model.jobSchema [] [] 1 := ⟨rfl, rfl, rfl, rfl, rfl, rfl, rfl⟩
  have hmakes : ∀ other ∈ ofTable "jobs" posted.2.documents,
      ∃ x, Model.jobModel.modelOf other = .ok x := forall_exists_ok_of_all (by decide +kernel)
  obtain ⟨batch, assigned, d, _, _, hlength, hlisted⟩ :=
    created_listed_iff Model.jobModel Model.jobBoard_hosts.sound
      (Prod.ext hposted (Eq.refl posted.2))
  obtain ⟨entry, rfl⟩ := List.length_eq_one_iff.mp hlength
  obtain ⟨_, ⟨doc, hrecord⟩, hlisted⟩ := hlisted entry List.mem_cons_self
  exact ⟨hposted, hasks, _, doc, hrecord,
    (hlisted [] jobsByNumber 1 doc hrecord hasks (by decide +kernel)).mpr ⟨by decide, hmakes⟩⟩

/-- A table with the name of a design document. -/
def blueprintSchema : Schema := { table := "_design/x", primaryKey := ⟨"id", .text, none⟩ }

def blueprintModel : Model Json := .plain blueprintSchema [] []

def blueprint : Json := .obj [("id", .str "1")]

/-- All blueprints. -/
def allBlueprints : Statement := ⟨[.target blueprintSchema, .limit 5]⟩

/-- The schema is accepted, and a record is created and read, but a statement for all records has no
    rows. -/
theorem design_table_not_listed :
    blueprintSchema.check = .ok () ∧ allBlueprints.AsksFor blueprintSchema [] [] 5 ∧
      ∃ b, blueprintModel.create blueprint (ofStore (fresh fun _ _ => 0) {}) = (.ok blueprint, b) ∧
        b.connection.store.size = 1 ∧ (blueprintModel.read (.text "1") b).1 = .ok blueprint ∧
        (blueprintModel.execute allBlueprints b).1 = .ok (.rows (.models [])) := by
  have hasks : allBlueprints.AsksFor blueprintSchema [] [] 5 :=
    ⟨rfl, rfl, rfl, rfl, rfl, rfl, rfl⟩
  refine ⟨rfl, hasks, _, rfl, rfl, rfl, ?_⟩
  exact Model.execute_of_asksForAll (m := blueprintModel) rfl hasks (by decide +kernel)

end Creation

end DocMapper
