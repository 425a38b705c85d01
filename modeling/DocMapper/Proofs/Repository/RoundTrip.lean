import DocMapper.Proofs.Repository.Readings
import DocMapper.Proofs.Repository.Writes

/-!
# Models that are read back

A write answers with the model of the attributes that it wrote, and a later reading with the model
of those that it finds. Main statement: they are the same exactly where the key stands among the
attributes in its own form and no other attribute has the name of the table field.
-/

namespace DocMapper

open DocMapper.Action Adapter MemoryStore

namespace Model

variable {α : Type} {m : Model α} {x : α} {given attributes : Fields} {key : Key} {a b : Adapter}

/-- The key of given attributes, and what is written for them: they themselves where they have a
    key, else they with a key that was generated. -/
inductive Keyed (m : Model α) (given : Fields) : Key → Fields → Prop
  | own {key : Key} (hkey : m.keyOf? given = some key) : Keyed m given key given
  | generated {key : Key} (hkey : m.keyOf? given = none) :
      Keyed m given key (given.insert m.keyField key.toJson)

/-- Setting the key keeps the fields in order. -/
theorem Keyed.ordered (hkeyed : m.Keyed given key attributes) (hgiven : Dict.Ordered given) :
    Dict.Ordered attributes := by
  cases hkeyed with
  | own => exact hgiven
  | generated => exact Dict.ordered_insert _ _ hgiven

/-- A key of the attributes' own is kept, and so are the attributes. -/
theorem Keyed.eq_of_own (hkeyed : m.Keyed given key attributes) {own : Key}
    (hown : m.keyOf? given = some own) : key = own ∧ attributes = given := by
  cases hkeyed with
  | own hkey => exact ⟨Option.some.inj (hkey.symm.trans hown), rfl⟩
  | generated hkey =>
    rw [hown] at hkey
    cases hkey

/-- The first entry of an assigned batch is keyed. -/
theorem keyed_of_assignKeys {rest : List (Key × Fields)}
    (hassign : m.assignKeys [given] a = (.ok ((key, attributes) :: rest), b)) :
    m.Keyed given key attributes := by
  obtain ⟨reserved, c, _, hassign⟩ := bind_eq_ok hassign
  have hassigned := (lift_eq_ok hassign).1
  cases hkey : m.keyOf? given with
  | some own =>
    simp only [assign, hkey] at hassigned
    cases hassigned
    exact .own hkey
  | none =>
    cases reserved with
    | nil =>
      simp only [assign, hkey] at hassigned
      cases hassigned
    | cons first later =>
      simp only [assign, hkey] at hassigned
      cases hassigned
      exact .generated hkey

/-- Valid attributes are what the model encodes to. -/
theorem encode_of_validAttributes (hvalid : m.validAttributes x = .ok given) :
    m.encode x = .ok (.obj given) := by
  unfold validAttributes at hvalid
  cases hvalidate : m.validate x with
  | error message =>
    rw [hvalidate] at hvalid
    cases hvalid
  | ok _ =>
    rw [hvalidate] at hvalid
    have hattributes : m.attributesOf x = .ok given := hvalid
    unfold attributesOf at hattributes
    cases hencode : m.encode x with
    | error message =>
      rw [hencode] at hattributes
      cases hattributes
    | ok v =>
      rw [hencode] at hattributes
      cases v <;> cases hattributes
      rfl

theorem keyOf?_of_keyOf (hkey : m.keyOf given = .ok key) : m.keyOf? given = some key := by
  unfold keyOf at hkey
  cases hown : m.keyOf? given with
  | none =>
    rw [hown] at hkey
    cases hkey
  | some own =>
    rw [hown] at hkey
    cases hkey
    rfl

end Model

namespace Write

variable {α : Type} {m : Model α} {w : Write α} {x : α} {a b : Adapter} {brought : StoredRecord}

/-- The model that is written, unless the write is a deletion. -/
def model? : Write α → Option α
  | .create x | .update x => some x
  | .delete _ => none

/-- A write that brings a record has put its attributes into the document under its id. -/
theorem record_encloses (hunstaged : a.Unstaged) (hmodel : w.model? = some x)
    (hrecord : w.record m a = (.ok brought, b)) :
    ∃ given, m.encode x = .ok (.obj given) ∧ m.Keyed given brought.key brought.attributes ∧
      Encloses m.schema.table b.documents brought := by
  cases w with
  | create own =>
    cases hmodel
    obtain ⟨given, hvalid, hrest⟩ := lift_bind_eq_ok hrecord
    obtain ⟨assigned, c, hassign, hcreate⟩ := bind_eq_ok hrest
    cases assigned with
    | nil => cases hcreate
    | cons entry rest =>
      have hspares : a.Undisturbed (fun _ => False) (m.assignKeys [given] a).2 :=
        Model.spares_assignKeys (fun _ => False.elim) _ a hunstaged
      rw [hassign] at hspares
      obtain ⟨hkey, hattributes, _, hencloses⟩ := create_eq_ok hspares.unstaged hcreate
      rw [hkey, hattributes]
      exact ⟨given, Model.encode_of_validAttributes hvalid, Model.keyed_of_assignKeys hassign,
        hencloses⟩
  | update own =>
    cases hmodel
    obtain ⟨given, hvalid, hrest⟩ := lift_bind_eq_ok hrecord
    obtain ⟨key, hkeyOf, hupdate⟩ := lift_bind_eq_ok hrest
    rw [get_bind] at hupdate
    obtain ⟨hkey, hattributes, _, hencloses⟩ := update_eq_ok hunstaged hupdate
    rw [hkey, hattributes]
    exact ⟨given, Model.encode_of_validAttributes hvalid, .own (Model.keyOf?_of_keyOf hkeyOf),
      hencloses⟩
  | delete key => cases hmodel

/-- The write as an operation of a run. -/
def operation : Write α → Operation α
  | .create x => .create x
  | .update x => .update x
  | .delete key => .delete key

/-- A write is one of the operations. -/
theorem run_operation (m : Model α) (w : Write α) (a : Adapter) :
    w.operation.run m a = (w.run m a).2 := by
  cases w <;> rfl

end Write

namespace Model

variable {α : Type} {m : Model α} {a b : Adapter} {x y : α}

/-- Reading attributes loses nothing: they can be told from the model. -/
def Lossless (m : Model α) : Prop := ∀ v x, m.decode v = .ok x → m.encode x = .ok v

/-- Without losses, a decoded model encodes to what it was decoded from. -/
theorem encode_of_ofAttributes {attributes : Fields} (hlossless : m.Lossless)
    (hmodel : m.ofAttributes attributes = .ok y) : m.encode y = .ok (.obj attributes) := by
  unfold ofAttributes at hmodel
  cases hdecode : m.decode (.obj attributes) with
  | error message =>
    rw [hdecode] at hmodel
    cases hmodel
  | ok own =>
    rw [hdecode] at hmodel
    cases hmodel
    exact hlossless _ _ hdecode

/-- A record is read as it was written where its attributes are restorable. -/
theorem read_eq_iff (hhosts : a.Hosts m.schema) {record : StoredRecord}
    (hencloses : Encloses m.schema.table a.documents record)
    (hordered : Dict.Ordered record.attributes)
    (hmodel : m.ofAttributes record.attributes = .ok y) :
    (Document.Restorable m.keyField record.key record.attributes →
        (m.read record.key a).1 = .ok y) ∧
      (m.Lossless → (m.read record.key a).1 = .ok y →
        Document.Restorable m.keyField record.key record.attributes) := by
  have hread := (m.read_ends hhosts hencloses.id_eq
    (lookUp_of_kept hencloses.unreserved hencloses.get?_eq) Document.revision?_kept).answer
  have hrestorable : (Document.kept m.schema.table record.id record.attributes record.rev).restore
      m.keyField record.key = record.attributes ↔
        Document.Restorable m.keyField record.key record.attributes :=
    Document.restore_kept_eq_iff hencloses.unreserved hordered
  rw [hread]
  constructor
  · intro hform
    rw [hrestorable.mpr hform, hmodel]
  · intro hlossless hsame
    refine hrestorable.mp ?_
    have hfound := encode_of_ofAttributes hlossless hsame
    rw [encode_of_ofAttributes hlossless hmodel] at hfound
    exact (Json.obj.inj (Except.ok.inj hfound)).symm

/-- A model that was created or updated is read back as the write answered it, as long as nothing
    is written under its id, if its attributes are restorable: the value of the primary key is the
    key in its own form, as a generated one always is, and no other attribute has the name of the
    table field. Where models can be told apart by their attributes this is exact. The attributes
    are in key order, and nothing else is assumed of the model type. -/
theorem written_read_back_iff (m : Model α) (hhosts : a.Hosts m.schema) {w : Write α}
    (hmodel : w.model? = some x) (hrun : w.run m a = (.ok y, b))
    (hordered : ∀ given, m.encode x = .ok (.obj given) → Dict.Ordered given) :
    ∃ given record, m.encode x = .ok (.obj given) ∧
      m.Keyed given record.key record.attributes ∧
      m.ofAttributes record.attributes = .ok y ∧
      Encloses m.schema.table b.documents record ∧
      ∀ since, (∀ step ∈ since, step.Agrees m.schema) →
        (runAll since b).documents.get? record.id = b.documents.get? record.id →
          (Document.Restorable m.keyField record.key record.attributes →
            (m.read record.key (runAll since b)).1 = .ok y) ∧
          (m.Lossless → (m.read record.key (runAll since b)).1 = .ok y →
            Document.Restorable m.keyField record.key record.attributes) := by
  have hunstaged := hhosts.sound.unstaged
  obtain ⟨record, c, hrecord⟩ : ∃ record c, w.record m a = (.ok record, c) := by
    rcases hrecord : w.record m a with ⟨e | record, c⟩
    · rw [Write.run_of_record_error hrecord] at hrun
      cases hrun
    · exact ⟨record, c, rfl⟩
  obtain ⟨hanswer, hdocuments⟩ := Write.run_of_record_ok hrecord
  obtain ⟨given, hencode, hkeyed, hencloses⟩ := Write.record_encloses hunstaged hmodel hrecord
  rw [hrun] at hanswer hdocuments
  rw [← hdocuments] at hencloses
  refine ⟨given, record, hencode, hkeyed, hanswer.symm, hencloses, fun since hagree hkept => ?_⟩
  have hlater : (runAll since b).Hosts m.schema := by
    have hsteps : (runAll (.own m w.operation :: since) a).Hosts m.schema :=
      hhosts.runAll (List.forall_mem_cons.mpr ⟨trivial, hagree⟩)
    have hfirst : Step.run (.own m w.operation) a = b := by
      rw [Step.run, w.run_operation, hrun]
    rwa [runAll, List.foldl_cons, hfirst] at hsteps
  exact read_eq_iff hlater (hencloses.congr hkept) (hkeyed.ordered (hordered given hencode))
    hanswer.symm

/-- Jobs are numbered by hand. -/
def jobSchema : Schema := { table := "jobs", primaryKey := ⟨"no", .number, none⟩ }

/-- Jobs are JSON values, which are written and read as they are. -/
def jobModel : Model Json := .plain jobSchema [] []

/-- A job with this value for its number. -/
def job (no : Json) : Json := .obj [("no", no)]

/-- The number of a job. -/
def seven : Signed 64 := Signed.wrap 64 7

/-- No jobs are there yet. -/
def jobBoard : Adapter :=
  runAll ([] ++ [.register jobSchema]) (ofStore (fresh fun _ _ => 0) {})

theorem jobBoard_hosts : jobBoard.Hosts jobSchema :=
  .run _ _ [] [] rfl (List.forall_mem_nil _)

theorem written_read_back_iff_jobBoard :
    let posted := jobModel.create (job (.ofSigned seven)) jobBoard
    let since : List Step := [.own jobModel (.readAll [.number seven]), .others (.get "jobs__7")]
    posted.1 = .ok (job (.ofSigned seven)) ∧
      (jobModel.read (.number seven) (runAll since posted.2)).1 = posted.1 := by
  intro posted since
  have hposted : posted.1 = .ok (job (.ofSigned seven)) := rfl
  obtain ⟨given, ⟨id, key, rev, attributes⟩, hencode, hkeyed, _, hencloses, hlater⟩ :=
    written_read_back_iff jobModel jobBoard_hosts (w := .create (job (.ofSigned seven))) rfl
      (b := posted.2) (Prod.ext hposted rfl) fun given hencode => by
        cases hencode
        exact List.pairwise_singleton _ _
  cases hencode
  have hown : jobModel.keyOf? [("no", .ofSigned seven)] = some (.number seven) := rfl
  obtain ⟨rfl, rfl⟩ := hkeyed.eq_of_own hown
  have hid : (.ok id : Except Error String) = .ok "jobs__7" := hencloses.id_eq.symm
  cases hid
  have hagree : ∀ step ∈ since, step.Agrees jobModel.schema :=
    List.forall_mem_cons.mpr ⟨trivial, List.forall_mem_singleton.mpr trivial⟩
  exact ⟨hposted, ((hlater since hagree rfl).1 ⟨rfl, fun _ => rfl⟩).trans hposted.symm⟩

/-- A number can be given as a text, and then it is answered as a text and read as a number. -/
theorem numeric_text_read_back_otherwise :
    (∀ x v, jobModel.encode x = .ok v → jobModel.decode v = .ok x) ∧
      jobBoard.Hosts jobModel.schema ∧
      jobModel.keyOf? [("no", .str "7")] = some (.number seven) ∧
      ∃ b, jobModel.create (job (.str "7")) jobBoard = (.ok (job (.str "7")), b) ∧
        (jobModel.read (.number seven) b).1 = .ok (job (.ofSigned seven)) ∧
        job (.ofSigned seven) ≠ job (.str "7") := by
  refine ⟨fun x v hencode => ?_, jobBoard_hosts, rfl, _, rfl, rfl, ?_⟩
  · cases hencode
    rfl
  · intro hsame
    cases hsame

end Model

end DocMapper
