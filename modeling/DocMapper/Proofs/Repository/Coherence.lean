import DocMapper.Model.Plain
import DocMapper.Proofs.Adapter.Batches
import DocMapper.Proofs.Repository.Runs
import DocMapper.Proofs.Repository.Writes

/-!
# Coherence of the remembered revisions

An adapter whose store nobody else writes remembers current revisions only: what it remembers for
an id is the revision that the live document has. Every operation keeps it so, with one exception: a
batch that replaces or deletes records and breaks off after some of them were written.
-/

namespace DocMapper

open DocMapper.Action Adapter MemoryStore

/-- What the adapter remembers for the id, if anything, is held by the store. -/
def Adapter.Coherent (id : String) (a : Adapter) : Prop :=
  ∀ entry, a.revisions.byId.get? id = some entry → Holds a.documents id entry.2

variable {α β : Type} {m : Model α} {a b : Adapter} {id : String} {record : StoredRecord}

/-- The document under the id is another one, but what was remembered for it is as it was. -/
def Adapter.Strands (id : String) (a b : Adapter) : Prop :=
  ∃ entry, a.revisions.byId.get? id = some entry ∧ b.revisions.byId.get? id = some entry ∧
    b.documents.get? id ≠ a.documents.get? id

/-- Unless it is stranded, what was remembered stays true, and what is new is true. -/
theorem Adapter.Coherent.of_not_strands (hcoherent : a.Coherent id) (hadvances : Advances a b)
    (hnot : ¬Strands id a b) : b.Coherent id := by
  intro entry hentry
  rcases hadvances.entries id entry hentry with hold | hheld
  · by_cases hsame : b.documents.get? id = a.documents.get? id
    · exact (hcoherent entry hold).congr hsame
    · exact absurd ⟨entry, hold, hentry, hsame⟩ hnot
  · exact hheld

/-- An adapter that heeds its store stays coherent at an id whose live document is the same. -/
theorem Adapter.Coherent.of_heeds (hcoherent : a.Coherent id) (hheeds : Heeds a b)
    (hsame : IsLive a.documents id → b.documents.get? id = a.documents.get? id) :
    b.Coherent id :=
  hcoherent.of_not_strands hheeds.advances fun ⟨entry, hold, _, hchanged⟩ =>
    hchanged (hsame (hcoherent entry hold).isLive)

/-- What is stranded is stale: another document has another revision. -/
theorem Adapter.Coherent.stale_of_strands (hcoherent : a.Coherent id) (hadvances : Advances a b)
    (hstrands : Strands id a b) :
    ∃ stamp rev, b.revisions.byId.get? id = some (stamp, rev) ∧ ¬Holds b.documents id rev := by
  obtain ⟨⟨stamp, rev⟩, hold, hstill, hchanged⟩ := hstrands
  refine ⟨stamp, rev, hstill, ?_⟩
  rintro ⟨later, hlater, _, hsame⟩
  obtain ⟨doc, hdoc, _, hrev⟩ := hcoherent (stamp, rev) hold
  -- Generations only go up, and at both ends this is the same one.
  refine hchanged ((hadvances.progresses id).get?_eq (Nat.le_of_eq ?_))
  rw [currentRevision_of_present hdoc, currentRevision_of_present hlater, hrev, hsame]

/-- Finishing a record that the store holds leaves its id coherent. -/
theorem coherent_finish (m : Model α) (hheld : HoldsRecord a.documents record)
    (htidy : a.revisions.Tidy) : (m.finish record a).2.Coherent record.id := by
  rw [Model.finish_eq]
  intro entry hentry
  rw [RevisionTable.eq_of_get?_record_self htidy hentry]
  exact hheld

/-- Nothing is remembered of a deleted record. -/
theorem coherent_finishDeleted (m : Model α) (record : StoredRecord) (a : Adapter) :
    (m.finishDeleted record a).2.Coherent record.id := by
  rw [Model.finishDeleted_eq]
  intro entry hentry
  have hnone : (a.revisions.forget record.id).byId.get? record.id = some entry := hentry
  rw [RevisionTable.get?_forget_self] at hnone
  cases hnone

/-! ## Writes of one model -/

/-- A settled write leaves its id coherent. -/
theorem coherent_settle {w : Write α} (htidy : a.revisions.Tidy)
    (hheld : (∀ key, w ≠ .delete key) → HoldsRecord a.documents record) :
    (w.settle m record a).2.Coherent record.id := by
  cases w with
  | create x => exact coherent_finish m (hheld fun _ hnot => by cases hnot) htidy
  | update x => exact coherent_finish m (hheld fun _ hnot => by cases hnot) htidy
  | delete key => exact coherent_finishDeleted m record a

/-- Whatever comes of a write, the table is coherent: the document of the record that was written is
    remembered or forgotten anew before a model is made of it, and the others stay as they are. -/
theorem coherent_write (w : Write α) (hsound : Sound a) (htidy : a.revisions.Tidy)
    (hid : OutsideSequences id) (hcoherent : a.Coherent id) (hheeds : Heeds a (w.run m a).2) :
    (w.run m a).2.Coherent id := by
  have hunstaged := hsound.unstaged
  rcases hrecord : w.record m a with ⟨e | brought, b⟩
  · rw [Write.run_of_record_error hrecord] at hheeds ⊢
    exact hcoherent.of_heeds hheeds fun _ => w.atomic_record m a b e hunstaged hrecord id hid
  · obtain ⟨_, ⟨c, hundisturbed, hwrites⟩, hheld⟩ := Write.record_eq_ok hunstaged hrecord
    by_cases heq : brought.id = id
    · subst heq
      have htidied : b.revisions.Tidy := by
        obtain ⟨_, _, _, hrevisions⟩ := w.quiet_record m a hunstaged
        rw [hrecord] at hrevisions
        rwa [hrevisions]
      rw [Write.run_eq, bind_of_ok hrecord]
      exact coherent_settle htidied hheld
    · refine hcoherent.of_heeds hheeds fun _ => ?_
      rw [(Write.run_of_record_ok hrecord).2, hwrites.get?_of_ne heq, hundisturbed.get?_eq id hid]

/-! ## Batches -/

/-- A traversal that ends has dealt with every record. -/
theorem coherent_of_mapM (documents : Dict Document) {f : StoredRecord → Action β}
    {records : List StoredRecord} {xs : List β}
    (hcoherent : ∀ record ∈ records, ∀ a : Adapter, a.documents = documents →
      a.revisions.Tidy → (f record a).2.Coherent record.id)
    (hnotes : ∀ record ∈ records, Notes (Holds documents) (f record))
    (hspares : ∀ record, Spares (fun _ => False) (f record)) (hunstaged : a.Unstaged)
    (hdocuments : a.documents = documents) (htidy : a.revisions.Tidy)
    (hmap : records.mapM f a = (.ok xs, b)) :
    ∀ record ∈ records, b.Coherent record.id := by
  induction records generalizing a xs with
  | nil => exact List.forall_mem_nil _
  | cons head rest ih =>
    obtain ⟨hhead, hrest⟩ := List.forall_mem_cons.mp hcoherent
    obtain ⟨hfirst, hlater⟩ := List.forall_mem_cons.mp hnotes
    rw [List.mapM_cons] at hmap
    obtain ⟨v, c, hrun, hmap⟩ := bind_eq_ok hmap
    obtain ⟨vs, d, hmap, hanswer⟩ := bind_eq_ok hmap
    cases hanswer
    have hundisturbed := hspares head a hunstaged
    have hthere := hhead a hdocuments htidy
    obtain ⟨hconnection, _⟩ := hfirst a
    rw [hrun] at hundisturbed hthere hconnection
    have hsame : c.documents = documents := by
      rw [← hdocuments, Adapter.documents, hconnection, Adapter.documents]
    refine List.forall_mem_cons.mpr ⟨?_, ih hrest hlater hundisturbed.unstaged hsame
      (hundisturbed.tidy htidy) hmap⟩
    -- What was remembered for the first record stays true while the others are dealt with.
    have hall : Notes (Holds c.documents) (rest.mapM f) := by
      rw [hsame]
      exact along_mapM hlater
    have hheeds := heeds_of_notes hall
    obtain ⟨hstill, _⟩ := hall c
    rw [hmap] at hheeds hstill
    refine hthere.of_heeds hheeds fun _ => ?_
    rw [Adapter.documents, hstill, Adapter.documents]

/-- Settling records one by one writes no document. -/
theorem get?_eq_of_mapM {f : StoredRecord → Action β} {records : List StoredRecord}
    {result : Except Error (List β)} (hspares : ∀ record, Spares (fun _ => True) (f record))
    (hunstaged : a.Unstaged) (hmap : records.mapM f a = (result, b)) :
    b.documents.get? id = a.documents.get? id := by
  have hall : Spares (fun _ => True) (records.mapM f) := along_mapM fun record _ => hspares record
  have hundisturbed := hall a hunstaged
  rw [hmap] at hundisturbed
  exact hundisturbed.get?_eq id trivial

/-- A creation of many models leaves live documents as they are, however it ends. -/
theorem Model.createAll_get?_of_isLive (m : Model α) (xs : List α) (hunstaged : a.Unstaged)
    (hid : OutsideSequences id) (hlive : IsLive a.documents id) :
    (m.createAll xs a).2.documents.get? id = a.documents.get? id := by
  cases hbatch : m.validBatch xs with
  | error e =>
    rw [Model.createAll, hbatch]
    rfl
  | ok batch =>
    rw [Model.createAll, hbatch, lift_ok_bind]
    have hassign : a.Undisturbed OutsideSequences (m.assignKeys batch a).2 :=
      Model.spares_assignKeys (fun _ houtside => houtside) _ a hunstaged
    refine after_bind (R := a.Undisturbed OutsideSequences) hassign
      (fun b hb => hb.get?_eq id hid) fun assigned b _ hb => ?_
    have hsame := hb.get?_eq id hid
    have hstill : IsLive b.documents id := hlive.congr hsame
    refine after_bind (R := fun c => c.Unstaged ∧ c.documents.get? id = a.documents.get? id)
      ⟨?_, ?_⟩ (fun c hc => hc.2) fun records c _ hc => ?_
    · have hspares : Spares (fun _ => False) (Adapter.createAll m.schema.table
          (assigned.map Prod.fst) (assigned.map Prod.snd)) :=
        Action.along_createAll fun _ _ _ => allows_sparing_none _
      exact (hspares b hb.unstaged).unstaged
    · exact (Adapter.createAll_get?_of_isLive hb.unstaged hstill).trans hsame
    · exact (get?_eq_of_mapM Model.spares_finish hc.1 rfl).trans hc.2

/-- Replacing many models leaves the table coherent if it does not fail. -/
theorem coherent_updateAll {xs ys : List α} (hsound : Sound a) (htidy : a.revisions.Tidy)
    (hcoherent : a.Coherent id) (hrun : m.updateAll xs a = (.ok ys, b)) : b.Coherent id := by
  have hunstaged := hsound.unstaged
  have hheeds := m.heedful_updateAll xs a hunstaged hsound.kept
  rw [hrun] at hheeds
  obtain ⟨batch, _, hrun⟩ := lift_bind_eq_ok hrun
  obtain ⟨keys, _, hrun⟩ := lift_bind_eq_ok hrun
  rw [get_bind] at hrun
  obtain ⟨records, c, hupdate, hfinish⟩ := bind_eq_ok hrun
  have hspares : Spares (fun _ => False) (Adapter.updateAll m.schema.table keys batch
      (keys.map fun k => m.revision? k a.revisions)) :=
    along_updateAll fun _ _ _ _ _ => allows_sparing_none _
  have hundisturbed := hspares a hunstaged
  have hheld := brings_updateAll m.schema.table keys batch
    (fun _ _ hid => Model.revision?_eq hid a.revisions) a c records hunstaged hsound.kept hupdate
  rw [hupdate] at hundisturbed
  by_cases hmem : ∃ record ∈ records, record.id = id
  · obtain ⟨record, hmem, rfl⟩ := hmem
    refine coherent_of_mapM c.documents (fun record hmem d hd htidied => ?_)
      (fun record hmem => m.notes_finish (hheld record hmem)) Model.spares_finish
      hundisturbed.unstaged rfl (hundisturbed.tidy htidy) hfinish record hmem
    exact coherent_finish m (hd ▸ hheld record hmem) htidied
  · refine hcoherent.of_heeds hheeds fun _ => ?_
    have habsent : ∀ record ∈ records, record.id ≠ id :=
      fun record hin heq => hmem ⟨record, hin, heq⟩
    exact (get?_eq_of_mapM Model.spares_finish hundisturbed.unstaged hfinish).trans
      (updateAll_get?_of_absent hunstaged hupdate habsent)

/-- So does deleting many. -/
theorem coherent_deleteAll {keys : List Key} {ys : List α} (hsound : Sound a)
    (htidy : a.revisions.Tidy) (hcoherent : a.Coherent id)
    (hrun : m.deleteAll keys a = (.ok ys, b)) : b.Coherent id := by
  have hunstaged := hsound.unstaged
  have hheeds := m.heedful_deleteAll keys a hunstaged hsound.kept
  rw [hrun] at hheeds
  obtain ⟨records, c, hdelete, hfinish⟩ := bind_eq_ok hrun
  have hspares : Spares (fun _ => False) (Adapter.deleteAll m.schema.table keys) :=
    along_deleteAll (fun _ => allows_sparing_none _) fun _ => allows_sparing_none _
  have hundisturbed := hspares a hunstaged
  rw [hdelete] at hundisturbed
  by_cases hmem : ∃ record ∈ records, record.id = id
  · obtain ⟨record, hmem, rfl⟩ := hmem
    exact coherent_of_mapM c.documents
      (fun record _ d _ _ => coherent_finishDeleted m record d)
      (fun record _ => m.notes_finishDeleted record) Model.spares_finishDeleted
      hundisturbed.unstaged rfl (hundisturbed.tidy htidy) hfinish record hmem
  · refine hcoherent.of_heeds hheeds fun _ => ?_
    have habsent : ∀ record ∈ records, record.id ≠ id :=
      fun record hin heq => hmem ⟨record, hin, heq⟩
    exact (get?_eq_of_mapM Model.spares_finishDeleted hundisturbed.unstaged hfinish).trans
      (deleteAll_get?_of_absent hunstaged hdelete habsent)

/-! ## Steps -/

/-- The operation replaces or deletes many records and fails. -/
def Operation.BreaksOff (m : Model α) : Operation α → Adapter → Prop
  | .updateAll xs, a => ∃ e, (m.updateAll xs a).1 = .error e
  | .deleteAll keys, a => ∃ e, (m.deleteAll keys a).1 = .error e
  | _, _ => False

/-- The step is a batch that breaks off. -/
def Step.BreaksOff : Step → Adapter → Prop
  | .own m op, a => op.BreaksOff m a
  | _, _ => False

/-- The step registers a schema or is an operation of the adapter's own. -/
def Step.Sole : Step → Prop
  | .register _ | .own _ _ => True
  | .setUp | .others _ => False

/-- An operation that does not strand the id keeps it coherent. -/
theorem Operation.coherent_run (m : Model α) (op : Operation α) (hsound : Sound a)
    (htidy : a.revisions.Tidy) (hid : OutsideSequences id)
    (hbreaks : op.BreaksOff m a → ¬Strands id a (op.run m a))
    (hcoherent : a.Coherent id) : (op.run m a).Coherent id := by
  have hunstaged := hsound.unstaged
  have hheeds := op.heeds_run m hunstaged hsound.kept
  have hreads : ∀ call : Call, call.Reads → Allows (Sparing fun _ => True) call :=
    fun _ hcall => allows_sparing (spares_of_reads hcall)
  have hstays : (∀ a, Sparing (fun _ => True) a (op.run m a)) → (op.run m a).Coherent id :=
    fun hspares => hcoherent.of_heeds hheeds fun _ => (hspares a hunstaged).get?_eq id trivial
  cases op with
  | create x => exact coherent_write (.create x) hsound htidy hid hcoherent hheeds
  | update x => exact coherent_write (.update x) hsound htidy hid hcoherent hheeds
  | delete key => exact coherent_write (.delete key) hsound htidy hid hcoherent hheeds
  | createAll xs =>
    exact hcoherent.of_heeds hheeds fun hlive => m.createAll_get?_of_isLive xs hunstaged hid hlive
  | updateAll xs =>
    rcases hrun : m.updateAll xs a with ⟨e | ys, b⟩
    · exact hcoherent.of_not_strands hheeds.advances (hbreaks ⟨e, by rw [hrun]⟩)
    · rw [run, hrun]
      exact coherent_updateAll hsound htidy hcoherent hrun
  | deleteAll keys =>
    rcases hrun : m.deleteAll keys a with ⟨e | ys, b⟩
    · exact hcoherent.of_not_strands hheeds.advances (hbreaks ⟨e, by rw [hrun]⟩)
    · rw [run, hrun]
      exact coherent_deleteAll hsound htidy hcoherent hrun
  | read key => exact hstays (m.along_read hreads spares_remember key)
  | readAll keys => exact hstays (m.along_readAll hreads spares_remember keys)
  | execute s => exact hstays (m.along_execute hreads spares_remember s)
  | fetch s => exact hstays (m.along_fetch hreads spares_remember s)
  | aggregate s => exact hstays (m.along_aggregate hreads spares_remember s)
  | raw query => exact hstays (m.along_raw hreads spares_remember query)
  | page q n => exact hstays (m.along_page hreads spares_remember n q)

theorem register_eq (schema : Schema) (a : Adapter) :
    (register schema a).2.connection = a.connection ∧
      (register schema a).2.revisions = a.revisions := by
  rw [register]
  cases schema.check with
  | error e => exact ⟨rfl, rfl⟩
  | ok _ => exact ⟨rfl, rfl⟩

/-- A step of the sole writer that does not strand the id keeps it coherent. -/
theorem Step.coherent_run {step : Step} (hsole : step.Sole) (hsound : Sound a)
    (htidy : a.revisions.Tidy) (hid : OutsideSequences id)
    (hbreaks : step.BreaksOff a → ¬Strands id a (step.run a))
    (hcoherent : a.Coherent id) :
    (step.run a).Coherent id ∧ (step.run a).revisions.Tidy := by
  cases step with
  | own m op =>
    exact ⟨op.coherent_run m hsound htidy hid hbreaks hcoherent,
      (op.along_run m allows_sparing_none spares_remember spares_forget a hsound.unstaged).tidy
        htidy⟩
  | register schema =>
    obtain ⟨hconnection, hrevisions⟩ := register_eq schema a
    refine ⟨fun entry hentry => ?_, ?_⟩
    · rw [run, hrevisions] at hentry
      rw [run, Adapter.documents, hconnection]
      exact hcoherent entry hentry
    · rw [run, hrevisions]
      exact htidy
  | setUp => exact hsole.elim
  | others call => exact hsole.elim

/-! ## Runs -/

/-- A run of the sole writer keeps an id coherent that no step in it strands. -/
theorem coherent_runAll (steps : List Step) (hsole : ∀ step ∈ steps, step.Sole) (hsound : Sound a)
    (htidy : a.revisions.Tidy) (hid : OutsideSequences id)
    (hbreaks : ∀ before step later, steps = before ++ step :: later →
      step.BreaksOff (runAll before a) →
        ¬Strands id (runAll before a) (step.run (runAll before a)))
    (hcoherent : a.Coherent id) : (runAll steps a).Coherent id := by
  induction steps generalizing a with
  | nil => exact hcoherent
  | cons step rest ih =>
    obtain ⟨hfirst, hlater⟩ := List.forall_mem_cons.mp hsole
    obtain ⟨hnext, htidied⟩ :=
      Step.coherent_run hfirst hsound htidy hid (hbreaks [] step rest rfl) hcoherent
    refine ih hlater ((step.advances_run hsound).sound hsound) htidied ?_ hnext
    intro before last later hsplit
    exact hbreaks (step :: before) last later (by rw [hsplit]; rfl)

/-- An update over a remembered revision that the store holds is accepted, so what goes wrong with
    it is never a conflict. -/
theorem Model.kind_ne_conflict_of_update {x : α} {attributes : Fields} {key : Key} {e : Error}
    (hunstaged : a.Unstaged) (hcoherent : a.Coherent id)
    (hvalid : m.validAttributes x = .ok attributes) (hkey : m.keyOf? attributes = some key)
    (hid : Identity.documentId m.schema.table key = .ok id)
    (hfails : (m.update x a).1 = .error e) : e.kind ≠ .conflict := by
  have hown : m.keyOf attributes = .ok key := by rw [Model.keyOf, hkey]
  rw [Model.update, hvalid, lift_ok_bind, hown, lift_ok_bind, get_bind,
    Model.revision?_eq hid] at hfails
  cases hrev : a.revisions.get? id with
  | none =>
    rw [hrev] at hfails
    cases hfails
    exact fun hkind => by cases hkind
  | some rev =>
    rw [hrev] at hfails
    cases hreserves : Document.reserves attributes with
    | true =>
      obtain ⟨name, henclose⟩ := Document.enclose_of_reserves m.schema.table id hreserves
      have hupdate : Adapter.update m.schema.table key attributes (some rev) a =
          (.error (.attributeReserved name m.schema.table), a) := by
        rw [Adapter.update, hid, lift_ok_bind, henclose]
        exact lift_error_bind _ _
      simp only [bind_of_error hupdate] at hfails
      cases hfails
      exact fun hkind => by cases hkind
    | false =>
      obtain ⟨entry, hentry, rfl⟩ := Option.map_eq_some_iff.mp hrev
      obtain ⟨doc, hdoc, _, hcurrent⟩ := hcoherent entry hentry
      have hrevision : currentRevision a.documents id = some entry.2 :=
        (currentRevision_of_present hdoc).trans hcurrent
      obtain ⟨issued, b, hupdate, _, _⟩ :=
        update_of_currentRevision hunstaged hid hreserves hrevision
      simp only [bind_of_ok hupdate, Model.finish_eq] at hfails
      rw [Model.kind_of_ofAttributes hfails]
      exact fun hkind => by cases hkind

/-- The table of revisions stays coherent for a sole writer. Take any run of operations, statements
    and registrations through one adapter, successful or failing, whose store nobody else writes. If
    no batch of it that breaks off strands an id, then what the adapter remembers for the id in the
    end is the revision that the live document has, and an update of a model with this id does not
    end in a conflict. A step that strands the id does make it stale. The ids of counters are left
    out. -/
theorem coherent_of_sole_writer (store : MemoryStore) (config : Config)
    (hkept : WellKept store.documents) (steps : List Step) (hsole : ∀ step ∈ steps, step.Sole)
    (hid : OutsideSequences id) :
    let start := ofStore store config
    let a := runAll steps start
    (∀ before step later, steps = before ++ step :: later → step.BreaksOff (runAll before start) →
      ¬Strands id (runAll before start) (step.run (runAll before start))) →
    (∀ stamp rev, a.revisions.byId.get? id = some (stamp, rev) → Holds a.documents id rev) ∧
    (∀ {α : Type} (m : Model α) (x : α) (attributes : Fields) (key : Key) (e : Error),
      m.validAttributes x = .ok attributes → m.keyOf? attributes = some key →
        Identity.documentId m.schema.table key = .ok id →
          (m.update x a).1 = .error e → e.kind ≠ .conflict) ∧
    ∀ step : Step, Strands id a (step.run a) → ∃ stamp rev,
      (step.run a).revisions.byId.get? id = some (stamp, rev) ∧
        ¬Holds (step.run a).documents id rev := by
  intro start a hbreaks
  have hsound : Sound start := ⟨rfl, hkept⟩
  have hcoherent : a.Coherent id := by
    refine coherent_runAll steps hsole hsound (fun _ => rfl) hid hbreaks fun entry hentry => ?_
    -- The table of an adapter is empty in the beginning.
    cases hentry
  have hreached : Sound a := sound_runAll steps hsound
  exact ⟨fun stamp rev hentry => hcoherent (stamp, rev) hentry,
    fun m x attributes key e hvalid hkey hdocument hfails =>
      Model.kind_ne_conflict_of_update hreached.unstaged hcoherent hvalid hkey hdocument hfails,
    fun step hstrands => hcoherent.stale_of_strands (step.advances_run hreached) hstrands⟩

/-- People that are JSON values and have to have a name. -/
def personModel : Model Json :=
  .plain { table := "people", primaryKey := ⟨"id", .text, none⟩ } ["name"] []

/-- A person. -/
def person (id name : String) : Json := .obj [("id", .str id), ("name", .str name)]

/-- A person is created, and then replaced in a batch with another one that was never seen. The
    batch fails, but nothing of it was written. -/
def refusedBatch : List Step := [
  .own personModel (.create (person "1" "a")),
  .own personModel (.updateAll [person "1" "b", person "3" "b"])]

theorem coherent_of_sole_writer_refusedBatch :
    let a := runAll refusedBatch (ofStore (fresh fun _ _ => 0) {})
    Holds a.documents "people__1" (Revision.text 1 0) ∧
      ∀ e, (personModel.update (person "1" "c") a).1 = .error e → e.kind ≠ .conflict := by
  intro a
  have houtside : OutsideSequences "people__1" := outsideSequences_of_head (by decide)
  have hbatches : ∀ before step later, refusedBatch = before ++ step :: later →
      step.BreaksOff (runAll before (ofStore (fresh fun _ _ => 0) {})) →
        ¬Strands "people__1" (runAll before (ofStore (fresh fun _ _ => 0) {}))
          (step.run (runAll before (ofStore (fresh fun _ _ => 0) {}))) := by
    rintro before step later hsplit hbreaks ⟨entry, hold, hstill, hchanged⟩
    match before with
    | [] =>
      cases hsplit
      exact hbreaks.elim
    | [first] =>
      cases hsplit
      exact hchanged (by decide +kernel)
    | _ :: _ :: before =>
      cases before <;> cases hsplit
  obtain ⟨hentries, hupdate, _⟩ := coherent_of_sole_writer (fresh fun _ _ => 0) {} wellKept_empty
    refusedBatch (fun step hmem => by
      rcases List.mem_cons.mp hmem with rfl | hlast
      · trivial
      · rcases List.mem_singleton.mp hlast with rfl
        trivial) houtside hbatches
  have hentry : a.revisions.byId.get? "people__1" = some (1, Revision.text 1 0) := by
    decide +kernel
  exact ⟨hentries 1 _ hentry,
    fun e hfails => hupdate personModel (person "1" "c") _ (.text "1") e rfl rfl rfl hfails⟩

/-- Two people are replaced in one batch, which the store accepts; but no person can be made of the
    first record, since it has no name, and so the second is not looked at. -/
def brokenBatch : List Step := [
  .own personModel (.create (person "1" "a")),
  .own personModel (.create (person "2" "b")),
  .own personModel (.updateAll [.obj [("id", .str "1")], person "2" "c"])]

/-- The revision that is remembered for the second person is not the current one any more, and the
    next update of it ends in a conflict, though nobody else has written. -/
theorem revision_stale_after_brokenBatch :
    let a := runAll brokenBatch (ofStore (fresh fun _ _ => 0) {})
    a.revisions.get? "people__2" = some (Revision.text 1 0) ∧
      currentRevision a.documents "people__2" = some (Revision.text 2 0) ∧
      (personModel.update (person "2" "d") a).1 = .error (.store (some "people__2") .conflict) := by
  intro a
  refine ⟨?_, ?_, rfl⟩ <;> decide +kernel

end DocMapper
