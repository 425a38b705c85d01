import DocMapper.Proofs.Adapter.Answers
import DocMapper.Proofs.Adapter.Sparing
import DocMapper.Proofs.Repository.Operations

/-!
# Writes of one model

Creating, updating and deleting a model come in two parts: first a record is brought, which is what
the store hears of, and then a model is made of the record. Of the first part only counters change
until the record is there.
-/

namespace DocMapper

open DocMapper.Action Adapter MemoryStore

/-- The document is not the counter of any sequence. -/
def OutsideSequences (id : String) : Prop := ∀ name, id ≠ KeyedMap.recordId sequenceTable name

/-- Reserved tables begin with a question mark. -/
theorem outsideSequences_of_head {id : String} (hhead : id.toList.head? ≠ some '?') :
    OutsideSequences id := by
  rintro name rfl
  refine hhead ?_
  rw [KeyedMap.recordId, String.append_assoc, String.toList_append]
  rfl

namespace Model

variable {α : Type} {S : String → Prop} {m : Model α}

/-- Keys cost no documents but counters. -/
theorem spares_assignKeys (hS : ∀ id, S id → OutsideSequences id) (batch : List Fields) :
    Spares S (m.assignKeys batch) :=
  m.along_assignKeys (fun name _ htarget => allows_sparing
    (spares_of_target htarget fun hid => hS _ hid name rfl)) batch

/-- Remembering and decoding touch no document. -/
theorem spares_finish (record : StoredRecord) : Spares S (m.finish record) :=
  m.along_finish (spares_remember _ _)

theorem spares_finishDeleted (record : StoredRecord) : Spares S (m.finishDeleted record) :=
  m.along_finishDeleted (spares_forget _)

end Model

/-- A write of a single model. -/
inductive Write (α : Type) where
  | create (x : α)
  | update (x : α)
  | delete (key : Key)

namespace Write

variable {α : Type} {m : Model α} {w : Write α} {a b : Adapter} {brought : StoredRecord} {e : Error}

/-- The write as an operation on models. -/
def run (m : Model α) : Write α → Action α
  | .create x => m.create x
  | .update x => m.update x
  | .delete key => m.delete key

/-- The write up to the record that it brings. -/
def record (m : Model α) : Write α → Action StoredRecord
  | .create x => do
    let attributes ← m.validAttributes x
    match ← m.assignKeys [attributes] with
    | (key, attributes) :: _ => Adapter.create m.schema.table key attributes
    | [] => throw (.keyMissing m.keyField)
  | .update x => do
    let attributes ← m.validAttributes x
    let key ← m.keyOf attributes
    let rev := m.revision? key (← get).revisions
    Adapter.update m.schema.table key attributes rev
  | .delete key => Adapter.delete m.schema.table key

/-- What is made of the record. -/
def settle (m : Model α) : Write α → StoredRecord → Action α
  | .create _ | .update _ => m.finish
  | .delete _ => m.finishDeleted

/-- A write makes its record and settles it. -/
theorem run_eq (m : Model α) (w : Write α) : w.run m = w.record m >>= w.settle m := by
  cases w with
  | create x =>
    simp only [run, record, settle, Model.create, bind_assoc]
    refine congrArg _ (funext fun attributes => congrArg _ (funext fun assigned => ?_))
    cases assigned <;> rfl
  | update x => simp only [run, record, settle, Model.update, bind_assoc]
  | delete key => rfl

/-- Until the record is there, nothing is remembered. -/
theorem quiet_record (m : Model α) (w : Write α) : Quiet (fun _ => True) (w.record m) := by
  cases w with
  | create x =>
    refine along_lift_bind fun attributes _ =>
      along_bind (m.quiet_assignKeys _) fun assigned _ => ?_
    cases assigned with
    | nil => exact along_throw _
    | cons entry rest => exact along_create fun _ _ _ _ => allows_passing_any _
  | update x =>
    exact along_lift_bind fun _ _ => along_lift_bind fun _ _ => along_bind along_get fun _ _ =>
      along_update fun _ _ _ _ _ _ => allows_passing_any _
  | delete key =>
    exact along_delete (fun _ _ => allows_passing_any _) fun _ _ _ => allows_passing_any _

/-- Until the record is there, only counters change. -/
theorem atomic_record (m : Model α) (w : Write α) : Atomic OutsideSequences (w.record m) := by
  cases w with
  | create x =>
    refine atomic_lift_bind fun attributes =>
      atomic_bind (Model.spares_assignKeys (fun _ => id) _) fun assigned => ?_
    cases assigned with
    | nil => exact atomic_throw _
    | cons entry rest => exact atomic_create
  | update x =>
    exact atomic_lift_bind fun _ => atomic_lift_bind fun _ =>
      atomic_bind along_get fun _ => atomic_update
  | delete key => exact atomic_delete

/-- Making a model of the record fails where its attributes cannot be read, and it makes no call. -/
theorem settle_eq (m : Model α) (w : Write α) (brought : StoredRecord) (a : Adapter) :
    ∃ b, w.settle m brought a = (m.ofAttributes brought.attributes, b) ∧
      b.documents = a.documents := by
  cases w with
  | create | update => exact ⟨_, m.finish_eq brought a, rfl⟩
  | delete => exact ⟨_, m.finishDeleted_eq brought a, rfl⟩

/-- A write whose record is not made ends there. -/
theorem run_of_record_error (hrecord : w.record m a = (.error e, b)) :
    w.run m a = (.error e, b) := by
  rw [run_eq]
  exact bind_of_error hrecord

/-- A settled write answers with its model and leaves the documents as the record did. -/
theorem run_of_record_ok (hrecord : w.record m a = (.ok brought, b)) :
    (w.run m a).1 = m.ofAttributes brought.attributes ∧
      (w.run m a).2.documents = b.documents := by
  obtain ⟨c, hsettle, hdocuments⟩ := w.settle_eq m brought b
  rw [run_eq, bind_of_ok hrecord, hsettle]
  exact ⟨rfl, hdocuments⟩

/-- A record that was brought was written under its id, and nothing else but counters was written
    before it. Its revision is held, unless the write was a deletion. -/
theorem record_eq_ok (hunstaged : a.Unstaged) (hrecord : w.record m a = (.ok brought, b)) :
    (∃ key, Identity.documentId m.schema.table key = .ok brought.id) ∧
      (∃ c, a.Undisturbed OutsideSequences c ∧ WritesUnder brought.id c b) ∧
      ((∀ key, w ≠ .delete key) → HoldsRecord b.documents brought) := by
  have hrefl : a.Undisturbed OutsideSequences a := Undisturbed.refl hunstaged
  cases w with
  | create x =>
    obtain ⟨attributes, _, hrest⟩ := lift_bind_eq_ok hrecord
    obtain ⟨assigned, c, hassign, hcreate⟩ := bind_eq_ok hrest
    have hspares : a.Undisturbed OutsideSequences (m.assignKeys [attributes] a).2 :=
      Model.spares_assignKeys (fun _ => id) _ a hunstaged
    rw [hassign] at hspares
    cases assigned with
    | nil => cases hcreate
    | cons entry rest =>
      obtain ⟨_, _, hwrites, hencloses⟩ := create_eq_ok hspares.unstaged hcreate
      exact ⟨⟨_, hencloses.id_eq⟩, ⟨c, hspares, hwrites⟩, fun _ => hencloses.holds⟩
  | update x =>
    obtain ⟨attributes, _, hrest⟩ := lift_bind_eq_ok hrecord
    obtain ⟨key, _, hupdate⟩ := lift_bind_eq_ok hrest
    rw [get_bind] at hupdate
    obtain ⟨_, _, hwrites, hencloses⟩ := update_eq_ok hunstaged hupdate
    exact ⟨⟨_, hencloses.id_eq⟩, ⟨a, hrefl, hwrites⟩, fun _ => hencloses.holds⟩
  | delete key =>
    obtain ⟨hid, hwrites⟩ := delete_eq_ok hunstaged hrecord
    exact ⟨⟨_, hid⟩, ⟨a, hrefl, hwrites⟩, fun hnot => absurd rfl (hnot key)⟩

end Write

end DocMapper
