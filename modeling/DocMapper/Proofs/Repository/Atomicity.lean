import DocMapper.Model.Plain
import DocMapper.Proofs.Repository.Writes

/-!
# Failed writes

A write of a single model that fails has changed nothing but a counter, as long as its record was
not there yet. Once it is there the write is done, and if no model can be made of the record, the
error comes too late.
-/

namespace DocMapper

open DocMapper.Action Adapter MemoryStore

namespace Write

variable {α : Type} {m : Model α} {w : Write α} {a b : Adapter} {brought : StoredRecord} {e : Error}

/-- A record that was brought was written: the document under its id is another one than before,
    unless it is a counter. -/
theorem record_changes (hunstaged : a.Unstaged) (hrecord : w.record m a = (.ok brought, b))
    (houtside : ∀ key id, Identity.documentId m.schema.table key = .ok id → OutsideSequences id) :
    OutsideSequences brought.id ∧ b.documents.get? brought.id ≠ a.documents.get? brought.id := by
  obtain ⟨⟨key, hkey⟩, ⟨c, hundisturbed, hwrites⟩, _⟩ := record_eq_ok hunstaged hrecord
  have hid := houtside key _ hkey
  refine ⟨hid, ?_⟩
  rw [← hundisturbed.get?_eq _ hid]
  exact hwrites.get?_ne

/-- A write that fails has changed no document but counters, provided that a model can be made of
    the record that it brings, if it brings one. Where the table is apart from the counters, this is
    the only case: a write that brings a record and fails has changed the document of the record. -/
theorem failed_write_atomic_iff_readable (m : Model α) (w : Write α) (hunstaged : a.Unstaged)
    (hfails : (w.run m a).1 = .error e) :
    ((∀ brought b, w.record m a = (.ok brought, b) →
        ∃ x, m.decode (.obj brought.attributes) = .ok x) →
      ∀ id, OutsideSequences id →
        (w.run m a).2.documents.get? id = a.documents.get? id) ∧
    ((∀ key id, Identity.documentId m.schema.table key = .ok id → OutsideSequences id) →
      (∀ id, OutsideSequences id → (w.run m a).2.documents.get? id = a.documents.get? id) →
        ∀ brought b, w.record m a ≠ (.ok brought, b)) := by
  refine ⟨fun hreads id hid => ?_, fun houtside hsame brought b hrecord => ?_⟩
  · rcases hrecord : w.record m a with ⟨given | brought, b⟩
    · rw [run_of_record_error hrecord]
      exact w.atomic_record m a b given hunstaged hrecord id hid
    · -- The record can be read, so the write does not fail.
      obtain ⟨x, hdecode⟩ := hreads brought b hrecord
      have hok : m.ofAttributes brought.attributes = .ok x := by
        rw [Model.ofAttributes, hdecode]
      rw [(run_of_record_ok hrecord).1, hok] at hfails
      cases hfails
  · obtain ⟨hid, hchanged⟩ := record_changes hunstaged hrecord houtside
    rw [← (run_of_record_ok hrecord).2] at hchanged
    exact hchanged (hsame brought.id hid)

end Write

/-- Models that have to have a name. -/
def namedModel : Model Json :=
  .plain { table := "t", primaryKey := ⟨"id", .text, none⟩ } ["name"] []

/-- A document of the table that has no name, as the store holds it. -/
def unnamed : Document := [("??table", .str "t"), ("_id", .str "t__1"), ("_rev", .str "1-a"),
  ("color", .str "red")]

/-- An adapter for a store that holds the document without a name. -/
def unnamedStored : Adapter :=
  Adapter.ofStore { fresh (fun _ _ => 0) with documents := [("t__1", unnamed)] } {}

/-- A creation that meets a live document fails and changes nothing. -/
theorem failed_write_atomic_iff_readable_unnamedStored :
    ((Write.create (.obj [("id", .str "1"), ("name", .str "a")])).run namedModel
        unnamedStored).1 = .error (.store (some "t__1") .conflict) ∧
      ∀ id, OutsideSequences id →
        ((Write.create (.obj [("id", .str "1"), ("name", .str "a")])).run namedModel
          unnamedStored).2.documents.get? id = unnamedStored.documents.get? id := by
  have hfails : ((Write.create (.obj [("id", .str "1"), ("name", .str "a")])).run namedModel
      unnamedStored).1 = .error (.store (some "t__1") .conflict) := by rfl
  have hrecord : ((Write.create (.obj [("id", .str "1"), ("name", .str "a")])).record namedModel
      unnamedStored).1 = .error (.store (some "t__1") .conflict) := by rfl
  obtain ⟨hatomic, _⟩ :=
    Write.failed_write_atomic_iff_readable (a := unnamedStored) namedModel _ rfl hfails
  refine ⟨hfails, hatomic fun brought b hbrought => ?_⟩
  rw [hbrought] at hrecord
  cases hrecord

/-- The deletion of a document that has no name fails, since no model can be made of it, but the
    document is gone. -/
theorem document_lost_by_failed_delete :
    ((Write.delete (.text "1")).run namedModel unnamedStored).1 =
        .error (.serialization "missing field \x60name\x60") ∧
      OutsideSequences "t__1" ∧
      unnamedStored.documents.get? "t__1" = some unnamed ∧
      ((Write.delete (.text "1")).run namedModel unnamedStored).2.documents.get? "t__1" =
        some (tombstone "t__1" (Revision.text 2 0)) := by
  refine ⟨rfl, outsideSequences_of_head (by decide), rfl, ?_⟩
  decide +kernel

end DocMapper
