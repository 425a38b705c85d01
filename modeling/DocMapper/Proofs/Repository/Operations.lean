import DocMapper.Proofs.Adapter.Held
import DocMapper.Proofs.Repository.Walk

/-!
# Operations of repositories

Every operation on models is heedful: it remembers a revision only where the store holds it.
-/

namespace DocMapper

open DocMapper.Action Adapter

namespace Model

variable {α : Type} {record : StoredRecord} {H : String → String → Prop}

/-- A record that the store holds may be remembered on the way to its model. -/
theorem notes_finish (m : Model α) (hheld : H record.id record.rev) : Notes H (m.finish record) :=
  m.along_finish (notes_remember hheld)

theorem notes_finishDeleted (m : Model α) (record : StoredRecord) :
    Notes H (m.finishDeleted record) :=
  m.along_finishDeleted (notes_forget _)

/-- Finishing records the revision whether or not the attributes make a model. -/
theorem finish_eq (m : Model α) (record : StoredRecord) (a : Adapter) :
    m.finish record a = (m.ofAttributes record.attributes,
      { a with revisions := a.revisions.record record.id record.rev }) := by
  have hfinish : m.finish record a = (liftM (m.ofAttributes record.attributes) : Action α)
      { a with revisions := a.revisions.record record.id record.rev } := rfl
  rw [hfinish]
  cases m.ofAttributes record.attributes <;> rfl

/-- A deleted record is decoded from what it carried, and its id is forgotten. -/
theorem finishDeleted_eq (m : Model α) (record : StoredRecord) (a : Adapter) :
    m.finishDeleted record a = (m.ofAttributes record.attributes,
      { a with revisions := a.revisions.forget record.id }) := by
  have hfinish : m.finishDeleted record a = (liftM (m.ofAttributes record.attributes) : Action α)
      { a with revisions := a.revisions.forget record.id } := rfl
  rw [hfinish]
  cases m.ofAttributes record.attributes <;> rfl

/-- The remembered revision of a key is that of its id. -/
theorem revision?_eq {m : Model α} {key : Key} {id : String}
    (hid : Identity.documentId m.schema.table key = .ok id) (table : RevisionTable) :
    m.revision? key table = table.get? id := by
  rw [revision?, hid]

/-- Assigning keys remembers nothing, whatever calls it takes. -/
theorem quiet_assignKeys (m : Model α) (batch : List Fields) :
    Quiet (fun _ => True) (m.assignKeys batch) :=
  m.along_assignKeys (fun _ _ _ => allows_passing_any _) batch

/-- What creating remembers is the record that the store has just written. -/
theorem heedful_create (m : Model α) (x : α) : Heedful (m.create x) := by
  refine heedful_bind_of_quiet (along_lift _) fun attributes =>
    heedful_bind_of_quiet (m.quiet_assignKeys _) fun assigned => ?_
  cases assigned with
  | nil => exact heedful_of_quiet (along_throw _)
  | cons entry rest =>
    exact heedful_bind_of_notes (Action.along_create fun _ _ _ _ => allows_passing_any _)
      (brings_create _ _ _) fun _ _ hheld => m.notes_finish hheld

/-- The accepted documents of a batch are remembered, and no others. -/
theorem heedful_createAll (m : Model α) (xs : List α) : Heedful (m.createAll xs) :=
  heedful_bind_of_quiet (along_lift _) fun _ =>
    heedful_bind_of_quiet (m.quiet_assignKeys _) fun _ =>
      heedful_bind_of_notes (Action.along_createAll fun _ _ _ => allows_passing_any _)
        (brings_createAll _ _ _)
        fun _ _ hheld => along_mapM fun record hmem => m.notes_finish (hheld record hmem)

/-- Reading remembers the record that it was answered with. -/
theorem heedful_read (m : Model α) (key : Key) : Heedful (m.read key) :=
  heedful_bind_of_notes (Action.along_read fun _ _ => allows_passing_any _) (brings_read _ _)
    fun _ _ hheld => m.notes_finish hheld

theorem heedful_readAll (m : Model α) (keys : List Key) : Heedful (m.readAll keys) :=
  heedful_bind_of_notes (Action.along_readAll fun _ => allows_passing_any _) (brings_readAll _ _)
    fun _ _ hheld => along_mapM fun record hmem => m.notes_finish (hheld record hmem)

/-- What updating remembers is the record that the store has just written. -/
theorem heedful_update (m : Model α) (x : α) : Heedful (m.update x) :=
  heedful_bind_of_quiet (along_lift _) fun _ => heedful_bind_of_quiet (along_lift _) fun _ =>
    heedful_bind_of_quiet along_get fun _ =>
      heedful_bind_of_notes (Action.along_update fun _ _ _ _ _ _ => allows_passing_any _)
        (brings_update _ _ _ _) fun _ _ hheld => m.notes_finish hheld

/-- The revisions that a batch is written over are those that its adapter remembers. -/
theorem heedful_updateAll (m : Model α) (xs : List α) : Heedful (m.updateAll xs) :=
  heedful_bind_of_quiet (along_lift _) fun _ => heedful_bind_of_quiet (along_lift _) fun _ =>
    heedful_bind_of_quiet along_get fun a =>
      heedful_bind_of_notes (Action.along_updateAll fun _ _ _ _ _ => allows_passing_any _)
        (brings_updateAll _ _ _ fun _ _ hid => revision?_eq hid a.revisions)
        fun _ _ hheld => along_mapM fun record hmem => m.notes_finish (hheld record hmem)

/-- After a deletion there is nothing to remember. -/
theorem heedful_delete (m : Model α) (key : Key) : Heedful (m.delete key) :=
  heedful_bind_of_notes (Q := fun _ _ => True)
    (Action.along_delete (fun _ _ => allows_passing_any _) fun _ _ _ => allows_passing_any _)
    (fun _ _ _ _ _ _ => trivial) fun _ record _ => m.notes_finishDeleted record

theorem heedful_deleteAll (m : Model α) (keys : List Key) : Heedful (m.deleteAll keys) :=
  heedful_bind_of_notes (Q := fun _ _ => True)
    (Action.along_deleteAll (fun _ => allows_passing_any _) fun _ => allows_passing_any _)
    (fun _ _ _ _ _ _ => trivial)
    fun _ _ _ => along_mapM fun record _ => m.notes_finishDeleted record

end Model

end DocMapper
