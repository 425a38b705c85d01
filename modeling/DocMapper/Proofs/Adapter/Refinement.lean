import DocMapper.Proofs.Adapter.Service

/-!
# Adapters refine keyed maps

Each operation on records answers what the keyed map answers, and leaves a store that represents
what the map becomes; so does every run of operations.
-/

namespace DocMapper

open MemoryStore KeyedMap Adapter

namespace RecordCall

/-- The operation answers what it answers on the map, up to the wording of errors, and the adapter
    serves what becomes of the map. -/
structure Refines (digest : Option String → Document → UInt64) (schema : Schema) (m : KeyedMap)
    (a : Adapter) (call : RecordCall) : Prop where
  answer_eq : (call.perform schema.table a).1.mapError Error.kind =
    (m.step schema (issued digest schema.table) call).1
  serves : Serves digest schema (m.step schema (issued digest schema.table) call).2
    (call.perform schema.table a).2

variable {digest : Option String → Document → UInt64} {schema : Schema} {m : KeyedMap}
  {a : Adapter} {key : Key} {attributes : Fields} {rev : String}

/-- The id of a record is its table and its key, where the table has no separator. -/
theorem documentId_eq (hseparator : Text.contains separator schema.table = false) (key : Key) :
    Identity.documentId schema.table key = .ok (recordId schema.table key.toText) := by
  have hnot : ¬Text.contains separator schema.table = true := by rw [hseparator]; decide
  rw [Identity.documentId, if_neg hnot]
  rfl

/-- A call refines a step of the map if it has the answer of the step and its store goes on
    representing the map. -/
theorem refines_of_eq {call : RecordCall} {answer : Except Error StoredRecord} {after : Adapter}
    {m' : KeyedMap} (hperform : call.perform schema.table a = (answer, after))
    (hstep : m.step schema (issued digest schema.table) call = (answer.mapError Error.kind, m'))
    (hserves : Serves digest schema m' after) : Refines digest schema m a call where
  answer_eq := by rw [hperform, hstep]
  serves := by
    rw [hperform, hstep]
    exact hserves

/-- What an operation comes to that writes a document and answers with the receipt. -/
def Writes (schema : Schema) (key : Key) (attributes : Fields) (doc : Document) (call : RecordCall)
    (a : Adapter) : Prop :=
  call.perform schema.table a = (do
    let receipt ← ask (some (recordId schema.table key.toText)) (.insert doc)
    return ⟨recordId schema.table key.toText, key, receipt.rev, attributes⟩ :
      Action StoredRecord) a

section Writing

variable {doc : Document} {call : RecordCall} (hserves : Serves digest schema m a)
  (hwrites : Writes schema key attributes doc call a)
  (hdocid : doc.id? = some (recordId schema.table key.toText))

include hserves hwrites hdocid

/-- A write over an accepted revision brings the record to the next revision. -/
theorem refines_of_accepts
    (haccepts : Accepts a.documents (recordId schema.table key.toText) doc.revision?)
    (hdeleted : doc.isDeleted = false) (hreserves : Document.reserves attributes = false)
    (hkept : ∀ rev, Dict.insert doc revisionField (.str rev) =
      Document.kept schema.table (recordId schema.table key.toText) attributes rev)
    (hstep : m.step schema (issued digest schema.table) call = m.write schema key attributes
      (Revision.text (Revision.generationOf (m.rev? key.toText) + 1)
        (digest (m.rev? key.toText) doc))) :
    Refines digest schema m a call := by
  obtain ⟨hask, hdocuments⟩ := hserves.ask_insert_of_accepts
    (some (recordId schema.table key.toText)) hdocid hdeleted haccepts
  refine refines_of_eq (hwrites.trans (bind_of_ok hask)) hstep (hserves.served _ ?_)
  rw [hdocuments, hkept]
  refine hserves.represents.set key.toText ?_
  intro found hfound
  cases hfound
  exact hreserves

/-- A write over any other revision changes nothing. -/
theorem refines_of_not_accepts
    (hrefuses : ¬Accepts a.documents (recordId schema.table key.toText) doc.revision?)
    (hstep : m.step schema (issued digest schema.table) call = (.error .conflict, m)) :
    Refines digest schema m a call := by
  obtain ⟨hask, hafter⟩ := hserves.ask_insert_of_not_accepts
    (some (recordId schema.table key.toText)) hdocid hrefuses
  exact refines_of_eq (hwrites.trans (bind_of_error hask)) hstep hafter

end Writing

/-- Creating an entry is creating a record. -/
theorem create_refines (hserves : Serves digest schema m a)
    (hseparator : Text.contains separator schema.table = false) :
    Refines digest schema m a (.create key attributes) := by
  have hid := documentId_eq hseparator key
  cases hreserves : Document.reserves attributes with
  | true =>
    obtain ⟨name, herror⟩ := Document.enclose_of_reserves schema.table
      (recordId schema.table key.toText) hreserves
    have hperform : (RecordCall.create key attributes).perform schema.table a =
        (.error (.attributeReserved name schema.table), a) := by
      rw [perform, Adapter.create, hid, lift_ok_bind, herror, lift_error_bind]
    refine refines_of_eq hperform ?_ hserves
    rw [step, hreserves]
    rfl
  | false =>
    have henclose := Document.enclose_of_not_reserves schema.table
      (recordId schema.table key.toText) hreserves
    have hwrites : Writes schema key attributes (Document.enclosed schema.table
        (recordId schema.table key.toText) attributes) (.create key attributes) a := by
      rw [Writes, perform, Adapter.create, hid, lift_ok_bind, henclose, lift_ok_bind]
    cases hlive : m.live? key.toText with
    | none =>
      refine refines_of_accepts hserves hwrites (Document.id?_enclosed hreserves) ?_
        (Document.isDeleted_enclosed hreserves) hreserves (fun _ => rfl) ?_
      · rw [Document.revision?_enclosed hreserves]
        exact hserves.represents.not_isLive hlive
      · rw [step, hreserves, hlive]
        rfl
    | some live =>
      refine refines_of_not_accepts hserves hwrites (Document.id?_enclosed hreserves) ?_ ?_
      · rw [Document.revision?_enclosed hreserves]
        exact not_not_intro (hserves.represents.isLive hlive)
      · rw [step, hreserves, hlive]
        rfl

/-- Replacing an entry over its revision is updating a record. -/
theorem update_refines {rev : Option String} (hserves : Serves digest schema m a)
    (hseparator : Text.contains separator schema.table = false) :
    Refines digest schema m a (.update key attributes rev) := by
  have hid := documentId_eq hseparator key
  cases rev with
  | none =>
    have hperform : (RecordCall.update key attributes none).perform schema.table a =
        (.error (.revisionMissing key.toText), a) := rfl
    exact refines_of_eq hperform rfl hserves
  | some rev =>
    cases hreserves : Document.reserves attributes with
    | true =>
      obtain ⟨name, herror⟩ := Document.enclose_of_reserves schema.table
        (recordId schema.table key.toText) hreserves
      have hperform : (RecordCall.update key attributes (some rev)).perform schema.table a =
          (.error (.attributeReserved name schema.table), a) := by
        rw [perform, Adapter.update, hid, lift_ok_bind, herror, lift_error_bind]
      refine refines_of_eq hperform ?_ hserves
      rw [step, hreserves]
      rfl
    | false =>
      have henclose := Document.enclose_of_not_reserves schema.table
        (recordId schema.table key.toText) hreserves
      have hwrites : Writes schema key attributes (Document.kept schema.table
          (recordId schema.table key.toText) attributes rev) (.update key attributes (some rev))
          a := by
        rw [Writes, perform, Adapter.update, hid, lift_ok_bind, henclose, lift_ok_bind]
        rfl
      have hcurrent := hserves.represents.currentRevision_eq key.toText
      by_cases hlatest : m.rev? key.toText = some rev
      · refine refines_of_accepts hserves hwrites (Document.id?_kept hreserves) ?_
          (Document.isDeleted_kept hreserves) hreserves Document.insert_revision_kept ?_
        · rw [Document.revision?_kept, Accepts, hcurrent]
          exact hlatest
        · rw [step, hreserves, if_pos hlatest]
          rfl
      · refine refines_of_not_accepts hserves hwrites (Document.id?_kept hreserves) ?_ ?_
        · rw [Document.revision?_kept, Accepts, hcurrent]
          exact hlatest
        · rw [step, hreserves, if_neg hlatest]
          rfl

/-- What is read of a document that keeps attributes are these attributes. -/
theorem recordOf_kept (key : Key) (rev : String) (hserves : Serves digest schema m a)
    (hseparator : Text.contains separator schema.table = false)
    (hreserves : Document.reserves attributes = false) :
    (liftM (recordOf a.registry schema.table key (Document.kept schema.table
      (recordId schema.table key.toText) attributes rev)) : Action StoredRecord) a =
        (.ok (shown schema key rev attributes), a) := by
  have hrevision : (Document.kept schema.table (recordId schema.table key.toText) attributes
      rev).revision = .ok rev := by
    rw [Document.revision, Document.revision?_kept]
  rw [recordOf, documentId_eq hseparator, hrevision, attributesOf, hserves.registered]
  simp only [Document.restore_kept _ _ hreserves]
  rfl

/-- Looking an entry up is reading a record. -/
theorem read_refines (hserves : Serves digest schema m a)
    (hseparator : Text.contains separator schema.table = false) :
    Refines digest schema m a (.read key) := by
  have hid := documentId_eq hseparator key
  have hafter := hserves.served_get (recordId schema.table key.toText)
  have hread : (RecordCall.read key).perform schema.table a = (do
      let doc ← ask (some (recordId schema.table key.toText))
        (.get (recordId schema.table key.toText))
      recordOf (← get).registry schema.table key doc : Action StoredRecord) a := by
    rw [perform, Adapter.read, hid, lift_ok_bind]
  cases hlive : m.live? key.toText with
  | none =>
    obtain ⟨reason, hask⟩ := hserves.ask_get_of_not_live
      (some (recordId schema.table key.toText)) hlive
    refine refines_of_eq (hread.trans (bind_of_error hask)) ?_ hafter
    rw [step, hlive]
    rfl
  | some live =>
    obtain ⟨rev, attributes⟩ := live
    have hask := hserves.ask_get_of_live (some (recordId schema.table key.toText)) hlive
    have hrecord := recordOf_kept key rev hafter hseparator
      (hserves.represents.not_reserves_of_live hlive)
    refine refines_of_eq (hread.trans ((bind_of_ok hask).trans ((get_bind _).trans hrecord))) ?_
      hafter
    rw [step, hlive]
    rfl

/-- Deleting an entry is deleting a record, which leaves a tombstone. -/
theorem delete_refines (hserves : Serves digest schema m a)
    (hseparator : Text.contains separator schema.table = false) :
    Refines digest schema m a (.delete key) := by
  have hid := documentId_eq hseparator key
  have hafter := hserves.served_get (recordId schema.table key.toText)
  have hdelete : (RecordCall.delete key).perform schema.table a = (do
      let doc ← ask (some (recordId schema.table key.toText))
        (.get (recordId schema.table key.toText))
      let record ← recordOf (← get).registry schema.table key doc
      let _ ← ask (some (recordId schema.table key.toText))
        (.destroy (recordId schema.table key.toText) record.rev)
      return record : Action StoredRecord) a := by
    rw [perform, Adapter.delete, hid, lift_ok_bind]
  cases hlive : m.live? key.toText with
  | none =>
    obtain ⟨reason, hask⟩ := hserves.ask_get_of_not_live
      (some (recordId schema.table key.toText)) hlive
    refine refines_of_eq (hdelete.trans (bind_of_error hask)) ?_ hafter
    rw [step, hlive]
    rfl
  | some live =>
    obtain ⟨rev, attributes⟩ := live
    have hrev : m.rev? key.toText = some rev := by
      rw [rev?, live?_eq_some_iff.mp hlive]
      rfl
    have hask := hserves.ask_get_of_live (some (recordId schema.table key.toText)) hlive
    have hrecord := recordOf_kept key rev hafter hseparator
      (hserves.represents.not_reserves_of_live hlive)
    obtain ⟨hdestroy, hdocuments⟩ := hafter.ask_destroy
      (some (recordId schema.table key.toText)) hlive
    -- The revision that was read is still current when the document is destroyed.
    have hdeleted : Serves digest schema
        (m.set key.toText ⟨issued digest schema.table (some rev) (.delete key), none⟩)
        ((a.served (.get (recordId schema.table key.toText))).served
          (.destroy (recordId schema.table key.toText) rev)) := by
      refine hafter.served _ ?_
      rw [hdocuments]
      refine hafter.represents.set key.toText ?_
      intro attributes hattributes
      cases hattributes
    refine refines_of_eq (hdelete.trans ((bind_of_ok hask).trans ((get_bind _).trans
      ((bind_of_ok hrecord).trans (bind_of_ok hdestroy))))) ?_ hdeleted
    rw [step, hlive, hrev]
    rfl

/-- Every operation answers as on the map, and the adapter goes on serving the map. -/
theorem perform_refines (call : RecordCall) (hserves : Serves digest schema m a)
    (hseparator : Text.contains separator schema.table = false) :
    Refines digest schema m a call := by
  cases call with
  | create key attributes => exact create_refines hserves hseparator
  | read key => exact read_refines hserves hseparator
  | update key attributes rev => exact update_refines hserves hseparator
  | delete key => exact delete_refines hserves hseparator

/-- Calls in turn answer as the steps of the map in turn do. -/
theorem performAll_refines (calls : List RecordCall) (hserves : Serves digest schema m a)
    (hseparator : Text.contains separator schema.table = false) :
    (performAll schema.table calls a).1.map (Except.mapError Error.kind) =
        (m.run schema (issued digest schema.table) calls).1 ∧
      Serves digest schema (m.run schema (issued digest schema.table) calls).2
        (performAll schema.table calls a).2 := by
  induction calls generalizing m a with
  | nil => exact ⟨rfl, hserves⟩
  | cons call rest ih =>
    obtain ⟨hanswer, hafter⟩ := perform_refines call hserves hseparator
    obtain ⟨hanswers, hreached⟩ := ih hafter
    exact ⟨List.cons_eq_cons.mpr ⟨hanswer, hanswers⟩, hreached⟩

end RecordCall

end DocMapper
