import DocMapper.Proofs.Adapter.Actions
import DocMapper.Proofs.Adapter.Representation

/-!
# Adapters that serve a keyed map

What the calls of an adapter come to when its store represents a keyed map.
-/

namespace DocMapper

namespace MemoryStore

variable {s : MemoryStore} {doc : Document} {after : Dict Document} {receipt : WriteReceipt}
  {e : StoreError} {id rev : String}

theorem perform_digest (s : MemoryStore) (c : Call) : (s.perform c).2.digest = s.digest := by
  have hkeep : ∀ {α : Type} (result : Except StoreError (α × Dict Document)),
      ((s.count c.primitive).keepDocuments result).2.digest = s.digest := by
    intro α result
    cases result <;> rfl
  cases c with
  | insert doc => exact hkeep _
  | destroy id rev => exact hkeep _
  | bulk docs => exact hkeep _
  | createIndex request =>
    simp only [perform, effect]
    cases addIndex (s.count (Call.createIndex request).primitive).indexes request <;> rfl
  | _ => rfl

/-- An insertion that the store accepts is answered with its receipt. -/
theorem perform_insert_of_ok (hput : put s.digest s.documents doc = .ok (receipt, after)) :
    (s.perform (.insert doc)).1 = .ok receipt ∧
      (s.perform (.insert doc)).2.documents = after := by
  have hperform : s.perform (.insert doc) =
      (s.count .insert).keepDocuments (put s.digest s.documents doc) := rfl
  rw [hperform, hput]
  exact ⟨rfl, rfl⟩

/-- One that it refuses leaves the documents as they were. -/
theorem perform_insert_of_error (hput : put s.digest s.documents doc = .error e) :
    (s.perform (.insert doc)).1 = .error e ∧
      (s.perform (.insert doc)).2.documents = s.documents := by
  have hperform : s.perform (.insert doc) =
      (s.count .insert).keepDocuments (put s.digest s.documents doc) := rfl
  rw [hperform, hput]
  exact ⟨rfl, rfl⟩

/-- A deletion that the store accepts is answered with the receipt of the tombstone. -/
theorem perform_destroy_of_ok (hremove : remove s.digest s.documents id rev = .ok (receipt, after)) :
    (s.perform (.destroy id rev)).1 = .ok receipt ∧
      (s.perform (.destroy id rev)).2.documents = after := by
  have hperform : s.perform (.destroy id rev) =
      (s.count .destroy).keepDocuments (remove s.digest s.documents id rev) := rfl
  rw [hperform, hremove]
  exact ⟨rfl, rfl⟩

end MemoryStore

open MemoryStore KeyedMap

namespace Adapter

/-- The adapter knows the schema and stages no answers, and its store makes up revisions with the
    digest and represents the map. -/
structure Serves (digest : Option String → Document → UInt64) (schema : Schema) (m : KeyedMap)
    (a : Adapter) : Prop where
  unstaged : a.connection.staged = fun _ => []
  registered : a.registry.get? schema.table = some schema
  digest_eq : a.connection.store.digest = digest
  represents : Represents schema.table m a.documents

variable {digest : Option String → Document → UInt64} {schema : Schema} {m : KeyedMap}
  {a : Adapter} {doc : Document} {text rev : String}
  {attributes : Fields}

/-- An adapter goes on serving the map that its store represents after a call. -/
theorem Serves.served {after : KeyedMap} (hserves : Serves digest schema m a) (call : Call)
    (hrepresents : Represents schema.table after (a.served call).documents) :
    Serves digest schema after (a.served call) where
  unstaged := hserves.unstaged
  registered := hserves.registered
  digest_eq := (perform_digest a.connection.store call).trans hserves.digest_eq
  represents := hrepresents

/-- A document that goes over an accepted revision is kept with its next revision. -/
theorem Serves.ask_insert_of_accepts (hserves : Serves digest schema m a) (subject : Option String)
    (hid : doc.id? = some (recordId schema.table text)) (hdeleted : doc.isDeleted = false)
    (haccepts : Accepts a.documents (recordId schema.table text) doc.revision?) :
    let rev := Revision.text (Revision.generationOf (m.rev? text) + 1) (digest (m.rev? text) doc)
    ask subject (.insert doc) a =
        (.ok ⟨true, recordId schema.table text, rev⟩, a.served (.insert doc)) ∧
      (a.served (.insert doc)).documents = a.documents.insert (recordId schema.table text)
        (Dict.insert doc revisionField (.str rev)) := by
  have hcurrent := hserves.represents.currentRevision_eq text
  have hput := put_spec digest a.documents doc
  rcases hput with
    ⟨hnone, _⟩ | ⟨id, hsome, ⟨hrefuses, _⟩ | ⟨_, hyes, _, _⟩ | ⟨_, _, hok⟩⟩
  · rw [hid] at hnone
    cases hnone
  · cases hid.symm.trans hsome
    exact absurd haccepts hrefuses
  · rw [hdeleted] at hyes
    cases hyes
  · cases hid.symm.trans hsome
    rw [nextRevision, hcurrent, stored, hdeleted, ← hserves.digest_eq] at hok
    obtain ⟨hanswer, hdocuments⟩ := perform_insert_of_ok hok
    rw [← hserves.digest_eq]
    exact ⟨ask_of_ok hserves.unstaged hanswer, hdocuments⟩

/-- A document that does not is refused with a conflict. -/
theorem Serves.ask_insert_of_not_accepts (hserves : Serves digest schema m a)
    (subject : Option String) (hid : doc.id? = some (recordId schema.table text))
    (hrefuses : ¬Accepts a.documents (recordId schema.table text) doc.revision?) :
    ask subject (.insert doc) a = (.error (.store subject .conflict), a.served (.insert doc)) ∧
      Serves digest schema m (a.served (.insert doc)) := by
  rcases put_spec digest a.documents doc with
    ⟨hnone, _⟩ | ⟨id, hsome, ⟨_, herror⟩ | ⟨haccepts, _⟩ | ⟨haccepts, _⟩⟩
  · rw [hid] at hnone
    cases hnone
  · rw [← hserves.digest_eq] at herror
    obtain ⟨hanswer, hdocuments⟩ := perform_insert_of_error herror
    refine ⟨ask_of_error hserves.unstaged hanswer, hserves.served _ ?_⟩
    have hsame : (a.served (.insert doc)).documents = a.documents := hdocuments
    rw [hsame]
    exact hserves.represents
  · cases hid.symm.trans hsome
    exact absurd haccepts hrefuses
  · cases hid.symm.trans hsome
    exact absurd haccepts hrefuses

/-- Looking a document up does not change what is served. -/
theorem Serves.served_get (hserves : Serves digest schema m a) (id : String) :
    Serves digest schema m (a.served (.get id)) :=
  hserves.served _ hserves.represents

/-- A live entry is answered with the document that keeps it. -/
theorem Serves.ask_get_of_live (hserves : Serves digest schema m a) (subject : Option String)
    (hlive : m.live? text = some (rev, attributes)) :
    ask subject (.get (recordId schema.table text)) a =
      (.ok (Document.kept schema.table (recordId schema.table text) attributes rev),
        a.served (.get (recordId schema.table text))) :=
  ask_of_ok hserves.unstaged (hserves.represents.lookUp_of_live hlive)

/-- An entry that is deleted or was never there is not found. -/
theorem Serves.ask_get_of_not_live (hserves : Serves digest schema m a) (subject : Option String)
    (hlive : m.live? text = none) :
    ∃ reason, ask subject (.get (recordId schema.table text)) a =
      (.error (.store subject (.notFound reason)),
        a.served (.get (recordId schema.table text))) := by
  obtain ⟨reason, hlookUp⟩ := lookUp_of_not_isLive (hserves.represents.not_isLive hlive)
  exact ⟨reason, ask_of_error hserves.unstaged hlookUp⟩

/-- A live entry is deleted under its own revision, and the deletion gets the next one. -/
theorem Serves.ask_destroy (hserves : Serves digest schema m a) (subject : Option String)
    (hlive : m.live? text = some (rev, attributes)) :
    let id := recordId schema.table text
    let issued := Revision.text (Revision.generationOf (some rev) + 1)
      (digest (some rev) (tombstone id rev))
    ask subject (.destroy id rev) a = (.ok ⟨true, id, issued⟩, a.served (.destroy id rev)) ∧
      (a.served (.destroy id rev)).documents = a.documents.insert id (tombstone id issued) := by
  have hcurrent : currentRevision a.documents (recordId schema.table text) = some rev := by
    rw [hserves.represents.currentRevision_eq, rev?, live?_eq_some_iff.mp hlive]
    rfl
  have hislive := hserves.represents.isLive hlive
  rcases remove_spec digest a.documents (recordId schema.table text) rev with
    ⟨_, hremove⟩ | ⟨hnot, _⟩
  · rcases put_tombstone_spec digest a.documents (recordId schema.table text) rev with
      ⟨_, hok⟩ | ⟨hstale, _⟩
    · rw [← hremove, nextRevision, hcurrent, ← hserves.digest_eq] at hok
      obtain ⟨hanswer, hdocuments⟩ := perform_destroy_of_ok hok
      rw [← hserves.digest_eq]
      exact ⟨ask_of_ok hserves.unstaged hanswer, hdocuments⟩
    · exact absurd hcurrent hstale
  · exact absurd hislive hnot

end Adapter

end DocMapper
