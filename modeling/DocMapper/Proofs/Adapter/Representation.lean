import DocMapper.Proofs.Adapter.KeyedMap

/-!
# Documents that represent a keyed map

Every entry of the map is one document, under the id that the table and the key make, and there
are no others. So the documents are known wherever the map is.
-/

namespace DocMapper.KeyedMap

open MemoryStore

/-- The document that the store holds for an entry. -/
def Entry.document (table text : String) : Entry → Document
  | ⟨rev, none⟩ => tombstone (recordId table text) rev
  | ⟨rev, some attributes⟩ => Document.kept table (recordId table text) attributes rev

/-- The documents are those of the entries. No entry has attributes with names of the store. -/
structure Represents (table : String) (m : KeyedMap) (documents : Dict Document) : Prop where
  get?_eq : ∀ text, documents.get? (recordId table text) = (m text).map (Entry.document table text)
  foreign : ∀ id, (∀ text, id ≠ recordId table text) → documents.get? id = none
  unreserved : ∀ text entry attributes, m text = some entry →
    entry.attributes = some attributes → Document.reserves attributes = false

variable {table text rev : String} {m m' : KeyedMap} {documents after : Dict Document}
  {attributes : Fields} {entry : Entry}

/-- Ids of one table differ where their keys do. -/
theorem recordId_inj {other : String} (heq : recordId table text = recordId table other) :
    text = other := by
  unfold recordId at heq
  exact (String.append_right_inj _).mp heq

theorem live?_eq_some_iff : m.live? text = some (rev, attributes) ↔
    m text = some ⟨rev, some attributes⟩ := by
  unfold live?
  cases hentry : m text with
  | none => simp
  | some entry =>
    obtain ⟨entryRev, entryAttributes⟩ := entry
    cases entryAttributes <;> simp

/-- An empty store represents the empty map. -/
theorem represents_empty (table : String) : Represents table empty [] where
  get?_eq := fun _ => rfl
  foreign := fun _ _ => rfl
  unreserved := fun _ _ _ hentry => by cases hentry

/-- A written entry is represented by the document written for it. -/
theorem Represents.set (hrepresents : Represents table m documents) (text : String)
    (hentry : ∀ attributes, entry.attributes = some attributes →
      Document.reserves attributes = false) :
    Represents table (m.set text entry)
      (documents.insert (recordId table text) (entry.document table text)) where
  get?_eq := by
    intro other
    unfold KeyedMap.set
    by_cases heq : other = text
    · subst heq
      rw [if_pos rfl, Dict.get?_insert_self]
      rfl
    · have hne : recordId table text ≠ recordId table other := fun hid =>
        heq (recordId_inj hid).symm
      rw [if_neg heq, Dict.get?_insert_of_ne _ _ hne, hrepresents.get?_eq]
  foreign := by
    intro id hid
    rw [Dict.get?_insert_of_ne _ _ (hid text).symm, hrepresents.foreign id hid]
  unreserved := by
    intro other found attributes hfound hattributes
    unfold KeyedMap.set at hfound
    by_cases heq : other = text
    · rw [if_pos heq] at hfound
      cases hfound
      exact hentry attributes hattributes
    · rw [if_neg heq] at hfound
      exact hrepresents.unreserved other found attributes hfound hattributes

/-- The current revision of a document is that of its entry, be it live or deleted. -/
theorem Represents.currentRevision_eq (hrepresents : Represents table m documents)
    (text : String) : currentRevision documents (recordId table text) = m.rev? text := by
  rw [currentRevision, hrepresents.get?_eq, rev?]
  cases m text with
  | none => rfl
  | some entry =>
    obtain ⟨entryRev, entryAttributes⟩ := entry
    cases entryAttributes with
    | none => rfl
    | some attributes => exact Document.revision?_kept

/-- A live entry is kept in its document. -/
theorem Represents.get?_of_live (hrepresents : Represents table m documents)
    (hlive : m.live? text = some (rev, attributes)) :
    documents.get? (recordId table text) =
      some (Document.kept table (recordId table text) attributes rev) := by
  rw [hrepresents.get?_eq, live?_eq_some_iff.mp hlive]
  rfl

theorem Represents.not_reserves_of_live (hrepresents : Represents table m documents)
    (hlive : m.live? text = some (rev, attributes)) : Document.reserves attributes = false :=
  hrepresents.unreserved text _ attributes (live?_eq_some_iff.mp hlive) rfl

theorem Represents.isLive (hrepresents : Represents table m documents)
    (hlive : m.live? text = some (rev, attributes)) : IsLive documents (recordId table text) :=
  ⟨_, hrepresents.get?_of_live hlive,
    Document.isDeleted_kept (hrepresents.not_reserves_of_live hlive)⟩

/-- What is not live under its key is a tombstone or no document at all. -/
theorem Represents.not_isLive (hrepresents : Represents table m documents)
    (hlive : m.live? text = none) : ¬IsLive documents (recordId table text) := by
  rintro ⟨doc, hget, hdeleted⟩
  rw [hrepresents.get?_eq] at hget
  cases hentry : m text with
  | none =>
    rw [hentry] at hget
    cases hget
  | some entry =>
    obtain ⟨entryRev, entryAttributes⟩ := entry
    rw [hentry] at hget
    cases entryAttributes with
    | none =>
      cases hget
      cases hdeleted
    | some attributes =>
      rw [live?_eq_some_iff.mpr hentry] at hlive
      cases hlive

/-- A live entry is found. -/
theorem Represents.lookUp_of_live (hrepresents : Represents table m documents)
    (hlive : m.live? text = some (rev, attributes)) :
    lookUp documents (recordId table text) =
      .ok (Document.kept table (recordId table text) attributes rev) := by
  have hdeleted : (Document.kept table (recordId table text) attributes rev).isDeleted = false :=
    Document.isDeleted_kept (hrepresents.not_reserves_of_live hlive)
  rw [lookUp, hrepresents.get?_of_live hlive]
  simp only [hdeleted]
  rfl

/-- What is not live is not found. -/
theorem lookUp_of_not_isLive {id : String} (hlive : ¬IsLive documents id) :
    ∃ reason, lookUp documents id = .error (.notFound reason) := by
  rcases remove_spec (fun _ _ => 0) documents id "" with ⟨hyes, _⟩ | ⟨_, reason, hlookUp, _⟩
  · exact absurd hyes hlive
  · exact ⟨reason, hlookUp⟩

/-- Two maps with the same entry for an id have the same document for it. -/
theorem Represents.get?_congr (hrepresents : Represents table m documents)
    (hafter : Represents table m' after) {id : String}
    (hsame : ∀ text, id = recordId table text → m' text = m text) :
    after.get? id = documents.get? id := by
  by_cases hid : ∃ text, id = recordId table text
  · obtain ⟨text, rfl⟩ := hid
    rw [hafter.get?_eq, hrepresents.get?_eq, hsame text rfl]
  · have hforeign : ∀ text, id ≠ recordId table text := fun text heq => hid ⟨text, heq⟩
    rw [hafter.foreign id hforeign, hrepresents.foreign id hforeign]

/-- The fields of the store in a document are the store's: they say what the map says, whatever
    attributes were written. -/
theorem Represents.fields_eq (hrepresents : Represents table m documents) {id : String}
    {doc : Document} (hget : documents.get? id = some doc) :
    ∃ text entry, id = recordId table text ∧ m text = some entry ∧ doc.id? = some id ∧
      doc.revision? = some entry.rev ∧ (doc.isDeleted = true ↔ entry.attributes = none) ∧
      (doc.isDeleted = false → Dict.get? doc tableField = some (.str table)) := by
  by_cases hid : ∃ text, id = recordId table text
  · obtain ⟨text, rfl⟩ := hid
    rw [hrepresents.get?_eq] at hget
    cases hentry : m text with
    | none =>
      rw [hentry] at hget
      cases hget
    | some entry =>
      obtain ⟨rev, attributes?⟩ := entry
      rw [hentry] at hget
      refine ⟨text, _, rfl, hentry, ?_⟩
      cases attributes? with
      | none =>
        cases hget
        exact ⟨rfl, rfl, ⟨fun _ => rfl, fun _ => rfl⟩, fun hdeleted => by cases hdeleted⟩
      | some attributes =>
        have hreserves := hrepresents.unreserved text _ attributes hentry rfl
        cases hget
        have hdeleted : (Document.kept table (recordId table text) attributes rev).isDeleted =
          false := Document.isDeleted_kept hreserves
        refine ⟨Document.id?_kept hreserves, Document.revision?_kept, ?_, fun _ =>
          Document.table_kept hreserves⟩
        constructor
        · intro htrue
          exact absurd (hdeleted.symm.trans htrue) (by decide)
        · intro hnone
          cases hnone
  · have hforeign : ∀ text, id ≠ recordId table text := fun text heq => hid ⟨text, heq⟩
    rw [hrepresents.foreign id hforeign] at hget
    cases hget

end DocMapper.KeyedMap
