import DocMapper.Proofs.Dict.Order
import DocMapper.Proofs.Store.Write

/-!
# Progress of documents

Whatever calls are made, the document under an id either stays as it is or moves on to a later
generation. So a document that is found again with its revision was not written in between.
-/

namespace DocMapper

/-- The document that a call is about, where it is about a single one. -/
def Call.target? : Call → Option String
  | .insert doc => doc.id?
  | .get id | .destroy id _ => some id
  | _ => none

namespace MemoryStore

/-- The documents that a call asks to write, one after another. A destroy asks for a tombstone where
    there is something to delete. -/
def writes (documents : Dict Document) : Call → List Document
  | .insert doc => [doc]
  | .bulk docs => docs
  | .destroy id rev =>
    match lookUp documents id with
    | .ok _ => [tombstone id rev]
    | .error _ => []
  | _ => []

/-- The store after calls, one after another. -/
def performAll (s : MemoryStore) (calls : List Call) : MemoryStore :=
  calls.foldl (fun s c => (s.perform c).2) s

variable {digest : Option String → Document → UInt64} {documents middle after : Dict Document}
  {doc : Document} {docs : List Document} {id other rev : String} {receipt : WriteReceipt}

/-- What is put is accepted, revised and stored under its id. -/
theorem put_eq_ok (hput : put digest documents doc = .ok (receipt, after)) :
    doc.id? = some receipt.id ∧ Accepts documents receipt.id doc.revision? ∧
      receipt.rev = nextRevision digest documents receipt.id doc ∧
      after = documents.insert receipt.id (stored doc receipt.id receipt.rev) := by
  rcases put_spec digest documents doc with
    ⟨_, error, herror⟩ | ⟨id, hid, ⟨_, herror⟩ | ⟨_, _, _, herror⟩ | ⟨haccepts, _, hok⟩⟩
  · rw [herror] at hput
    cases hput
  · rw [herror] at hput
    cases hput
  · rw [herror] at hput
    cases hput
  · rw [hok] at hput
    cases hput
    exact ⟨hid, haccepts, rfl, rfl⟩

/-- Only a document that is no tombstone is found. -/
theorem lookUp_eq_ok (hlookUp : lookUp documents id = .ok doc) :
    documents.get? id = some doc ∧ doc.isDeleted = false := by
  unfold lookUp at hlookUp
  cases hget : documents.get? id with
  | none =>
    rw [hget] at hlookUp
    cases hlookUp
  | some found =>
    rw [hget] at hlookUp
    cases hdeleted : found.isDeleted with
    | true => simp [hdeleted] at hlookUp
    | false =>
      simp only [hdeleted] at hlookUp
      cases hlookUp
      exact ⟨rfl, hdeleted⟩

/-! ## Calls as writes -/

theorem putAll_singleton_of_ok (hput : put digest documents doc = .ok (receipt, after)) :
    (putAll digest documents [doc]).2 = after := by
  rw [putAll, hput]
  rfl

theorem putAll_singleton_of_error {e : StoreError} (hput : put digest documents doc = .error e) :
    (putAll digest documents [doc]).2 = documents := by
  rw [putAll, hput]
  rfl

/-- What a call does to documents is to write what it asks to write. -/
theorem perform_documents (s : MemoryStore) (c : Call) :
    (s.perform c).2.documents = (putAll s.digest s.documents (writes s.documents c)).2 := by
  cases c with
  | insert doc =>
    rw [writes]
    cases hput : put s.digest s.documents doc with
    | ok written =>
      rw [putAll_singleton_of_ok hput]
      simp only [perform, effect, count, hput, keepDocuments]
    | error e =>
      rw [putAll_singleton_of_error hput]
      simp only [perform, effect, count, hput, keepDocuments]
  | destroy id rev =>
    have hperform : (s.perform (.destroy id rev)).2.documents =
        ((s.count .destroy).keepDocuments (remove s.digest s.documents id rev)).2.documents := rfl
    rw [hperform, writes]
    rcases remove_spec s.digest s.documents id rev with
      ⟨hlive, hremove⟩ | ⟨_, reason, hlookUp, hremove⟩
    · obtain ⟨found, hlookUp⟩ := lookUp_of_isLive hlive
      rw [hremove, hlookUp]
      cases hput : put s.digest s.documents (tombstone id rev) with
      | ok written => exact (putAll_singleton_of_ok hput).symm
      | error e => exact (putAll_singleton_of_error hput).symm
    · rw [hremove, hlookUp]
      rfl
  | bulk docs => rfl
  | createIndex request =>
    simp only [perform, effect]
    cases addIndex (s.count (Call.createIndex request).primitive).indexes request <;> rfl
  | _ => rfl

section Preservation

variable {R : Dict Document → Dict Document → Prop} {W : Document → Prop}
  (hrefl : ∀ documents, R documents documents)
  (htrans : ∀ {documents middle after}, R documents middle → R middle after → R documents after)
  (hput : ∀ {digest documents doc receipt after}, W doc →
    put digest documents doc = .ok (receipt, after) → R documents after)

include hrefl htrans hput

/-- What holds between the documents before and after every write holds over all writes of a
    call. -/
theorem putAll_preserves (hdocs : ∀ doc ∈ docs, W doc) :
    R documents (putAll digest documents docs).2 := by
  induction docs generalizing documents with
  | nil => exact hrefl documents
  | cons doc rest ih =>
    obtain ⟨hdoc, hrest⟩ := List.forall_mem_cons.mp hdocs
    unfold putAll
    cases hwrite : put digest documents doc with
    | ok written => exact htrans (hput hdoc hwrite) (ih hrest)
    | error e => exact ih hrest

/-- And it holds over all calls of a run. -/
theorem performAll_preserves (s : MemoryStore) (calls : List Call)
    (hcalls : ∀ c ∈ calls, ∀ documents, ∀ doc ∈ writes documents c, W doc) :
    R s.documents (s.performAll calls).documents := by
  induction calls generalizing s with
  | nil => exact hrefl s.documents
  | cons c rest ih =>
    obtain ⟨hcall, hrest⟩ := List.forall_mem_cons.mp hcalls
    refine htrans ?_ (ih (s.perform c).2 hrest)
    rw [perform_documents]
    exact putAll_preserves hrefl htrans hput (hcall s.documents)

end Preservation

/-! ## Generations -/

/-- The document under the id is still the same, or its generation is a later one. -/
def Progresses (id : String) (before after : Dict Document) : Prop :=
  after.get? id = before.get? id ∨
    Revision.generationOf (currentRevision before id) <
      Revision.generationOf (currentRevision after id)

/-- The current revision is that of the document under the id. -/
theorem currentRevision_congr (hget : after.get? id = documents.get? id) :
    currentRevision after id = currentRevision documents id := by
  rw [currentRevision, hget, currentRevision]

theorem Progresses.refl (id : String) (documents : Dict Document) :
    Progresses id documents documents := Or.inl rfl

/-- Progress adds up. -/
theorem Progresses.trans (hfirst : Progresses id documents middle)
    (hsecond : Progresses id middle after) : Progresses id documents after := by
  rcases hfirst with hsame | hlater
  · rcases hsecond with hagain | hlater
    · exact Or.inl (hagain.trans hsame)
    · rw [currentRevision_congr hsame] at hlater
      exact Or.inr hlater
  · rcases hsecond with hsame | hagain
    · rw [← currentRevision_congr hsame] at hlater
      exact Or.inr hlater
    · exact Or.inr (Nat.lt_trans hlater hagain)

/-- Generations never decrease. -/
theorem Progresses.generationOf_le (hprogresses : Progresses id documents after) :
    Revision.generationOf (currentRevision documents id) ≤
      Revision.generationOf (currentRevision after id) := by
  rcases hprogresses with hsame | hlater
  · exact Nat.le_of_eq (congrArg Revision.generationOf (currentRevision_congr hsame).symm)
  · exact Nat.le_of_lt hlater

/-- A document of the same generation is the same document. -/
theorem Progresses.get?_eq (hprogresses : Progresses id documents after)
    (hgeneration : Revision.generationOf (currentRevision after id) ≤
      Revision.generationOf (currentRevision documents id)) :
    after.get? id = documents.get? id := by
  rcases hprogresses with hsame | hlater
  · exact hsame
  · omega

/-- A write brings its id to a later generation. -/
theorem generationOf_lt_of_put (hput : put digest documents doc = .ok (receipt, after)) :
    Revision.generationOf (currentRevision documents receipt.id) <
      Revision.generationOf (currentRevision after receipt.id) := by
  obtain ⟨_, _, hrev, rfl⟩ := put_eq_ok hput
  rw [currentRevision_insert_stored, if_pos rfl, hrev, nextRevision, Revision.generationOf_some,
    Revision.generation_text]
  exact Nat.lt_succ_self _

/-- A put makes progress at every id. -/
theorem put_progresses (id : String) (hput : put digest documents doc = .ok (receipt, after)) :
    Progresses id documents after := by
  by_cases heq : receipt.id = id
  · subst heq
    exact Or.inr (generationOf_lt_of_put hput)
  · obtain ⟨_, _, _, rfl⟩ := put_eq_ok hput
    exact Or.inl (Dict.get?_insert_of_ne _ _ heq)

/-- Calls make progress at every id. -/
theorem performAll_progresses (s : MemoryStore) (calls : List Call) (id : String) :
    Progresses id s.documents (s.performAll calls).documents :=
  performAll_preserves (W := fun _ => True) (Progresses.refl id) Progresses.trans
    (fun _ hput => put_progresses id hput) s calls fun _ _ _ _ _ => trivial

/-! ## Other documents -/

/-- Calls about one document leave the others alone. -/
theorem performAll_get?_of_ne (s : MemoryStore) (calls : List Call)
    (hcalls : ∀ c ∈ calls, c.target? = some id) (hne : id ≠ other) :
    (s.performAll calls).documents.get? other = s.documents.get? other := by
  refine performAll_preserves (W := fun doc => doc.id? = some id)
    (R := fun before after => Dict.get? after other = Dict.get? before other)
    (fun _ => rfl) (fun hfirst hsecond => hsecond.trans hfirst) ?_ s calls ?_
  · intro digest documents doc receipt after hdoc hput
    obtain ⟨hid, _, _, rfl⟩ := put_eq_ok hput
    rw [hdoc, Option.some.injEq] at hid
    subst hid
    exact Dict.get?_insert_of_ne _ _ hne
  · intro c hc documents doc hdoc
    have htarget := hcalls c hc
    cases c with
    | insert written =>
      cases List.mem_singleton.mp hdoc
      exact htarget
    | destroy target rev =>
      cases htarget
      rw [writes] at hdoc
      cases hlookUp : lookUp documents id with
      | error e =>
        rw [hlookUp] at hdoc
        cases hdoc
      | ok found =>
        rw [hlookUp] at hdoc
        cases List.mem_singleton.mp hdoc
        rfl
    | bulk docs => cases htarget
    | _ => cases hdoc

/-! ## Documents under their ids -/

/-- Documents are held in the order of their ids, each under the id that it carries itself. -/
structure WellKept (documents : Dict Document) : Prop where
  ordered : Dict.Ordered documents
  id?_eq : ∀ entry ∈ documents, entry.2.id? = some entry.1

theorem wellKept_empty : WellKept [] := ⟨List.Pairwise.nil, List.forall_mem_nil _⟩

theorem id?_stored (hid : doc.id? = some id) (rev : String) :
    (stored doc id rev).id? = some id := by
  unfold stored
  by_cases hdeleted : doc.isDeleted = true
  · rw [if_pos hdeleted]
    rfl
  · rw [if_neg hdeleted, Document.id?, Dict.get?_insert_of_ne _ _ (by decide)]
    exact hid

/-- A put keeps every document under its own id, with a revision. -/
theorem WellKept.put (hkept : WellKept documents)
    (hput : put digest documents doc = .ok (receipt, after)) : WellKept after := by
  obtain ⟨hid, _, _, rfl⟩ := put_eq_ok hput
  refine ⟨Dict.ordered_insert _ _ hkept.ordered, fun entry hentry => ?_⟩
  rcases Dict.mem_of_mem_insert hentry with rfl | hold
  · exact id?_stored hid receipt.rev
  · exact hkept.id?_eq entry hold

theorem WellKept.performAll {s : MemoryStore} (hkept : WellKept s.documents) (calls : List Call) :
    WellKept (s.performAll calls).documents :=
  performAll_preserves (W := fun _ => True)
    (R := fun before after => WellKept before → WellKept after) (fun _ hkept => hkept)
    (fun hfirst hsecond hkept => hsecond (hfirst hkept))
    (fun _ hput hkept => hkept.put hput) s calls (fun _ _ _ _ _ => trivial) hkept

end MemoryStore

end DocMapper
