import DocMapper.Proofs.Document.Envelope
import DocMapper.Proofs.Store.Find
import DocMapper.Proofs.Store.Progress

/-!
# Held revisions

A revision is held for an id where the live document under the id carries it. What a write assigns
is held afterwards, also at the end of a batch, as long as documents of one id come with one
revision; and what a query finds is held.
-/

namespace DocMapper.MemoryStore

/-- The live document under the id carries the revision. -/
def Holds (documents : Dict Document) (id rev : String) : Prop :=
  ∃ doc, documents.get? id = some doc ∧ doc.isDeleted = false ∧ doc.revision? = some rev

variable {digest : Option String → Document → UInt64} {documents after : Dict Document}
  {doc : Document} {docs hits : List Document} {id rev : String} {supplied : Option String}
  {receipt : WriteReceipt} {q : Query}

/-- What the store holds is live. -/
theorem Holds.isLive (hholds : Holds documents id rev) : IsLive documents id := by
  obtain ⟨doc, hget, hlive, _⟩ := hholds
  exact ⟨doc, hget, hlive⟩

theorem Holds.currentRevision_eq (hholds : Holds documents id rev) :
    currentRevision documents id = some rev := by
  obtain ⟨doc, hget, _, hrev⟩ := hholds
  rw [currentRevision_of_present hget, hrev]

/-- Whether a revision is held is seen from the document under the id. -/
theorem Holds.congr (hholds : Holds documents id rev) (hget : after.get? id = documents.get? id) :
    Holds after id rev := by
  obtain ⟨doc, hdoc, hlive, hrev⟩ := hholds
  exact ⟨doc, hget.trans hdoc, hlive, hrev⟩

/-- A put document is held under the revision of its receipt. -/
theorem holds_of_put (hput : put digest documents doc = .ok (receipt, after))
    (hlive : doc.isDeleted = false) : Holds after receipt.id receipt.rev := by
  obtain ⟨_, _, _, rfl⟩ := put_eq_ok hput
  refine ⟨_, Dict.get?_insert_self _ _ _, ?_, revision?_stored doc receipt.id receipt.rev⟩
  have hstored : stored doc receipt.id receipt.rev =
      Dict.insert doc revisionField (.str receipt.rev) :=
    if_neg (by rw [hlive]; exact Bool.false_ne_true)
  rw [hstored, Document.isDeleted, Dict.get?_insert_of_ne _ _ (by decide)]
  exact hlive

/-! ## Batches -/

/-- The document under the id is live, and of a later generation than this revision. -/
def Outdates (documents : Dict Document) (id : String) (supplied : Option String) : Prop :=
  IsLive documents id ∧
    Revision.generationOf supplied < Revision.generationOf (currentRevision documents id)

/-- An outdated revision is not accepted. -/
theorem Outdates.not_accepts (houtdates : Outdates documents id supplied) :
    ¬Accepts documents id supplied := by
  obtain ⟨hlive, hlater⟩ := houtdates
  cases supplied with
  | none => exact fun haccepts => haccepts hlive
  | some rev =>
    intro haccepts
    rw [Accepts] at haccepts
    rw [haccepts] at hlater
    exact Nat.lt_irrefl _ hlater

theorem Outdates.congr (houtdates : Outdates documents id supplied)
    (hget : after.get? id = documents.get? id) : Outdates after id supplied := by
  obtain ⟨⟨doc, hdoc, hlive⟩, hlater⟩ := houtdates
  rw [← currentRevision_congr hget] at hlater
  exact ⟨⟨doc, hget.trans hdoc, hlive⟩, hlater⟩

/-- An accepted revision is no newer than the current one. -/
theorem generationOf_le_of_accepts (haccepts : Accepts documents id supplied) :
    Revision.generationOf supplied ≤ Revision.generationOf (currentRevision documents id) := by
  cases supplied with
  | none => exact Nat.zero_le _
  | some rev => exact Nat.le_of_eq (congrArg Revision.generationOf haccepts.symm)

/-- A write of a live document outdates the revision that came with it. -/
theorem outdates_of_put (hput : put digest documents doc = .ok (receipt, after))
    (hlive : doc.isDeleted = false) : Outdates after receipt.id doc.revision? := by
  refine ⟨(holds_of_put hput hlive).isLive, ?_⟩
  obtain ⟨_, haccepts, hrev, rfl⟩ := put_eq_ok hput
  rw [currentRevision_insert_stored, if_pos rfl, hrev, nextRevision, Revision.generationOf_some,
    Revision.generation_text]
  exact Nat.lt_succ_of_le (generationOf_le_of_accepts haccepts)

/-- A batch with an outdated revision leaves the document alone. -/
theorem putAll_get?_of_outdates (houtdates : Outdates documents id supplied)
    (hsupplied : ∀ doc ∈ docs, doc.id? = some id → doc.revision? = supplied) :
    (putAll digest documents docs).2.get? id = documents.get? id := by
  induction docs generalizing documents with
  | nil => rfl
  | cons doc rest ih =>
    obtain ⟨hdoc, hrest⟩ := List.forall_mem_cons.mp hsupplied
    unfold putAll
    cases hput : put digest documents doc with
    | error e => exact ih houtdates hrest
    | ok written =>
      obtain ⟨receipt, after⟩ := written
      obtain ⟨hid, haccepts, _, rfl⟩ := put_eq_ok hput
      have hne : receipt.id ≠ id := by
        rintro rfl
        rw [hdoc hid] at haccepts
        exact houtdates.not_accepts haccepts
      have hget := Dict.get?_insert_of_ne documents
        (stored doc receipt.id receipt.rev) hne
      exact (ih (houtdates.congr hget) hrest).trans hget

/-- Where a batch is accepted as a whole, and its documents come with the revisions known for their
    ids, what every document is assigned is held in the end. -/
theorem putAll_holds (known : String → Option String)
    (hlive : ∀ doc ∈ docs, doc.isDeleted = false)
    (hknown : ∀ doc ∈ docs, ∀ id, doc.id? = some id → doc.revision? = known id)
    (haccepted : ∀ outcome ∈ (putAll digest documents docs).1, outcome.error = none) :
    ∀ entry ∈ docs.zip (putAll digest documents docs).1, ∃ id rev,
      entry.1.id? = some id ∧ entry.2.rev = some rev ∧
        Holds (putAll digest documents docs).2 id rev := by
  induction docs generalizing documents with
  | nil => exact List.forall_mem_nil _
  | cons doc rest ih =>
    obtain ⟨hdoc, hrest⟩ := List.forall_mem_cons.mp hlive
    obtain ⟨hfirst, hlater⟩ := List.forall_mem_cons.mp hknown
    unfold putAll at haccepted ⊢
    cases hput : put digest documents doc with
    | error e =>
      rw [hput] at haccepted
      have herror := (List.forall_mem_cons.mp haccepted).1
      cases e <;> cases herror
    | ok written =>
      obtain ⟨receipt, after⟩ := written
      rw [hput] at haccepted
      have hid := (put_eq_ok hput).1
      have houtdates := outdates_of_put hput hdoc
      rw [hfirst receipt.id hid] at houtdates
      refine List.forall_mem_cons.mpr ⟨⟨receipt.id, receipt.rev, hid, rfl, ?_⟩,
        ih hrest hlater (List.forall_mem_cons.mp haccepted).2⟩
      -- Later documents of this id come with the revision that this write has outdated.
      exact (holds_of_put hput hdoc).congr
        (putAll_get?_of_outdates houtdates fun other hother => hlater other hother receipt.id)

/-! ## Answers -/

/-- A document that is looked up is held under its revision. -/
theorem lookUp_holds (hlookUp : lookUp documents id = .ok doc) (hrev : doc.revision? = some rev) :
    Holds documents id rev := by
  obtain ⟨hget, hlive⟩ := lookUp_eq_ok hlookUp
  exact ⟨doc, hget, hlive, hrev⟩

/-- A found document is the one under its id, so its revision is held. -/
theorem WellKept.holds_of_found (hkept : WellKept documents) (hfound : found documents q = .ok hits)
    (hmem : doc ∈ hits) (hid : doc.id? = some id) (hrev : doc.revision? = some rev) :
    Holds documents id rev := by
  obtain ⟨own, hentry, hlive⟩ := mem_of_found hfound hmem
  have hown := hkept.id?_eq _ hentry
  rw [hid, Option.some.injEq] at hown
  subst hown
  exact ⟨doc, Dict.get?_of_mem hkept.ordered hentry, hlive, hrev⟩

end DocMapper.MemoryStore
