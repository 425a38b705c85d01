import DocMapper.Proofs.Number.Digits
import DocMapper.Store.Memory

/-!
# Writes of one document

When a write goes ahead, what it answers and what it leaves behind. Everything is said through the
current revision of an id, which tombstones keep too.
-/

namespace DocMapper

/-! ## Generations -/

namespace Revision

/-- The number in front of a revision reads back, so revisions that count differently are different,
    whatever their digits are. -/
theorem generation_text (n : Nat) (digits : UInt64) : generation (text n digits) = n := by
  obtain ⟨run, hrun, hvalue⟩ := Reading.digitRun_digitChars n
  have hdash : ∀ rest, Reading.digitRun ('-' :: rest) = ([], '-' :: rest) := fun _ => rfl
  have happend : Reading.digitRun (text n digits).toList = (run, '-' :: hexDigits digits) := by
    rw [text, String.toList_ofList, Reading.digitRun_append hrun, hdash, List.append_nil]
  rw [generation, happend]
  exact hvalue

/-- The number of writes that the current revision counts; none before the first write. -/
def generationOf (current : Option String) : Nat := (current.map generation).getD 0

@[simp] theorem generationOf_some (rev : String) : generationOf (some rev) = generation rev := rfl

end Revision

/-! ## Writes -/

namespace MemoryStore

/-- The store without documents that makes up the digits of revisions this way. -/
def fresh (digest : Option String → Document → UInt64) : MemoryStore := { digest }

/-- The revision of the document or tombstone with an id. -/
def currentRevision (documents : Dict Document) (id : String) : Option String :=
  (documents.get? id).bind Document.revision?

/-- There is a document with the id, and it is no tombstone. -/
def IsLive (documents : Dict Document) (id : String) : Prop :=
  ∃ doc, documents.get? id = some doc ∧ doc.isDeleted = false

/-- A revision is accepted where it is the current one, and none is accepted where nothing live
    would be overwritten. -/
def Accepts (documents : Dict Document) (id : String) : Option String → Prop
  | none => ¬IsLive documents id
  | some rev => currentRevision documents id = some rev

/-- The revision that a write of a document is assigned. -/
def nextRevision (digest : Option String → Document → UInt64) (documents : Dict Document)
    (id : String) (doc : Document) : String :=
  Revision.text (Revision.generationOf (currentRevision documents id) + 1)
    (digest (currentRevision documents id) doc)

/-- What is kept of a written document. -/
def stored (doc : Document) (id rev : String) : Document :=
  if doc.isDeleted then tombstone id rev else Dict.insert doc revisionField (.str rev)

variable {digest : Option String → Document → UInt64} {documents after : Dict Document}
  {doc : Document} {id : String}

@[simp] theorem revision?_tombstone (id rev : String) :
    Document.revision? (tombstone id rev) = some rev := rfl

@[simp] theorem revision?_stored (doc : Document) (id rev : String) :
    (stored doc id rev).revision? = some rev := by
  unfold stored
  by_cases hdeleted : doc.isDeleted = true
  · rw [if_pos hdeleted]
    rfl
  · rw [if_neg hdeleted, Document.revision?, Dict.get?_insert_self]
    rfl

/-- A written document brings its id to its revision and leaves the others alone. -/
theorem currentRevision_insert_stored (documents : Dict Document) (doc : Document)
    (id rev other : String) :
    currentRevision (documents.insert id (stored doc id rev)) other =
      if id = other then some rev else currentRevision documents other := by
  unfold currentRevision
  by_cases heq : id = other
  · subst heq
    rw [if_pos rfl, Dict.get?_insert_self]
    exact revision?_stored doc id rev
  · rw [if_neg heq, Dict.get?_insert_of_ne documents _ heq]

theorem not_isLive_of_absent (hget : documents.get? id = none) : ¬IsLive documents id := by
  rintro ⟨doc, hdoc, _⟩
  rw [hget] at hdoc
  cases hdoc

theorem IsLive.congr (hlive : IsLive documents id)
    (hget : after.get? id = documents.get? id) : IsLive after id := by
  obtain ⟨doc, hdoc, hnot⟩ := hlive
  exact ⟨doc, hget.trans hdoc, hnot⟩

theorem isLive_iff_of_present (hget : documents.get? id = some doc) :
    IsLive documents id ↔ doc.isDeleted = false := by
  constructor
  · rintro ⟨other, hother, hlive⟩
    rw [hget] at hother
    cases hother
    exact hlive
  · intro hlive
    exact ⟨doc, hget, hlive⟩

theorem currentRevision_of_present (hget : documents.get? id = some doc) :
    currentRevision documents id = doc.revision? := by
  rw [currentRevision, hget, Option.bind_some]

/-- Only an accepted revision is replaced, and what is replaced is the current one. -/
theorem replaced_spec (documents : Dict Document) (id : String) (supplied : Option String) :
    (Accepts documents id supplied ∧
      replaced (documents.get? id) supplied = .ok (currentRevision documents id)) ∨
    (¬Accepts documents id supplied ∧
      replaced (documents.get? id) supplied = .error .conflict) := by
  cases hget : documents.get? id with
  | none =>
    have hcurrent : currentRevision documents id = none := by rw [currentRevision, hget]; rfl
    cases supplied with
    | none =>
      rw [hcurrent]
      exact Or.inl ⟨not_isLive_of_absent hget, rfl⟩
    | some rev =>
      refine Or.inr ⟨fun haccepts => ?_, rfl⟩
      rw [Accepts, hcurrent] at haccepts
      cases haccepts
  | some existing =>
    rw [currentRevision_of_present hget]
    have hlive := isLive_iff_of_present hget
    have haccepts : ∀ rev, Accepts documents id (some rev) ↔ some rev = existing.revision? := by
      intro rev
      rw [Accepts, currentRevision_of_present hget]
      exact eq_comm
    cases supplied with
    | none =>
      rw [Accepts, hlive]
      cases hdeleted : existing.isDeleted <;> simp [replaced, hdeleted]
    | some rev =>
      rw [haccepts]
      by_cases heq : some rev = existing.revision?
      · rw [← heq]
        cases hdeleted : existing.isDeleted <;> simp [replaced, hdeleted, ← heq]
      · cases hdeleted : existing.isDeleted <;> simp [replaced, hdeleted, heq]

/-- A write is refused for want of an id, for a revision that is not accepted, or because there is
    nothing to delete. Else it is assigned the next revision and kept under its id. -/
theorem put_spec (digest : Option String → Document → UInt64) (documents : Dict Document)
    (doc : Document) :
    (doc.id? = none ∧ ∃ e, put digest documents doc = .error e) ∨
    ∃ id, doc.id? = some id ∧
      ((¬Accepts documents id doc.revision? ∧ put digest documents doc = .error .conflict) ∨
      (Accepts documents id doc.revision? ∧ doc.isDeleted = true ∧
        currentRevision documents id = none ∧
        put digest documents doc = .error (.notFound "missing")) ∨
      (Accepts documents id doc.revision? ∧
        (doc.isDeleted = true → currentRevision documents id ≠ none) ∧
        put digest documents doc =
          .ok (⟨true, id, nextRevision digest documents id doc⟩,
            documents.insert id (stored doc id (nextRevision digest documents id doc))))) := by
  unfold put
  cases hid : doc.id? with
  | none => exact Or.inl ⟨rfl, _, rfl⟩
  | some id =>
    refine Or.inr ⟨id, rfl, ?_⟩
    rcases replaced_spec documents id doc.revision? with ⟨haccepts, hok⟩ | ⟨hrefuses, herror⟩
    · simp only [hok]
      by_cases hnothing : (doc.isDeleted && (currentRevision documents id).isNone) = true
      · rw [if_pos hnothing]
        rw [Bool.and_eq_true, Option.isNone_iff_eq_none] at hnothing
        exact Or.inr (Or.inl ⟨haccepts, hnothing.1, hnothing.2, rfl⟩)
      · rw [if_neg hnothing]
        refine Or.inr (Or.inr ⟨haccepts, fun hdeleted hnone => hnothing ?_, rfl⟩)
        rw [hdeleted, hnone]
        rfl
    · simp only [herror]
      exact Or.inl ⟨hrefuses, trivial⟩

/-- A destroy is a write of a tombstone, asked only where a document is live; elsewhere it answers
    what a look-up does. -/
theorem remove_spec (digest : Option String → Document → UInt64) (documents : Dict Document)
    (id rev : String) :
    (IsLive documents id ∧
      remove digest documents id rev = put digest documents (tombstone id rev)) ∨
    (¬IsLive documents id ∧ ∃ reason, lookUp documents id = .error (.notFound reason) ∧
      remove digest documents id rev = .error (.notFound reason)) := by
  unfold remove lookUp
  cases hget : documents.get? id with
  | none => exact Or.inr ⟨not_isLive_of_absent hget, "missing", rfl, rfl⟩
  | some existing =>
    rw [isLive_iff_of_present hget]
    cases hdeleted : existing.isDeleted with
    | true =>
      simp only [hdeleted, if_true]
      exact Or.inr ⟨by decide, "deleted", rfl, rfl⟩
    | false =>
      simp only [hdeleted]
      exact Or.inl ⟨trivial, rfl⟩

theorem lookUp_of_isLive (hlive : IsLive documents id) :
    ∃ doc, lookUp documents id = .ok doc := by
  obtain ⟨doc, hget, hdeleted⟩ := hlive
  refine ⟨doc, ?_⟩
  simp [lookUp, hget, hdeleted]

/-- A tombstone goes over the revision that it comes with, or not at all. -/
theorem put_tombstone_spec (digest : Option String → Document → UInt64)
    (documents : Dict Document) (id rev : String) :
    (currentRevision documents id = some rev ∧ put digest documents (tombstone id rev) =
      .ok (⟨true, id, nextRevision digest documents id (tombstone id rev)⟩,
        documents.insert id
          (tombstone id (nextRevision digest documents id (tombstone id rev))))) ∨
    (currentRevision documents id ≠ some rev ∧
      put digest documents (tombstone id rev) = .error .conflict) := by
  rcases put_spec digest documents (tombstone id rev) with
    ⟨hnone, _⟩ | ⟨other, hother, ⟨hrefuses, hput⟩ | ⟨haccepts, _, hnothing, _⟩ | ⟨haccepts, _, hput⟩⟩
  · cases hnone
  · cases hother
    exact Or.inr ⟨hrefuses, hput⟩
  · -- A tombstone comes with a revision, and an accepted one is there to be deleted.
    rw [revision?_tombstone, Accepts, hnothing] at haccepts
    cases haccepts
  · cases hother
    exact Or.inl ⟨haccepts, hput⟩

/-- A destroy is refused with a conflict where the id is live, and elsewhere for the reason that a
    look-up gives. -/
theorem remove_eq_error {rev : String} {e : StoreError}
    (hremove : remove digest documents id rev = .error e) :
    (∃ doc, lookUp documents id = .ok doc) ∧ e = .conflict ∨ lookUp documents id = .error e := by
  rcases remove_spec digest documents id rev with ⟨hlive, hput⟩ | ⟨_, reason, hlookUp, herror⟩
  · refine Or.inl ⟨lookUp_of_isLive hlive, ?_⟩
    rw [hput] at hremove
    rcases put_tombstone_spec digest documents id rev with ⟨_, hok⟩ | ⟨_, hconflict⟩
    · rw [hok] at hremove
      cases hremove
    · rw [hconflict] at hremove
      cases hremove
      rfl
  · rw [herror] at hremove
    cases hremove
    exact Or.inr hlookUp

end MemoryStore

end DocMapper
