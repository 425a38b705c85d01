import DocMapper.Proofs.Store.Progress

/-!
# Batches of writes

A batch by position: what the outcome at a position says, on the documents as they stand when its
turn comes, and what later positions may do to the document that was written there.
-/

namespace DocMapper.MemoryStore

variable {digest : Option String → Document → UInt64} {documents after : Dict Document}
  {docs : List Document} {doc : Document} {receipt : WriteReceipt} {i : Nat}

/-- The documents after a write; one that is refused changes nothing. -/
def leftBy (digest : Option String → Document → UInt64) (documents : Dict Document)
    (doc : Document) : Dict Document :=
  match put digest documents doc with
  | .ok written => written.2
  | .error _ => documents

/-- A batch is its first document, and the rest on what that leaves. -/
theorem putAll_cons (digest : Option String → Document → UInt64) (documents : Dict Document)
    (doc : Document) (docs : List Document) : putAll digest documents (doc :: docs) =
      (outcome doc ((put digest documents doc).map Prod.fst) ::
        (putAll digest (leftBy digest documents doc) docs).1,
        (putAll digest (leftBy digest documents doc) docs).2) := by
  rw [putAll, leftBy]
  cases put digest documents doc <;> rfl

theorem leftBy_of_ok (hput : put digest documents doc = .ok (receipt, after)) :
    leftBy digest documents doc = after := by
  rw [leftBy, hput]

/-- A batch may be split anywhere. -/
theorem putAll_append (digest : Option String → Document → UInt64) (documents : Dict Document)
    (docs later : List Document) : (putAll digest documents (docs ++ later)).2 =
      (putAll digest (putAll digest documents docs).2 later).2 := by
  induction docs generalizing documents with
  | nil => rfl
  | cons doc rest ih =>
    rw [List.cons_append, putAll_cons, putAll_cons]
    exact ih _

/-- A batch makes progress at every id. -/
theorem putAll_progresses (digest : Option String → Document → UInt64) (documents : Dict Document)
    (docs : List Document) (id : String) :
    Progresses id documents (putAll digest documents docs).2 :=
  putAll_preserves (W := fun _ => True) (Progresses.refl id) Progresses.trans
    (fun _ hput => put_progresses id hput) fun _ _ => trivial

/-- The documents as they stand when the turn comes to a position of a batch. -/
def before (digest : Option String → Document → UInt64) (documents : Dict Document)
    (docs : List Document) (i : Nat) : Dict Document := (putAll digest documents (docs.take i)).2

/-- The outcome at a position is that of a write when its turn comes. -/
theorem getElem?_putAll (digest : Option String → Document → UInt64) (documents : Dict Document)
    (docs : List Document) (i : Nat) :
    (putAll digest documents docs).1[i]? = docs[i]?.map fun doc =>
      outcome doc ((put digest (before digest documents docs i) doc).map Prod.fst) := by
  induction docs generalizing documents i with
  | nil => rfl
  | cons doc rest ih =>
    rw [putAll_cons]
    cases i with
    | zero => rw [before, List.take_zero, putAll, List.getElem?_cons_zero, List.getElem?_cons_zero,
        Option.map_some]
    | succ i =>
      rw [before, List.take_succ_cons, putAll_cons]
      exact ih _ i

/-- The store refuses the document at this position when its turn comes. -/
def RefusedAt (digest : Option String → Document → UInt64) (documents : Dict Document)
    (docs : List Document) (i : Nat) : Prop :=
  ∃ doc cause, docs[i]? = some doc ∧
    put digest (before digest documents docs i) doc = .error cause

theorem outcome_error_eq_none_iff {result : Except StoreError WriteReceipt} :
    (outcome doc result).error = none ↔ ∃ receipt, result = .ok receipt := by
  rcases result with (_ | _) | receipt <;> simp [outcome]

/-- Refusals are read off the outcomes. -/
theorem refusedAt_iff : RefusedAt digest documents docs i ↔
    ∃ outcome, (putAll digest documents docs).1[i]? = some outcome ∧ outcome.error ≠ none := by
  simp only [getElem?_putAll, Option.map_eq_some_iff]
  constructor
  · rintro ⟨doc, cause, hdoc, hput⟩
    refine ⟨_, ⟨doc, hdoc, rfl⟩, fun hnone => ?_⟩
    obtain ⟨receipt, hreceipt⟩ := outcome_error_eq_none_iff.mp hnone
    rw [hput] at hreceipt
    cases hreceipt
  · rintro ⟨_, ⟨doc, hdoc, rfl⟩, hsome⟩
    cases hput : put digest (before digest documents docs i) doc with
    | error cause => exact ⟨doc, cause, hdoc, hput⟩
    | ok written =>
      rw [hput] at hsome
      exact absurd (outcome_error_eq_none_iff.mpr ⟨written.1, rfl⟩) hsome

/-- A document that is not refused is written when its turn comes, and gives way to later ones of
    its id only. -/
theorem exists_put_of_not_refusedAt (hdoc : docs[i]? = some doc)
    (hnot : ¬RefusedAt digest documents docs i) :
    ∃ receipt after, put digest (before digest documents docs i) doc = .ok (receipt, after) ∧
      ∀ id, Progresses id after (putAll digest documents docs).2 := by
  cases hput : put digest (before digest documents docs i) doc with
  | error cause => exact absurd ⟨doc, cause, hdoc, hput⟩ hnot
  | ok written =>
    obtain ⟨receipt, after⟩ := written
    refine ⟨receipt, after, rfl, fun id => ?_⟩
    obtain ⟨hlt, hget⟩ := List.getElem?_eq_some_iff.mp hdoc
    have hsplit : docs = docs.take i ++ doc :: docs.drop (i + 1) := by
      rw [← hget, List.getElem_cons_drop, List.take_append_drop]
    have hafter : (putAll digest documents docs).2 =
        (putAll digest after (docs.drop (i + 1))).2 := by
      rw [hsplit, putAll_append, putAll_cons, ← hsplit, ← before, leftBy_of_ok hput]
    rw [hafter]
    exact putAll_progresses digest after _ id

end DocMapper.MemoryStore
