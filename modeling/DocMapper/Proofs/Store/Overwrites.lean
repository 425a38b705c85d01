import DocMapper.Proofs.Store.Progress

/-!
# What writes replace

The accepted writes among many, each with the version that it replaces. A version is replaced only
over its own revision, and what is under no written id stays as it is.
-/

namespace DocMapper.MemoryStore

/-- The writes among these that are accepted, one after another: the id of each, with the version
    under the id that it replaces. -/
def overwrites (digest : Option String → Document → UInt64) :
    Dict Document → List Document → List (String × Option Document)
  | _, [] => []
  | documents, doc :: rest =>
    match put digest documents doc with
    | .ok (receipt, after) =>
      (receipt.id, documents.get? receipt.id) :: overwrites digest after rest
    | .error _ => overwrites digest documents rest

/-- The accepted writes of calls that are made one after another. -/
def overwritesOf (s : MemoryStore) : List Call → List (String × Option Document)
  | [] => []
  | c :: rest => overwrites s.digest s.documents (writes s.documents c) ++
      overwritesOf (s.perform c).2 rest

variable {digest : Option String → Document → UInt64} {documents : Dict Document}
  {docs : List Document} {calls : List Call} {s : MemoryStore} {id : String}
  {version : Option Document}

/-- A version is replaced where its revision comes with the document that is written. -/
theorem mem_overwrites (hmem : (id, version) ∈ overwrites digest documents docs) :
    ∃ doc ∈ docs, ∃ middle, doc.id? = some id ∧ Progresses id documents middle ∧
      version = middle.get? id ∧ Accepts middle id doc.revision? := by
  induction docs generalizing documents with
  | nil => cases hmem
  | cons doc rest ih =>
    unfold overwrites at hmem
    cases hput : put digest documents doc with
    | error e =>
      rw [hput] at hmem
      obtain ⟨other, hother, hreplaces⟩ := ih hmem
      exact ⟨other, List.mem_cons_of_mem _ hother, hreplaces⟩
    | ok written =>
      obtain ⟨receipt, after⟩ := written
      rw [hput] at hmem
      rcases List.mem_cons.mp hmem with heq | hlater
      · cases heq
        obtain ⟨hid, haccepts, _⟩ := put_eq_ok hput
        exact ⟨doc, List.mem_cons_self, documents, hid, Progresses.refl _ _, rfl, haccepts⟩
      · obtain ⟨other, hother, middle, hid, hprogresses, hreplaces⟩ := ih hlater
        exact ⟨other, List.mem_cons_of_mem _ hother, middle, hid,
          (put_progresses id hput).trans hprogresses, hreplaces⟩

theorem mem_overwritesOf (hmem : (id, version) ∈ overwritesOf s calls) :
    ∃ c ∈ calls, ∃ documents, ∃ doc ∈ writes documents c, ∃ middle, doc.id? = some id ∧
      Progresses id s.documents middle ∧ version = middle.get? id ∧
        Accepts middle id doc.revision? := by
  induction calls generalizing s with
  | nil => cases hmem
  | cons c rest ih =>
    rcases List.mem_append.mp hmem with hfirst | hlater
    · obtain ⟨doc, hdoc, hreplaces⟩ := mem_overwrites hfirst
      exact ⟨c, List.mem_cons_self, s.documents, doc, hdoc, hreplaces⟩
    · obtain ⟨other, hother, documents, doc, hdoc, middle, hid, hprogresses, hreplaces⟩ := ih hlater
      refine ⟨other, List.mem_cons_of_mem _ hother, documents, doc, hdoc, middle, hid, ?_,
        hreplaces⟩
      have hstep := performAll_progresses s [c] id
      exact hstep.trans hprogresses

theorem putAll_get?_of_not_overwritten
    (hnone : ∀ version, (id, version) ∉ overwrites digest documents docs) :
    (putAll digest documents docs).2.get? id = documents.get? id := by
  induction docs generalizing documents with
  | nil => rfl
  | cons doc rest ih =>
    unfold overwrites at hnone
    unfold putAll
    cases hput : put digest documents doc with
    | error e =>
      rw [hput] at hnone
      exact ih hnone
    | ok written =>
      obtain ⟨receipt, after⟩ := written
      rw [hput] at hnone
      have hne : receipt.id ≠ id := by
        rintro rfl
        exact hnone _ List.mem_cons_self
      obtain ⟨_, _, _, rfl⟩ := put_eq_ok hput
      have hrest := ih fun version hmem => hnone version (List.mem_cons_of_mem _ hmem)
      exact hrest.trans (Dict.get?_insert_of_ne documents _ hne)

/-- What no accepted write is about stays as it is. -/
theorem performAll_get?_of_not_overwritten
    (hnone : ∀ version, (id, version) ∉ overwritesOf s calls) :
    (s.performAll calls).documents.get? id = s.documents.get? id := by
  induction calls generalizing s with
  | nil => rfl
  | cons c rest ih =>
    have hrest : ((s.perform c).2.performAll rest).documents.get? id =
        (s.perform c).2.documents.get? id :=
      ih fun version hmem => hnone version (List.mem_append_right _ hmem)
    have hfirst := putAll_get?_of_not_overwritten fun version hmem =>
      hnone version (List.mem_append_left _ hmem)
    rw [← perform_documents] at hfirst
    exact hrest.trans hfirst

end DocMapper.MemoryStore
