import DocMapper.Adapter.RevisionTable

/-!
# Entries of the revision table

Recording a revision adds that one entry and may drop others; forgetting only drops.
-/

namespace DocMapper

/-- What is left after an erasure was there before. -/
theorem Dict.get?_of_get?_erase {α : Type} {d : Dict α} {key other : String} {value : α}
    (hget : (d.erase key).get? other = some value) : d.get? other = some value := by
  by_cases heq : key = other
  · subst heq
    rw [Dict.get?_erase_self] at hget
    cases hget
  · rwa [Dict.get?_erase_of_ne d heq] at hget

namespace RevisionTable

/-- A table that has no room has no entries. -/
def Tidy (t : RevisionTable) : Prop := t.capacity = 0 → t.byId = []

variable {t : RevisionTable} {id other rev : String} {entry : Nat × String}

/-- Forgetting an id adds no entry for another. -/
theorem get?_of_get?_forget (hget : (t.forget id).byId.get? other = some entry) :
    t.byId.get? other = some entry := by
  unfold forget at hget
  cases hold : t.byId.get? id with
  | none =>
    rw [hold] at hget
    exact hget
  | some old =>
    rw [hold] at hget
    exact Dict.get?_of_get?_erase hget

/-- Nor does eviction. -/
theorem get?_of_get?_evict (capacity : Nat) {byId : Dict (Nat × String)}
    (order : List (Nat × String)) (hget : (evict capacity byId order).1.get? other = some entry) :
    byId.get? other = some entry := by
  induction order generalizing byId with
  | nil => exact hget
  | cons oldest rest ih =>
    unfold evict at hget
    by_cases hfull : byId.length > capacity
    · rw [if_pos hfull] at hget
      exact Dict.get?_of_get?_erase (ih hget)
    · rw [if_neg hfull] at hget
      exact hget

/-- An entry of the table after a recording is that recording or was there before. -/
theorem get?_of_get?_record (hget : (t.record id rev).byId.get? other = some entry) :
    t.byId.get? other = some entry ∨ other = id ∧ entry.2 = rev := by
  unfold record at hget
  by_cases hcapacity : t.capacity = 0
  · rw [if_pos hcapacity] at hget
    exact Or.inl hget
  · rw [if_neg hcapacity] at hget
    have hinsert := get?_of_get?_evict t.capacity _ hget
    by_cases heq : id = other
    · subst heq
      rw [Dict.get?_insert_self] at hinsert
      cases hinsert
      exact Or.inr ⟨rfl, rfl⟩
    · rw [Dict.get?_insert_of_ne _ _ heq] at hinsert
      exact Or.inl hinsert

/-- An id that is forgotten has no entry. -/
theorem get?_forget_self (t : RevisionTable) (id : String) : (t.forget id).byId.get? id = none := by
  unfold forget
  cases hold : t.byId.get? id with
  | none => exact hold
  | some old => exact Dict.get?_erase_self _ _

/-- What is in the table for the id that was recorded is that recording. -/
theorem eq_of_get?_record_self (htidy : t.Tidy)
    (hget : (t.record id rev).byId.get? id = some entry) : entry.2 = rev := by
  unfold record at hget
  by_cases hcapacity : t.capacity = 0
  · rw [if_pos hcapacity, htidy hcapacity] at hget
    cases hget
  · rw [if_neg hcapacity] at hget
    have hinsert := get?_of_get?_evict t.capacity _ hget
    rw [Dict.get?_insert_self] at hinsert
    cases hinsert
    rfl

/-- Forgetting keeps a table tidy. -/
theorem Tidy.forget (htidy : t.Tidy) (id : String) : (t.forget id).Tidy := by
  unfold RevisionTable.forget
  cases t.byId.get? id with
  | none => exact htidy
  | some old =>
    intro hcapacity
    have hempty : t.byId.erase id = [] := by
      rw [htidy hcapacity]
      rfl
    exact hempty

/-- So does recording, whatever it evicts. -/
theorem Tidy.record (htidy : t.Tidy) (id rev : String) : (t.record id rev).Tidy := by
  unfold RevisionTable.record
  by_cases hcapacity : t.capacity = 0
  · rw [if_pos hcapacity]
    exact htidy
  · rw [if_neg hcapacity]
    exact fun hzero => absurd hzero hcapacity

end RevisionTable

end DocMapper
