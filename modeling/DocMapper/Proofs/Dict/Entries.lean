import DocMapper.Dict

/-!
# Entries of dictionaries

What insertion does to the keys and entries of a dictionary.
-/

namespace DocMapper.Dict

variable {α : Type}

/-- Insertion adds its key and no other. -/
theorem contains_insert (d : Dict α) (key other : String) (value : α) :
    contains (insert d key value) other = (decide (key = other) || contains d other) := by
  by_cases heq : key = other
  · subst heq
    simp [contains]
  · simp [contains, get?_insert_of_ne d value heq, heq]

theorem contains_cons (k : String) (v : α) (rest : Dict α) (key : String) :
    contains ((k, v) :: rest) key = (decide (k = key) || contains rest key) := by
  by_cases heq : k = key <;> simp [contains, get?, heq]

theorem contains_singleton (k : String) (v : α) (key : String) :
    contains [(k, v)] key = decide (k = key) := by
  rw [contains_cons]
  exact Bool.or_false _

/-- Under a key that is not there yet, insertion keeps every entry and adds one. No order of
    the entries is needed. -/
theorem mem_insert_of_absent {d : Dict α} {key : String} (value : α)
    (habsent : contains d key = false) {entry : String × α} :
    entry ∈ insert d key value ↔ entry = (key, value) ∨ entry ∈ d := by
  induction d with
  | nil => simp [insert]
  | cons head rest ih =>
    obtain ⟨k, v⟩ := head
    rw [contains_cons, Bool.or_eq_false_iff, decide_eq_false_iff_not] at habsent
    obtain ⟨hne, hrest⟩ := habsent
    rw [insert]
    by_cases hlt : key < k
    · rw [if_pos hlt, List.mem_cons]
    · rw [if_neg hlt, if_neg hne, List.mem_cons, ih hrest, List.mem_cons]
      exact or_left_comm

/-- Where entries are kept by their keys, a value is found if its key is one that is kept. -/
theorem get?_filter_keys (kept : String → Bool) (d : Dict α) (key : String) :
    get? (d.filter fun entry => kept entry.1) key = if kept key then get? d key else none := by
  induction d with
  | nil => exact (ite_self none).symm
  | cons head rest ih =>
    obtain ⟨k, v⟩ := head
    rw [List.filter_cons, get?]
    by_cases heq : k = key
    · subst heq
      by_cases hkept : kept k = true
      · rw [if_pos hkept, if_pos hkept, get?, if_pos rfl, if_pos rfl]
      · rw [if_neg hkept, ih, if_neg hkept, if_neg hkept]
    · rw [if_neg heq, ← ih]
      by_cases hkept : kept k = true
      · rw [if_pos hkept, get?, if_neg heq]
      · rw [if_neg hkept]

end DocMapper.Dict
