/-!
# Dictionaries

Finite maps with text keys, held as a list of entries. Insertion keeps the entries in
key order (the order of code points), so a dictionary built by insertion lists its
entries the way every answer shows them. The look-up laws below need no such order.
-/

namespace DocMapper

/-- A finite map from text keys to values. -/
abbrev Dict (α : Type) := List (String × α)

namespace Dict

variable {α β : Type}

/-- The value of the first entry with this key. -/
def get? : Dict α → String → Option α
  | [], _ => none
  | (k, v) :: rest, key => if k = key then some v else get? rest key

/-- Whether some entry has this key. -/
def contains (d : Dict α) (key : String) : Bool := (get? d key).isSome

/-- The keys in entry order. -/
def keys (d : Dict α) : List String := d.map Prod.fst

/-- The values in entry order. -/
def values (d : Dict α) : List α := d.map Prod.snd

/-- Put a value under a key: an entry with this key is replaced where it stands, a new
    entry goes in front of the first larger key. -/
def insert : Dict α → String → α → Dict α
  | [], key, value => [(key, value)]
  | (k, v) :: rest, key, value =>
    if key < k then (key, value) :: (k, v) :: rest
    else if k = key then (key, value) :: rest
    else (k, v) :: insert rest key value

/-- Drop every entry with this key. -/
def erase (d : Dict α) (key : String) : Dict α := d.filter (fun entry => entry.1 ≠ key)

/-- Insert the entries one after another, so of two entries with one key the later stays. -/
def ofEntries (entries : List (String × α)) : Dict α :=
  entries.foldl (fun d entry => insert d entry.1 entry.2) []

/-- Apply a function to every value. -/
def mapValues (f : α → β) (d : Dict α) : Dict β := d.map fun entry => (entry.1, f entry.2)

/-- Keys strictly increase, so each key has one entry. -/
def Ordered (d : Dict α) : Prop := d.Pairwise fun a b => a.1 < b.1

@[simp] theorem get?_nil (key : String) : get? ([] : Dict α) key = none := rfl

@[simp] theorem get?_insert_self (d : Dict α) (key : String) (value : α) :
    get? (insert d key value) key = some value := by
  induction d with
  | nil => simp [insert, get?]
  | cons entry rest ih =>
    obtain ⟨k, v⟩ := entry
    simp only [insert]
    split
    · simp [get?]
    · split
      · simp [get?]
      · rename_i hne
        simp [get?, hne, ih]

theorem get?_insert_of_ne (d : Dict α) {key other : String} (value : α) (hne : key ≠ other) :
    get? (insert d key value) other = get? d other := by
  induction d with
  | nil => simp [insert, get?, hne]
  | cons entry rest ih =>
    obtain ⟨k, v⟩ := entry
    simp only [insert]
    split
    · simp [get?, hne]
    · split
      · rename_i heq
        subst heq
        simp [get?, hne]
      · simp [get?, ih]

theorem erase_cons (k : String) (v : α) (rest : Dict α) (key : String) :
    erase ((k, v) :: rest) key = if k = key then erase rest key else (k, v) :: erase rest key := by
  by_cases hk : k = key <;> simp [erase, hk]

@[simp] theorem get?_erase_self (d : Dict α) (key : String) : get? (erase d key) key = none := by
  induction d with
  | nil => rfl
  | cons entry rest ih =>
    obtain ⟨k, v⟩ := entry
    rw [erase_cons]
    split
    · exact ih
    · rename_i hk
      simp [get?, hk, ih]

theorem get?_erase_of_ne (d : Dict α) {key other : String} (hne : key ≠ other) :
    get? (erase d key) other = get? d other := by
  induction d with
  | nil => rfl
  | cons entry rest ih =>
    obtain ⟨k, v⟩ := entry
    rw [erase_cons]
    split
    · rename_i hk
      subst hk
      simp [get?, hne, ih]
    · simp [get?, ih]

end Dict

end DocMapper
