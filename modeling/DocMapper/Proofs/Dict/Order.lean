import DocMapper.Dict

/-!
# Dictionaries in key order

Insertion keeps the order of keys, and in an ordered dictionary the insertion of one key and the
removal of another do not get in each other's way.
-/

namespace DocMapper.Dict

variable {α : Type}

theorem lt_of_not_lt_of_ne {k key : String} (hlt : ¬key < k) (hne : k ≠ key) : k < key := by
  by_cases hgt : k < key
  · exact hgt
  · exact absurd (String.le_antisymm (String.not_lt.mp hlt) (String.not_lt.mp hgt)) hne

/-- An entry of the larger dictionary is new or was there. -/
theorem mem_of_mem_insert {d : Dict α} {key : String} {value : α} {entry : String × α}
    (hmem : entry ∈ insert d key value) : entry = (key, value) ∨ entry ∈ d := by
  induction d with
  | nil => exact Or.inl (List.mem_singleton.mp hmem)
  | cons head rest ih =>
    obtain ⟨k, v⟩ := head
    rw [insert] at hmem
    by_cases hlt : key < k
    · rw [if_pos hlt] at hmem
      exact List.mem_cons.mp hmem
    · rw [if_neg hlt] at hmem
      by_cases heq : k = key
      · rw [if_pos heq] at hmem
        rcases List.mem_cons.mp hmem with hhead | hrest
        · exact Or.inl hhead
        · exact Or.inr (List.mem_cons_of_mem _ hrest)
      · rw [if_neg heq] at hmem
        rcases List.mem_cons.mp hmem with hhead | hrest
        · exact Or.inr (List.mem_cons.mpr (Or.inl hhead))
        · rcases ih hrest with hnew | hold
          · exact Or.inl hnew
          · exact Or.inr (List.mem_cons_of_mem _ hold)

/-- What is found is an entry. -/
theorem mem_of_get? {d : Dict α} {key : String} {value : α} (hget : d.get? key = some value) :
    (key, value) ∈ d := by
  induction d with
  | nil => cases hget
  | cons head rest ih =>
    obtain ⟨k, v⟩ := head
    rw [get?] at hget
    by_cases heq : k = key
    · rw [if_pos heq] at hget
      cases hget
      rw [heq]
      exact List.mem_cons_self
    · rw [if_neg heq] at hget
      exact List.mem_cons_of_mem _ (ih hget)

theorem exists_get?_eq_some_iff {d : Dict α} {key : String} :
    (∃ value, d.get? key = some value) ↔ ∃ value, (key, value) ∈ d := by
  constructor
  · rintro ⟨value, hget⟩
    exact ⟨value, mem_of_get? hget⟩
  · rintro ⟨value, hmem⟩
    induction d with
    | nil => cases hmem
    | cons head rest ih =>
      obtain ⟨k, v⟩ := head
      rw [get?]
      by_cases heq : k = key
      · exact ⟨v, if_pos heq⟩
      · rw [if_neg heq]
        rcases List.mem_cons.mp hmem with hhead | hrest
        · cases hhead
          exact absurd rfl heq
        · exact ih hrest

/-- A key is listed if and only if it is found. -/
theorem mem_keys_iff {d : Dict α} {key : String} :
    key ∈ d.keys ↔ ∃ value, d.get? key = some value := by
  rw [exists_get?_eq_some_iff, keys]
  simp

/-- What is not erased stays. -/
theorem get?_foldl_erase (fields : List String) (d : Dict α) (key : String) :
    get? (fields.foldl erase d) key = if key ∈ fields then none else get? d key := by
  induction fields generalizing d with
  | nil => simp
  | cons field fields ih =>
    rw [List.foldl_cons, ih]
    by_cases heq : field = key
    · simp [heq]
    · simp [get?_erase_of_ne d heq, Ne.symm heq]

/-- An ordered dictionary has no second entry under a key. -/
theorem get?_of_mem {d : Dict α} {key : String} {value : α} (hordered : Ordered d)
    (hmem : (key, value) ∈ d) : d.get? key = some value := by
  induction d with
  | nil => cases hmem
  | cons head rest ih =>
    obtain ⟨k, v⟩ := head
    obtain ⟨hfirst, hrest⟩ := List.pairwise_cons.mp hordered
    rcases List.mem_cons.mp hmem with heq | hmem
    · cases heq
      exact if_pos rfl
    · have hne : k ≠ key := by
        rintro rfl
        exact absurd (hfirst _ hmem) (String.lt_irrefl _)
      rw [get?, if_neg hne]
      exact ih hrest hmem

/-- In order, no key comes twice. -/
theorem nodup_of_ordered {d : Dict α} (hordered : Ordered d) : d.Nodup := by
  refine List.nodup_iff_pairwise_ne.mpr (List.Pairwise.imp ?_ hordered)
  rintro entry _ hlt rfl
  exact String.lt_irrefl _ hlt

/-- Ordered dictionaries are the same where they have the same values. -/
theorem eq_of_get?_eq {d e : Dict α} (hd : Ordered d) (he : Ordered e)
    (hget : ∀ key, d.get? key = e.get? key) : d = e := by
  have hmem : ∀ entry, entry ∈ d ↔ entry ∈ e := by
    rintro ⟨key, value⟩
    constructor
    · intro hentry
      exact mem_of_get? ((hget key).symm.trans (get?_of_mem hd hentry))
    · intro hentry
      exact mem_of_get? ((hget key).trans (get?_of_mem he hentry))
  have hperm := (List.perm_ext_iff_of_nodup (nodup_of_ordered hd) (nodup_of_ordered he)).mpr hmem
  exact hperm.eq_of_pairwise
    (fun first second _ _ hlt hgt => absurd hgt (String.lt_asymm hlt)) hd he

theorem ordered_erase {d : Dict α} (key : String) (hordered : Ordered d) :
    Ordered (erase d key) := hordered.filter _

/-- Inserting keeps the order. -/
theorem ordered_insert {d : Dict α} (key : String) (value : α) (hordered : Ordered d) :
    Ordered (insert d key value) := by
  induction d with
  | nil => exact List.pairwise_singleton _ _
  | cons head rest ih =>
    obtain ⟨k, v⟩ := head
    obtain ⟨hfirst, hrest⟩ := List.pairwise_cons.mp hordered
    rw [insert]
    by_cases hlt : key < k
    · rw [if_pos hlt]
      refine List.pairwise_cons.mpr ⟨fun entry hentry => ?_, hordered⟩
      rcases List.mem_cons.mp hentry with rfl | hentry
      · exact hlt
      · exact String.lt_trans hlt (hfirst entry hentry)
    · rw [if_neg hlt]
      by_cases heq : k = key
      · rw [if_pos heq]
        subst heq
        exact List.pairwise_cons.mpr ⟨hfirst, hrest⟩
      · rw [if_neg heq]
        refine List.pairwise_cons.mpr ⟨fun entry hentry => ?_, ih hrest⟩
        rcases mem_of_mem_insert hentry with rfl | hentry
        · exact lt_of_not_lt_of_ne hlt heq
        · exact hfirst entry hentry

/-- A key before all others goes to the front. -/
theorem insert_of_lt {d : Dict α} {key : String} (value : α)
    (hlt : ∀ entry ∈ d, key < entry.1) : insert d key value = (key, value) :: d := by
  cases d with
  | nil => rfl
  | cons head rest =>
    obtain ⟨k, v⟩ := head
    rw [insert, if_pos (hlt (k, v) (List.mem_cons_self ..))]

/-- A key behind all others goes to the end. -/
theorem insert_of_gt {d : Dict α} {key : String} (value : α)
    (hgt : ∀ entry ∈ d, entry.1 < key) : insert d key value = d ++ [(key, value)] := by
  induction d with
  | nil => rfl
  | cons head rest ih =>
    obtain ⟨k, v⟩ := head
    obtain ⟨hk, hrest⟩ := List.forall_mem_cons.mp hgt
    rw [insert, if_neg (String.lt_asymm hk), if_neg (String.ne_of_lt hk), ih hrest]
    rfl

theorem insert_cons_self (key : String) (value last : α) (rest : Dict α) :
    insert ((key, value) :: rest) key last = (key, last) :: rest := by
  rw [insert, if_neg (String.lt_irrefl key), if_pos rfl]

/-- The later of two insertions under one key stays. No order of the entries is needed. -/
theorem insert_insert_self (d : Dict α) (key : String) (value last : α) :
    insert (insert d key value) key last = insert d key last := by
  induction d with
  | nil => exact insert_cons_self key value last []
  | cons head rest ih =>
    obtain ⟨k, v⟩ := head
    rw [insert, insert]
    by_cases hlt : key < k
    · rw [if_pos hlt, if_pos hlt, insert_cons_self]
    · rw [if_neg hlt, if_neg hlt]
      by_cases heq : k = key
      · rw [if_pos heq, if_pos heq, insert_cons_self]
      · rw [if_neg heq, if_neg heq, insert, if_neg hlt, if_neg heq, ih]

/-- Removal undoes an insertion under its key. No order of the entries is needed. -/
theorem erase_insert_self (d : Dict α) (key : String) (value : α) :
    erase (insert d key value) key = erase d key := by
  induction d with
  | nil => rw [insert, erase_cons, if_pos rfl]
  | cons head rest ih =>
    obtain ⟨k, v⟩ := head
    rw [insert]
    by_cases hlt : key < k
    · rw [if_pos hlt, erase_cons, if_pos rfl]
    · rw [if_neg hlt]
      by_cases heq : k = key
      · rw [if_pos heq, erase_cons, erase_cons, if_pos rfl, if_pos heq]
      · rw [if_neg heq, erase_cons, erase_cons, if_neg heq, if_neg heq, ih]

/-- At different keys it does not matter which comes first. -/
theorem erase_insert_of_ne {d : Dict α} {key other : String} (value : α)
    (hordered : Ordered d) (hne : key ≠ other) :
    erase (insert d key value) other = insert (erase d other) key value := by
  induction d with
  | nil =>
    rw [insert, erase_cons, if_neg hne]
    rfl
  | cons head rest ih =>
    obtain ⟨k, v⟩ := head
    obtain ⟨hfirst, hrest⟩ := List.pairwise_cons.mp hordered
    rw [insert]
    by_cases hlt : key < k
    · have hall : ∀ entry ∈ erase ((k, v) :: rest) other, key < entry.1 := by
        intro entry hentry
        rcases List.mem_cons.mp (List.mem_filter.mp hentry).1 with rfl | hentry
        · exact hlt
        · exact String.lt_trans hlt (hfirst entry hentry)
      rw [if_pos hlt, erase_cons key value, if_neg hne, insert_of_lt value hall]
    · rw [if_neg hlt]
      by_cases heq : k = key
      · subst heq
        rw [if_pos rfl, erase_cons, erase_cons, if_neg hne, if_neg hne, insert_cons_self]
      · rw [if_neg heq, erase_cons, erase_cons, ih hrest]
        by_cases hother : k = other
        · rw [if_pos hother, if_pos hother]
        · rw [if_neg hother, if_neg hother, insert, if_neg hlt, if_neg heq]

/-- Insertion replaces what an ordered dictionary has under the key. -/
theorem insert_perm {d : Dict α} (key : String) (value : α) (hordered : Ordered d) :
    (insert d key value).Perm ((key, value) :: erase d key) := by
  induction d with
  | nil => exact List.Perm.refl _
  | cons head rest ih =>
    obtain ⟨k, v⟩ := head
    obtain ⟨hfirst, hrest⟩ := List.pairwise_cons.mp hordered
    rw [insert, erase_cons]
    by_cases hlt : key < k
    · have hall : erase rest key = rest := by
        refine List.filter_eq_self.mpr fun entry hentry => ?_
        have hgt := String.lt_trans hlt (hfirst entry hentry)
        exact decide_eq_true (String.ne_of_lt hgt).symm
      rw [if_pos hlt, if_neg (String.ne_of_lt hlt).symm, hall]
    · rw [if_neg hlt]
      by_cases heq : k = key
      · subst heq
        have hall : erase rest k = rest :=
          List.filter_eq_self.mpr fun entry hentry =>
            decide_eq_true (String.ne_of_lt (hfirst entry hentry)).symm
        rw [if_pos rfl, if_pos rfl, hall]
      · rw [if_neg heq, if_neg heq]
        exact ((ih hrest).cons _).trans (List.Perm.swap _ _ _)

/-! ## Many insertions -/

variable {base : Dict α} {entries : List (String × α)} {key : String}

theorem get?_foldl_insert (habsent : ∀ entry ∈ entries, entry.1 ≠ key) :
    get? (entries.foldl (fun d entry => insert d entry.1 entry.2) base) key = get? base key := by
  induction entries generalizing base with
  | nil => rfl
  | cons head rest ih =>
    obtain ⟨hhead, hrest⟩ := List.forall_mem_cons.mp habsent
    rw [List.foldl_cons, ih hrest, get?_insert_of_ne base _ hhead]

/-- Of several insertions under one key the last stays. -/
theorem get?_foldl_insert_eq (base : Dict α) (entries : List (String × α)) (key : String) :
    get? (entries.foldl (fun d entry => insert d entry.1 entry.2) base) key =
      ((entries.filter fun entry => entry.1 = key).getLast?.map Prod.snd).or (get? base key) := by
  induction entries generalizing base with
  | nil => rfl
  | cons head rest ih =>
    rw [List.foldl_cons, ih, List.filter_cons]
    by_cases heq : head.1 = key
    · subst heq
      rw [if_pos (decide_eq_true rfl), List.getLast?_cons, get?_insert_self]
      cases (rest.filter fun entry => entry.1 = head.1).getLast? <;> rfl
    · rw [if_neg (by rwa [decide_eq_true_eq]), get?_insert_of_ne base _ heq]

/-- The last entry of a key counts. -/
theorem get?_ofEntries (entries : List (String × α)) (key : String) :
    get? (ofEntries entries) key =
      (entries.filter fun entry => entry.1 = key).getLast?.map Prod.snd := by
  rw [ofEntries, get?_foldl_insert_eq, get?_nil, Option.or_none]

theorem ordered_foldl_insert (hordered : Ordered base) :
    Ordered (entries.foldl (fun d entry => insert d entry.1 entry.2) base) := by
  induction entries generalizing base with
  | nil => exact hordered
  | cons head rest ih => exact ih (ordered_insert head.1 head.2 hordered)

/-- A key that is not among the inserted may be erased before or after. -/
theorem erase_foldl_insert (hordered : Ordered base) (habsent : ∀ entry ∈ entries, entry.1 ≠ key) :
    erase (entries.foldl (fun d entry => insert d entry.1 entry.2) base) key =
      entries.foldl (fun d entry => insert d entry.1 entry.2) (erase base key) := by
  induction entries generalizing base with
  | nil => rfl
  | cons head rest ih =>
    obtain ⟨hhead, hrest⟩ := List.forall_mem_cons.mp habsent
    rw [List.foldl_cons, List.foldl_cons, ih (ordered_insert _ _ hordered) hrest,
      erase_insert_of_ne _ hordered hhead]

/-- Entries in key order are a dictionary as they stand. -/
theorem ofEntries_of_ordered {d : Dict α} (hordered : Ordered d) : ofEntries d = d := by
  have happend : ∀ (entries acc : Dict α), Ordered (acc ++ entries) →
      entries.foldl (fun d entry => insert d entry.1 entry.2) acc = acc ++ entries := by
    intro entries
    induction entries with
    | nil =>
      intro acc _
      exact (List.append_nil acc).symm
    | cons head rest ih =>
      intro acc hall
      obtain ⟨_, _, hbetween⟩ := List.pairwise_append.mp hall
      have hgt : ∀ entry ∈ acc, entry.1 < head.1 := fun entry hentry =>
        hbetween entry hentry head (List.mem_cons_self ..)
      have hsplit : acc ++ [head] ++ rest = acc ++ head :: rest := by
        rw [List.append_assoc]
        rfl
      rw [List.foldl_cons, insert_of_gt head.2 hgt, ih, hsplit]
      rw [hsplit]
      exact hall
  exact happend d [] hordered

end DocMapper.Dict
