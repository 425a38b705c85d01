import DocMapper.Proofs.Dict.Order
import DocMapper.Proofs.Traversal
import Mathlib.Data.List.Induction

/-!
# Items under keys

Items are gathered one after another, each behind those that are under its key already. Under every
key there are then the items that have it, in order, and all groups together have each item as often
as it came.
-/

namespace DocMapper.Dict

variable {α β : Type}

/-- Put an item behind those that are under its key already. -/
def gather (groups : Dict (List α)) (key : String) (x : α) : Dict (List α) :=
  groups.insert key ((groups.get? key).getD [] ++ [x])

/-- Items under their keys, in order under each. -/
def grouped (key : α → String) (xs : List α) : Dict (List α) :=
  xs.foldl (fun groups x => groups.gather (key x) x) []

/-- A further element is gathered into the groups of the others. -/
theorem grouped_concat (key : α → String) (xs : List α) (x : α) :
    grouped key (xs ++ [x]) = (grouped key xs).gather (key x) x := by
  rw [grouped, List.foldl_append, List.foldl_cons, List.foldl_nil, grouped]

theorem ordered_grouped (key : α → String) (xs : List α) : Ordered (grouped key xs) := by
  induction xs using List.reverseRecOn with
  | nil => exact List.Pairwise.nil
  | append_singleton rest x ih =>
    rw [grouped_concat]
    exact ordered_insert _ _ ih

/-- Under a key there are the items that have it, in order. -/
theorem get?_grouped (key : α → String) (xs : List α) (k : String) :
    (get? (grouped key xs) k).getD [] = xs.filter fun x => key x = k := by
  induction xs using List.reverseRecOn with
  | nil => rfl
  | append_singleton rest x ih =>
    rw [grouped_concat, gather, List.filter_append]
    by_cases heq : key x = k
    · have hlast : ([x].filter fun x => key x = k) = [x] :=
        List.filter_cons_of_pos (decide_eq_true heq)
      rw [hlast, heq, get?_insert_self, Option.getD_some, ih]
    · have hlast : ([x].filter fun x => key x = k) = [] :=
        List.filter_cons_of_neg (by rwa [decide_eq_true_eq])
      rw [hlast, get?_insert_of_ne _ _ heq, ih, List.append_nil]

/-- No group is empty. -/
theorem ne_nil_of_mem_grouped {key : α → String} {xs : List α} {group : String × List α}
    (hmem : group ∈ grouped key xs) : group.2 ≠ [] := by
  induction xs using List.reverseRecOn with
  | nil => cases hmem
  | append_singleton rest x ih =>
    rw [grouped_concat] at hmem
    rcases mem_of_mem_insert hmem with rfl | hold
    · exact List.append_ne_nil_of_right_ne_nil _ (List.cons_ne_nil x [])
    · exact ih hold

/-- The groups: a key that some item has, with the items that have it, in order. -/
theorem mem_grouped_iff {key : α → String} {xs : List α} {k : String} {members : List α} :
    (k, members) ∈ grouped key xs ↔
      (∃ x ∈ xs, key x = k) ∧ members = xs.filter fun x => key x = k := by
  have hget := get?_grouped key xs k
  constructor
  · intro hmem
    rw [get?_of_mem (ordered_grouped key xs) hmem, Option.getD_some] at hget
    subst hget
    obtain ⟨x, hx⟩ := List.exists_mem_of_ne_nil _ (ne_nil_of_mem_grouped hmem)
    obtain ⟨hxs, hkey⟩ := List.mem_filter.mp hx
    exact ⟨⟨x, hxs, of_decide_eq_true hkey⟩, rfl⟩
  · rintro ⟨⟨x, hx, hkey⟩, rfl⟩
    cases hgroup : get? (grouped key xs) k with
    | none =>
      rw [hgroup, Option.getD_none] at hget
      have hin : x ∈ xs.filter fun x => key x = k :=
        List.mem_filter.mpr ⟨hx, decide_eq_true hkey⟩
      rw [← hget] at hin
      cases hin
    | some members =>
      rw [hgroup, Option.getD_some] at hget
      rw [← hget]
      exact mem_of_get? hgroup

/-- A dictionary has the entry that is found under a key, and the others. -/
theorem perm_of_get? {d : Dict α} {key : String} {value : α} (hordered : Ordered d)
    (hget : d.get? key = some value) : d.Perm ((key, value) :: erase d key) := by
  have hself : insert d key value = d := by
    refine eq_of_get?_eq (ordered_insert key value hordered) hordered fun other => ?_
    by_cases heq : key = other
    · rw [← heq, get?_insert_self, hget]
    · rw [get?_insert_of_ne d value heq]
  have hinsert := insert_perm key value hordered
  rwa [hself] at hinsert

theorem erase_of_get?_eq_none {d : Dict α} {key : String} (hget : d.get? key = none) :
    erase d key = d := by
  refine List.filter_eq_self.mpr fun entry hentry => decide_eq_true fun heq => ?_
  subst heq
  obtain ⟨value, hvalue⟩ := exists_get?_eq_some_iff.mpr ⟨entry.2, hentry⟩
  rw [hget] at hvalue
  cases hvalue

/-- Gathering loses nothing and repeats nothing. -/
theorem flatten_gather_perm {groups : Dict (List α)} (hordered : Ordered groups) (key : String)
    (x : α) : (gather groups key x).values.flatten.Perm (groups.values.flatten ++ [x]) := by
  have hinsert := ((insert_perm key ((groups.get? key).getD [] ++ [x]) hordered).map
    Prod.snd).flatten
  have hrest : groups.values.flatten.Perm
      ((groups.get? key).getD [] ++ (erase groups key).values.flatten) := by
    cases hget : groups.get? key with
    | none =>
      rw [erase_of_get?_eq_none hget]
      exact List.Perm.refl _
    | some members => exact ((perm_of_get? hordered hget).map Prod.snd).flatten
  calc (gather groups key x).values.flatten
    List.Perm _ ((groups.get? key).getD [] ++ [x] ++ (erase groups key).values.flatten) := hinsert
    List.Perm _ ((groups.get? key).getD [] ++ (erase groups key).values.flatten ++ [x]) := by
      rw [List.append_assoc, List.append_assoc]
      exact List.perm_append_comm.append_left _
    List.Perm _ (groups.values.flatten ++ [x]) := hrest.symm.append_right _

/-- All groups together have each item as often as it came. -/
theorem flatten_grouped_perm (key : α → String) (xs : List α) :
    (grouped key xs).values.flatten.Perm xs := by
  induction xs using List.reverseRecOn with
  | nil => exact List.Perm.refl _
  | append_singleton rest x ih =>
    rw [grouped_concat]
    exact (flatten_gather_perm (ordered_grouped key rest) (key x) x).trans (ih.append_right _)

/-- There is a group for every key that occurs. -/
theorem mem_keys_grouped_iff {key : α → String} {xs : List α} {k : String} :
    k ∈ (grouped key xs).keys ↔ ∃ x ∈ xs, key x = k := by
  rw [keys, List.mem_map]
  constructor
  · rintro ⟨⟨k, members⟩, hmem, rfl⟩
    exact (mem_grouped_iff.mp hmem).1
  · intro hkey
    exact ⟨(k, _), mem_grouped_iff.mpr ⟨hkey, rfl⟩, rfl⟩

/-- Grouping depends on the keys alone. -/
theorem grouped_congr {key other : α → String} {xs : List α} (hkeys : ∀ x ∈ xs, key x = other x) :
    grouped key xs = grouped other xs := by
  induction xs using List.reverseRecOn with
  | nil => rfl
  | append_singleton rest x ih =>
    obtain ⟨hrest, hx⟩ := List.forall_mem_append.mp hkeys
    rw [grouped_concat, grouped_concat, ih hrest, List.forall_mem_singleton.mp hx]

/-! ## Other items under the same keys -/

theorem get?_mapValues (f : α → β) (d : Dict α) (key : String) :
    get? (d.mapValues f) key = (get? d key).map f := by
  induction d with
  | nil => rfl
  | cons head rest ih =>
    obtain ⟨k, v⟩ := head
    have hcons : mapValues f ((k, v) :: rest) = (k, f v) :: mapValues f rest := rfl
    rw [hcons, get?, get?]
    by_cases heq : k = key
    · rw [if_pos heq, if_pos heq, Option.map_some]
    · rw [if_neg heq, if_neg heq, ih]

theorem keys_mapValues (f : α → β) (d : Dict α) : (d.mapValues f).keys = d.keys := by
  rw [keys, mapValues, List.map_map]
  rfl

theorem ordered_mapValues (f : α → β) {d : Dict α} (hordered : Ordered d) :
    Ordered (d.mapValues f) := List.pairwise_map.mpr hordered

theorem insert_mapValues (f : α → β) (d : Dict α) (key : String) (value : α) :
    (insert d key value).mapValues f = insert (d.mapValues f) key (f value) := by
  induction d with
  | nil => rfl
  | cons head rest ih =>
    obtain ⟨k, v⟩ := head
    have hcons : ∀ (k : String) (v : α) (rest : Dict α),
        mapValues f ((k, v) :: rest) = (k, f v) :: mapValues f rest := fun _ _ _ => rfl
    rw [insert, hcons, insert]
    by_cases hlt : key < k
    · rw [if_pos hlt, if_pos hlt, hcons, hcons]
    · rw [if_neg hlt, if_neg hlt]
      by_cases heq : k = key
      · rw [if_pos heq, if_pos heq, hcons]
      · rw [if_neg heq, if_neg heq, hcons, ih]

theorem mapValues_gather (f : α → β) (groups : Dict (List α)) (key : String) (x : α) :
    (gather groups key x).mapValues (List.map f) =
      gather (groups.mapValues (List.map f)) key (f x) := by
  rw [gather, insert_mapValues, gather, get?_mapValues, List.map_append]
  cases groups.get? key <;> rfl

/-- What is made of items one by one can be made before they are grouped or afterwards. -/
theorem grouped_map (key : β → String) (f : α → β) (xs : List α) :
    grouped key (xs.map f) = (grouped (fun x => key (f x)) xs).mapValues (List.map f) := by
  induction xs using List.reverseRecOn with
  | nil => rfl
  | append_singleton rest x ih =>
    rw [List.map_append, List.map_cons, List.map_nil, grouped_concat, ih, grouped_concat,
      mapValues_gather]

/-- A traversal of the values keeps the keys. -/
theorem get?_of_mapM {ε : Type} {f : α → Except ε β} {d : Dict α} {out : Dict β}
    (hmap : d.mapM (fun entry => f entry.2 >>= fun v => .ok (entry.1, v)) = .ok out) :
    out.keys = d.keys ∧ ∀ key, get? out key = (get? d key).bind fun v => (f v).toOption := by
  induction d generalizing out with
  | nil =>
    cases hmap
    exact ⟨rfl, fun _ => rfl⟩
  | cons head rest ih =>
    obtain ⟨k, v⟩ := head
    obtain ⟨entry, later, hentry, hrest, rfl⟩ := mapM_cons_eq_ok hmap
    obtain ⟨w, hw, hself⟩ := bind_eq_ok_iff.mp hentry
    cases hself
    obtain ⟨hkeys, hget⟩ := ih hrest
    refine ⟨congrArg (k :: ·) hkeys, fun key => ?_⟩
    rw [get?, get?]
    by_cases heq : k = key
    · rw [if_pos heq, if_pos heq, Option.bind_some, hw, toOption_ok]
    · rw [if_neg heq, if_neg heq, hget]

end DocMapper.Dict
