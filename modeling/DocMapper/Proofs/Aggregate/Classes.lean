import DocMapper.Aggregate.Compute
import DocMapper.Proofs.Aggregate.Keys
import Mathlib.Data.List.Nodup
import Mathlib.Data.List.Perm.Subperm

/-!
# Counting values and classes of values

An aggregate of an attribute counts its values, or the classes that a text divides them into. Main
statements: the number of values is the number of documents where no document goes without
(`length_present_eq_iff`), and the number of classes is that of the distinct values where no two of
them have one text (`length_firstOfEach_eq_iff`).
-/

namespace DocMapper.Aggregate

variable {α : Type} {key : α → String} {seen : List String} {items : List α} {x y : α}

/-! ## Classes -/

theorem mem_of_mem_firstOfEach (hmem : x ∈ firstOfEach key seen items) :
    x ∈ items ∧ key x ∉ seen := by
  induction items generalizing seen with
  | nil => cases hmem
  | cons z rest ih =>
    rw [firstOfEach] at hmem
    split at hmem
    · obtain ⟨hrest, hnew⟩ := ih hmem
      exact ⟨List.mem_cons_of_mem z hrest, hnew⟩
    · rename_i hfirst
      obtain rfl | hlater := List.mem_cons.mp hmem
      · exact ⟨List.mem_cons_self, hfirst⟩
      · obtain ⟨hrest, hnew⟩ := ih hlater
        exact ⟨List.mem_cons_of_mem z hrest, fun hseen => hnew (List.mem_cons_of_mem _ hseen)⟩

theorem exists_mem_firstOfEach (hmem : x ∈ items) (hnew : key x ∉ seen) :
    ∃ y ∈ firstOfEach key seen items, key y = key x := by
  induction items generalizing seen with
  | nil => cases hmem
  | cons z rest ih =>
    rw [firstOfEach]
    obtain rfl | hrest := List.mem_cons.mp hmem
    · rw [if_neg hnew]
      exact ⟨x, List.mem_cons_self, rfl⟩
    · split
      · exact ih hrest hnew
      · by_cases hsame : key z = key x
        · exact ⟨z, List.mem_cons_self, hsame⟩
        · have hnew' : key x ∉ key z :: seen := by
            rw [List.mem_cons, not_or]
            exact ⟨Ne.symm hsame, hnew⟩
          obtain ⟨y, hy, hkey⟩ := ih hrest hnew'
          exact ⟨y, List.mem_cons_of_mem z hy, hkey⟩

/-- One item stands for each class. -/
theorem eq_of_mem_firstOfEach (hx : x ∈ firstOfEach key seen items)
    (hy : y ∈ firstOfEach key seen items) (hkey : key x = key y) : x = y := by
  induction items generalizing seen with
  | nil => cases hx
  | cons z rest ih =>
    rw [firstOfEach] at hx hy
    split at hx
    · rename_i hseen
      rw [if_pos hseen] at hy
      exact ih hx hy
    · rename_i hseen
      rw [if_neg hseen] at hy
      have hother : ∀ w ∈ firstOfEach key (key z :: seen) rest, key w ≠ key z := fun w hw hsame =>
        (mem_of_mem_firstOfEach hw).2 (hsame ▸ List.mem_cons_self)
      obtain rfl | hx := List.mem_cons.mp hx
      · obtain rfl | hy := List.mem_cons.mp hy
        · rfl
        · exact absurd hkey.symm (hother y hy)
      · obtain rfl | hy := List.mem_cons.mp hy
        · exact absurd hkey (hother x hx)
        · exact ih hx hy

theorem nodup_firstOfEach (key : α → String) (seen : List String) (items : List α) :
    (firstOfEach key seen items).Nodup := by
  induction items generalizing seen with
  | nil => exact List.nodup_nil
  | cons z rest ih =>
    rw [firstOfEach]
    split
    · exact ih seen
    · refine List.nodup_cons.mpr ⟨fun hmem => ?_, ih _⟩
      exact (mem_of_mem_firstOfEach hmem).2 List.mem_cons_self

/-- Of two lists without duplicates one is not longer than the other where it holds no more. -/
theorem subset_of_length_le {l m : List α} (hnodup : l.Nodup) (hsubset : l ⊆ m)
    (hle : m.length ≤ l.length) : m ⊆ l := by
  intro x hx
  apply Classical.byContradiction
  intro hmissing
  have hlonger : (x :: l).Nodup := List.nodup_cons.mpr ⟨hmissing, hnodup⟩
  have hlength := hlonger.length_le_of_subset (List.cons_subset.mpr ⟨hx, hsubset⟩)
  rw [List.length_cons] at hlength
  omega

/-- There are as many classes as members of a set without duplicates that holds the items where the
    set holds nothing else and no two items are in one class. -/
theorem length_firstOfEach_eq_iff {members : List α} (hnodup : members.Nodup)
    (hsubset : items ⊆ members) : (firstOfEach key [] items).length = members.length ↔
      members ⊆ items ∧ ∀ x ∈ items, ∀ y ∈ items, key x = key y → x = y := by
  have hitems : firstOfEach key [] items ⊆ items := fun x hx => (mem_of_mem_firstOfEach hx).1
  constructor
  · intro hlength
    have hfirst : members ⊆ firstOfEach key [] items :=
      subset_of_length_le (nodup_firstOfEach key [] items)
        (List.Subset.trans hitems hsubset) (Nat.le_of_eq hlength.symm)
    refine ⟨List.Subset.trans hfirst hitems, fun x hx y hy hkey => ?_⟩
    exact eq_of_mem_firstOfEach (hfirst (hsubset hx)) (hfirst (hsubset hy)) hkey
  · rintro ⟨hmembers, happart⟩
    have hfirst : members ⊆ firstOfEach key [] items := by
      intro x hx
      obtain ⟨y, hy, hkey⟩ : ∃ y ∈ firstOfEach key [] items, key y = key x :=
        exists_mem_firstOfEach (hmembers hx) List.not_mem_nil
      rw [← happart y (hitems hy) x (hmembers hx) hkey]
      exact hy
    refine Nat.le_antisymm ?_ (hnodup.length_le_of_subset hfirst)
    exact (nodup_firstOfEach key [] items).length_le_of_subset (List.Subset.trans hitems hsubset)

/-- The classes are told apart by their keys, which are those of the items. -/
theorem nodup_map_firstOfEach (key : α → String) (items : List α) :
    ((firstOfEach key [] items).map key).Nodup :=
  (List.nodup_map_iff_inj_on (nodup_firstOfEach key [] items)).mpr fun _ hx _ hy =>
    eq_of_mem_firstOfEach hx hy

theorem mem_map_firstOfEach_iff {k : String} :
    k ∈ (firstOfEach key [] items).map key ↔ ∃ x ∈ items, key x = k := by
  rw [List.mem_map]
  constructor
  · rintro ⟨x, hx, hkey⟩
    exact ⟨x, (mem_of_mem_firstOfEach hx).1, hkey⟩
  · rintro ⟨x, hx, rfl⟩
    exact exists_mem_firstOfEach hx List.not_mem_nil

section Finer

variable {fine : α → String}
  (hfiner : ∀ x ∈ items, ∀ y ∈ items, fine x = fine y → key x = key y)

include hfiner

/-- Every class by the coarser key has a class by the finer one in it. -/
theorem map_firstOfEach_subset_of_finer :
    (firstOfEach key [] items).map key ⊆ (firstOfEach fine [] items).map key := by
  intro k hk
  obtain ⟨x, hx, rfl⟩ := mem_map_firstOfEach_iff.mp hk
  obtain ⟨y, hy, hxy⟩ : ∃ y ∈ firstOfEach fine [] items, fine y = fine x :=
    exists_mem_firstOfEach hx List.not_mem_nil
  exact List.mem_map.mpr ⟨y, hy, hfiner y (mem_of_mem_firstOfEach hy).1 x hx hxy⟩

/-- There are no fewer classes by the finer key. -/
theorem length_firstOfEach_le_of_finer :
    (firstOfEach key [] items).length ≤ (firstOfEach fine [] items).length := by
  have hle := (nodup_map_firstOfEach key items).length_le_of_subset
    (map_firstOfEach_subset_of_finer hfiner)
  rwa [List.length_map, List.length_map] at hle

/-- There are no more classes by the finer key exactly if the coarser one tells the same items
    apart. -/
theorem length_firstOfEach_eq_iff_of_finer :
    (firstOfEach key [] items).length = (firstOfEach fine [] items).length ↔
      ∀ x ∈ items, ∀ y ∈ items, key x = key y → fine x = fine y := by
  constructor
  · intro hlength x hx y hy hkey
    have hperm := ((nodup_map_firstOfEach key items).subperm
      (map_firstOfEach_subset_of_finer hfiner)).perm_of_length_le
        (by rw [List.length_map, List.length_map]; exact Nat.le_of_eq hlength.symm)
    have hnodup := hperm.nodup_iff.mp (nodup_map_firstOfEach key items)
    obtain ⟨x', hx', hxfine⟩ : ∃ x' ∈ firstOfEach fine [] items, fine x' = fine x :=
      exists_mem_firstOfEach hx List.not_mem_nil
    obtain ⟨y', hy', hyfine⟩ : ∃ y' ∈ firstOfEach fine [] items, fine y' = fine y :=
      exists_mem_firstOfEach hy List.not_mem_nil
    have hsame : key x' = key y' := by
      rw [hfiner x' (mem_of_mem_firstOfEach hx').1 x hx hxfine,
        hfiner y' (mem_of_mem_firstOfEach hy').1 y hy hyfine, hkey]
    rw [← hxfine, List.inj_on_of_nodup_map hnodup hx' hy' hsame, hyfine]
  · intro hcoarser
    exact Nat.le_antisymm (length_firstOfEach_le_of_finer hfiner)
      (length_firstOfEach_le_of_finer hcoarser)

end Finer

/-! ## Values of an attribute -/

/-- The value at an attribute, `null` where there is none. -/
def keyAt (attr : String) (doc : Document) : Json := (Dict.get? doc attr).getD .null

/-- The values at an attribute other than `null`. -/
def present (attr : String) (docs : List Document) : List Json :=
  (valuesAt attr docs).filter fun v => !v.isNull

variable {attr : String} {docs : List Document} {v : Json}

theorem mem_valuesAt_iff : v ∈ valuesAt attr docs ↔ ∃ doc ∈ docs, Dict.get? doc attr = some v := by
  rw [valuesAt, List.mem_filterMap]

theorem isNull_eq_true_iff : v.isNull = true ↔ v = .null := by
  cases v <;> simp [Json.isNull]

theorem present_eq (attr : String) (docs : List Document) :
    present attr docs = (docs.map (keyAt attr)).filter fun v => !v.isNull := by
  unfold present valuesAt
  induction docs with
  | nil => rfl
  | cons doc rest ih =>
    cases hvalue : Dict.get? doc attr with
    | none =>
      have hkey : keyAt attr doc = .null := by rw [keyAt, hvalue, Option.getD_none]
      rw [List.filterMap_cons, hvalue, List.map_cons, hkey]
      exact ih
    | some v =>
      have hkey : keyAt attr doc = v := by rw [keyAt, hvalue, Option.getD_some]
      rw [List.filterMap_cons, hvalue, List.map_cons, hkey, List.filter_cons, List.filter_cons, ih]

theorem mem_present_iff : v ∈ present attr docs ↔ v ∈ docs.map (keyAt attr) ∧ v ≠ .null := by
  rw [present_eq, List.mem_filter, Bool.not_eq_true', ← Bool.not_eq_true, isNull_eq_true_iff]

/-- There are as many values as documents where no document goes without. -/
theorem length_present_eq_iff :
    (present attr docs).length = docs.length ↔ ∀ doc ∈ docs, keyAt attr doc ≠ .null := by
  have hlength : (docs.map (keyAt attr)).length = docs.length := List.length_map _
  rw [present_eq, ← hlength, List.length_filter_eq_length_iff, List.forall_mem_map]
  refine forall_congr' fun doc => forall_congr' fun _ => ?_
  rw [Bool.not_eq_true', ← Bool.not_eq_true, isNull_eq_true_iff]

end DocMapper.Aggregate
