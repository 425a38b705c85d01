import DocMapper.Proofs.Aggregate.GroupKeys

/-!
# Distinct values

The distinct values of an attribute are the first ones with their keys, in the order of the
documents, and a count of them leaves `null` out. Main statement: which values are listed, and that
the count is that of the listed values other than `null`, in whatever order the documents come.
-/

namespace DocMapper.Aggregate

/-! ## First items -/

section Firsts

variable {α : Type} {key : α → String} {seen other : List String} {items selected : List α}
  {x y z : α} {P : Nat → Prop} {i : Nat}

/-- The items at the positions with this property were selected, in order. -/
def SelectsAt (P : Nat → Prop) (items selected : List α) : Prop :=
  ∃ positions : List Nat, positions.Pairwise (· < ·) ∧
    positions.map (fun i => items[i]?) = selected.map some ∧ ∀ i, i ∈ positions ↔ P i

/-- The item at this position has a key that no item before it has, and none of these. -/
def NewAt (key : α → String) (seen : List String) (items : List α) (i : Nat) : Prop :=
  ∃ x, items[i]? = some x ∧ key x ∉ seen ∧ key x ∉ (items.take i).map key

theorem SelectsAt.skip (hselects : SelectsAt (fun i => P (i + 1)) items selected) (hfirst : ¬P 0) :
    SelectsAt P (z :: items) selected := by
  obtain ⟨positions, hordered, hselected, hpositions⟩ := hselects
  refine ⟨positions.map (· + 1), List.pairwise_map.mpr (hordered.imp Nat.succ_lt_succ), ?_, ?_⟩
  · rw [List.map_map, ← hselected]
    rfl
  · intro i
    cases i with
    | zero => simp [hfirst]
    | succ i => simp [hpositions]

theorem SelectsAt.keep (hselects : SelectsAt (fun i => P (i + 1)) items selected) (hfirst : P 0) :
    SelectsAt P (z :: items) (z :: selected) := by
  obtain ⟨positions, hordered, hselected, hpositions⟩ := hselects
  refine ⟨0 :: positions.map (· + 1), List.pairwise_cons.mpr ⟨?_, ?_⟩, ?_, ?_⟩
  · exact List.forall_mem_map.mpr fun i _ => Nat.succ_pos i
  · exact List.pairwise_map.mpr (hordered.imp Nat.succ_lt_succ)
  · rw [List.map_cons, List.map_map, List.map_cons, ← hselected]
    rfl
  · intro i
    cases i with
    | zero => simp [hfirst]
    | succ i => simp [hpositions]

theorem newAt_zero_iff : NewAt key seen (z :: items) 0 ↔ key z ∉ seen := by
  simp [NewAt]

theorem newAt_succ_iff :
    NewAt key seen (z :: items) (i + 1) ↔ NewAt key (key z :: seen) items i := by
  simp only [NewAt, List.getElem?_cons_succ, List.take_succ_cons, List.map_cons, List.mem_cons,
    not_or]
  refine exists_congr fun x => and_congr_right fun _ => ?_
  rw [← and_assoc, and_comm (a := key x ∉ seen)]

/-- A key that was seen already is not new to look out for. -/
theorem newAt_cons_of_mem (hseen : key z ∈ seen) :
    NewAt key (key z :: seen) items i ↔ NewAt key seen items i := by
  refine exists_congr fun x => and_congr_right fun _ => and_congr_left fun _ => ?_
  rw [List.mem_cons, not_or, and_iff_right_iff_imp]
  rintro hnew hsame
  exact hnew (hsame ▸ hseen)

/-- The first of each key is selected, in order. -/
theorem selectsAt_firstOfEach (key : α → String) (seen : List String) (items : List α) :
    SelectsAt (NewAt key seen items) items (firstOfEach key seen items) := by
  induction items generalizing seen with
  | nil => exact ⟨[], .nil, rfl, fun i => by simp [NewAt]⟩
  | cons z rest ih =>
    have hlater : ∀ i, NewAt key seen (z :: rest) (i + 1) ↔ NewAt key (key z :: seen) rest i :=
      fun i => newAt_succ_iff
    rw [firstOfEach]
    split
    · rename_i hseen
      refine SelectsAt.skip ?_ fun hnew => newAt_zero_iff.mp hnew hseen
      simp only [hlater, newAt_cons_of_mem hseen]
      exact ih seen
    · rename_i hseen
      refine SelectsAt.keep ?_ (newAt_zero_iff.mpr hseen)
      simp only [hlater]
      exact ih (key z :: seen)

theorem sublist_firstOfEach (key : α → String) (seen : List String) (items : List α) :
    (firstOfEach key seen items).Sublist items := by
  induction items generalizing seen with
  | nil => exact .slnil
  | cons z rest ih =>
    rw [firstOfEach]
    split
    · exact (ih seen).cons z
    · exact (ih (key z :: seen)).cons_cons z

/-- The first item with a key stands for all of them. -/
theorem find?_mem_firstOfEach (hfirst : items.find? (fun z => key z = key x) = some y)
    (hnew : key x ∉ seen) : y ∈ firstOfEach key seen items := by
  induction items generalizing seen with
  | nil => cases hfirst
  | cons z rest ih =>
    rw [firstOfEach]
    rw [List.find?_cons] at hfirst
    split at hfirst
    · rename_i hsame
      rw [of_decide_eq_true hsame, if_neg hnew, Option.some.inj hfirst]
      exact List.mem_cons_self
    · rename_i hother
      split
      · exact ih hfirst hnew
      · refine List.mem_cons_of_mem z (ih hfirst ?_)
        rw [List.mem_cons, not_or]
        exact ⟨Ne.symm (of_decide_eq_false hother), hnew⟩

/-- To leave items out before or after the first ones are selected is the same where items with one
    key are left out together. -/
theorem firstOfEach_filter {p : α → Bool}
    (hclasses : ∀ x ∈ items, ∀ y ∈ items, key x = key y → p x = p y)
    (hseen : ∀ x ∈ items, p x = true → (key x ∈ other ↔ key x ∈ seen)) :
    firstOfEach key other (items.filter p) = (firstOfEach key seen items).filter p := by
  induction items generalizing seen other with
  | nil => rfl
  | cons z rest ih =>
    obtain ⟨hfirst, hlater⟩ := List.forall_mem_cons.mp hseen
    have hrest : ∀ x ∈ rest, ∀ y ∈ rest, key x = key y → p x = p y := fun x hx y hy =>
      hclasses x (List.mem_cons_of_mem z hx) y (List.mem_cons_of_mem z hy)
    cases hz : p z with
    | true =>
      rw [List.filter_cons_of_pos hz, firstOfEach, firstOfEach]
      by_cases hold : key z ∈ seen
      · rw [if_pos hold, if_pos ((hfirst hz).mpr hold)]
        exact ih hrest hlater
      · rw [if_neg hold, if_neg (mt (hfirst hz).mp hold), List.filter_cons_of_pos hz]
        refine congrArg _ (ih hrest fun x hx hpx => ?_)
        rw [List.mem_cons, List.mem_cons, hlater x hx hpx]
    | false =>
      have hnot : ¬p z = true := Bool.eq_false_iff.mp hz
      rw [List.filter_cons_of_neg hnot, firstOfEach]
      by_cases hold : key z ∈ seen
      · rw [if_pos hold]
        exact ih hrest hlater
      · rw [if_neg hold, List.filter_cons_of_neg hnot]
        refine ih hrest fun x hx hpx => ?_
        have hapart : key x ≠ key z := by
          intro hsame
          rw [hclasses x (List.mem_cons_of_mem z hx) z List.mem_cons_self hsame, hz] at hpx
          cases hpx
        rw [hlater x hx hpx, List.mem_cons, or_iff_right hapart]

/-- The number of classes does not depend on the order of the items. -/
theorem length_firstOfEach_perm {others : List α} (hperm : items.Perm others) :
    (firstOfEach key [] items).length = (firstOfEach key [] others).length := by
  have hkeys : ((firstOfEach key [] items).map key).Perm ((firstOfEach key [] others).map key) := by
    refine (List.perm_ext_iff_of_nodup (nodup_map_firstOfEach key items)
      (nodup_map_firstOfEach key others)).mpr fun k => ?_
    rw [mem_map_firstOfEach_iff, mem_map_firstOfEach_iff]
    exact exists_congr fun x => and_congr_left fun _ => hperm.mem_iff
  have hlength := hkeys.length_eq
  rwa [List.length_map, List.length_map] at hlength

end Firsts

/-! ## Values -/

variable {v w : Json} {type : Option AttributeType}

/-- No value but `null` has its key. -/
theorem valueKey_eq_null_iff : valueKey v type = valueKey .null type ↔ v = .null := by
  refine ⟨fun heq => ?_, fun heq => by rw [heq]⟩
  obtain ⟨rest, hnull⟩ : ∃ rest, (valueKey .null type).toList = 'n' :: rest :=
    ⟨_, String.toList_ofList⟩
  have hlead : ∀ c tail, (valueKey v type).toList = c :: tail → c = 'n' := by
    intro c tail hkey
    rw [heq, hnull] at hkey
    exact (List.cons.inj hkey).1.symm
  cases v with
  | null => rfl
  | str s =>
    obtain ⟨c, hc, tail, hkey⟩ := valueKey_str_lead s type
    rw [hlead c tail hkey] at hc
    exact absurd hc (by decide)
  | num n =>
    have hmem : 'n' ∈ (valueKey (.num n) type).toList := by
      rw [heq, hnull]
      exact List.mem_cons_self
    exact absurd (Quantity.mem_text hmem) (by decide)
  | bool b =>
    cases b with
    | true => exact absurd (hlead 't' _ String.toList_ofList) (by decide)
    | false => exact absurd (hlead 'f' _ String.toList_ofList) (by decide)
  | arr items => exact absurd (hlead '[' _ String.toList_ofList) (by decide)
  | obj fields => exact absurd (hlead '\x7b' _ String.toList_ofList) (by decide)

/-- The distinct values of an attribute are the first values with their keys, in the order of the
    documents: each position whose key is new is selected and no other, so no two of them have one
    key, and every value is represented by the first one with its key. A count of distinct values
    is the number of those that are not `null`, in whatever order the documents come. -/
theorem distinct_listed_and_counted (schema : Schema) (attr : String) (docs : List Document) :
    ∃ distinct, compute schema ⟨.distinct, some attr⟩ docs = .ok (.values distinct) ∧
      distinct.Sublist (valuesAt attr docs) ∧
      SelectsAt (NewAt (valueKey · (schema.attributeType? attr)) [] (valuesAt attr docs))
        (valuesAt attr docs) distinct ∧
      (distinct.map (valueKey · (schema.attributeType? attr))).Nodup ∧
      (∀ v ∈ valuesAt attr docs, ∃ w ∈ distinct,
        (valuesAt attr docs).find? (fun u => valueKey u (schema.attributeType? attr) =
          valueKey v (schema.attributeType? attr)) = some w) ∧
      ∀ others, others.Perm docs → compute schema ⟨.countDistinct, some attr⟩ others =
        .ok (.count (distinct.filter fun v => !v.isNull).length) := by
  generalize htype : schema.attributeType? attr = type
  refine ⟨firstOfEach (valueKey · type) [] (valuesAt attr docs), by rw [← htype]; rfl,
    sublist_firstOfEach _ _ _, selectsAt_firstOfEach _ _ _, nodup_map_firstOfEach _ _, ?_, ?_⟩
  · intro v hv
    cases hfirst : (valuesAt attr docs).find? fun u => valueKey u type = valueKey v type with
    | none => exact absurd (decide_eq_true rfl) (List.find?_eq_none.mp hfirst v hv)
    | some w => exact ⟨w, find?_mem_firstOfEach hfirst List.not_mem_nil, rfl⟩
  · intro others hperm
    have hcount : compute schema ⟨.countDistinct, some attr⟩ others =
        .ok (.count (firstOfEach (valueKey · type) []
          ((valuesAt attr others).filter fun v => !v.isNull)).length) := by
      rw [← htype]
      rfl
    have hvalues : ((valuesAt attr others).filter fun v => !v.isNull).Perm
        ((valuesAt attr docs).filter fun v => !v.isNull) := (hperm.filterMap _).filter _
    have hclasses : ∀ v ∈ valuesAt attr docs, ∀ w ∈ valuesAt attr docs,
        valueKey v type = valueKey w type → (!v.isNull) = !w.isNull := by
      intro v _ w _ hkey
      have hnull : v = .null ↔ w = .null := calc
        v = .null ↔ valueKey v type = valueKey .null type := valueKey_eq_null_iff.symm
        _ ↔ w = .null := by rw [hkey, valueKey_eq_null_iff]
      rw [← isNull_eq_true_iff, ← isNull_eq_true_iff] at hnull
      rw [Bool.eq_iff_iff.mpr hnull]
    rw [hcount, length_firstOfEach_perm hvalues, firstOfEach_filter hclasses fun _ _ _ => Iff.rfl]

end DocMapper.Aggregate
