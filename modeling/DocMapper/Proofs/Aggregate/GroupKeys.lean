import DocMapper.Proofs.Aggregate.Classes
import DocMapper.Proofs.Date.Instant

/-!
# Keys of groups

A group has a text as its key, and a text among the values stands for itself in it. Main statement:
apart from such texts the keys of groups tell the same values apart as the keys of distinct values.
-/

namespace DocMapper.Aggregate

variable {type : Option AttributeType} {s : String} {v w : Json} {millis : Int}

theorem groupKey_of_instant (hinstant : instant? type s = some millis) :
    groupKey (some (.str s)) type = Instant.text millis := by
  rw [instant?] at hinstant
  simp only [groupKey, hinstant]

theorem groupKey_of_no_instant (hnone : instant? type s = none) :
    groupKey (some (.str s)) type = s := by
  rw [instant?] at hnone
  simp only [groupKey, hnone]

/-- What is no text has the key of distinct values. -/
theorem groupKey_of_no_text (hv : ∀ s, v ≠ .str s) : groupKey (some v) type = valueKey v type := by
  cases v with
  | str s => exact absurd rfl (hv s)
  | null => rfl
  | _ => rfl

/-- Where the key of a group comes from. -/
inductive GroupKey (type : Option AttributeType) : Option Json → String → Prop
  | missing : GroupKey type none "undefined"
  /-- A text that is no date stands for itself. -/
  | text (s : String) (hnone : instant? type s = none) : GroupKey type (some (.str s)) s
  | date (s : String) (millis : Int) (hinstant : instant? type s = some millis) :
    GroupKey type (some (.str s)) (Instant.text millis)
  | other (v : Json) (hv : ∀ s, v ≠ .str s) : GroupKey type (some v) (valueKey v type)

/-- Every value is grouped under the key of its kind. -/
theorem groupKey_spec (type : Option AttributeType) (v : Option Json) :
    GroupKey type v (groupKey v type) := by
  cases v with
  | none => exact .missing
  | some v =>
    by_cases htext : ∃ s, v = .str s
    · obtain ⟨s, rfl⟩ := htext
      cases hinstant : instant? type s with
      | none =>
        rw [groupKey_of_no_instant hinstant]
        exact .text s hinstant
      | some millis =>
        rw [groupKey_of_instant hinstant]
        exact .date s millis hinstant
    · have hv : ∀ s, v ≠ .str s := not_exists.mp htext
      rw [groupKey_of_no_text hv]
      exact .other v hv

/-! ## Characters of keys -/

/-- What is no text is a number, or has a key that begins with a letter or a bracket. -/
theorem valueKey_chars (type : Option AttributeType) (hv : ∀ s, v ≠ .str s) :
    (∀ c ∈ (valueKey v type).toList, c.isDigit = true ∨ c = '.' ∨ c = '-') ∨
      ∃ c ∈ ['n', 't', 'f', '[', '\x7b'], ∃ rest, (valueKey v type).toList = c :: rest := by
  cases v with
  | str s => exact absurd rfl (hv s)
  | num n => exact .inl fun c hc => Quantity.mem_text hc
  | null => exact .inr ⟨'n', by decide, _, String.toList_ofList⟩
  | bool b =>
    cases b with
    | true => exact .inr ⟨'t', by decide, _, String.toList_ofList⟩
    | false => exact .inr ⟨'f', by decide, _, String.toList_ofList⟩
  | arr items => exact .inr ⟨'[', by decide, _, String.toList_ofList⟩
  | obj fields => exact .inr ⟨'\x7b', by decide, _, String.toList_ofList⟩

theorem valueKey_str_lead (s : String) (type : Option AttributeType) :
    ∃ c ∈ ['"', 'd'], ∃ rest, (valueKey (.str s) type).toList = c :: rest := by
  cases hinstant : instant? type s with
  | none =>
    rw [valueKey_of_no_instant hinstant]
    exact ⟨'"', by decide, _, String.toList_ofList⟩
  | some millis =>
    rw [valueKey_of_instant hinstant]
    exact ⟨'d', by decide, _, String.toList_append⟩

/-- Texts and other values have different keys. -/
theorem valueKey_str_ne (hv : ∀ s, v ≠ .str s) (s : String) :
    valueKey (.str s) type ≠ valueKey v type := by
  intro heq
  obtain ⟨c, hc, rest, hkey⟩ := valueKey_str_lead s type
  rw [heq] at hkey
  rcases valueKey_chars type hv with hnumber | ⟨first, hfirst, _, hlead⟩
  · have hapart : ∀ c ∈ ['"', 'd'], ¬(c.isDigit = true ∨ c = '.' ∨ c = '-') := by simp
    exact hapart c hc (hnumber c (hkey ▸ List.mem_cons_self))
  · have hapart : ∀ c ∈ ['"', 'd'], c ∉ ['n', 't', 'f', '[', '\x7b'] := by simp
    rw [hkey] at hlead
    exact hapart c hc ((List.cons.inj hlead).1 ▸ hfirst)

theorem valueKey_ne_undefined (hv : ∀ s, v ≠ .str s) : valueKey v type ≠ "undefined" := by
  intro heq
  have hkey : (valueKey v type).toList = 'u' :: "ndefined".toList := by
    rw [heq]
    rfl
  rcases valueKey_chars type hv with hnumber | ⟨first, hfirst, _, hlead⟩
  · exact absurd (hnumber 'u' (hkey ▸ List.mem_cons_self)) (by decide)
  · rw [hkey] at hlead
    exact absurd ((List.cons.inj hlead).1 ▸ hfirst) (by decide)

theorem text_ne_valueKey (hv : ∀ s, v ≠ .str s) : Instant.text millis ≠ valueKey v type := by
  intro heq
  rcases valueKey_chars type hv with hnumber | ⟨first, hfirst, _, hlead⟩
  · exact absurd (hnumber 'T' (heq ▸ Instant.mem_text_T millis)) (by decide)
  · have hapart : ∀ c ∈ ['n', 't', 'f', '[', '\x7b'],
        ¬(c.isDigit = true ∨ c ∈ ['+', '-', 'T', ':', '.', 'Z']) := by simp
    have hmem : first ∈ (Instant.text millis).toList := by
      rw [heq, hlead]
      exact List.mem_cons_self
    exact hapart first hfirst (Instant.mem_text hmem)

theorem text_ne_undefined : Instant.text millis ≠ "undefined" := by
  intro heq
  have hmem : 'u' ∈ (Instant.text millis).toList := by
    rw [heq]
    decide
  exact absurd (Instant.mem_text hmem) (by decide)

/-! ## Keys of groups and of distinct values -/

/-- Values with one key among distinct values are in one group. -/
theorem groupKey_eq_of_valueKey_eq (heq : valueKey v type = valueKey w type) :
    groupKey (some v) type = groupKey (some w) type := by
  by_cases hv : ∃ s, v = .str s <;> by_cases hw : ∃ t, w = .str t
  · obtain ⟨s, rfl⟩ := hv
    obtain ⟨t, rfl⟩ := hw
    rcases valueKey_str_eq_iff.mp heq with rfl | ⟨hdate, millis, hs, ht⟩
    · rfl
    · have hinstant : ∀ u, Instant.ofText? u = some millis → instant? type u = some millis :=
        fun u hu => (if_pos hdate).trans hu
      rw [groupKey_of_instant (hinstant s hs), groupKey_of_instant (hinstant t ht)]
  · obtain ⟨s, rfl⟩ := hv
    exact absurd heq (valueKey_str_ne (not_exists.mp hw) s)
  · obtain ⟨t, rfl⟩ := hw
    exact absurd heq.symm (valueKey_str_ne (not_exists.mp hv) t)
  · rw [groupKey_of_no_text (not_exists.mp hv), groupKey_of_no_text (not_exists.mp hw), heq]

/-- The value is a text that stands for itself and is the key of the other's group. -/
def Coincides (type : Option AttributeType) (v w : Option Json) : Prop :=
  ∃ s, v = some (.str s) ∧ instant? type s = none ∧ groupKey w type = s

/-- Two values are in one group exactly if both are missing, if distinct values count them as one,
    or if one of them is a text that stands for itself and is the key of the other's group. -/
theorem groupKey_eq_iff {v w : Option Json} : groupKey v type = groupKey w type ↔
    (v = none ∧ w = none) ∨
      (∃ x y, v = some x ∧ w = some y ∧ valueKey x type = valueKey y type) ∨
      Coincides type v w ∨ Coincides type w v := by
  constructor
  · intro heq
    have hv := groupKey_spec type v
    have hw := groupKey_spec type w
    have hvw : groupKey v type = groupKey w type := heq
    generalize groupKey v type = key at hv heq
    generalize groupKey w type = other at hw heq
    cases hv with
    | text _ hnone =>
      rw [groupKey_of_no_instant hnone] at hvw
      exact .inr (.inr (.inl ⟨_, rfl, hnone, hvw.symm⟩))
    | missing =>
      cases hw with
      | text _ hnone => exact .inr (.inr (.inr ⟨_, rfl, hnone, heq⟩))
      | missing => exact .inl ⟨rfl, rfl⟩
      | date _ _ _ => exact absurd heq.symm text_ne_undefined
      | other _ hy => exact absurd heq.symm (valueKey_ne_undefined hy)
    | date s millis hs =>
      cases hw with
      | text _ hnone =>
        rw [groupKey_of_no_instant hnone] at hvw
        exact .inr (.inr (.inr ⟨_, rfl, hnone, hvw⟩))
      | missing => exact absurd heq text_ne_undefined
      | date t _ ht =>
        cases Instant.text_inj heq
        exact .inr (.inl ⟨_, _, rfl, rfl, by rw [valueKey_of_instant hs, valueKey_of_instant ht]⟩)
      | other _ hy => exact absurd heq (text_ne_valueKey hy)
    | other x hx =>
      cases hw with
      | text _ hnone =>
        rw [groupKey_of_no_instant hnone] at hvw
        exact .inr (.inr (.inr ⟨_, rfl, hnone, hvw⟩))
      | missing => exact absurd heq (valueKey_ne_undefined hx)
      | date _ _ _ => exact absurd heq.symm (text_ne_valueKey hx)
      | other y _ => exact .inr (.inl ⟨x, y, rfl, rfl, heq⟩)
  · rintro (⟨rfl, rfl⟩ | ⟨x, y, rfl, rfl, hkeys⟩ | ⟨s, rfl, hnone, hkey⟩ | ⟨s, rfl, hnone, hkey⟩)
    · rfl
    · exact groupKey_eq_of_valueKey_eq hkeys
    · rw [groupKey_of_no_instant hnone, hkey]
    · rw [groupKey_of_no_instant hnone, hkey]

end DocMapper.Aggregate
