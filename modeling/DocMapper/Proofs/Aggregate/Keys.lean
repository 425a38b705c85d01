import DocMapper.Aggregate.Value
import DocMapper.Proofs.Json.Quoting
import DocMapper.Proofs.Number.Whole

/-!
# Texts that tell values apart

Values are told apart by a text that each of them has. Main statement: texts and integers of at most
53 bits are told apart wherever they differ, but for dates that name one instant.
-/

namespace DocMapper.Aggregate

/-- The value is `null`, a text or an integer of at most 53 bits. -/
def Simple : Json → Prop
  | .null | .str _ => True
  | .num (.int n) => n.Short
  | _ => False

/-- The texts name one instant. -/
def SameInstant (s t : String) : Prop :=
  ∃ millis, Instant.ofText? s = some millis ∧ Instant.ofText? t = some millis

/-- The instant that a text names, where texts are dates. -/
def instant? (type : Option AttributeType) (s : String) : Option Int :=
  if type = some .date then Instant.ofText? s else none

variable {v w : Json} {type : Option AttributeType} {s t : String} {m n : Integer} {millis : Int}

theorem Simple.cases (hv : Simple v) (hpresent : v ≠ .null) :
    (∃ s, v = .str s) ∨ ∃ n, v = .num (.int n) ∧ n.Short := by
  cases v with
  | null => exact absurd rfl hpresent
  | str s => exact .inl ⟨s, rfl⟩
  | num n =>
    cases n with
    | int n => exact .inr ⟨n, rfl, hv⟩
    | float x => exact hv.elim
  | _ => exact hv.elim

theorem instant?_eq_some (hinstant : instant? type s = some millis) :
    type = some .date ∧ Instant.ofText? s = some millis := by
  unfold instant? at hinstant
  split at hinstant
  · exact ⟨by assumption, hinstant⟩
  · cases hinstant

theorem valueKey_of_instant (hinstant : instant? type s = some millis) :
    valueKey (.str s) type = "date:" ++ toString millis := by
  rw [instant?] at hinstant
  simp only [valueKey, hinstant]

theorem valueKey_of_no_instant (hnone : instant? type s = none) :
    valueKey (.str s) type = String.ofList (Json.quote s) := by
  rw [instant?] at hnone
  simp only [valueKey, hnone]
  rfl

theorem valueKey_of_short (hshort : n.Short) :
    valueKey (.num (.int n)) type = (Number.int n).text := hshort.text_toDouble

/-- The key of a text reads as no integer. -/
theorem valueKey_str_ne_text : valueKey (.str s) type ≠ (Number.int n).text := by
  intro heq
  have hlower := n.lower
  have hupper := n.upper
  have hread : Reading.integer (2 ^ 64) (valueKey (.str s) type).toList = .ok n.val := by
    rw [heq, Number.text, String.toList_ofList]
    exact Reading.integer_sign_digitChars (by omega) (by omega)
  cases hinstant : instant? type s with
  | none =>
    rw [valueKey_of_no_instant hinstant, String.toList_ofList] at hread
    cases hread
  | some millis =>
    rw [valueKey_of_instant hinstant, String.toList_append] at hread
    cases hread

theorem toString_inj {m n : Int} (heq : toString m = toString n) : m = n := by
  have hchars : ∀ i : Int, (toString i).toList =
      (if i < 0 then ['-'] else []) ++ Decimal.digitChars i.natAbs := by
    intro i
    cases i with
    | ofNat i => exact String.toList_ofList
    | negSucc i =>
      have hdigits : (toString (i + 1)).toList = Decimal.digitChars (i + 1) := String.toList_ofList
      have htext : toString (Int.negSucc i) = "-" ++ toString (i + 1) := rfl
      rw [htext, String.toList_append, hdigits, if_pos (Int.negSucc_lt_zero i)]
      rfl
  refine Reading.sign_digitChars_inj ?_
  rw [← hchars, ← hchars, heq]

/-- Two texts have one key where they are one text, or dates of one instant. -/
theorem valueKey_str_eq_iff : valueKey (.str s) type = valueKey (.str t) type ↔
    s = t ∨ (type = some .date ∧ SameInstant s t) := by
  constructor
  · intro heq
    have hchars := congrArg String.toList heq
    cases hs : instant? type s with
    | none =>
      rw [valueKey_of_no_instant hs] at heq hchars
      cases ht : instant? type t with
      | none =>
        rw [valueKey_of_no_instant ht] at heq
        exact .inl (Json.quote_inj (String.ofList_inj.mp heq))
      | some other =>
        rw [valueKey_of_instant ht, String.toList_ofList, String.toList_append] at hchars
        cases hchars
    | some millis =>
      obtain ⟨hdate, hread⟩ := instant?_eq_some hs
      rw [valueKey_of_instant hs] at heq hchars
      cases ht : instant? type t with
      | none =>
        rw [valueKey_of_no_instant ht, String.toList_ofList, String.toList_append] at hchars
        cases hchars
      | some other =>
        rw [valueKey_of_instant ht, String.append_right_inj] at heq
        cases toString_inj heq
        exact .inr ⟨hdate, millis, hread, (instant?_eq_some ht).2⟩
  · rintro (rfl | ⟨hdate, millis, hs, ht⟩)
    · rfl
    · have hinstant : ∀ u, Instant.ofText? u = some millis → instant? type u = some millis :=
        fun u hu => (if_pos hdate).trans hu
      rw [valueKey_of_instant (hinstant s hs), valueKey_of_instant (hinstant t ht)]

/-- Values that are there have one key where they are one value, or dates of one instant. -/
theorem valueKey_eq_iff (hv : Simple v) (hw : Simple w) (hpresent : v ≠ .null)
    (hpresent' : w ≠ .null) : valueKey v type = valueKey w type ↔
      v = w ∨ (type = some .date ∧ ∃ s t, v = .str s ∧ w = .str t ∧ SameInstant s t) := by
  obtain ⟨s, rfl⟩ | ⟨m, rfl, hm⟩ := hv.cases hpresent
  · obtain ⟨t, rfl⟩ | ⟨n, rfl, hn⟩ := hw.cases hpresent'
    · rw [valueKey_str_eq_iff]
      simp
    · rw [valueKey_of_short hn]
      simp [valueKey_str_ne_text]
  · obtain ⟨t, rfl⟩ | ⟨n, rfl, hn⟩ := hw.cases hpresent'
    · rw [valueKey_of_short hm]
      simp [valueKey_str_ne_text.symm]
    · rw [valueKey_of_short hm, valueKey_of_short hn]
      constructor
      · intro heq
        exact .inl (by rw [Integer.text_inj heq])
      · rintro (heq | ⟨_, s, t, heq, _⟩)
        · cases heq
          rfl
        · cases heq

end DocMapper.Aggregate
