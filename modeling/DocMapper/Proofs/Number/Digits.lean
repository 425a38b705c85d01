import DocMapper.Number.Decimal
import DocMapper.Number.Reading

/-!
# Digits that read back

The decimal digits of a number are one run of digits, and the run has the value of the number. So
the text of a number that is not too large is read as that number.
-/

namespace DocMapper.Reading

theorem digit?_digitChar {d : Nat} (hd : d < 10) : digit? d.digitChar = some d := by
  have hcases : ∀ e : Fin 10, digit? (Nat.digitChar e.val) = some e.val := by decide
  exact hcases ⟨d, hd⟩

/-- A run of digits goes on in the text behind it. -/
theorem digitRun_append {front : List Char} {digits : List Nat}
    (hfront : digitRun front = (digits, [])) (rest : List Char) :
    digitRun (front ++ rest) = (digits ++ (digitRun rest).1, (digitRun rest).2) := by
  induction front generalizing digits with
  | nil =>
    cases hfront
    rfl
  | cons c text ih =>
    rw [digitRun] at hfront
    cases hdigit : digit? c with
    | none =>
      rw [hdigit] at hfront
      cases hfront
    | some d =>
      rw [hdigit] at hfront
      obtain ⟨hdigits, hrest⟩ := Prod.mk.inj hfront
      have htext : digitRun text = ((digitRun text).1, []) := Prod.ext rfl hrest
      rw [List.cons_append, digitRun, hdigit, ih htext, ← hdigits]
      rfl

theorem valueOf_append_singleton (digits : List Nat) (d : Nat) :
    valueOf (digits ++ [d]) = 10 * valueOf digits + d := by
  unfold valueOf
  rw [List.foldl_append]
  rfl

theorem digitRun_digitChars (n : Nat) :
    ∃ digits, digitRun (Decimal.digitChars n) = (digits, []) ∧ valueOf digits = n := by
  induction n using Nat.strongRecOn with
  | ind n ih =>
    have hlast : n % 10 < 10 := by omega
    have hrun : ∀ d, d < 10 → digitRun [Nat.digitChar d] = ([d], []) := by
      intro d hd
      rw [digitRun, digit?_digitChar hd]
      rfl
    by_cases hone : n < 10
    · refine ⟨[n], ?_, ?_⟩
      · rw [Decimal.digitChars, Nat.toDigits_of_lt_base hone]
        exact hrun n hone
      · exact (valueOf_append_singleton [] n).trans (by simp [valueOf])
    · obtain ⟨digits, hdigits, hvalue⟩ := ih (n / 10) (by omega)
      refine ⟨digits ++ [n % 10], ?_, ?_⟩
      · rw [Decimal.digitChars] at hdigits ⊢
        rw [Nat.toDigits_of_base_le (by omega) (by omega), digitRun_append hdigits,
          hrun _ hlast]
      · rw [valueOf_append_singleton, hvalue]
        omega

/-! ## Numbers of a bounded size -/

variable {largest value : Nat} {e : IntegerError} {text : List Char} {digits : List Nat}

theorem le_foldl_digits (digits : List Nat) (value : Nat) :
    value ≤ digits.foldl (fun value d => 10 * value + d) value := by
  induction digits generalizing value with
  | nil => exact Nat.le_refl value
  | cons d rest ih =>
    have hrest := ih (10 * value + d)
    rw [List.foldl_cons]
    omega

/-- A run of digits whose value stays within the bound is read to its end. -/
theorem boundedDigits_of_digitRun (hrun : digitRun text = (digits, []))
    (hle : digits.foldl (fun value d => 10 * value + d) value ≤ largest) :
    boundedDigits largest e value text =
      .ok (digits.foldl (fun value d => 10 * value + d) value) := by
  induction text generalizing digits value with
  | nil =>
    cases hrun
    rfl
  | cons c text ih =>
    rw [digitRun] at hrun
    rw [boundedDigits]
    cases hdigit : digit? c with
    | none =>
      rw [hdigit] at hrun
      cases hrun
    | some d =>
      rw [hdigit] at hrun
      obtain ⟨rfl, hrest⟩ := Prod.mk.inj hrun
      have htext : digitRun text = ((digitRun text).1, []) := Prod.ext rfl hrest
      rw [List.foldl_cons] at hle ⊢
      have hstep := le_foldl_digits (digitRun text).1 (10 * value + d)
      simp only [if_pos (Nat.le_trans hstep hle)]
      exact ih htext hle

/-- A sign is no digit, so digits are read as they stand. -/
theorem natural_of_digitRun (hne : text ≠ []) (hrun : digitRun text = (digits, [])) :
    natural largest text = boundedDigits largest .tooLarge 0 text := by
  cases text with
  | nil => exact absurd rfl hne
  | cons c rest =>
    have hplus : c ≠ '+' := by
      rintro rfl
      have hnone : digitRun ('+' :: rest) = ([], '+' :: rest) := rfl
      rw [hnone] at hrun
      cases hrun
    unfold natural
    split
    · rename_i heq
      cases heq
    · rename_i heq
      exact absurd (List.cons.inj heq).1 hplus
    · rename_i heq
      exact absurd (List.cons.inj heq).1 hplus
    · rfl

theorem unsigned64?_toString (n : UInt64) : unsigned64? (toString n.toNat) = some n := by
  have hchars : (toString n.toNat).toList = Decimal.digitChars n.toNat :=
    String.toList_ofList
  obtain ⟨digits, hrun, hvalue⟩ := digitRun_digitChars n.toNat
  have hle : valueOf digits ≤ Nat.pow 2 64 - 1 := by
    have hlt := n.toNat_lt
    rw [hvalue]
    exact Nat.le_sub_one_of_lt hlt
  have hread : boundedDigits (Nat.pow 2 64 - 1) .tooLarge 0 (Decimal.digitChars n.toNat) =
      .ok (valueOf digits) := boundedDigits_of_digitRun hrun hle
  have hne : Decimal.digitChars n.toNat ≠ [] := Nat.toDigits_ne_nil
  rw [unsigned64?, hchars, natural_of_digitRun hne hrun, hread, hvalue]
  simp

end DocMapper.Reading

namespace DocMapper

/-! ## Characters -/

variable {c : Char} {n : Nat}

theorem Decimal.isDigit_of_mem_digitChars (hc : c ∈ Decimal.digitChars n) : c.isDigit = true :=
  Nat.isDigit_of_mem_toDigits (by decide) (by decide) hc

theorem isDigit_of_mem_zeros (hc : c ∈ List.replicate n '0') : c.isDigit = true := by
  rw [List.eq_of_mem_replicate hc]
  decide

/-- Without an exponent a number is written in digits and a point. -/
theorem DecimalLayout.mem_writePositional {layout : DecimalLayout} {d : Decimal}
    (hc : c ∈ layout.writePositional d) : c.isDigit = true ∨ c = '.' := by
  unfold writePositional at hc
  split at hc
  · rw [List.mem_append, List.mem_append] at hc
    rcases hc with (hdigit | hzero) | hpoint
    · exact .inl (Decimal.isDigit_of_mem_digitChars hdigit)
    · split at hzero
      · cases hzero
      · exact .inl (isDigit_of_mem_zeros hzero)
    · split at hpoint
      · rcases List.mem_cons.mp hpoint with rfl | hzero
        · exact .inr rfl
        · exact .inl (List.mem_singleton.mp hzero ▸ by decide)
      · cases hpoint
  · have hpadded : ∀ {c : Char} {zeros : Nat},
        c ∈ List.replicate zeros '0' ++ Decimal.digitChars d.digits → c.isDigit = true := by
      intro c zeros hmem
      rcases List.mem_append.mp hmem with hzero | hdigit
      · exact isDigit_of_mem_zeros hzero
      · exact Decimal.isDigit_of_mem_digitChars hdigit
    rcases List.mem_append.mp hc with hwhole | hfraction
    · exact .inl (hpadded (List.mem_of_mem_take hwhole))
    · rcases List.mem_cons.mp hfraction with rfl | hplaces
      · exact .inr rfl
      · exact .inl (hpadded (List.mem_of_mem_drop hplaces))

/-- A computed number that is finite is written in digits, a point and a sign. -/
theorem Quantity.mem_text {x : Double} (hc : c ∈ (Quantity.finite x).text.toList) :
    c.isDigit = true ∨ c = '.' ∨ c = '-' := by
  rw [Quantity.text, String.toList_ofList, Double.write, List.mem_append] at hc
  rcases hc with hsign | hdigits
  · split at hsign
    · exact .inr (.inr (List.mem_singleton.mp hsign))
    · cases hsign
  · exact (DecimalLayout.mem_writePositional hdigits).imp_right .inl

end DocMapper
