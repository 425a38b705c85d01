import DocMapper.Text.Basic
import Mathlib.Data.List.Infix
import Mathlib.Data.List.TakeWhile

/-!
# Parts of texts

A text starts with another one exactly if something can be put behind that one to make it, and it
contains whatever stands between two texts that make it up. It is split at a character exactly if it
has it, and not trimmed where no blank stands at its ends. A text that shares no character with a
separator occurs in texts that are joined by the separator exactly if it occurs in one of them.
-/

namespace DocMapper.Text

theorem rest?_eq_some_iff {lead text rest : List Char} :
    rest? lead text = some rest ↔ text = lead ++ rest := by
  induction lead generalizing text with
  | nil => exact Option.some_inj
  | cons l lead ih =>
    cases text with
    | nil => simp [rest?]
    | cons c text =>
      by_cases heq : l = c
      · subst heq
        rw [rest?, if_pos rfl, ih, List.cons_append, List.cons.injEq]
        exact (and_iff_right rfl).symm
      · rw [rest?, if_neg heq]
        constructor
        · intro hnone
          cases hnone
        · intro htext
          exact absurd (List.cons.inj htext).1.symm heq

theorem isSome_rest?_iff {lead text : List Char} :
    (rest? lead text).isSome = true ↔ lead <+: text := by
  rw [Option.isSome_iff_exists]
  exact exists_congr fun rest => rest?_eq_some_iff.trans eq_comm

theorem startsWith_iff {lead s : String} :
    startsWith lead s = true ↔ lead.toList <+: s.toList := isSome_rest?_iff

theorem after?_eq_some_iff {lead s rest : String} :
    after? lead s = some rest ↔ s = lead ++ rest := by
  rw [after?, Option.map_eq_some_iff, ← String.toList_inj, String.toList_append]
  constructor
  · rintro ⟨text, htext, rfl⟩
    rw [String.toList_ofList]
    exact rest?_eq_some_iff.mp htext
  · intro htext
    exact ⟨rest.toList, rest?_eq_some_iff.mpr htext, String.ofList_toList⟩

/-- A part occurs between any two texts. -/
theorem occursIn_append (front part back : List Char) :
    occursIn part (front ++ (part ++ back)) = true := by
  induction front with
  | nil =>
    rw [List.nil_append]
    cases htext : part ++ back with
    | nil =>
      rw [(List.append_eq_nil_iff.mp htext).1]
      rfl
    | cons c text =>
      rw [occursIn, Bool.or_eq_true]
      exact Or.inl (Option.isSome_iff_exists.mpr ⟨back, rest?_eq_some_iff.mpr htext.symm⟩)
  | cons c front ih =>
    rw [List.cons_append, occursIn, ih, Bool.or_true]

/-! ## Splitting and trimming -/

/-- A text without the separator is one piece. -/
theorem pieces_of_not_mem {sep : Char} {text : List Char} (habsent : sep ∉ text) :
    pieces sep text = [text] := by
  induction text with
  | nil => rfl
  | cons c text ih =>
    obtain ⟨hc, htext⟩ := List.ne_and_not_mem_of_not_mem_cons habsent
    rw [pieces, if_neg (Ne.symm hc), ih htext]

theorem pieces_ne_nil (sep : Char) (text : List Char) : pieces sep text ≠ [] := by
  fun_cases pieces sep text <;> exact List.cons_ne_nil _ _

/-- A text with the separator in it falls into two pieces at least, the first of them without it. -/
theorem pieces_of_mem {sep : Char} {text : List Char} (hmem : sep ∈ text) :
    ∃ first second others, pieces sep text = first :: second :: others ∧ sep ∉ first := by
  induction text with
  | nil => cases hmem
  | cons c text ih =>
    by_cases hc : c = sep
    · rw [pieces, if_pos hc]
      cases hpieces : pieces sep text with
      | nil => exact absurd hpieces (pieces_ne_nil sep text)
      | cons second others => exact ⟨[], second, others, rfl, List.not_mem_nil⟩
    · have hlater : sep ∈ text := (List.mem_cons.mp hmem).resolve_left (Ne.symm hc)
      obtain ⟨first, second, others, hpieces, hfirst⟩ := ih hlater
      rw [pieces, if_neg hc, hpieces]
      exact ⟨c :: first, second, others, rfl, List.not_mem_cons_of_ne_of_not_mem (Ne.symm hc) hfirst⟩

theorem trim_blank_cons (text : List Char) : trim (' ' :: text) = trim text := by
  rw [trim, List.dropWhile_cons_of_pos (by decide), trim]

theorem trim_append_blank (text : List Char) : trim (text ++ [' ']) = trim text := by
  rw [trim, trim, List.dropWhile_append]
  cases hrest : text.dropWhile isBlank with
  | nil => rfl
  | cons c rest =>
    rw [if_neg (by simp), List.reverse_append, List.reverse_singleton, List.singleton_append,
      List.dropWhile_cons_of_pos (by decide)]

/-- Blanks at both ends are trimmed, whatever number of them. -/
theorem trim_around {front text back : List Char} (hfront : ∀ c ∈ front, isBlank c = true)
    (htext : ∀ c ∈ text, isBlank c = false) (hback : ∀ c ∈ back, isBlank c = true) :
    trim (front ++ text ++ back) = text := by
  have hkept : ∀ l : List Char, (∀ c ∈ l, isBlank c = false) → l.dropWhile isBlank = l := by
    intro l hl
    refine List.dropWhile_eq_self_iff.mpr fun hpos hblank => ?_
    rw [hl _ (List.getElem_mem hpos)] at hblank
    cases hblank
  have hreversed : ∀ c ∈ text.reverse, isBlank c = false :=
    fun c hc => htext c (List.mem_reverse.mp hc)
  rw [trim, List.append_assoc, List.dropWhile_append_of_pos hfront]
  by_cases hnil : text = []
  · rw [hnil, List.nil_append, List.dropWhile_eq_nil_iff.mpr hback]
    rfl
  · rw [List.dropWhile_append, hkept text htext, if_neg (by simpa using hnil), List.reverse_append,
      List.dropWhile_append_of_pos fun c hc => hback c (List.mem_reverse.mp hc),
      hkept _ hreversed, List.reverse_reverse]

/-- There is nothing to trim where no blank stands at the ends. -/
theorem trim_of_ends {first last : Char} (hfirst : isBlank first = false)
    (hlast : isBlank last = false) (text : List Char) :
    trim (first :: text ++ [last]) = first :: text ++ [last] := by
  rw [trim, List.cons_append, List.dropWhile_cons_of_neg (by simp [hfirst]),
    ← List.cons_append, List.reverse_append, List.reverse_singleton, List.singleton_append,
    List.dropWhile_cons_of_neg (by simp [hlast]), List.reverse_cons, List.reverse_reverse]

/-! ## Occurrences in joined texts -/

section Occurrences

variable {part front back : List Char} {c : Char}

/-- A part occurs if it is an infix. -/
theorem occursIn_iff_infix {text : List Char} : occursIn part text = true ↔ part <:+: text := by
  induction text with
  | nil => rw [occursIn, List.isEmpty_iff, List.infix_nil]
  | cons c text ih =>
    rw [occursIn, Bool.or_eq_true, isSome_rest?_iff, ih, List.infix_cons_iff]

/-- A list without some character does not reach over it. -/
theorem infix_append_cons_iff (hpart : c ∉ part) :
    part <:+: front ++ c :: back ↔ part <:+: front ∨ part <:+: back := by
  constructor
  · intro hinfix
    obtain hfront | hback | ⟨first, second, rfl, hfirst, hsecond⟩ :=
      List.infix_append_iff.mp hinfix
    · exact Or.inl hfront
    · obtain hprefix | hback := List.infix_cons_iff.mp hback
      · obtain rfl | ⟨later, rfl, _⟩ := List.prefix_cons_iff.mp hprefix
        · exact Or.inl (List.nil_infix)
        · exact absurd List.mem_cons_self hpart
      · exact Or.inr hback
    · -- What reaches over both sides has the character in it, unless it ends with the front.
      obtain rfl | ⟨later, rfl, _⟩ := List.prefix_cons_iff.mp hsecond
      · rw [List.append_nil]
        exact Or.inl hfirst.isInfix
      · exact absurd (List.mem_append_right _ List.mem_cons_self) hpart
  · rintro (hfront | hback)
    · exact hfront.trans (List.prefix_append _ _).isInfix
    · exact hback.trans ((List.suffix_cons c back).trans (List.suffix_append _ _)).isInfix

/-- A part without the separator lies on one side of it. -/
theorem infix_append_separator_iff {sep : List Char} (hne : sep ≠ [])
    (hapart : ∀ c ∈ sep, c ∉ part) :
    part <:+: front ++ (sep ++ back) ↔ part <:+: front ∨ part <:+: back := by
  induction sep generalizing front with
  | nil => exact absurd rfl hne
  | cons c rest ih =>
    obtain ⟨hfirst, hrest⟩ := List.forall_mem_cons.mp hapart
    rw [List.cons_append, infix_append_cons_iff hfirst]
    cases rest with
    | nil => rfl
    | cons d more =>
      have hskip : part <:+: d :: more ++ back ↔ part = [] ∨ part <:+: back := by
        rw [← List.infix_nil, ← ih (List.cons_ne_nil _ _) hrest, List.nil_append]
      rw [hskip]
      constructor
      · rintro (hfront | rfl | hback)
        · exact Or.inl hfront
        · exact Or.inl List.nil_infix
        · exact Or.inr hback
      · exact Or.imp_right Or.inr

variable {word sep : String}

/-- A word occurs on one side of a separator that it shares no character with, or on the other. -/
theorem contains_append_separator (hne : sep.toList ≠ [])
    (hapart : ∀ c ∈ sep.toList, c ∉ word.toList) (front back : String) :
    contains word (front ++ sep ++ back) = (contains word front || contains word back) := by
  rw [Bool.eq_iff_iff, Bool.or_eq_true, contains, contains, contains, occursIn_iff_infix,
    occursIn_iff_infix, occursIn_iff_infix, String.append_assoc, String.toList_append,
    String.toList_append]
  exact infix_append_separator_iff hne hapart

/-- A word occurs in a text that is joined by such a separator if it occurs in a part. -/
theorem contains_intercalate (hne : sep.toList ≠ []) (hapart : ∀ c ∈ sep.toList, c ∉ word.toList)
    {parts : List String} (hparts : parts ≠ []) :
    contains word (sep.intercalate parts) = parts.any (contains word) := by
  induction parts with
  | nil => exact absurd rfl hparts
  | cons first rest ih =>
    cases rest with
    | nil => rw [String.intercalate_singleton, List.any_cons, List.any_nil, Bool.or_false]
    | cons second more =>
      rw [String.intercalate_cons_cons, contains_append_separator hne hapart,
        ih (List.cons_ne_nil _ _)]
      rfl

end Occurrences

end DocMapper.Text
