import DocMapper.Date.Instant
import DocMapper.Proofs.Date.Calendar
import DocMapper.Proofs.Number.Digits
import Mathlib.Data.Nat.Digits.Defs

/-!
# Timestamps

The timestamp of an instant is its own: all numbers behind the year have a fixed width, so the parts
of a timestamp can be read off it, and they count back to the instant.
-/

namespace DocMapper.Instant

variable {width m n : Nat} {c : Char}

/-! ## Numbers of a fixed width -/

/-- A padded number is its digits behind zeros. -/
theorem toList_padded (width n : Nat) : (padded width n).toList =
    List.replicate (width - (Decimal.digitChars n).length) '0' ++ Decimal.digitChars n := by
  have hchars : (toString n).toList = Decimal.digitChars n := String.toList_ofList
  rw [padded, String.toList_append, String.toList_ofList, ← String.length_toList, hchars]

theorem isDigit_of_mem_padded (hc : c ∈ (padded width n).toList) : c.isDigit = true := by
  rw [toList_padded] at hc
  rcases List.mem_append.mp hc with hzero | hdigit
  · exact isDigit_of_mem_zeros hzero
  · exact Decimal.isDigit_of_mem_digitChars hdigit

/-- A number that fits is padded to the width. -/
theorem length_padded (hwidth : 0 < width) (hn : n < 10 ^ width) :
    (padded width n).toList.length = width := by
  have hle : (Decimal.digitChars n).length ≤ width := Nat.toDigits_length 10 n width hwidth hn
  rw [toList_padded, List.length_append, List.length_replicate]
  omega

/-- Zeros in front do not change what digits stand for. -/
theorem valueOf_digitRun_padded (width n : Nat) :
    Reading.valueOf (Reading.digitRun (padded width n).toList).1 = n := by
  obtain ⟨digits, hdigits, hvalue⟩ := Reading.digitRun_digitChars n
  rw [toList_padded]
  generalize width - (Decimal.digitChars n).length = zeros
  induction zeros with
  | zero => rw [List.replicate_zero, List.nil_append, hdigits, hvalue]
  | succ zeros ih =>
    have hzero : Reading.digit? '0' = some 0 := by decide
    rw [List.replicate_succ, List.cons_append, Reading.digitRun, hzero]
    exact ih

/-- A padded number is read from its text. -/
theorem padded_inj (heq : (padded width m).toList = (padded width n).toList) : m = n := by
  rw [← valueOf_digitRun_padded width m, heq, valueOf_digitRun_padded]

/-! ## Years -/

/-- A year has four digits, or a sign in front of them. -/
theorem yearText_cases (year : Int) :
    (0 ≤ year ∧ (yearText year).toList = (padded 4 year.toNat).toList) ∨
      (year < 0 ∧ (yearText year).toList = '-' :: (padded 4 year.natAbs).toList) ∨
      (0 ≤ year ∧ (yearText year).toList = '+' :: (padded 4 year.natAbs).toList) := by
  unfold yearText
  by_cases hplain : 0 ≤ year ∧ year ≤ 9999
  · rw [if_pos hplain]
    exact .inl ⟨hplain.1, rfl⟩
  · rw [if_neg hplain]
    by_cases hnegative : year < 0
    · rw [if_pos hnegative, String.toList_append]
      exact .inr (.inl ⟨hnegative, rfl⟩)
    · rw [if_neg hnegative, String.toList_append]
      exact .inr (.inr ⟨Int.not_lt.mp hnegative, rfl⟩)

theorem mem_yearText {year : Int} (hc : c ∈ (yearText year).toList) :
    c.isDigit = true ∨ c = '-' ∨ c = '+' := by
  obtain ⟨_, hyear⟩ | ⟨_, hyear⟩ | ⟨_, hyear⟩ := yearText_cases year
  · rw [hyear] at hc
    exact .inl (isDigit_of_mem_padded hc)
  · rw [hyear] at hc
    rcases List.mem_cons.mp hc with rfl | hdigit
    · exact .inr (.inl rfl)
    · exact .inl (isDigit_of_mem_padded hdigit)
  · rw [hyear] at hc
    rcases List.mem_cons.mp hc with rfl | hdigit
    · exact .inr (.inr rfl)
    · exact .inl (isDigit_of_mem_padded hdigit)

theorem padded_ne_cons {sign : Char} {text : List Char} (hsign : sign.isDigit = false) :
    (padded width n).toList ≠ sign :: text := by
  intro heq
  have hdigit := isDigit_of_mem_padded (heq ▸ List.mem_cons_self)
  rw [hsign] at hdigit
  cases hdigit

/-- A year is read from its text. -/
theorem yearText_inj {year other : Int} (heq : (yearText year).toList = (yearText other).toList) :
    year = other := by
  obtain ⟨hy, hyear⟩ | ⟨hy, hyear⟩ | ⟨hy, hyear⟩ := yearText_cases year <;>
    obtain ⟨ho, hother⟩ | ⟨ho, hother⟩ | ⟨ho, hother⟩ := yearText_cases other <;>
    rw [hyear, hother] at heq
  · have hsame := padded_inj heq
    omega
  · exact absurd heq (padded_ne_cons (by decide))
  · exact absurd heq (padded_ne_cons (by decide))
  · exact absurd heq.symm (padded_ne_cons (by decide))
  · have hsame := padded_inj (List.cons.inj heq).2
    omega
  · cases (List.cons.inj heq).1
  · exact absurd heq.symm (padded_ne_cons (by decide))
  · cases (List.cons.inj heq).1
  · have hsame := padded_inj (List.cons.inj heq).2
    omega

/-! ## Parts of a fixed width -/

/-- Numbers of fixed widths, each behind its separator. -/
def written : List (Char × Nat) → List Nat → List Char
  | (separator, width) :: parts, n :: numbers =>
    separator :: (padded width n).toList ++ written parts numbers
  | _, _ => []

/-- The numbers keep to their widths. -/
def Fits : List (Char × Nat) → List Nat → Prop :=
  List.Forall₂ fun part n => 0 < part.2 ∧ n < 10 ^ part.2

variable {parts : List (Char × Nat)} {numbers others : List Nat}

/-- Numbers that keep to their widths can be read off. -/
theorem written_inj (hfits : Fits parts numbers) (hother : Fits parts others) :
    (written parts numbers).length = (written parts others).length ∧
      (written parts numbers = written parts others → numbers = others) := by
  induction hfits generalizing others with
  | nil =>
    cases hother
    exact ⟨rfl, fun _ => rfl⟩
  | @cons part n parts numbers hpart _ ih =>
    cases hother with
    | @cons _ other _ others hown hrest =>
      obtain ⟨hlength, hinj⟩ := ih hrest
      have hwidth : (padded part.2 n).toList.length = (padded part.2 other).toList.length := by
        rw [length_padded hpart.1 hpart.2, length_padded hown.1 hown.2]
      refine ⟨?_, fun heq => ?_⟩
      · simp only [written, List.cons_append, List.length_cons, List.length_append, hwidth, hlength]
      · obtain ⟨hn, hlater⟩ := List.append_inj (List.cons.inj heq).2 hwidth
        rw [padded_inj hn, hinj hlater]

/-- Written parts are digits and their separators. -/
theorem mem_written (hc : c ∈ written parts numbers) :
    c.isDigit = true ∨ c ∈ parts.map Prod.fst := by
  fun_induction written parts numbers with
  | case1 separator width parts n numbers ih =>
    rcases List.mem_cons.mp hc with rfl | hrest
    · exact .inr List.mem_cons_self
    · rcases List.mem_append.mp hrest with hdigit | hlater
      · exact .inl (isDigit_of_mem_padded hdigit)
      · exact (ih hlater).imp_right (List.mem_cons_of_mem _)
  | case2 => cases hc

/-! ## Timestamps -/

/-- The separators and widths of what stands behind the year. -/
def behindYear : List (Char × Nat) :=
  [('-', 2), ('-', 2), ('T', 2), (':', 2), (':', 2), ('.', 3)]

/-- Month, day, hour, minute, second and millisecond of an instant. -/
def partsOf (millis : Int) : List Nat :=
  let date := CalendarDay.ofEpochDay (millis / 86400000)
  let rest := (millis % 86400000).toNat
  [date.month, date.day, rest / 3600000, rest / 60000 % 60, rest / 1000 % 60, rest % 1000]

variable {millis other : Int}

/-- An instant is written as its year and the parts behind it. -/
theorem toList_text (millis : Int) : (text millis).toList =
    (yearText (CalendarDay.ofEpochDay (millis / 86400000)).year).toList ++
      (written behindYear (partsOf millis) ++ ['Z']) := by
  simp [text, behindYear, partsOf, written]

/-- The parts of an instant fit their widths. -/
theorem fits_partsOf (millis : Int) : Fits behindYear (partsOf millis) := by
  obtain ⟨_, hmonth, hday⟩ := CalendarDay.ofEpochDay_spec (millis / 86400000)
  refine .cons ?_ (.cons ?_ (.cons ?_ (.cons ?_ (.cons ?_ (.cons ?_ .nil))))) <;>
    dsimp only <;> omega

/-- No two instants have one timestamp. -/
theorem text_inj (heq : text millis = text other) : millis = other := by
  have hchars := congrArg String.toList heq
  obtain ⟨hlength, hinj⟩ := written_inj (fits_partsOf millis) (fits_partsOf other)
  rw [toList_text, toList_text] at hchars
  obtain ⟨hyear, hrest⟩ := List.append_inj' hchars (by
    rw [List.length_append, List.length_append, hlength])
  have hparts := hinj (List.append_cancel_right hrest)
  simp only [partsOf, List.cons.injEq, and_true] at hparts
  obtain ⟨hmonth, hday, hhour, hminute, hsecond, hmillis⟩ := hparts
  have hdate : CalendarDay.ofEpochDay (millis / 86400000) =
      CalendarDay.ofEpochDay (other / 86400000) := CalendarDay.ext (yearText_inj hyear) hmonth hday
  have hdays := CalendarDay.ofEpochDay_inj hdate
  omega

/-- Instants are written in digits and six more characters. -/
theorem mem_text (hc : c ∈ (text millis).toList) :
    c.isDigit = true ∨ c ∈ ['+', '-', 'T', ':', '.', 'Z'] := by
  have hseparators : behindYear.map Prod.fst ⊆ ['+', '-', 'T', ':', '.', 'Z'] := by decide
  rw [toList_text, List.mem_append, List.mem_append, List.mem_singleton] at hc
  rcases hc with hyear | hparts | rfl
  · rcases mem_yearText hyear with hdigit | hminus | hplus
    · exact .inl hdigit
    · exact .inr (by simp [hminus])
    · exact .inr (by simp [hplus])
  · exact (mem_written hparts).imp_right fun hmem => hseparators hmem
  · exact .inr (by decide)

theorem mem_text_T (millis : Int) : 'T' ∈ (text millis).toList := by
  rw [toList_text, List.mem_append, List.mem_append]
  simp [behindYear, partsOf, written]

end DocMapper.Instant
