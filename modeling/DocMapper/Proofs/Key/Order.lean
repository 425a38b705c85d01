import DocMapper.Json.Collation
import DocMapper.Key.Basic
import DocMapper.Proofs.Number.Whole

/-!
# The order of integer keys

An integer key has a JSON integer as its form where 64 bits hold it, and else a text. JSON integers
are compared in double precision, and texts come after them. Main statement: how the smaller of two
integer keys compares with the larger one (`Key.collatesBelow_of_smaller`).
-/

namespace DocMapper.Key

/-- The integer that a key stands for, unless it is a text. -/
def int? : Key → Option Int
  | .text _ => none
  | .number n => some n.val
  | .bigInt n => some n.val

/-- The JSON integer that is the form of a key, where 64 bits hold it. -/
def integer? : Key → Option Integer
  | .text _ => none
  | .number n => some (.ofSigned n)
  | .bigInt n => (Signed.ofInt? 64 n.val).map .ofSigned

/-- The integer that the first key stands for is less than that of the second. -/
def Smaller (j k : Key) : Prop := ∃ m n, j.int? = some m ∧ k.int? = some n ∧ m < n

variable {j k : Key} {x y : Integer}

theorem toJson_of_integer? (hkey : k.integer? = some x) : k.toJson = .num (.int x) := by
  cases k with
  | text s => cases hkey
  | number n =>
    cases hkey
    rfl
  | bigInt n =>
    obtain ⟨small, hsmall, rfl⟩ := Option.map_eq_some_iff.mp hkey
    simp only [toJson, hsmall]
    rfl

theorem toJson_of_integer?_eq_none (hkey : k.integer? = none) : k.toJson = .str k.toText := by
  cases k with
  | text s => rfl
  | number n => cases hkey
  | bigInt n =>
    have hlarge := Option.map_eq_none_iff.mp hkey
    simp only [toJson, hlarge]
    rfl

theorem int?_of_integer? (hkey : k.integer? = some x) : k.int? = some x.val := by
  cases k with
  | text s => cases hkey
  | number n =>
    cases hkey
    rfl
  | bigInt n =>
    obtain ⟨small, hsmall, rfl⟩ := Option.map_eq_some_iff.mp hkey
    rw [int?, ← Signed.ofInt?_eq_some_iff.mp hsmall]
    rfl

theorem toJson_ne_null (k : Key) : k.toJson.isNull = false := by
  cases hkey : k.integer? with
  | some x =>
    rw [toJson_of_integer? hkey]
    rfl
  | none =>
    rw [toJson_of_integer?_eq_none hkey]
    rfl

/-- How a key collates with a larger one. As JSON integers they are never out of order, and they are
    in order if they round to different double precision numbers, as they do unless both have more
    than 53 bits on one side of zero. A key that 64 bits do not hold is a text: it comes after the
    numbers, also if it is less than they are, and among texts it goes by its digits. -/
structure CollatesBelow (j k : Key) : Prop where
  numbers : ∀ x y, j.integer? = some x → k.integer? = some y →
    j.toJson.collate k.toJson ≠ .gt ∧
      (j.toJson.collate k.toJson = .lt ↔ x.toDouble ≠ y.toDouble) ∧
      (x.val < 9007199254740992 → -9007199254740992 < y.val →
        j.toJson.collate k.toJson = .lt)
  number_text : j.integer? ≠ none → k.integer? = none → j.toJson.collate k.toJson = .lt
  text_number : j.integer? = none → k.integer? ≠ none → j.toJson.collate k.toJson = .gt
  texts : j.integer? = none → k.integer? = none →
    j.toJson.collate k.toJson = compare j.toText k.toText

theorem collatesBelow_of_smaller (hsmaller : j.Smaller k) : j.CollatesBelow k where
  numbers x y hx hy := by
    obtain ⟨m, n, hm, hn, hlt⟩ := hsmaller
    rw [int?_of_integer? hx, Option.some.injEq] at hm
    rw [int?_of_integer? hy, Option.some.injEq] at hn
    rw [← hm, ← hn] at hlt
    obtain ⟨hnever, hless⟩ := Integer.compare_toDouble_of_lt hlt
    rw [toJson_of_integer? hx, toJson_of_integer? hy, Json.collate]
    exact ⟨hnever, hless, fun hlow hhigh =>
      hless.mpr (Integer.toDouble_ne_of_lt hlt hlow hhigh)⟩
  number_text hx hy := by
    obtain ⟨x, hx⟩ := Option.ne_none_iff_exists'.mp hx
    rw [toJson_of_integer? hx, toJson_of_integer?_eq_none hy]
    rfl
  text_number hx hy := by
    obtain ⟨y, hy⟩ := Option.ne_none_iff_exists'.mp hy
    rw [toJson_of_integer?_eq_none hx, toJson_of_integer? hy]
    rfl
  texts hx hy := by
    rw [toJson_of_integer?_eq_none hx, toJson_of_integer?_eq_none hy, Json.collate]

end DocMapper.Key
