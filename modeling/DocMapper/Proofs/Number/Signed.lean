import DocMapper.Key.Basic
import DocMapper.Proofs.Number.Digits

/-!
# Integers in range

Which integers are in the range of a width, and that these are kept when they are brought into it.
The decimal text of an integer in range reads back as the integer.
-/

namespace DocMapper

namespace Signed

/-- The integer is in the range of the width. -/
def Fits (bits : Nat) (n : Int) : Prop := -(reach bits : Int) ≤ n ∧ n < (reach bits : Int)

variable {bits : Nat} {m n i j : Int}

/-- What lies between integers in range is in range. -/
theorem Fits.between (hlow : Fits bits m) (hhigh : Fits bits n) (hmi : m ≤ i) (hin : i ≤ n) :
    Fits bits i := ⟨Int.le_trans hlow.1 hmi, Int.lt_of_le_of_lt hin hhigh.2⟩

theorem ofInt?_of_fits (hfits : Fits bits n) : ofInt? bits n = some ⟨n, hfits.1, hfits.2⟩ :=
  dif_pos hfits

theorem ofInt?_of_not_fits (hfits : ¬Fits bits n) : ofInt? bits n = none := dif_neg hfits

theorem isSome_ofInt?_iff : (ofInt? bits n).isSome ↔ Fits bits n := by
  by_cases hfits : Fits bits n
  · rw [ofInt?_of_fits hfits]
    exact iff_of_true rfl hfits
  · rw [ofInt?_of_not_fits hfits]
    exact iff_of_false Bool.false_ne_true hfits

theorem two_pow_eq (hbits : 0 < bits) : Nat.pow 2 bits = 2 * reach bits := by
  cases bits with
  | zero => exact absurd hbits (Nat.lt_irrefl 0)
  | succ b => rw [reach, Nat.pow_eq, Nat.pow_eq, Nat.pow_succ, Nat.add_sub_cancel, Nat.mul_comm]

/-- An integer that is in range stays as it is. -/
theorem wrap_val (hbits : 0 < bits) (n : Signed bits) : wrap bits n.val = n := by
  have hlower := n.lower
  have hupper := n.upper
  have hpow := two_pow_eq hbits
  have hsame : n.val.bmod (Nat.pow 2 bits) = n.val :=
    Int.bmod_eq_of_le_mul_two (by omega) (by omega)
  exact ext hsame

end Signed

namespace Reading

variable {largest : Nat} {e : IntegerError}

theorem boundedDigits_digitChars {n : Nat} (hle : n ≤ largest) :
    boundedDigits largest e 0 (Decimal.digitChars n) = .ok n := by
  obtain ⟨digits, hrun, hvalue⟩ := digitRun_digitChars n
  have hread : boundedDigits largest e 0 (Decimal.digitChars n) = .ok (valueOf digits) :=
    boundedDigits_of_digitRun hrun (by rw [← valueOf, hvalue]; exact hle)
  rw [hread, hvalue]

/-- The first digit of a number is a digit, and so it is no sign. -/
theorem digitChars_ne_sign (n : Nat) :
    ∃ c rest, Decimal.digitChars n = c :: rest ∧ c ≠ '+' ∧ c ≠ '-' := by
  obtain ⟨digits, hrun, _⟩ := digitRun_digitChars n
  cases hchars : Decimal.digitChars n with
  | nil => exact absurd hchars Nat.toDigits_ne_nil
  | cons c rest =>
    rw [hchars] at hrun
    refine ⟨c, rest, rfl, ?_, ?_⟩ <;>
    · rintro rfl
      cases hrun

theorem integer_digitChars {n : Nat} (hle : n ≤ largest) :
    integer largest (Decimal.digitChars n) = .ok (n : Int) := by
  have hread := boundedDigits_digitChars (e := .tooLarge) hle
  obtain ⟨c, rest, hchars, hplus, hminus⟩ := digitChars_ne_sign n
  rw [hchars] at hread ⊢
  unfold integer
  split
  · rename_i heq
    cases heq
  · rename_i heq
    exact absurd (List.cons.inj heq).1 hplus
  · rename_i heq
    exact absurd (List.cons.inj heq).1 hminus
  · rename_i heq
    exact absurd (List.cons.inj heq).1 hminus
  · rename_i heq
    exact absurd (List.cons.inj heq).1 hplus
  · rw [hread]
    rfl

theorem integer_minus_digitChars {n : Nat} (hle : n ≤ largest + 1) :
    integer largest ('-' :: Decimal.digitChars n) = .ok (-(n : Int)) := by
  have hread := boundedDigits_digitChars (e := .tooSmall) hle
  obtain ⟨c, rest, hchars, _, _⟩ := digitChars_ne_sign n
  rw [hchars] at hread ⊢
  rw [integer, hread]
  · rfl
  · exact fun heq => List.cons_ne_nil _ _ heq

/-- A sign and digits read back as the integer. -/
theorem integer_sign_digitChars {n : Int} (hlower : -(largest + 1 : Int) ≤ n)
    (hupper : n ≤ largest) :
    integer largest ((if n < 0 then ['-'] else []) ++ Decimal.digitChars n.natAbs) = .ok n := by
  by_cases hnegative : n < 0
  · have hvalue : -(n.natAbs : Int) = n := by omega
    have hread : integer largest ('-' :: Decimal.digitChars n.natAbs) =
        .ok (-(n.natAbs : Int)) := integer_minus_digitChars (by omega)
    rw [hvalue] at hread
    rw [if_pos hnegative]
    exact hread
  · have hvalue : (n.natAbs : Int) = n := by omega
    have hread : integer largest (Decimal.digitChars n.natAbs) = .ok (n.natAbs : Int) :=
      integer_digitChars (by omega)
    rw [hvalue] at hread
    rw [if_neg hnegative]
    exact hread

/-- No two integers have one sign and one list of digits. -/
theorem sign_digitChars_inj {m n : Int}
    (heq : (if m < 0 then ['-'] else []) ++ Decimal.digitChars m.natAbs =
      (if n < 0 then ['-'] else []) ++ Decimal.digitChars n.natAbs) : m = n := by
  have hm : integer (m.natAbs + n.natAbs) _ = .ok m :=
    integer_sign_digitChars (by omega) (by omega)
  have hn : integer (m.natAbs + n.natAbs) _ = .ok n :=
    integer_sign_digitChars (by omega) (by omega)
  rw [heq, hn] at hm
  exact (Except.ok.inj hm).symm

/-- The decimal text of an integer reads back as the integer. -/
theorem signed_text {bits : Nat} (hbits : 0 < bits) (n : Signed bits) :
    signed bits n.text = .ok n := by
  have hpos : 0 < reach bits := Nat.pow_pos (by decide)
  have hlower := n.lower
  have hupper := n.upper
  have hinteger : integer (reach bits - 1) n.text.toList = .ok n.val := by
    rw [Signed.text, String.toList_ofList]
    exact integer_sign_digitChars (by omega) (by omega)
  rw [signed, hinteger]
  exact congrArg Except.ok (Signed.wrap_val hbits n)

end Reading

end DocMapper
