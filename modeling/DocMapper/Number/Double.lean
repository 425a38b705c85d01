/-!
# Double precision numbers

A finite double precision number is a whole number of units of `2⁻¹⁰⁷⁴`, the least positive
one, so it is held exactly: a sign and a natural number of units. Order and arithmetic are
integer arithmetic on units, followed by one rounding to the nearest representable number
of units, ties to even. Results beyond the largest finite number are infinite.

Main statements: rounding always gives a representable number of units as long as it stays
below the overflow bound (`dvd_nearest`), and it lengthens a number by at most one bit
(`log2_nearest_le`).
-/

namespace DocMapper

namespace Double

/-- A number of units that has at most 2098 bits, so it stays below the overflow bound
    `2¹⁰²⁴`, and whose bits fit a significand of 53 of them. -/
def Representable (units : Nat) : Prop :=
  units.log2 < 2098 ∧ Nat.pow 2 (units.log2 - 52) ∣ units

instance (units : Nat) : Decidable (Representable units) :=
  inferInstanceAs (Decidable (_ ∧ _))

/-- The units in the number one. -/
def one : Nat := Nat.pow 2 1074

/-- How many low bits of a quantity of `units` do not fit the significand. -/
def spareBits (units : Nat) : Nat := units.log2 - 52

/-- `num / den` rounded to a whole number, ties to even. -/
def roundHalfEven (num den : Nat) : Nat :=
  let quotient := num / den
  let twice := 2 * (num % den)
  if twice > den || (twice == den && quotient % 2 == 1) then quotient + 1 else quotient

/-- The quantity `num / den` of units rounded to 53 significant bits, ties to even. -/
def nearest (num den : Nat) : Nat :=
  let spare := spareBits (num / den)
  roundHalfEven num (den * Nat.pow 2 spare) * Nat.pow 2 spare

theorem roundHalfEven_le (num den : Nat) : roundHalfEven num den ≤ num / den + 1 := by
  unfold roundHalfEven
  dsimp only
  split <;> omega

/-- Rounding to 53 bits leaves at most `2⁵³` steps of the last place. -/
theorem roundHalfEven_spare_le (num den : Nat) :
    roundHalfEven num (den * Nat.pow 2 (spareBits (num / den))) ≤ Nat.pow 2 53 := by
  simp only [Nat.pow_eq]
  have hround := roundHalfEven_le num (den * 2 ^ spareBits (num / den))
  have hquot : num / (den * 2 ^ spareBits (num / den)) =
      num / den / 2 ^ spareBits (num / den) := by rw [Nat.div_div_eq_div_mul]
  have hlog : num / den < 2 ^ (53 + spareBits (num / den)) := by
    refine Nat.lt_of_lt_of_le (Nat.lt_log2_self (n := num / den)) ?_
    exact Nat.pow_le_pow_right (by decide) (by unfold spareBits; omega)
  have hdiv : num / den / 2 ^ spareBits (num / den) < 2 ^ 53 := by
    rw [Nat.div_lt_iff_lt_mul (Nat.pow_pos (by decide)), ← Nat.pow_add]
    exact hlog
  omega

/-- The bits that do not fit are zero after rounding. -/
theorem dvd_nearest (num den : Nat) :
    Nat.pow 2 ((nearest num den).log2 - 52) ∣ nearest num den := by
  have hle := roundHalfEven_spare_le num den
  unfold nearest
  simp only [Nat.pow_eq] at hle ⊢
  generalize hk : spareBits (num / den) = k at *
  generalize roundHalfEven num (den * 2 ^ k) = m at *
  by_cases hm : m = 2 ^ 53
  · subst hm
    rw [← Nat.pow_add, Nat.log2_two_pow]
    exact Nat.pow_dvd_pow 2 (by omega)
  · by_cases hzero : m = 0
    · simp [hzero]
    · have hlt : m < 2 ^ 53 := Nat.lt_of_le_of_ne hle hm
      have hprod : m * 2 ^ k ≠ 0 :=
        Nat.mul_ne_zero hzero (Nat.pos_iff_ne_zero.mp (Nat.pow_pos (by decide)))
      have hlog : (m * 2 ^ k).log2 < 53 + k := by
        rw [Nat.log2_lt hprod, Nat.pow_add]
        exact Nat.mul_lt_mul_of_pos_right hlt (Nat.pow_pos (by decide))
      exact Nat.dvd_trans (Nat.pow_dvd_pow 2 (by omega)) (Nat.dvd_mul_left _ _)

/-- A factor of at most `2 ^ a` lengthens a number by at most `a` bits. -/
theorem log2_mul_le {m a : Nat} (p : Nat) (hm : m ≤ Nat.pow 2 a) :
    (m * p).log2 ≤ a + p.log2 := by
  simp only [Nat.pow_eq] at hm
  by_cases hzero : m * p = 0
  · simp [hzero]
  · have hpos : 0 < m := Nat.pos_of_ne_zero fun h => hzero (by simp [h])
    have hbound : m * p < 2 ^ (a + p.log2 + 1) := by
      rw [Nat.add_assoc, Nat.pow_add]
      exact Nat.lt_of_lt_of_le (Nat.mul_lt_mul_of_pos_left Nat.lt_log2_self hpos)
        (Nat.mul_le_mul_right _ hm)
    have := (Nat.log2_lt hzero).mpr hbound
    omega

/-- Rounding to 53 bits carries into at most one more bit. -/
theorem log2_nearest_le {num den b : Nat} (hb : 52 ≤ b) (hlog : (num / den).log2 ≤ b) :
    (nearest num den).log2 ≤ b + 1 := by
  have hle := roundHalfEven_spare_le num den
  have hprod : nearest num den ≤ 2 ^ (b + 1) := by
    unfold nearest
    simp only [Nat.pow_eq] at hle ⊢
    calc _ ≤ 2 ^ 53 * 2 ^ spareBits (num / den) := Nat.mul_le_mul_right _ hle
      _ = 2 ^ (53 + spareBits (num / den)) := by rw [Nat.pow_add]
      _ ≤ 2 ^ (b + 1) := Nat.pow_le_pow_right (by decide) (by unfold spareBits; omega)
  by_cases hzero : nearest num den = 0
  · simp [hzero]
  · have := (Nat.log2_lt (k := b + 2) hzero).mpr
      (Nat.lt_of_le_of_lt hprod (Nat.pow_lt_pow_right (by decide) (by omega)))
    omega

end Double

/-- A finite double precision number: its sign, which zero has too, and its absolute value
    in units of `2⁻¹⁰⁷⁴`. -/
structure Double where
  negative : Bool
  magnitude : Nat
  representable : Double.Representable magnitude
deriving DecidableEq

/-- A sum or quotient of double precision numbers: finite, or beyond all finite numbers. -/
inductive Quantity where
  | finite (x : Double)
  | infinite (negative : Bool)
deriving DecidableEq

namespace Quantity

/-- The quantity `± num / den` of units, rounded. -/
def ofRatio (negative : Bool) (num den : Nat) : Quantity :=
  if h : (Double.nearest num den).log2 < 2098 then
    .finite ⟨negative, Double.nearest num den, h, Double.dvd_nearest num den⟩
  else .infinite negative

/-- The number `± digits · 10 ^ exponent`, rounded. A power of ten has at least three bits for
    each factor, so that numbers far outside the range of double precision are told without
    computing the power. -/
def ofDecimal (negative : Bool) (digits : Nat) (exponent : Int) : Quantity :=
  if digits = 0 then .finite ⟨negative, 0, by decide⟩
  else if 0 ≤ exponent && digits.log2 + 3 * exponent > 1100 then .infinite negative
  else if digits.log2 + 1 + 3 * exponent < -1100 then .finite ⟨negative, 0, by decide⟩
  else if 0 ≤ exponent then
    ofRatio negative (digits * Nat.pow 10 exponent.toNat * Double.one) 1
  else ofRatio negative (digits * Double.one) (Nat.pow 10 (-exponent).toNat)

/-- A finite quantity as a number. -/
def finite? : Quantity → Option Double
  | .finite x => some x
  | .infinite _ => none

end Quantity

namespace Double

/-- Positive zero. -/
def zero : Double := ⟨false, 0, by decide⟩

/-- The exact value in units. -/
def units (x : Double) : Int := if x.negative then -(x.magnitude : Int) else x.magnitude

/-- Numbers compare by value, so the two zeros are equal. -/
def compare (x y : Double) : Ordering := Ord.compare x.units y.units

/-- Whether two numbers have one value. -/
def sameValue (x y : Double) : Bool := x.units == y.units

/-- The number nearest to an integer of at most 64 bits. -/
def ofInt (n : Int) (h : n.natAbs ≤ 18446744073709551616) : Double :=
  ⟨n < 0, nearest (n.natAbs * one) 1,
    Nat.lt_of_le_of_lt
      (log2_nearest_le (Nat.le_add_right_of_le (by decide : 52 ≤ 64))
        (by rw [Nat.div_one]; exact log2_mul_le one (Nat.le_trans h (by decide))))
      (by decide +kernel),
    dvd_nearest _ _⟩

/-- The sum, rounded. Two zeros of one sign keep it; any other sum of zero is positive. -/
def add (x y : Double) : Quantity :=
  let total := x.units + y.units
  Quantity.ofRatio (if total = 0 then x.negative && y.negative else total < 0) total.natAbs 1

/-- The number of opposite sign. -/
def neg (x : Double) : Double := { x with negative := !x.negative }

/-- The product, rounded. -/
def mul (x y : Double) : Quantity :=
  Quantity.ofRatio (x.negative != y.negative) (x.magnitude * y.magnitude) one

/-- The quotient by a number other than zero, rounded. -/
def div (x y : Double) : Quantity :=
  Quantity.ofRatio (x.negative != y.negative) (x.magnitude * one) y.magnitude

/-- Rounded toward zero, and kept within `0 … 2⁶⁴ - 1`. -/
def toNat64 (x : Double) : Nat :=
  if x.negative then 0 else min (x.magnitude / one) (Nat.pow 2 64 - 1)

end Double

namespace Quantity

/-- Add a finite number; an infinite total stays what it is. -/
def add : Quantity → Double → Quantity
  | .finite x, y => x.add y
  | .infinite negative, _ => .infinite negative

/-- Divide by a finite number other than zero. -/
def div : Quantity → Double → Quantity
  | .finite x, y => x.div y
  | .infinite negative, y => .infinite (negative != y.negative)

end Quantity

end DocMapper
