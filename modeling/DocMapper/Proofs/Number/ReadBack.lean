import DocMapper.Proofs.Number.Whole

/-!
# Numbers that read back

The shortest decimal of a double precision number rounds to the number, and a decimal rounds to the
same number however many zeros stand behind its digits. Main statement: in whatever layout a number
is written, its text reads back as the number, so that no two numbers have one text.
-/

namespace DocMapper

/-! ## Rounding -/

namespace Double

theorem roundHalfEven_mul_mul (num den : Nat) {c : Nat} (hc : 0 < c) :
    roundHalfEven (num * c) (den * c) = roundHalfEven num den := by
  have hquot : num * c / (den * c) = num / den := Nat.mul_div_mul_right num den hc
  have hrem : 2 * (num * c % (den * c)) = 2 * (num % den) * c := by
    rw [Nat.mul_mod_mul_right, Nat.mul_assoc]
  have hgreater : 2 * (num % den) * c > den * c ↔ 2 * (num % den) > den :=
    Nat.mul_lt_mul_right hc
  have hequal : (2 * (num % den) * c == den * c) = (2 * (num % den) == den) := by
    rw [Bool.eq_iff_iff, beq_iff_eq, beq_iff_eq, Nat.mul_right_cancel_iff hc]
  simp only [roundHalfEven, hquot, hrem, hgreater, hequal]

/-- What is rounded is the quotient, in whatever terms it is given. -/
theorem nearest_mul_mul (num den : Nat) {c : Nat} (hc : 0 < c) :
    nearest (num * c) (den * c) = nearest num den := by
  simp only [nearest, Nat.mul_div_mul_right num den hc, Nat.mul_right_comm den c,
    roundHalfEven_mul_mul _ _ hc]

/-- A representable number of units is not rounded. -/
theorem nearest_of_representable {m : Nat} (hm : Representable m) : nearest m 1 = m := by
  obtain ⟨c, hc⟩ := hm.2
  have hfactor : m = c * Nat.pow 2 (m.log2 - 52) := hc.trans (Nat.mul_comm _ _)
  have hexact : roundHalfEven m (Nat.pow 2 (m.log2 - 52)) = c := by
    have hround := roundHalfEven_mul c (Nat.pow 2 (m.log2 - 52)) (two_pow_pos _)
    rwa [← hfactor] at hround
  rw [nearest, Nat.div_one, spareBits, Nat.one_mul, hexact, ← hfactor]

theorem nearest_zero (den : Nat) : nearest 0 den = 0 := by
  simp [nearest, roundHalfEven]

/-- What is less than half a unit is nothing. -/
theorem nearest_of_small {num den : Nat} (hsmall : 2 * num < den) : nearest num den = 0 := by
  have hquot : num / den = 0 := Nat.div_eq_of_lt (by omega)
  have hrem : num % den = num := Nat.mod_eq_of_lt (by omega)
  have hround : roundHalfEven num den = 0 := by
    have hless : ¬2 * num > den := by omega
    have hne : (2 * num == den) = false := beq_eq_false_iff_ne.mpr (by omega)
    simp [roundHalfEven, hquot, hrem, hless, hne]
  simp [nearest, hquot, spareBits, hround]

end Double

/-! ## Decimals -/

namespace Decimal

open Double

/-- The units of the number nearest to the decimal. -/
def units (d : Decimal) : Nat :=
  if 0 ≤ d.exponent then nearest (d.digits * Nat.pow 10 d.exponent.toNat * one) 1
  else nearest (d.digits * one) (Nat.pow 10 (-d.exponent).toNat)

theorem units_of_nonneg {d : Decimal} (hexponent : 0 ≤ d.exponent) :
    d.units = nearest (d.digits * Nat.pow 10 d.exponent.toNat * one) 1 := if_pos hexponent

theorem units_of_neg {d : Decimal} (hexponent : ¬0 ≤ d.exponent) :
    d.units = nearest (d.digits * one) (Nat.pow 10 (-d.exponent).toNat) := if_neg hexponent

/-- A zero behind the digits makes no difference where the exponent is less by one. -/
theorem units_mul_ten (digits : Nat) (exponent : Int) :
    units ⟨digits * 10, exponent - 1⟩ = units ⟨digits, exponent⟩ := by
  by_cases hpositive : 0 ≤ exponent - 1
  · have hnext : exponent.toNat = (exponent - 1).toNat + 1 := by omega
    rw [units_of_nonneg (d := ⟨digits * 10, exponent - 1⟩) hpositive,
      units_of_nonneg (d := ⟨digits, exponent⟩) (by simp only; omega), hnext, Nat.pow_eq,
      Nat.pow_eq, Nat.pow_succ', Nat.mul_assoc digits]
  · have hunit : digits * 10 * one = digits * one * 10 := Nat.mul_right_comm _ _ _
    rw [units_of_neg (d := ⟨digits * 10, exponent - 1⟩) hpositive]
    by_cases hzero : 0 ≤ exponent
    · have hvalue : exponent = 0 := by omega
      rw [units_of_nonneg (d := ⟨digits, exponent⟩) hzero, hvalue, hunit]
      have hten := nearest_mul_mul (digits * one) 1 (c := 10) (by decide)
      simpa using hten
    · have hnext : (-(exponent - 1)).toNat = (-exponent).toNat + 1 := by omega
      rw [units_of_neg (d := ⟨digits, exponent⟩) hzero, hunit, hnext, Nat.pow_eq, Nat.pow_eq,
        Nat.pow_succ]
      exact nearest_mul_mul _ _ (by decide)

theorem units_mul_pow (digits : Nat) (exponent : Int) (zeros : Nat) :
    units ⟨digits * Nat.pow 10 zeros, exponent - zeros⟩ = units ⟨digits, exponent⟩ := by
  induction zeros with
  | zero => simp
  | succ zeros ih =>
    have hdigits : digits * Nat.pow 10 (zeros + 1) = digits * Nat.pow 10 zeros * 10 := by
      rw [Nat.pow_eq, Nat.pow_eq, Nat.pow_succ, Nat.mul_assoc]
    have hexponent : exponent - ((zeros + 1 : Nat) : Int) = exponent - zeros - 1 := by omega
    rw [hdigits, hexponent, units_mul_ten, ih]

theorem units_stripZeros (fuel : Nat) (d : Decimal) : (d.stripZeros fuel).units = d.units := by
  induction fuel generalizing d with
  | zero => rfl
  | succ fuel ih =>
    rw [stripZeros]
    split
    · rename_i hzero
      rw [Bool.and_eq_true, beq_iff_eq] at hzero
      have hdigits : d.digits / 10 * 10 = d.digits :=
        Nat.div_mul_cancel (Nat.dvd_of_mod_eq_zero hzero.2)
      have hshift := units_mul_ten (d.digits / 10) (d.exponent + 1)
      rw [hdigits, Int.add_sub_cancel] at hshift
      rw [ih, ← hshift]
    · rfl

/-- The exact decimal of a number of units. -/
theorem units_exact {m : Nat} (hm : Representable m) :
    units ⟨m * Nat.pow 5 1074, -1074⟩ = m := by
  obtain ⟨k, hk⟩ : ∃ k, k = 1074 := ⟨_, rfl⟩
  have hexponent : (-(-1074 : Int)).toNat = k := hk ▸ rfl
  have hvalue : m * Nat.pow 5 k * Nat.pow 2 k = m * Nat.pow 10 k := by
    rw [Nat.mul_assoc, Nat.pow_eq, Nat.pow_eq, Nat.pow_eq, ← Nat.mul_pow]
  have hnegative : ¬0 ≤ Decimal.exponent ⟨m * Nat.pow 5 1074, -1074⟩ := of_decide_eq_true rfl
  have hscaled : nearest (m * Nat.pow 10 k) (1 * Nat.pow 10 k) = nearest m 1 :=
    nearest_mul_mul m 1 (Nat.pow_pos (by decide))
  rw [Nat.one_mul, nearest_of_representable hm] at hscaled
  rw [units_of_neg hnegative, hexponent, one_eq hk, ← hk, hvalue, hscaled]

end Decimal

namespace Quantity

open Double

variable {d : Decimal} {x : Double} {negative : Bool}

theorem ofRatio_of_nearest {num den : Nat} (hnearest : nearest num den = x.magnitude) :
    ofRatio negative num den = .finite ⟨negative, x.magnitude, x.representable⟩ := by
  have hlog : (nearest num den).log2 < 2098 := hnearest ▸ x.representable.1
  rw [ofRatio, dif_pos hlog]
  simp only [hnearest]

/-- A decimal that is far too large for a double precision number rounds to none. -/
theorem not_too_large (hunits : d.units = x.magnitude) (hexponent : 0 ≤ d.exponent)
    (hdigits : d.digits ≠ 0) : ¬d.digits.log2 + 3 * d.exponent > 1100 := by
  intro hlarge
  obtain ⟨k, hk⟩ : ∃ k, k = 1074 := ⟨_, rfl⟩
  obtain ⟨e, he⟩ : ∃ e : Nat, d.exponent = e := ⟨_, (Int.toNat_of_nonneg hexponent).symm⟩
  rw [Decimal.units_of_nonneg hexponent, one_eq hk, he, Int.toNat_natCast] at hunits
  have hpower : 2 ^ (3 * e) ≤ 10 ^ e := by
    rw [Nat.pow_mul]
    exact Nat.pow_le_pow_left (by decide) e
  have hlead : 2 ^ (d.digits.log2 + 3 * e + k) ≤ d.digits * Nat.pow 10 e * Nat.pow 2 k := by
    rw [Nat.pow_add, Nat.pow_add]
    exact Nat.mul_le_mul_right _ (Nat.mul_le_mul (Nat.log2_self_le hdigits) hpower)
  have hne : d.digits * Nat.pow 10 e * Nat.pow 2 k ≠ 0 :=
    Nat.ne_of_gt (Nat.lt_of_lt_of_le (Nat.pow_pos (by decide)) hlead)
  have hlog := (Nat.le_log2 hne).mpr hlead
  have hnearest : Nat.pow 2 (d.digits * Nat.pow 10 e * Nat.pow 2 k).log2 ≤ x.magnitude := by
    have hquot : d.digits * Nat.pow 10 e * Nat.pow 2 k / 1 ≠ 0 := by rwa [Nat.div_one]
    have hround := two_pow_log2_le_nearest hquot
    rwa [Nat.div_one, hunits] at hround
  have hmagnitude : x.magnitude ≠ 0 :=
    Nat.ne_of_gt (Nat.lt_of_lt_of_le (two_pow_pos _) hnearest)
  have hbits := (Nat.le_log2 hmagnitude).mpr hnearest
  have hrange := x.representable.1
  omega

/-- A decimal that is far too small for a double precision number rounds to zero. -/
theorem eq_zero_of_too_small (hunits : d.units = x.magnitude)
    (hsmall : d.digits.log2 + 1 + 3 * d.exponent < -1100) : x.magnitude = 0 := by
  obtain ⟨k, hk⟩ : ∃ k, k = 1074 := ⟨_, rfl⟩
  have hexponent : ¬0 ≤ d.exponent := by omega
  obtain ⟨e, he⟩ : ∃ e : Nat, (-d.exponent).toNat = e := ⟨_, rfl⟩
  rw [Decimal.units_of_neg hexponent, one_eq hk, he] at hunits
  rw [← hunits]
  refine nearest_of_small ?_
  have hpower : 2 ^ (3 * e) ≤ 10 ^ e := by
    rw [Nat.pow_mul]
    exact Nat.pow_le_pow_left (by decide) e
  have hdigits : d.digits < 2 ^ (d.digits.log2 + 1) := Nat.lt_log2_self
  calc 2 * (d.digits * Nat.pow 2 k) = d.digits * 2 ^ (k + 1) := by
        rw [Nat.pow_succ, Nat.pow_eq, Nat.mul_comm 2, Nat.mul_assoc]
    _ < 2 ^ (d.digits.log2 + 1) * 2 ^ (k + 1) :=
        Nat.mul_lt_mul_of_pos_right hdigits (Nat.pow_pos (by decide))
    _ = 2 ^ (d.digits.log2 + 1 + (k + 1)) := (Nat.pow_add _ _ _).symm
    _ ≤ 2 ^ (3 * e) := Nat.pow_le_pow_right (by decide) (by omega)
    _ ≤ Nat.pow 10 e := hpower

/-- A decimal is read as the number that it rounds to. -/
theorem ofDecimal_of_units (hunits : d.units = x.magnitude) :
    ofDecimal negative d.digits d.exponent =
      .finite ⟨negative, x.magnitude, x.representable⟩ := by
  by_cases hdigits : d.digits = 0
  · have hzero : x.magnitude = 0 := by
      rw [← hunits, Decimal.units, hdigits]
      simp [nearest_zero]
    simp only [ofDecimal, if_pos hdigits, hzero]
  · by_cases hexponent : 0 ≤ d.exponent
    · rw [ofDecimal_of_nonneg negative hdigits hexponent,
        if_neg (not_too_large hunits hexponent hdigits)]
      rw [Decimal.units_of_nonneg hexponent] at hunits
      exact ofRatio_of_nearest hunits
    · by_cases hsmall : d.digits.log2 + 1 + 3 * d.exponent < -1100
      · have hzero := eq_zero_of_too_small hunits hsmall
        simp [ofDecimal, hdigits, hexponent, hsmall, hzero]
      · rw [Decimal.units_of_neg hexponent] at hunits
        simpa [ofDecimal, hdigits, hexponent, hsmall] using ofRatio_of_nearest hunits

end Quantity

namespace Double

variable {d : Decimal} {m : Nat} {x : Double}

/-- What reads as a number other than zero rounds to it. -/
theorem units_of_readsAs (hreads : readsAs d m = true) (hm : m ≠ 0) : d.units = m := by
  rw [readsAs] at hreads
  split at hreads
  · rename_i y hread
    have hmagnitude : y.magnitude = m := beq_iff_eq.mp hreads
    have hne : y.magnitude ≠ 0 := hmagnitude ▸ hm
    rw [← hmagnitude]
    unfold Quantity.ofDecimal at hread
    split at hread
    · cases hread
      exact absurd rfl hne
    · split at hread
      · cases hread
      · split at hread
        · cases hread
          exact absurd rfl hne
        · split at hread
          · rename_i hexponent
            rw [Decimal.units_of_nonneg hexponent, magnitude_of_ofRatio hread]
          · rename_i hexponent
            rw [Decimal.units_of_neg hexponent, magnitude_of_ofRatio hread]
  · cases hreads

/-- Of the two neighbors on a grid one is taken that reads back. -/
theorem readsAs_of_onGrid? {tiesUp : Bool} {exponent : Int}
    (hgrid : onGrid? tiesUp m exponent = some d) : readsAs d m = true := by
  obtain ⟨nearer, farther, hsplit⟩ : ∃ nearer farther, onGrid? tiesUp m exponent =
      if readsAs nearer m then some nearer
      else if readsAs farther m then some farther else none := by
    unfold onGrid?
    generalize (if 0 ≤ exponent then m else m * Nat.pow 10 (-exponent).toNat) = num
    generalize (if 0 ≤ exponent then one * Nat.pow 10 exponent.toNat else one) = den
    dsimp only
    split <;> exact ⟨_, _, rfl⟩
  rw [hsplit] at hgrid
  by_cases hnear : readsAs nearer m = true
  · rw [if_pos hnear] at hgrid
    cases hgrid
    exact hnear
  · by_cases hfar : readsAs farther m = true
    · rw [if_neg hnear, if_pos hfar] at hgrid
      cases hgrid
      exact hfar
    · rw [if_neg hnear, if_neg hfar] at hgrid
      cases hgrid

theorem units_shortestFrom (tiesUp : Bool) (hm : Representable m) (hne : m ≠ 0) (tries : Nat)
    (exponent : Int) : (shortestFrom tiesUp m tries exponent).units = m := by
  induction tries generalizing exponent with
  | zero => exact Decimal.units_exact hm
  | succ tries ih =>
    rw [shortestFrom]
    split
    · rename_i d hgrid
      exact units_of_readsAs (readsAs_of_onGrid? hgrid) hne
    · exact ih (exponent - 1)

/-- The shortest decimal of a number rounds to the number. -/
theorem units_shortest (tiesUp : Bool) (x : Double) : (x.shortest tiesUp).units = x.magnitude := by
  rw [shortest]
  split
  · rename_i hzero
    rw [hzero, Decimal.units_of_nonneg (Int.le_refl 0)]
    simp [nearest_zero]
  · rename_i hne
    rw [Decimal.units_stripZeros, units_shortestFrom tiesUp x.representable hne]

end Double

/-! ## Reading -/

namespace Reading

open Decimal

/-- The characters are decimal digits. -/
def AllDigits (text : List Char) : Prop := ∀ c ∈ text, (digit? c).isSome = true

/-- The numbers that digits stand for. -/
def digitsOf (text : List Char) : List Nat := text.filterMap digit?

/-- The text does not go on with a digit. -/
def NoDigitFirst (text : List Char) : Prop := ∀ c ∈ text.head?, digit? c = none

variable {front text rest whole fraction tail : List Char} {e : Int}

theorem digit?_of_isDigit {c : Char} (hc : c.isDigit = true) : (digit? c).isSome = true := by
  rw [Char.isDigit, Bool.and_eq_true, decide_eq_true_eq, decide_eq_true_eq] at hc
  rw [digit?, if_pos ⟨hc.1, hc.2⟩, Option.isSome_some]

theorem allDigits_append : AllDigits (front ++ text) ↔ AllDigits front ∧ AllDigits text :=
  List.forall_mem_append

theorem allDigits_digitChars (n : Nat) : AllDigits (digitChars n) :=
  fun _ hc => digit?_of_isDigit (isDigit_of_mem_digitChars hc)

theorem allDigits_zeros (n : Nat) : AllDigits (List.replicate n '0') :=
  fun _ hc => digit?_of_isDigit (isDigit_of_mem_zeros hc)

theorem digitsOf_append (front text : List Char) :
    digitsOf (front ++ text) = digitsOf front ++ digitsOf text := List.filterMap_append

theorem length_digitsOf (hdigits : AllDigits text) : (digitsOf text).length = text.length := by
  induction text with
  | nil => rfl
  | cons c text ih =>
    obtain ⟨hc, htext⟩ := List.forall_mem_cons.mp hdigits
    obtain ⟨d, hd⟩ := Option.isSome_iff_exists.mp hc
    rw [digitsOf, List.filterMap_cons_some hd, List.length_cons, List.length_cons]
    exact congrArg (· + 1) (ih htext)

/-- Digits are read up to what is no digit. -/
theorem digitRun_of_allDigits (hdigits : AllDigits text) (hrest : NoDigitFirst rest) :
    digitRun (text ++ rest) = (digitsOf text, rest) := by
  induction text with
  | nil =>
    cases rest with
    | nil => rfl
    | cons c rest =>
      rw [List.nil_append, digitRun, hrest c rfl]
      rfl
  | cons c text ih =>
    obtain ⟨hc, htext⟩ := List.forall_mem_cons.mp hdigits
    obtain ⟨d, hd⟩ := Option.isSome_iff_exists.mp hc
    rw [List.cons_append, digitRun, hd, ih htext, digitsOf, digitsOf, List.filterMap_cons_some hd]

theorem digitRun_of_allDigits_nil (hdigits : AllDigits text) :
    digitRun text = (digitsOf text, []) := by
  have hrun : digitRun (text ++ []) = (digitsOf text, []) :=
    digitRun_of_allDigits hdigits (by simp [NoDigitFirst])
  rwa [List.append_nil] at hrun

theorem valueOf_digitsOf_digitChars (n : Nat) : valueOf (digitsOf (digitChars n)) = n := by
  obtain ⟨digits, hrun, hvalue⟩ := digitRun_digitChars n
  have hall := digitRun_of_allDigits_nil (allDigits_digitChars n)
  rw [hrun] at hall
  rw [← (Prod.mk.inj hall).1, hvalue]

/-- Zeros in front make no difference to a value. -/
theorem valueOf_digitsOf_zeros (zeros : Nat) (text : List Char) :
    valueOf (digitsOf (List.replicate zeros '0' ++ text)) = valueOf (digitsOf text) := by
  induction zeros with
  | zero => rfl
  | succ zeros ih =>
    have hzero : digit? '0' = some 0 := rfl
    rw [← ih, List.replicate_succ, List.cons_append, digitsOf, List.filterMap_cons_some hzero]
    rfl

/-- What may stand behind the digits of a number: nothing, or an exponent. -/
def Tail (tail : List Char) (e : Int) : Prop :=
  exponent? tail = some e ∧ NoDigitFirst tail ∧ tail.head? ≠ some '.'

theorem tail_nil : Tail [] 0 := by
  simp [Tail, exponent?, NoDigitFirst]

/-- A number without a point. -/
theorem unsignedDecimal?_whole (negative : Bool) (hwhole : AllDigits whole) (hne : whole ≠ [])
    (htail : Tail tail e) :
    unsignedDecimal? negative (whole ++ tail) =
      some (Quantity.ofDecimal negative (valueOf (digitsOf whole)) e) := by
  obtain ⟨hexponent, hnodigit, hpoint⟩ := htail
  have hdigits : digitsOf whole ≠ [] := by
    rwa [← List.length_pos_iff, length_digitsOf hwhole, List.length_pos_iff]
  rw [unsignedDecimal?, digitRun_of_allDigits hwhole hnodigit]
  cases tail with
  | nil => simp [hdigits, hexponent]
  | cons c rest =>
    have hc : c ≠ '.' := fun heq => hpoint (heq ▸ rfl)
    simp [hdigits, hexponent, hc]

/-- A number with a point. -/
theorem unsignedDecimal?_fraction (negative : Bool) (hwhole : AllDigits whole) (hne : whole ≠ [])
    (hfraction : AllDigits fraction) (htail : Tail tail e) :
    unsignedDecimal? negative (whole ++ '.' :: (fraction ++ tail)) =
      some (Quantity.ofDecimal negative (valueOf (digitsOf (whole ++ fraction)))
        (e - fraction.length)) := by
  obtain ⟨hexponent, hnodigit, _⟩ := htail
  have hpoint : NoDigitFirst ('.' :: (fraction ++ tail)) := by
    intro c hc
    cases hc
    rfl
  have hdigits : digitsOf whole ≠ [] := by
    rwa [← List.length_pos_iff, length_digitsOf hwhole, List.length_pos_iff]
  rw [unsignedDecimal?, digitRun_of_allDigits hwhole hpoint]
  simp only [digitRun_of_allDigits hfraction hnodigit, hexponent, ← length_digitsOf hfraction,
    digitsOf_append]
  simp [hdigits]

theorem tail_exponent (power : Int) :
    Tail ('e' :: (if power < 0 then '-' else '+') :: digitChars power.natAbs) power := by
  have hrun := digitRun_of_allDigits_nil (allDigits_digitChars power.natAbs)
  have hvalue := valueOf_digitsOf_digitChars power.natAbs
  obtain ⟨d, ds, hdigits⟩ : ∃ d ds, digitsOf (digitChars power.natAbs) = d :: ds := by
    refine List.exists_cons_of_ne_nil ?_
    rw [← List.length_pos_iff, length_digitsOf (allDigits_digitChars _), List.length_pos_iff]
    exact Nat.toDigits_ne_nil
  rw [hdigits] at hrun
  rw [hdigits] at hvalue
  refine ⟨?_, ?_, by simp⟩
  · by_cases hnegative : power < 0
    · have hread : exponent? ('e' :: '-' :: digitChars power.natAbs) =
          some (-(valueOf (d :: ds) : Int)) := by simp [exponent?, hrun]
      have hsign : -(power.natAbs : Int) = power := by omega
      rw [if_pos hnegative, hread, hvalue, hsign]
    · have hread : exponent? ('e' :: '+' :: digitChars power.natAbs) =
          some (valueOf (d :: ds) : Int) := by simp [exponent?, hrun]
      have hsign : (power.natAbs : Int) = power := by omega
      rw [if_neg hnegative, hread, hvalue, hsign]
  · intro c hc
    cases hc
    rfl

/-- Digits with a point in front of the last of them. -/
theorem unsignedDecimal?_pointed (negative : Bool) {places : Nat} (hdigits : AllDigits text)
    (hlong : places + 1 ≤ text.length) :
    unsignedDecimal? negative (text.take (text.length - places) ++
        '.' :: text.drop (text.length - places)) =
      some (Quantity.ofDecimal negative (valueOf (digitsOf text)) (0 - places)) := by
  have hsplit := List.take_append_drop (text.length - places) text
  have hparts := allDigits_append.mp (hsplit.symm ▸ hdigits)
  have hne : text.take (text.length - places) ≠ [] := by
    rw [← List.length_pos_iff, List.length_take]
    omega
  have hlength : (text.drop (text.length - places)).length = places := by
    rw [List.length_drop]
    omega
  have hread := unsignedDecimal?_fraction negative hparts.1 hne hparts.2 tail_nil
  rwa [hsplit, List.append_nil, hlength] at hread

/-- A whole number with a zero behind a point. -/
theorem unsignedDecimal?_pointZero (negative : Bool) (whole : Nat) :
    unsignedDecimal? negative (digitChars whole ++ ['.', '0']) =
      some (Quantity.ofDecimal negative (10 * whole) (0 - 1)) := by
  have hvalue : valueOf (digitsOf (digitChars whole ++ ['0'])) = 10 * whole := by
    have hzero : digitsOf ['0'] = [0] := rfl
    rw [digitsOf_append, hzero, valueOf_append_singleton, valueOf_digitsOf_digitChars,
      Nat.add_zero]
  rw [← hvalue]
  exact unsignedDecimal?_fraction negative (allDigits_digitChars whole) Nat.toDigits_ne_nil
    (allDigits_zeros 1) tail_nil

/-- A decimal written without an exponent is read as the decimal, up to zeros behind its digits. -/
theorem unsignedDecimal?_writePositional (negative : Bool) (layout : DecimalLayout) (d : Decimal) :
    ∃ zeros : Nat, unsignedDecimal? negative (layout.writePositional d) =
      some (Quantity.ofDecimal negative (d.digits * Nat.pow 10 zeros) (d.exponent - zeros)) := by
  by_cases hexponent : 0 ≤ d.exponent
  · have hchars : digitChars d.digits ++
        (if d.digits = 0 then [] else List.replicate d.exponent.toNat '0') =
          digitChars (d.digits * Nat.pow 10 d.exponent.toNat) := by
      by_cases hzero : d.digits = 0
      · rw [if_pos hzero, hzero, Nat.zero_mul, List.append_nil]
      · rw [if_neg hzero, digitChars_mul_pow hzero]
    rw [DecimalLayout.writePositional, if_pos hexponent, hchars]
    cases layout.wholeFraction with
    | false =>
      refine ⟨d.exponent.toNat, ?_⟩
      have hread := unsignedDecimal?_whole negative
        (allDigits_digitChars (d.digits * Nat.pow 10 d.exponent.toNat)) Nat.toDigits_ne_nil tail_nil
      have hplace : d.exponent - d.exponent.toNat = 0 := by omega
      rw [if_neg Bool.false_ne_true, hread, valueOf_digitsOf_digitChars, hplace]
    | true =>
      refine ⟨d.exponent.toNat + 1, ?_⟩
      have hplace : d.exponent - ((d.exponent.toNat + 1 : Nat) : Int) = 0 - 1 := by omega
      have hshift : d.digits * Nat.pow 10 (d.exponent.toNat + 1) =
          10 * (d.digits * Nat.pow 10 d.exponent.toNat) := by
        rw [Nat.pow_eq, Nat.pow_eq, Nat.pow_succ', Nat.mul_left_comm]
      rw [if_pos rfl, unsignedDecimal?_pointZero, hplace, hshift]
  · refine ⟨0, ?_⟩
    have hplace : 0 - ((-d.exponent).toNat : Int) = d.exponent - (0 : Nat) := by omega
    have hone : Nat.pow 10 0 = 1 := rfl
    rw [DecimalLayout.writePositional, if_neg hexponent, ← hplace, hone, Nat.mul_one]
    refine (unsignedDecimal?_pointed negative ?_ ?_).trans ?_
    · exact allDigits_append.mpr ⟨allDigits_zeros _, allDigits_digitChars _⟩
    · rw [List.length_append, List.length_replicate]
      omega
    · rw [valueOf_digitsOf_zeros, valueOf_digitsOf_digitChars]

/-- A decimal written with an exponent is read as the decimal. -/
theorem unsignedDecimal?_writeScientific (negative : Bool) (d : Decimal) :
    unsignedDecimal? negative (DecimalLayout.writeScientific d) =
      some (Quantity.ofDecimal negative d.digits d.exponent) := by
  have hall := allDigits_digitChars d.digits
  have hvalue := valueOf_digitsOf_digitChars d.digits
  have hne : digitChars d.digits ≠ [] := Nat.toDigits_ne_nil
  have htail := tail_exponent d.leading
  unfold DecimalLayout.writeScientific
  have hleading : d.leading = d.exponent + ((digitChars d.digits).length - 1 : Nat) := rfl
  revert hall hvalue hne hleading
  generalize digitChars d.digits = digits
  generalize d.leading = power at *
  intro hall hvalue hne hleading
  match digits, hne with
  | [first], _ =>
    have hread := unsignedDecimal?_whole negative hall (List.cons_ne_nil _ _) htail
    have hpower : power = d.exponent := by simpa using hleading
    rw [hvalue, hpower] at hread
    rw [hpower]
    exact hread
  | first :: second :: others, _ =>
    have hparts : AllDigits [first] ∧ AllDigits (second :: others) := allDigits_append.mp hall
    have hread := unsignedDecimal?_fraction negative hparts.1 (List.cons_ne_nil _ _)
      hparts.2 htail
    have hplace : power - ((second :: others).length : Int) = d.exponent := by
      simp at hleading ⊢
      omega
    have hjoin : [first] ++ second :: others = first :: second :: others := rfl
    rw [hjoin, hvalue, hplace] at hread
    exact hread

/-- The text of a decimal is read as the decimal, up to zeros behind its digits. -/
theorem unsignedDecimal?_write (negative : Bool) (layout : DecimalLayout) (d : Decimal) :
    ∃ zeros : Nat, unsignedDecimal? negative (layout.write d) =
      some (Quantity.ofDecimal negative (d.digits * Nat.pow 10 zeros) (d.exponent - zeros)) := by
  by_cases hpositional : layout.positional d.leading = true
  · rw [DecimalLayout.write, if_pos hpositional]
    exact unsignedDecimal?_writePositional negative layout d
  · refine ⟨0, ?_⟩
    rw [DecimalLayout.write, if_neg hpositional, unsignedDecimal?_writeScientific]
    simp

/-- What reads without a sign does not start with one. -/
theorem decimal?_of_unsigned {q : Quantity} (hread : unsignedDecimal? false text = some q) :
    decimal? text = some q := by
  have hsign : ∀ {c : Char}, digit? c = none → c ≠ '.' → ∀ rest,
      unsignedDecimal? false (c :: rest) = none := by
    intro c hdigit hpoint rest
    simp [unsignedDecimal?, digitRun, hdigit, hpoint]
  cases text with
  | nil => exact hread
  | cons c rest =>
    by_cases hminus : c = '-'
    · rw [hminus, hsign rfl (by decide)] at hread
      cases hread
    · by_cases hplus : c = '+'
      · rw [hplus, hsign rfl (by decide)] at hread
        cases hread
      · simpa [decimal?, hminus, hplus] using hread

end Reading

namespace Double

/-- In every layout, the text of a number reads back as the number. -/
theorem decimal?_write (layout : DecimalLayout) (x : Double) :
    Reading.decimal? (x.write layout) = some (.finite x) := by
  have hread : Reading.unsignedDecimal? x.negative (layout.write (x.shortest layout.tiesUp)) =
      some (.finite x) := by
    obtain ⟨zeros, hwrite⟩ := Reading.unsignedDecimal?_write x.negative layout
      (x.shortest layout.tiesUp)
    have hunits := (Decimal.units_mul_pow (x.shortest layout.tiesUp).digits
      (x.shortest layout.tiesUp).exponent zeros).trans (units_shortest layout.tiesUp x)
    rw [hwrite]
    exact congrArg some (Quantity.ofDecimal_of_units hunits)
  rw [write]
  cases hnegative : x.negative with
  | false =>
    rw [hnegative] at hread
    exact Reading.decimal?_of_unsigned hread
  | true =>
    rw [hnegative] at hread
    exact hread

/-- No two numbers have one text. -/
theorem write_inj (layout : DecimalLayout) {x y : Double}
    (htext : x.write layout = y.write layout) :
    x = y := by
  have hread := decimal?_write layout x
  rw [htext, decimal?_write] at hread
  cases hread
  rfl

end Double

end DocMapper
