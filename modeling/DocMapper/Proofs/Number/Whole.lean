import DocMapper.Json.Text
import DocMapper.Proofs.Number.Signed

/-!
# Whole numbers in double precision

Below `2 ^ 53` every whole number is a double precision number. Main statement: such a number is
written in its decimal digits, so that no two of them have one text.
-/

namespace DocMapper

/-! ## Rounding -/

namespace Double

/-- What is divided without a remainder is not rounded. -/
theorem roundHalfEven_mul (q den : Nat) (hden : 0 < den) : roundHalfEven (q * den) den = q := by
  unfold roundHalfEven
  have hmod : q * den % den = 0 := Nat.mul_mod_left q den
  rw [Nat.mul_div_cancel q hden, hmod, Nat.mul_zero]
  refine if_neg ?_
  have hne : (0 == den) = false := beq_eq_false_iff_ne.mpr (Nat.ne_of_lt hden)
  rw [hne, Bool.false_and, Bool.or_false, decide_eq_true_eq]
  omega

theorem le_roundHalfEven (num den : Nat) : num / den ≤ roundHalfEven num den := by
  unfold roundHalfEven
  dsimp only
  split <;> omega

/-- Rounding does not lose the leading bit. -/
theorem two_pow_log2_le_nearest {num den : Nat} (hquot : num / den ≠ 0) :
    Nat.pow 2 (num / den).log2 ≤ nearest num den := by
  simp only [nearest, spareBits, Nat.pow_eq]
  generalize hlog : (num / den).log2 = l at *
  have hlead : 2 ^ l ≤ num / den := hlog ▸ Nat.log2_self_le hquot
  have hsplit : 2 ^ l = 2 ^ (l - (l - 52)) * 2 ^ (l - 52) := by
    rw [← Nat.pow_add]
    congr 1
    omega
  have hdiv : 2 ^ (l - (l - 52)) ≤ num / (den * 2 ^ (l - 52)) := by
    rw [← Nat.div_div_eq_div_mul, Nat.le_div_iff_mul_le (Nat.pow_pos (by decide)), ← hsplit]
    exact hlead
  rw [hsplit]
  exact Nat.mul_le_mul_right _ (Nat.le_trans hdiv (le_roundHalfEven _ _))

variable {n v : Nat}

theorem two_pow_pos (k : Nat) : 0 < Nat.pow 2 k := Nat.pow_pos (by decide)

theorem log2_mul_two_pow (hn : n ≠ 0) (k : Nat) : (n * Nat.pow 2 k).log2 = n.log2 + k := by
  have hpos := two_pow_pos k
  rw [Nat.pow_eq] at hpos ⊢
  rw [Nat.log2_eq_iff (Nat.mul_ne_zero hn (Nat.ne_of_gt hpos))]
  constructor
  · rw [Nat.pow_add]
    exact Nat.mul_le_mul_right _ (Nat.log2_self_le hn)
  · rw [Nat.add_right_comm, Nat.pow_add]
    exact Nat.mul_lt_mul_of_pos_right Nat.lt_log2_self hpos

theorem one_eq {k : Nat} (hk : k = 1074) : one = Nat.pow 2 k := by
  delta one
  rw [← hk]

theorem one_pos : 0 < one := by
  obtain ⟨k, hk⟩ : ∃ k, k = 1074 := ⟨_, rfl⟩
  rw [one_eq hk]
  exact two_pow_pos k

theorem log2_mul_one (hn : n ≠ 0) : (n * one).log2 = n.log2 + 1074 := by
  obtain ⟨k, hk⟩ : ∃ k, k = 1074 := ⟨_, rfl⟩
  rw [one_eq hk, log2_mul_two_pow hn, hk]

theorem mul_one_ne_zero (hn : n ≠ 0) : n * one ≠ 0 := Nat.mul_ne_zero hn (Nat.ne_of_gt one_pos)

/-- What has zeros in all places that are spared is not rounded. -/
theorem nearest_mul_two_pow {k : Nat} (hspare : spareBits (n * Nat.pow 2 k) ≤ k) :
    nearest (n * Nat.pow 2 k) 1 = n * Nat.pow 2 k := by
  simp only [nearest, Nat.div_one, Nat.one_mul, Nat.pow_eq] at hspare ⊢
  generalize spareBits (n * 2 ^ k) = spare at *
  have hfactor : n * 2 ^ k = n * 2 ^ (k - spare) * 2 ^ spare := by
    rw [Nat.mul_assoc, ← Nat.pow_add, Nat.sub_add_cancel hspare]
  rw [hfactor, roundHalfEven_mul _ _ (Nat.pow_pos (by decide))]

/-- A whole number of at most 53 bits is not rounded. -/
theorem nearest_mul_one (hn : n < Nat.pow 2 53) : nearest (n * one) 1 = n * one := by
  obtain ⟨k, hk⟩ : ∃ k, k = 1074 := ⟨_, rfl⟩
  rw [one_eq hk]
  refine nearest_mul_two_pow ?_
  by_cases hzero : n = 0
  · rw [hzero, Nat.zero_mul]
    exact Nat.zero_le k
  · have hlog : n.log2 < 53 := (Nat.log2_lt hzero).mpr hn
    rw [spareBits, log2_mul_two_pow hzero]
    omega

/-- A whole number is rounded to one that has as many bits, or more. -/
theorem two_pow_log2_mul_one_le (hv : v ≠ 0) :
    Nat.pow 2 v.log2 * one ≤ nearest (v * one) 1 := by
  obtain ⟨k, hk⟩ : ∃ k, k = 1074 := ⟨_, rfl⟩
  have hquot : v * one / 1 ≠ 0 := by
    rw [Nat.div_one]
    exact mul_one_ne_zero hv
  have hlead := two_pow_log2_le_nearest hquot
  rw [Nat.div_one, log2_mul_one hv, ← hk, Nat.pow_eq, Nat.pow_add] at hlead
  rw [one_eq hk] at hlead ⊢
  exact hlead

/-- Of all whole numbers only the number itself is rounded to it. -/
theorem nearest_mul_one_eq_iff (hn : n < Nat.pow 2 53) : nearest (v * one) 1 = n * one ↔ v = n := by
  constructor
  · intro heq
    by_cases hv : v < Nat.pow 2 53
    · rw [nearest_mul_one hv] at heq
      exact Nat.eq_of_mul_eq_mul_right one_pos heq
    · have hlarge : Nat.pow 2 53 ≤ v := Nat.le_of_not_lt hv
      have hne : v ≠ 0 := Nat.ne_of_gt (Nat.lt_of_lt_of_le (two_pow_pos 53) hlarge)
      have hbits : 53 ≤ v.log2 := (Nat.le_log2 hne).mpr hlarge
      have hlead := two_pow_log2_mul_one_le hne
      rw [heq] at hlead
      have hfar : Nat.pow 2 v.log2 ≤ n := Nat.le_of_mul_le_mul_right hlead one_pos
      have hpow : Nat.pow 2 53 ≤ Nat.pow 2 v.log2 := Nat.pow_le_pow_right (by decide) hbits
      exact absurd (Nat.le_trans hpow hfar) (Nat.not_le_of_lt hn)
  · rintro rfl
    exact nearest_mul_one hn

theorem nearest_mul_one_pos (hv : v ≠ 0) : 0 < nearest (v * one) 1 :=
  Nat.lt_of_lt_of_le (Nat.mul_pos (two_pow_pos _) one_pos) (two_pow_log2_mul_one_le hv)

section Order

variable {m : Nat}

/-- Rounding keeps the order of what is rounded to one number of places. -/
theorem roundHalfEven_mono (den : Nat) (hle : m ≤ n) :
    roundHalfEven m den ≤ roundHalfEven n den := by
  have hquot : m / den ≤ n / den := Nat.div_le_div_right hle
  by_cases hlt : m / den < n / den
  · calc roundHalfEven m den ≤ m / den + 1 := roundHalfEven_le m den
      _ ≤ n / den := hlt
      _ ≤ roundHalfEven n den := le_roundHalfEven n den
  · -- With one quotient the remainders are in order.
    have hsame : m / den = n / den := by omega
    have hrem : m % den ≤ n % den := by
      have hm := Nat.div_add_mod m den
      have hn := Nat.div_add_mod n den
      rw [hsame] at hm
      omega
    simp only [roundHalfEven, hsame]
    split
    · next hup =>
      have hother : (2 * (n % den) > den || (2 * (n % den) == den && n / den % 2 == 1)) = true := by
        simp only [Bool.or_eq_true, Bool.and_eq_true, decide_eq_true_eq, beq_iff_eq] at hup ⊢
        omega
      exact Nat.le_of_eq (if_pos hother).symm
    · split <;> omega

/-- Rounding keeps order. Where the larger number is rounded to fewer places, a power of two that
    is not rounded stands between them. -/
theorem nearest_mono (den : Nat) (hle : m ≤ n) : nearest m den ≤ nearest n den := by
  have hquot : m / den ≤ n / den := Nat.div_le_div_right hle
  by_cases hspare : spareBits (m / den) = spareBits (n / den)
  · simp only [nearest, hspare]
    exact Nat.mul_le_mul_right _ (roundHalfEven_mono _ hle)
  · have hne : n / den ≠ 0 := by
      intro hzero
      exact hspare (by rw [Nat.le_antisymm hquot (hzero ▸ Nat.zero_le _)])
    have hlog : (m / den).log2 ≤ (n / den).log2 := by
      by_cases hm : m / den = 0
      · rw [hm]
        exact Nat.zero_le _
      · exact (Nat.le_log2 hne).mpr (Nat.le_trans (Nat.log2_self_le hm) hquot)
    have hbits : 53 + spareBits (m / den) ≤ (n / den).log2 := by
      unfold spareBits at hspare ⊢
      omega
    calc nearest m den ≤ Nat.pow 2 53 * Nat.pow 2 (spareBits (m / den)) :=
          Nat.mul_le_mul_right _ (roundHalfEven_spare_le m den)
      _ = Nat.pow 2 (53 + spareBits (m / den)) := (Nat.pow_add 2 53 _).symm
      _ ≤ Nat.pow 2 (n / den).log2 := Nat.pow_le_pow_right (by decide) hbits
      _ ≤ nearest n den := two_pow_log2_le_nearest hne

end Order

end Double

/-! ## Decimals of whole numbers -/

namespace Decimal

/-- The decimal is this whole number, and has no digits behind the point. -/
def IsWhole (d : Decimal) (n : Nat) : Prop :=
  0 ≤ d.exponent ∧ d.digits * Nat.pow 10 d.exponent.toNat = n

/-- Stripping zeros keeps the number. -/
theorem IsWhole.stripZeros {d : Decimal} {n : Nat} (hwhole : d.IsWhole n) (fuel : Nat) :
    (d.stripZeros fuel).IsWhole n := by
  induction fuel generalizing d with
  | zero => exact hwhole
  | succ fuel ih =>
    rw [Decimal.stripZeros]
    split
    · rename_i hzero
      rw [Bool.and_eq_true, beq_iff_eq] at hzero
      refine ih ⟨Int.add_nonneg hwhole.1 (by decide), ?_⟩
      have hexponent : (d.exponent + 1).toNat = d.exponent.toNat + 1 := by
        have := hwhole.1
        omega
      have hdigits : d.digits / 10 * 10 = d.digits :=
        Nat.div_mul_cancel (Nat.dvd_of_mod_eq_zero hzero.2)
      calc d.digits / 10 * Nat.pow 10 (d.exponent + 1).toNat
          = d.digits / 10 * 10 * Nat.pow 10 d.exponent.toNat := by
            rw [hexponent, Nat.pow_eq, Nat.pow_succ', ← Nat.mul_assoc]
            rfl
        _ = n := by rw [hdigits, hwhole.2]
    · exact hwhole

/-- A power of ten appends as many zeros. -/
theorem digitChars_mul_pow {n : Nat} (hn : n ≠ 0) (zeros : Nat) :
    digitChars (n * Nat.pow 10 zeros) = digitChars n ++ List.replicate zeros '0' := by
  induction zeros with
  | zero =>
    rw [Nat.pow_eq, Nat.pow_zero, Nat.mul_one, List.replicate_zero, List.append_nil]
  | succ zeros ih =>
    have hpos : 0 < n * Nat.pow 10 zeros :=
      Nat.mul_pos (Nat.pos_of_ne_zero hn) (Nat.pow_pos (by decide))
    have hten : n * Nat.pow 10 (zeros + 1) = 10 * (n * Nat.pow 10 zeros) := by
      rw [Nat.mul_comm 10, Nat.mul_assoc]
      rfl
    rw [digitChars, hten, Nat.toDigits_of_base_le (by decide) (by omega),
      Nat.mul_div_cancel_left _ (by decide), Nat.mul_mod_right, ← digitChars, ih,
      List.replicate_succ', List.append_assoc]
    rfl

end Decimal

open Decimal

namespace DecimalLayout

/-- A whole number is written in its digits. -/
theorem write_plain_of_isWhole {d : Decimal} {n : Nat} (hwhole : d.IsWhole n) (hn : n ≠ 0) :
    DecimalLayout.plain.write d = digitChars n := by
  obtain ⟨hexponent, rfl⟩ := hwhole
  have hdigits : d.digits ≠ 0 := fun hzero => hn (by rw [hzero, Nat.zero_mul])
  have hwrite : DecimalLayout.plain.write d = DecimalLayout.plain.writePositional d := if_pos rfl
  rw [hwrite, writePositional, if_pos hexponent, if_neg hdigits, digitChars_mul_pow hdigits]
  exact List.append_nil _

end DecimalLayout

namespace Quantity

/-- A decimal without digits behind the point is a whole number, or beyond all finite ones. -/
theorem ofDecimal_of_nonneg (negative : Bool) {digits : Nat} {exponent : Int} (hdigits : digits ≠ 0)
    (hexponent : 0 ≤ exponent) : ofDecimal negative digits exponent =
      if digits.log2 + 3 * exponent > 1100 then .infinite negative
      else ofRatio negative (digits * Nat.pow 10 exponent.toNat * Double.one) 1 := by
  have hsmall : ¬digits.log2 + 1 + 3 * exponent < -1100 := by omega
  rw [ofDecimal, if_neg hdigits, decide_eq_true hexponent, Bool.true_and, if_neg hsmall,
    if_pos hexponent]
  simp only [decide_eq_true_eq, Nat.pow_eq]

end Quantity

namespace Double

variable {n : Nat} {d : Decimal}

theorem magnitude_of_ofRatio {negative : Bool} {num den : Nat} {x : Double}
    (hratio : Quantity.ofRatio negative num den = .finite x) : x.magnitude = nearest num den := by
  unfold Quantity.ofRatio at hratio
  split at hratio <;> cases hratio
  rfl

/-- What reads back as a whole number is the whole number. -/
theorem isWhole_of_readsAs (hn : n < Nat.pow 2 53) (hne : n ≠ 0) (hexponent : 0 ≤ d.exponent)
    (hreads : readsAs d (n * one) = true) : d.IsWhole n := by
  refine ⟨hexponent, ?_⟩
  by_cases hdigits : d.digits = 0
  · rw [readsAs, hdigits] at hreads
    exact absurd (beq_iff_eq.mp hreads).symm (mul_one_ne_zero hne)
  · rw [readsAs, Quantity.ofDecimal_of_nonneg false hdigits hexponent] at hreads
    split at hreads
    · rename_i x hfinite
      split at hfinite
      · cases hfinite
      · rw [magnitude_of_ofRatio hfinite, beq_iff_eq] at hreads
        exact (nearest_mul_one_eq_iff hn).mp hreads
    · cases hreads

/-- A whole number below the precision is read back. -/
theorem readsAs_whole (hn : n < Nat.pow 2 53) (hne : n ≠ 0) : readsAs ⟨n, 0⟩ (n * one) = true := by
  have hlog : n.log2 < 53 := (Nat.log2_lt hne).mpr hn
  have hvalue : n * Nat.pow 10 (0 : Int).toNat * one = n * one := by
    rw [Int.toNat_zero, Nat.pow_eq, Nat.pow_zero, Nat.mul_one]
  have hrounded : nearest (n * one) 1 = n * one := nearest_mul_one hn
  have hfinite : (nearest (n * one) 1).log2 < 2098 := by
    rw [hrounded, log2_mul_one hne]
    omega
  rw [readsAs, Quantity.ofDecimal_of_nonneg false hne (Int.le_refl 0), if_neg (by omega), hvalue,
    Quantity.ofRatio, dif_pos hfinite]
  exact beq_iff_eq.mpr hrounded

/-! ### The shortest decimal -/

/-- The two neighbours on a grid of whole numbers are tried one after the other. -/
theorem onGrid?_eq (tiesUp : Bool) (magnitude : Nat) {exponent : Int} (hexponent : 0 ≤ exponent) :
    ∃ nearer farther : Decimal, nearer.exponent = exponent ∧ farther.exponent = exponent ∧
      (nearer.digits = magnitude / (one * Nat.pow 10 exponent.toNat) ∨
        farther.digits = magnitude / (one * Nat.pow 10 exponent.toNat)) ∧
      onGrid? tiesUp magnitude exponent =
        if readsAs nearer magnitude then some nearer
        else if readsAs farther magnitude then some farther
        else none := by
  unfold onGrid?
  simp only [if_pos hexponent]
  generalize magnitude / (one * Nat.pow 10 exponent.toNat) = below
  split
  · exact ⟨⟨below, exponent⟩, ⟨below + 1, exponent⟩, rfl, rfl, .inl rfl, rfl⟩
  · exact ⟨⟨below + 1, exponent⟩, ⟨below, exponent⟩, rfl, rfl, .inr rfl, rfl⟩

theorem onGrid?_eq_some {tiesUp : Bool} {magnitude : Nat} {exponent : Int}
    (hexponent : 0 ≤ exponent) (hgrid : onGrid? tiesUp magnitude exponent = some d) :
    d.exponent = exponent ∧ readsAs d magnitude = true := by
  obtain ⟨nearer, farther, hnearer, hfarther, _, hsplit⟩ := onGrid?_eq tiesUp magnitude hexponent
  rw [hsplit] at hgrid
  by_cases hnear : readsAs nearer magnitude = true
  · rw [if_pos hnear] at hgrid
    cases hgrid
    exact ⟨hnearer, hnear⟩
  · rw [if_neg hnear] at hgrid
    by_cases hfar : readsAs farther magnitude = true
    · rw [if_pos hfar] at hgrid
      cases hgrid
      exact ⟨hfarther, hfar⟩
    · rw [if_neg hfar] at hgrid
      cases hgrid

theorem onGrid?_zero_ne_none (tiesUp : Bool) (hn : n < Nat.pow 2 53) (hne : n ≠ 0) :
    onGrid? tiesUp (n * one) 0 ≠ none := by
  obtain ⟨nearer, farther, hnearer, hfarther, hdigits, hsplit⟩ :=
    onGrid?_eq tiesUp (n * one) (Int.le_refl 0)
  have hbelow : n * one / (one * Nat.pow 10 (0 : Int).toNat) = n := by
    rw [Int.toNat_zero, Nat.pow_eq, Nat.pow_zero, Nat.mul_one]
    exact Nat.mul_div_cancel n one_pos
  have hreads : readsAs nearer (n * one) = true ∨ readsAs farther (n * one) = true := by
    rw [hbelow] at hdigits
    refine hdigits.imp (fun hown => ?_) fun hown => ?_
    · rw [show nearer = ⟨n, 0⟩ by rw [← hown, ← hnearer]]
      exact readsAs_whole hn hne
    · rw [show farther = ⟨n, 0⟩ by rw [← hown, ← hfarther]]
      exact readsAs_whole hn hne
  rw [hsplit]
  by_cases hnear : readsAs nearer (n * one) = true
  · rw [if_pos hnear]
    exact Option.some_ne_none nearer
  · rw [if_neg hnear, if_pos (hreads.resolve_left hnear)]
    exact Option.some_ne_none farther

/-- Coarse grids have the whole number or nothing, and the grid of whole numbers has it. -/
theorem isWhole_shortestFrom (tiesUp : Bool) (hn : n < Nat.pow 2 53) (hne : n ≠ 0) {tries : Nat}
    {exponent : Int} (hexponent : 0 ≤ exponent) (htries : exponent < tries) :
    (shortestFrom tiesUp (n * one) tries exponent).IsWhole n := by
  induction tries generalizing exponent with
  | zero => omega
  | succ tries ih =>
    rw [shortestFrom]
    cases hgrid : onGrid? tiesUp (n * one) exponent with
    | some d =>
      obtain ⟨hd, hreads⟩ := onGrid?_eq_some hexponent hgrid
      exact isWhole_of_readsAs hn hne (hd ▸ hexponent) hreads
    | none =>
      by_cases hzero : exponent = 0
      · rw [hzero] at hgrid
        exact absurd hgrid (onGrid?_zero_ne_none tiesUp hn hne)
      · exact ih (by omega) (by omega)

theorem atLeastPower_zero (hne : n ≠ 0) : atLeastPower (n * one) 0 = true := by
  rw [atLeastPower, if_pos (Int.le_refl 0), decide_eq_true_eq, Int.toNat_zero, Nat.pow_eq,
    Nat.pow_zero, Nat.mul_one]
  exact Nat.le_mul_of_pos_left one (Nat.pos_of_ne_zero hne)

/-- A whole number of at most 53 bits has at most seventeen digits. -/
theorem leadingPower_range (hn : n < Nat.pow 2 53) (hne : n ≠ 0) :
    0 ≤ leadingPower (n * one) ∧ leadingPower (n * one) < 17 := by
  have hlog : n.log2 < 53 := (Nat.log2_lt hne).mpr hn
  have hfirst := atLeastPower_zero hne
  obtain ⟨guess, hguess⟩ : ∃ guess : Int, guess = n.log2 * 30103 / 100000 := ⟨_, rfl⟩
  have hformula : (((n * one).log2 : Int) - 1074) * 30103 / 100000 = guess := by
    have hlog2 : ((n.log2 + 1074 : Nat) : Int) - 1074 = n.log2 := by omega
    rw [log2_mul_one hne, hlog2, hguess]
  simp only [leadingPower, hformula]
  clear hformula
  split
  · omega
  · split
    · omega
    · rename_i hlow
      have hpositive : guess ≠ 0 := fun hzero => hlow (hzero ▸ hfirst)
      omega

/-- A whole number is the shortest decimal of its double. -/
theorem isWhole_shortest (tiesUp : Bool) {x : Double} (hx : x.magnitude = n * one)
    (hn : n < Nat.pow 2 53) (hne : n ≠ 0) : (x.shortest tiesUp).IsWhole n := by
  obtain ⟨hlow, hhigh⟩ := leadingPower_range hn hne
  rw [shortest, hx, if_neg (mul_one_ne_zero hne)]
  exact (isWhole_shortestFrom tiesUp hn hne hlow hhigh).stripZeros 2000

/-- A whole double below the precision is written in its digits. -/
theorem write_plain_of_whole {x : Double} (hx : x.magnitude = n * one) (hn : n < Nat.pow 2 53) :
    x.write .plain = (if x.negative then ['-'] else []) ++ digitChars n := by
  rw [Double.write]
  refine congrArg _ ?_
  by_cases hne : n = 0
  · rw [hne, Nat.zero_mul] at hx
    rw [shortest, if_pos hx, hne]
    rfl
  · exact DecimalLayout.write_plain_of_isWhole (isWhole_shortest true hx hn hne) hne

end Double

/-! ## Texts of integers -/

/-- An integer of at most 53 bits. -/
def Integer.Short (n : Integer) : Prop := n.val.natAbs < Nat.pow 2 53

/-- In double precision such an integer is written as it is. -/
theorem Integer.Short.text_toDouble {n : Integer} (hshort : n.Short) :
    (Quantity.finite n.toDouble).text = (Number.int n).text := by
  have hmagnitude : n.toDouble.magnitude = n.val.natAbs * Double.one :=
    Double.nearest_mul_one hshort
  have hnegative : n.toDouble.negative = decide (n.val < 0) := rfl
  rw [Quantity.text, Double.write_plain_of_whole hmagnitude hshort, hnegative, Number.text,
    Number.write]
  simp only [decide_eq_true_eq]

/-- No two integers have one text. -/
theorem Integer.text_inj {m n : Integer} (htext : (Number.int m).text = (Number.int n).text) :
    m = n := by
  have hwrite : (Number.int m).write = (Number.int n).write := String.ofList_inj.mp htext
  exact Integer.ext (Reading.sign_digitChars_inj hwrite)

/-! ## Order of integers -/

namespace Integer

open Double

variable {m n : Integer}

theorem units_toDouble_of_neg (hneg : n.val < 0) :
    n.toDouble.units = -(nearest (n.val.natAbs * one) 1 : Int) :=
  if_pos (decide_eq_true hneg)

theorem units_toDouble_of_nonneg (hnonneg : ¬n.val < 0) :
    n.toDouble.units = nearest (n.val.natAbs * one) 1 :=
  if_neg (by simp [toDouble, ofInt, hnonneg])

theorem units_toDouble_neg (hneg : n.val < 0) : n.toDouble.units < 0 := by
  have hpos := nearest_mul_one_pos (v := n.val.natAbs) (by omega)
  rw [units_toDouble_of_neg hneg]
  omega

theorem units_toDouble_nonneg (hnonneg : ¬n.val < 0) : 0 ≤ n.toDouble.units := by
  rw [units_toDouble_of_nonneg hnonneg]
  exact Int.natCast_nonneg _

/-- Double precision keeps the order of integers, but may round different ones to one number. -/
theorem units_toDouble_mono (hle : m.val ≤ n.val) : m.toDouble.units ≤ n.toDouble.units := by
  have hround : ∀ {i j : Nat}, i ≤ j → nearest (i * one) 1 ≤ nearest (j * one) 1 :=
    fun hij => nearest_mono 1 (Nat.mul_le_mul_right one hij)
  by_cases hm : m.val < 0 <;> by_cases hn : n.val < 0
  · have habs := hround (i := n.val.natAbs) (j := m.val.natAbs) (by omega)
    rw [units_toDouble_of_neg hm, units_toDouble_of_neg hn]
    omega
  · exact Int.le_of_lt (Int.lt_of_lt_of_le (units_toDouble_neg hm) (units_toDouble_nonneg hn))
  · omega
  · have habs := hround (i := m.val.natAbs) (j := n.val.natAbs) (by omega)
    rw [units_toDouble_of_nonneg hm, units_toDouble_of_nonneg hn]
    omega

/-- Integers that are one number in double precision are of one sign, and rounded alike. -/
theorem toDouble_eq_of_units (hunits : m.toDouble.units = n.toDouble.units) :
    m.toDouble = n.toDouble := by
  have hsigns : m.val < 0 ↔ n.val < 0 := by
    constructor
    · intro hm
      have hneg := units_toDouble_neg hm
      exact Decidable.byContradiction fun hn => by
        have hnonneg := units_toDouble_nonneg hn
        omega
    · intro hn
      have hneg := units_toDouble_neg hn
      exact Decidable.byContradiction fun hm => by
        have hnonneg := units_toDouble_nonneg hm
        omega
  have hrounded : nearest (m.val.natAbs * one) 1 = nearest (n.val.natAbs * one) 1 := by
    by_cases hm : m.val < 0
    · rw [units_toDouble_of_neg hm, units_toDouble_of_neg (hsigns.mp hm)] at hunits
      omega
    · rw [units_toDouble_of_nonneg hm, units_toDouble_of_nonneg (mt hsigns.mpr hm)] at hunits
      omega
  have hnegative : decide (m.val < 0) = decide (n.val < 0) := decide_eq_decide.mpr hsigns
  simp only [toDouble, ofInt, hnegative, hrounded]

/-- Two integers are one number in double precision only if both are of more than 53 bits, on one
    side of zero. -/
theorem toDouble_ne_of_lt (hlt : m.val < n.val) (hm : m.val < Nat.pow 2 53)
    (hn : -(Nat.pow 2 53 : Int) < n.val) : m.toDouble ≠ n.toDouble := by
  intro hsame
  have hunits : m.toDouble.units = n.toDouble.units := congrArg Double.units hsame
  have hrounded : nearest (m.val.natAbs * one) 1 = nearest (n.val.natAbs * one) 1 :=
    congrArg Double.magnitude hsame
  by_cases hneg : m.val < 0
  · have hlow := units_toDouble_neg hneg
    by_cases hother : n.val < 0
    · have hshort : n.val.natAbs < Nat.pow 2 53 := by omega
      rw [nearest_mul_one hshort, nearest_mul_one_eq_iff hshort] at hrounded
      omega
    · have hhigh := units_toDouble_nonneg hother
      omega
  · have hshort : m.val.natAbs < Nat.pow 2 53 := by omega
    rw [nearest_mul_one hshort, eq_comm, nearest_mul_one_eq_iff hshort] at hrounded
    omega

/-- A smaller integer never compares greater in double precision, and less exactly if the two are
    different numbers there. -/
theorem compare_toDouble_of_lt (hlt : m.val < n.val) :
    m.toDouble.compare n.toDouble ≠ .gt ∧
      (m.toDouble.compare n.toDouble = .lt ↔ m.toDouble ≠ n.toDouble) := by
  have hle := units_toDouble_mono (Int.le_of_lt hlt)
  rw [Double.compare, Int.compare_eq_lt]
  refine ⟨?_, fun hless hsame => ?_, fun hne => ?_⟩
  · intro hgreater
    have := Int.compare_eq_gt.mp hgreater
    omega
  · rw [hsame] at hless
    omega
  · exact Int.lt_iff_le_and_ne.mpr ⟨hle, fun hunits => hne (toDouble_eq_of_units hunits)⟩

end Integer

end DocMapper
