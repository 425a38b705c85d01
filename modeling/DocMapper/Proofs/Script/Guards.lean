import DocMapper.Proofs.Json.Quoting
import DocMapper.Proofs.Number.Digits
import DocMapper.Proofs.Script.Expression

/-!
# Guards as JavaScript

The text of a guard that compares attributes with whole numbers is read as the expression that the
guard stands for, because every operand of it is bracketed or a single comparison.
-/

namespace DocMapper

namespace Script

open Json.Reader

variable {fuel : Nat} {text rest : List Char} {e left right : Expression} {document : String}

/-! ## Numbers -/

/-- What may stand behind an operand: nothing, a bracket, or what joins it to the next one. -/
inductive Ends : List Char → Prop where
  | nothing : Ends []
  | bracket (rest : List Char) : Ends (')' :: rest)
  | both (rest : List Char) : Ends (' ' :: '&' :: '&' :: rest)
  | either (rest : List Char) : Ends (' ' :: '|' :: '|' :: rest)

theorem Ends.sign?_eq_none (hends : Ends rest) : sign? (skipBlanks rest) = none := by
  cases hends <;> rfl

theorem Ends.digitRun_eq (hends : Ends rest) : Reading.digitRun rest = ([], rest) := by
  cases hends <;> rfl

/-- No zero leads other digits. -/
theorem digitRun_digitChars_cases (n : Nat) :
    ∃ d digits, Reading.digitRun (Decimal.digitChars n) = (d :: digits, []) ∧
      Reading.valueOf (d :: digits) = n ∧ (d = 0 → digits = []) := by
  induction n using Nat.strongRecOn with
  | ind n ih =>
    have hrun : ∀ d, d < 10 → Reading.digitRun [Nat.digitChar d] = ([d], []) := by
      intro d hd
      rw [Reading.digitRun, Reading.digit?_digitChar hd]
      rfl
    by_cases hone : n < 10
    · refine ⟨n, [], ?_, ?_, fun _ => rfl⟩
      · rw [Decimal.digitChars, Nat.toDigits_of_lt_base hone]
        exact hrun n hone
      · exact (Reading.valueOf_append_singleton [] n).trans (by simp [Reading.valueOf])
    · obtain ⟨d, digits, hdigits, hvalue, hlead⟩ := ih (n / 10) (by omega)
      refine ⟨d, digits ++ [n % 10], ?_, ?_, ?_⟩
      · rw [Decimal.digitChars] at hdigits ⊢
        rw [Nat.toDigits_of_base_le (by omega) (by omega), Reading.digitRun_append hdigits,
          hrun _ (by omega)]
        rfl
      · rw [← List.cons_append, Reading.valueOf_append_singleton, hvalue]
        omega
      · intro hzero
        rw [hlead hzero, hzero] at hvalue
        have hsmall : n / 10 = 0 := hvalue.symm
        omega

/-- The digits of a whole number are read as the number. -/
theorem number?_digitChars {n : Nat} (hn : n < 18446744073709551616) (hends : Ends rest) :
    number? (Decimal.digitChars n ++ rest) =
      some ((⟨n, by omega, by omega⟩ : Integer).toDouble, rest) := by
  obtain ⟨d, digits, hrun, hvalue, hlead⟩ := digitRun_digitChars_cases n
  have hboth := Reading.digitRun_append hrun rest
  rw [hends.digitRun_eq, List.append_nil] at hboth
  have hfits : Integer.ofInt? (n : Int) = some ⟨n, by omega, by omega⟩ :=
    dif_pos ⟨by omega, by omega⟩
  rw [number?, hboth]
  split
  · rename_i heq
    cases heq
  · rename_i heq
    cases heq
    cases hlead rfl
  · rename_i heq
    cases heq
    rw [hvalue, hfits, Option.map_some]

/-- The number behind a minus sign is the negative of its digits. -/
theorem toDouble_eq_neg {n : Integer} (hnegative : n.val < 0)
    (hupper : (n.val.natAbs : Int) < 18446744073709551616) :
    (⟨n.val.natAbs, by omega, hupper⟩ : Integer).toDouble.neg = n.toDouble := by
  have hsame : ∀ x y : Double, x.negative = y.negative → x.magnitude = y.magnitude → x = y := by
    rintro ⟨_, _, _⟩ ⟨_, _, _⟩ rfl rfl
    rfl
  refine hsame _ _ ?_ ?_
  · change (!decide ((n.val.natAbs : Int) < 0)) = decide (n.val < 0)
    rw [decide_eq_true hnegative, decide_eq_false (by omega)]
    rfl
  · rfl

theorem isDigit_of_digit? {c : Char} {d : Nat} (hdigit : Reading.digit? c = some d) :
    c.isDigit = true := by
  unfold Reading.digit? at hdigit
  split at hdigit
  · rename_i hrange
    exact Bool.and_eq_true_iff.mpr ⟨decide_eq_true hrange.1, decide_eq_true hrange.2⟩
  · cases hdigit

theorem isNameChar_of_isDigit {c : Char} (hdigit : c.isDigit = true) : isNameChar c = true := by
  unfold isNameChar Char.isAlphanum
  rw [hdigit, Bool.or_true, Bool.true_or, Bool.true_or]

/-- An operand that begins like a name or a number is one. -/
theorem operand?_of_isNameChar {c : Char} (hc : isNameChar c = true) (fuel : Nat)
    (text : List Char) : operand? (fuel + 1) (c :: text) =
      match number? (c :: text) with
      | some (x, rest) => some (.number x, rest)
      | none => member? (c :: text) := by
  have hne : ∀ d, isNameChar d = false → c ≠ d := by
    rintro d hd rfl
    rw [hd] at hc
    cases hc
  have hblank : skipBlanks (c :: text) = c :: text := by
    rw [skipBlanks, List.dropWhile_cons_of_neg]
    simp [hne ' ' (by decide), hne '\t' (by decide), hne '\n' (by decide), hne '\r' (by decide)]
  rw [operand?, hblank]
  split
  · rename_i heq
    exact absurd (List.cons.inj heq).1 (hne '!' (by decide))
  · rename_i heq
    exact absurd (List.cons.inj heq).1 (hne '(' (by decide))
  · rename_i heq
    exact absurd (List.cons.inj heq).1 (hne '-' (by decide))
  · rfl

/-- A whole number is read as itself. -/
theorem operand?_write (n : Integer) (hends : Ends rest) (fuel : Nat) :
    operand? (fuel + 1) ((Number.int n).write ++ rest) = some (.number n.toDouble, rest) := by
  have hlower := n.lower
  have hupper := n.upper
  by_cases hnegative : n.val < 0
  · rw [Number.write, if_pos hnegative, List.append_assoc, List.singleton_append, operand?]
    change (number? _).map _ = _
    rw [number?_digitChars (by omega) hends, Option.map_some, ← toDouble_eq_neg hnegative]
  · have hvalue : (⟨n.val.natAbs, by omega, by omega⟩ : Integer) = n :=
      Integer.ext (Int.natAbs_of_nonneg (by omega))
    have hread := number?_digitChars (n := n.val.natAbs) (by omega) hends
    rw [hvalue] at hread
    rw [Number.write, if_neg hnegative, List.nil_append]
    obtain ⟨d, digits, hrun, -⟩ := digitRun_digitChars_cases n.val.natAbs
    cases hchars : Decimal.digitChars n.val.natAbs with
    | nil => exact absurd hchars Nat.toDigits_ne_nil
    | cons c others =>
      rw [hchars] at hread hrun
      have hdigit : c.isDigit = true := by
        rw [Reading.digitRun] at hrun
        split at hrun
        · cases hrun
        · rename_i hdigit
          exact isDigit_of_digit? hdigit
      rw [List.cons_append] at hread ⊢
      rw [operand?_of_isNameChar (isNameChar_of_isDigit hdigit), hread]

/-! ## Attributes -/

theorem length_le_flatMap_escape (s : List Char) : s.length ≤ (s.flatMap Json.escape).length := by
  induction s with
  | nil => exact Nat.le_refl 0
  | cons c s ih =>
    have hescape : 1 ≤ (Json.escape c).length := by
      obtain ⟨hplain, -⟩ | ⟨body, hbody, -⟩ := escape_cases c
      · rw [hplain]
        exact Nat.le_refl 1
      · rw [hbody, List.length_cons]
        omega
    rw [List.flatMap_cons, List.length_append, List.length_cons]
    omega

/-- A variable with an attribute as its index is read as that attribute of the variable. -/
theorem operand?_member (hname : isName document.toList = true) (attr : String) (fuel : Nat)
    (rest : List Char) : operand? (fuel + 1) ((Guard.member document attr).toList ++ rest) =
      some (.member document attr, rest) := by
  have hattr : string? ((attr.toList.flatMap Json.escape ++ '"' :: ']' :: rest).length + 1) []
      (attr.toList.flatMap Json.escape ++ '"' :: ']' :: rest) = some (attr, ']' :: rest) := by
    have hescape := length_le_flatMap_escape attr.toList
    rw [string?_quoted attr.toList (by rw [List.length_append]; omega), List.reverse_nil,
      List.nil_append, String.ofList_toList]
  have htext : (Guard.member document attr).toList ++ rest = document.toList ++
      '[' :: '"' :: (attr.toList.flatMap Json.escape ++ '"' :: ']' :: rest) := by
    simp [Guard.toList_member, Json.quote]
  rw [htext]
  cases hdocument : document.toList with
  | nil =>
    rw [hdocument] at hname
    cases hname
  | cons c others =>
    rw [hdocument] at hname
    obtain ⟨⟨hlead, hall⟩, -⟩ : (c.isDigit = false ∧ (c :: others).all isNameChar = true) ∧
        reserved.contains (String.ofList (c :: others)) = false := by
      simpa only [isName, Bool.and_eq_true, Bool.not_eq_true'] using hname
    have hchars : ∀ d ∈ c :: others, isNameChar d = true := List.all_eq_true.mp hall
    have hbracket : ¬isNameChar '[' = true := by decide
    have hmember : member? (c :: others ++
        '[' :: '"' :: (attr.toList.flatMap Json.escape ++ '"' :: ']' :: rest)) =
        some (.member document attr, rest) := by
      rw [member?, List.takeWhile_append_of_pos hchars, List.dropWhile_append_of_pos hchars,
        List.takeWhile_cons_of_neg hbracket, List.dropWhile_cons_of_neg hbracket, List.append_nil,
        if_pos hname, ← hdocument, String.ofList_toList]
      change (string? _ _ _).bind _ = _
      rw [hattr]
      rfl
    have hnumber : ∀ text, number? (c :: text) = none := by
      intro text
      cases hdigit : Reading.digit? c with
      | none => rw [number?, Reading.digitRun, hdigit]
      | some d =>
        rw [isDigit_of_digit? hdigit] at hlead
        cases hlead
    rw [List.cons_append] at hmember ⊢
    rw [operand?_of_isNameChar (hchars c List.mem_cons_self), hnumber]
    exact hmember

/-! ## Joined operands -/

theorem operand?_blank (fuel : Nat) (text : List Char) :
    operand? fuel (' ' :: text) = operand? fuel text := by
  cases fuel with
  | zero => rfl
  | succ fuel => rw [operand?, operand?]; rfl

theorem comparison?_blank (fuel : Nat) (text : List Char) :
    comparison? fuel (' ' :: text) = comparison? fuel text := by
  cases fuel with
  | zero => rfl
  | succ fuel => rw [comparison?, comparison?, operand?_blank]

/-- An operand that nothing is compared with is a comparison by itself. -/
theorem comparison?_alone (hread : operand? fuel text = some (e, rest)) (hends : Ends rest) :
    comparison? (fuel + 1) text = some (e, rest) := by
  rw [comparison?, hread]
  simp only [Option.bind_eq_bind, Option.bind_some, hends.sign?_eq_none]
  rfl

theorem sign?_sign (c : Comparison) (text : List Char) :
    sign? (skipBlanks (' ' :: (c.sign.toList ++ ' ' :: text))) = some (c, ' ' :: text) := by
  cases c <;> rfl

theorem comparison?_pair {c : Comparison} {others : List Char}
    (hleft : operand? fuel text = some (left, ' ' :: (c.sign.toList ++ ' ' :: others)))
    (hright : operand? fuel others = some (right, rest)) :
    comparison? (fuel + 1) text = some (.comparison c left right, rest) := by
  rw [comparison?, hleft]
  simp only [Option.bind_eq_bind, Option.bind_some, sign?_sign, operand?_blank, hright]
  rfl

/-- A comparison is a conjunction by itself if no `&&` follows. -/
theorem conjunction?_alone (hread : comparison? fuel text = some (e, rest))
    (hends : ∀ others, skipBlanks rest ≠ '&' :: '&' :: others) :
    conjunction? (fuel + 1) text = some (e, rest) := by
  rw [conjunction?, hread]
  simp only [Option.bind_eq_bind, Option.bind_some]
  rfl

theorem conjunction?_pair {others : List Char}
    (hleft : comparison? fuel text = some (left, ' ' :: '&' :: '&' :: others))
    (hright : conjunction? fuel others = some (right, rest)) :
    conjunction? (fuel + 1) text = some (.both left right, rest) := by
  rw [conjunction?, hleft]
  change (conjunction? fuel others).bind _ = _
  rw [hright]
  rfl

/-- A conjunction is a disjunction by itself if no `||` follows. -/
theorem disjunction?_alone (hread : conjunction? fuel text = some (e, rest))
    (hends : ∀ others, skipBlanks rest ≠ '|' :: '|' :: others) :
    disjunction? (fuel + 1) text = some (e, rest) := by
  rw [disjunction?, hread]
  simp only [Option.bind_eq_bind, Option.bind_some]
  rfl

theorem disjunction?_pair {others : List Char}
    (hleft : conjunction? fuel text = some (left, ' ' :: '|' :: '|' :: others))
    (hright : disjunction? fuel others = some (right, rest)) :
    disjunction? (fuel + 1) text = some (.either left right, rest) := by
  rw [disjunction?, hleft]
  change (disjunction? fuel others).bind _ = _
  rw [hright]
  rfl

theorem operand?_bracketed (hread : disjunction? fuel text = some (e, ')' :: rest)) :
    operand? (fuel + 1) ('(' :: text) = some (e, rest) := by
  rw [operand?]
  change (disjunction? fuel text).bind _ = _
  rw [hread]
  rfl

theorem operand?_negated (hread : operand? fuel text = some (e, rest)) :
    operand? (fuel + 1) ('!' :: text) = some (.negation e, rest) := by
  rw [operand?]
  change (operand? fuel text).map _ = _
  rw [hread]
  rfl

/-- A comparison in brackets with `!` in front. -/
theorem comparison?_negated (hread : comparison? (fuel + 1) text = some (e, ')' :: rest))
    (hends : Ends rest) :
    comparison? (fuel + 6) ('!' :: '(' :: text) = some (.negation e, rest) := by
  have hconjunction := conjunction?_alone hread (by intro _ heq; cases heq)
  have hdisjunction := disjunction?_alone hconjunction (by intro _ heq; cases heq)
  exact comparison?_alone (operand?_negated (operand?_bracketed hdisjunction)) hends

/-- Two comparisons in brackets with `&&` between them. -/
theorem comparison?_both {others : List Char}
    (hleft : comparison? (fuel + 2) text = some (left, ' ' :: '&' :: '&' :: ' ' :: others))
    (hright : comparison? (fuel + 1) others = some (right, ')' :: rest)) (hends : Ends rest) :
    comparison? (fuel + 6) ('(' :: text) = some (.both left right, rest) := by
  rw [← comparison?_blank] at hright
  have hconjunction := conjunction?_pair hleft
    (conjunction?_alone hright (by intro _ heq; cases heq))
  have hdisjunction := disjunction?_alone hconjunction (by intro _ heq; cases heq)
  exact comparison?_alone (operand?_bracketed hdisjunction) hends

/-- Two comparisons in brackets with `||` between them. -/
theorem comparison?_either {others : List Char}
    (hleft : comparison? (fuel + 2) text = some (left, ' ' :: '|' :: '|' :: ' ' :: others))
    (hright : comparison? (fuel + 1) others = some (right, ')' :: rest)) (hends : Ends rest) :
    comparison? (fuel + 6) ('(' :: text) = some (.either left right, rest) := by
  rw [← comparison?_blank] at hright
  have hdisjunction := disjunction?_pair
    (conjunction?_alone hleft (by intro _ heq; cases heq))
    (disjunction?_alone (conjunction?_alone hright (by intro _ heq; cases heq))
      (by intro _ heq; cases heq))
  exact comparison?_alone (operand?_bracketed hdisjunction) hends

end Script

namespace Guard

open Script

variable {document : String} {rest : List Char}

/-- The expression of a guard that compares attributes with whole numbers. -/
def expression? (document : String) : Guard → Option Expression
  | .test c attr (.num (.int n)) =>
    some (.comparison c (.member document attr) (.number n.toDouble))
  | .negation g => (g.expression? document).map .negation
  | .both g h => do return .both (← g.expression? document) (← h.expression? document)
  | .either g h => do return .either (← g.expression? document) (← h.expression? document)
  | _ => none

/-- A comparison of an attribute with a whole number is read wherever an operand may stand. -/
theorem comparison?_test (hname : isName document.toList = true) (c : Comparison)
    (attr : String) (n : Integer) (hends : Ends rest) {fuel : Nat}
    (hfuel : 4 * ((test c attr (.num (.int n))).text document).toList.length ≤ fuel) :
    comparison? fuel (((test c attr (.num (.int n))).text document).toList ++ rest) =
      some (.comparison c (.member document attr) (.number n.toDouble), rest) := by
  have htext : ((test c attr (.num (.int n))).text document).toList ++ rest =
      (member document attr).toList ++
        ' ' :: (c.sign.toList ++ ' ' :: ((Number.int n).write ++ rest)) := by
    simp [toList_text_test, Json.write]
  have hlength : 0 < ((test c attr (.num (.int n))).text document).toList.length :=
    List.length_pos_of_mem (by simp [toList_text_test] : ' ' ∈ _)
  obtain ⟨fuel, rfl⟩ := Nat.exists_eq_add_of_le' (by omega : 2 ≤ fuel)
  rw [htext]
  exact comparison?_pair (operand?_member hname attr fuel _) (operand?_write n hends fuel)

/-- The text of a guard is read as its expression wherever an operand may stand. -/
theorem comparison?_text (hname : isName document.toList = true) {g : Guard} {e : Expression}
    (hexpression : g.expression? document = some e) (hends : Ends rest) {fuel : Nat}
    (hfuel : 4 * (g.text document).toList.length ≤ fuel) :
    comparison? fuel ((g.text document).toList ++ rest) = some (e, rest) := by
  induction g generalizing e rest fuel with
  | test c attr value =>
    cases value with
    | num value =>
      cases value with
      | int n =>
        cases hexpression
        exact comparison?_test hname c attr n hends hfuel
      | float x => cases hexpression
    | _ => cases hexpression
  | listed attr values => cases hexpression
  | matched attr pattern => cases hexpression
  | always => cases hexpression
  | negation g ih =>
    obtain ⟨inner, hinner, rfl⟩ := Option.map_eq_some_iff.mp hexpression
    have htext : ((negation g).text document).toList ++ rest =
        '!' :: '(' :: ((g.text document).toList ++ ')' :: rest) := by
      simp [toList_text_negation]
    have hlength : ((negation g).text document).toList.length =
        (g.text document).toList.length + 3 := by
      simp [toList_text_negation]
    rw [hlength] at hfuel
    obtain ⟨fuel, rfl⟩ := Nat.exists_eq_add_of_le' (by omega : 6 ≤ fuel)
    rw [htext]
    exact comparison?_negated (ih hinner (.bracket rest) (by omega)) hends
  | both g h ihg ihh =>
    obtain ⟨l, hl, hexpression⟩ := Option.bind_eq_some_iff.mp hexpression
    obtain ⟨r, hr, hexpression⟩ := Option.bind_eq_some_iff.mp hexpression
    cases hexpression
    have htext : ((both g h).text document).toList ++ rest = '(' :: ((g.text document).toList ++
        ' ' :: '&' :: '&' :: ' ' :: ((h.text document).toList ++ ')' :: rest)) := by
      simp [toList_text_both]
    have hlength : ((both g h).text document).toList.length =
        (g.text document).toList.length + (h.text document).toList.length + 6 := by
      simp [toList_text_both]
      omega
    rw [hlength] at hfuel
    obtain ⟨fuel, rfl⟩ := Nat.exists_eq_add_of_le' (by omega : 6 ≤ fuel)
    rw [htext]
    exact comparison?_both (ihg hl (.both _) (by omega)) (ihh hr (.bracket rest) (by omega)) hends
  | either g h ihg ihh =>
    obtain ⟨l, hl, hexpression⟩ := Option.bind_eq_some_iff.mp hexpression
    obtain ⟨r, hr, hexpression⟩ := Option.bind_eq_some_iff.mp hexpression
    cases hexpression
    have htext : ((either g h).text document).toList ++ rest = '(' :: ((g.text document).toList ++
        ' ' :: '|' :: '|' :: ' ' :: ((h.text document).toList ++ ')' :: rest)) := by
      simp [toList_text_either]
    have hlength : ((either g h).text document).toList.length =
        (g.text document).toList.length + (h.text document).toList.length + 6 := by
      simp [toList_text_either]
      omega
    rw [hlength] at hfuel
    obtain ⟨fuel, rfl⟩ := Nat.exists_eq_add_of_le' (by omega : 6 ≤ fuel)
    rw [htext]
    exact comparison?_either (ihg hl (.either _) (by omega)) (ihh hr (.bracket rest) (by omega))
      hends

/-- The text of a guard is read as its expression. -/
theorem read?_text (hname : isName document.toList = true) {g : Guard} {e : Expression}
    (hexpression : g.expression? document = some e) : read? (g.text document) = some e := by
  have hread : comparison? (4 * (g.text document).toList.length + 2)
      ((g.text document).toList ++ []) = some (e, []) :=
    comparison?_text hname hexpression .nothing (by omega)
  have hconjunction := conjunction?_alone hread (by intro _ heq; cases heq)
  have hdisjunction := disjunction?_alone hconjunction (by intro _ heq; cases heq)
  rw [List.append_nil] at hdisjunction
  rw [read?, ← String.length_toList, hdisjunction]
  rfl

end Guard

end DocMapper
