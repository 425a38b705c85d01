import DocMapper.Json.Reader

/-!
# Quoted texts

A text between quotation marks reads back as the text, whatever was escaped in it. So no two texts
are quoted alike.
-/

namespace DocMapper.Json

theorem hexDigit?_hexDigit {n : Nat} (hn : n < 16) : Reading.hexDigit? (hexDigit n) = some n := by
  have hcases : ∀ d : Fin 16, Reading.hexDigit? (hexDigit d.val) = some d.val := by decide
  exact hcases ⟨n, hn⟩

namespace Reader

variable {fuel : Nat} {done text : List Char} {c : Char}

theorem escaped?_control {n : Nat} (hn : n < 0x20) (text : List Char) :
    escaped? ('u' :: '0' :: '0' :: hexDigit (n / 16) :: hexDigit (n % 16) :: text) =
      some (Char.ofNat n, text) := by
  have hzero : Reading.hexDigit? '0' = some 0 := rfl
  have hunit : codeUnit? ('0' :: '0' :: hexDigit (n / 16) :: hexDigit (n % 16) :: text) =
      some (n, text) := by
    rw [codeUnit?, hzero, hexDigit?_hexDigit (by omega), hexDigit?_hexDigit (by omega)]
    have hvalue : ((0 * 16 + 0) * 16 + n / 16) * 16 + n % 16 = n := by omega
    exact congrArg some (congrArg (·, text) hvalue)
  rw [escaped?, hunit]
  simp only [Option.bind_eq_bind, Option.bind_some]
  rw [if_neg (by omega), if_neg (by omega)]
  rfl

/-- A character stands for itself, or for it stands a backslash with what is read as the
    character. -/
theorem escape_cases (c : Char) :
    (escape c = [c] ∧ c ≠ '"' ∧ c ≠ '\\' ∧ ¬c.toNat < 0x20) ∨
      ∃ body, escape c = '\\' :: body ∧ ∀ text, escaped? (body ++ text) = some (c, text) := by
  by_cases hmark : c = '"'
  · subst hmark
    exact .inr ⟨['"'], rfl, fun _ => rfl⟩
  · by_cases hslash : c = '\\'
    · subst hslash
      exact .inr ⟨['\\'], rfl, fun _ => rfl⟩
    · by_cases hcontrol : c.toNat < 0x20
      · have hread : ∀ text, escaped? ('u' :: '0' :: '0' :: hexDigit (c.toNat / 16) ::
            hexDigit (c.toNat % 16) :: text) = some (c, text) := by
          intro text
          rw [escaped?_control hcontrol, Char.ofNat_toNat]
        right
        rw [escape, if_neg hmark, if_neg hslash, if_pos hcontrol]
        split
        all_goals
          first
            | exact ⟨_, rfl, hread⟩
            | rename_i hcode
              have hchar : c = Char.ofNat c.toNat := (Char.ofNat_toNat c).symm
              rw [hcode] at hchar
              subst hchar
              exact ⟨_, rfl, fun _ => rfl⟩
      · left
        rw [escape, if_neg hmark, if_neg hslash, if_neg hcontrol]
        exact ⟨rfl, hmark, hslash, hcontrol⟩

/-- What stands for a character reads back as the character. -/
theorem string?_escape (fuel : Nat) (done : List Char) (c : Char) (text : List Char) :
    string? (fuel + 1) done (escape c ++ text) = string? fuel (c :: done) text := by
  obtain ⟨hescape, hmark, hslash, hcontrol⟩ | ⟨body, hescape, hread⟩ := escape_cases c
  · rw [hescape, List.singleton_append, string?]
    · rw [if_neg hcontrol]
    · exact fun hc => hmark hc
    · exact fun hc => hslash hc
  · rw [hescape, List.cons_append, string?, hread]
    rfl

/-- The rest of a quoted text reads back as the text behind what was read before. -/
theorem string?_quoted (s : List Char) (hfuel : s.length < fuel) (done text : List Char) :
    string? fuel done (s.flatMap escape ++ '"' :: text) =
      some (String.ofList (done.reverse ++ s), text) := by
  induction s generalizing fuel done with
  | nil =>
    obtain ⟨fuel, rfl⟩ := Nat.exists_eq_add_one_of_ne_zero (n := fuel) (Nat.ne_of_gt hfuel)
    rw [List.append_nil]
    rfl
  | cons c s ih =>
    obtain ⟨fuel, rfl⟩ := Nat.exists_eq_add_one_of_ne_zero (n := fuel) (Nat.ne_zero_of_lt hfuel)
    rw [List.flatMap_cons, List.append_assoc, string?_escape,
      ih (Nat.lt_of_succ_lt_succ hfuel), List.reverse_cons, List.append_assoc]
    rfl

end Reader

/-- A quoted text ends where it says: no two texts are quoted alike, whatever stands behind them. -/
theorem quote_append_inj {s t : String} {rest others : List Char}
    (heq : quote s ++ rest = quote t ++ others) : s = t ∧ rest = others := by
  have hread : ∀ (u : String) (text : List Char),
      u.toList.length < s.toList.length + t.toList.length + 1 →
        Reader.string? (s.toList.length + t.toList.length + 1) [] (quote u ++ text).tail =
          some (u, text) := by
    intro u text hfuel
    have hquoted := Reader.string?_quoted u.toList hfuel [] text
    rw [List.reverse_nil, List.nil_append, String.ofList_toList] at hquoted
    have hbehind : (quote u ++ text).tail = u.toList.flatMap escape ++ '"' :: text := by
      simp [quote]
    rw [hbehind, hquoted]
  have hsame := hread s rest (by omega)
  rw [heq, hread t others (by omega)] at hsame
  obtain ⟨htext, hrest⟩ := Prod.mk.inj (Option.some.inj hsame)
  exact ⟨htext.symm, hrest.symm⟩

theorem quote_inj {s t : String} (heq : quote s = quote t) : s = t := by
  have happend : quote s ++ [] = quote t ++ [] := by rw [heq]
  exact (quote_append_inj happend).1

end DocMapper.Json
