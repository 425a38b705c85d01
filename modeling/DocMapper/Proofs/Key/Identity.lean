import DocMapper.Key.Identity
import DocMapper.Proofs.Number.Signed
import DocMapper.Proofs.Text.Parts

/-!
# Forms of keys and ids of records

A key has a JSON form, which models see, and a text, which stands in the id of its record. Every
form reads back as the key (`Key.forms_read_back`), and an id is read as a table, the separator and a
text, and in no other way. When two records have one id: a table name may end in an underscore, and
then the separator behind it can be read from one character further left.
-/

namespace DocMapper

namespace Key

/-- The text of a key reads back as the key. -/
theorem ofText_toText (key : Key) : ofText key.kind key.toText = .ok key := by
  cases key with
  | text s => rfl
  | number n =>
    rw [kind, toText, ofText, Reading.signed_text (by decide)]
    rfl
  | bigInt n =>
    rw [kind, toText, ofText, Reading.signed_text (by decide)]
    rfl

/-- An integer of 128 bits is a JSON number where 64 bits hold it and a text beyond; either way it
    is read at its own width again. -/
theorem ofJson?_toJson_bigInt (n : Signed 128) :
    ofJson? .bigInt (toJson (.bigInt n)) = some (.bigInt n) := by
  rw [toJson]
  cases hsmall : Signed.ofInt? 64 n.val with
  | none =>
    rw [ofJson?, Reading.signed_text (by decide)]
    rfl
  | some small =>
    have hval : small.val = n.val := Signed.ofInt?_eq_some_iff.mp hsmall
    have hwiden : widen small = n := Signed.ext hval
    have hread : ofJson? .bigInt (.ofSigned small) =
        (Integer.ofSigned small).toSigned?.map fun n => .bigInt (widen n) := rfl
    rw [hread, Integer.toSigned?_ofSigned, Option.map_some, hwiden]

/-- The JSON form of a key reads back as the key. -/
theorem ofJson?_toJson (key : Key) : ofJson? key.kind key.toJson = some key := by
  cases key with
  | text s => rfl
  | number n =>
    have hread : ofJson? .number (.ofSigned n) =
        (Integer.ofSigned n).toSigned?.map .number := rfl
    rw [kind, toJson, hread, Integer.toSigned?_ofSigned]
    rfl
  | bigInt n => exact ofJson?_toJson_bigInt n

end Key

namespace Identity

theorem documentId_eq_ok_iff {table id : String} {key : Key} : documentId table key = .ok id ↔
    Text.contains separator table = false ∧ table ++ separator ++ key.toText = id := by
  unfold documentId
  by_cases hseparator : Text.contains separator table = true
  · rw [if_pos hseparator, hseparator]
    simp
  · rw [if_neg hseparator]
    simp [hseparator]

/-- What is read from an id is what stands behind the table and the separator. -/
theorem keyText_eq_ok_iff {table id text : String} :
    keyText table id = .ok text ↔ id = table ++ separator ++ text := by
  rw [← Text.after?_eq_some_iff, keyText]
  cases Text.after? (table ++ separator) id <;> simp

theorem key_toText (k : Key) : key k.kind k.toText = .ok k := by
  rw [key, Key.ofText_toText]

/-- Whatever the key holds, separators too, the id of its record gives it back. -/
theorem keyOf_of_documentId {table id : String} {key : Key} (hid : documentId table key = .ok id) :
    keyOf table key.kind id = .ok key := by
  obtain ⟨_, rfl⟩ := documentId_eq_ok_iff.mp hid
  rw [keyOf, keyText_eq_ok_iff.mpr rfl]
  exact key_toText key

/-- The name of one table is that of the other and one more underscore. -/
def Adjacent (s t : String) : Prop := s ++ "_" = t ∨ t ++ "_" = s

theorem contains_separator_append (s rest : String) :
    Text.contains separator (s ++ separator ++ rest) = true := by
  rw [Text.contains, String.append_assoc, String.toList_append, String.toList_append]
  exact Text.occursIn_append _ _ _

/-- Where one text continues the other, it does so by at most one underscore. -/
theorem continuation_eq {middle j k : List Char}
    (hsame : separator.toList ++ j = middle ++ (separator.toList ++ k))
    (hmiddle : ∀ rest, middle ≠ separator.toList ++ rest) :
    (middle = [] ∧ j = k) ∨ (middle = ['_'] ∧ j = '_' :: k) := by
  have hseparator : separator.toList = ['_', '_'] := by decide
  rw [hseparator] at hsame hmiddle
  match middle with
  | [] => exact Or.inl ⟨rfl, by simpa using hsame⟩
  | [c] =>
    simp only [List.cons_append, List.nil_append, List.cons.injEq, true_and] at hsame
    exact Or.inr ⟨by rw [hsame.1], hsame.2⟩
  | c :: d :: rest =>
    simp only [List.cons_append, List.nil_append, List.cons.injEq] at hsame
    obtain ⟨rfl, rfl, _⟩ := hsame
    exact absurd rfl (hmiddle rest)

/-- An id of two tables is an id of one, or of a table and the one with one underscore more. -/
theorem joined_eq {s t j k : String} (ht : Text.contains separator t = false)
    (hlength : s.length ≤ t.length) (hsame : s ++ separator ++ j = t ++ separator ++ k) :
    (s = t ∧ j = k) ∨ (s ++ "_" = t ∧ j = "_" ++ k) := by
  have hlists : s.toList ++ (separator.toList ++ j.toList) =
      t.toList ++ (separator.toList ++ k.toList) := by
    simpa only [String.append_assoc, String.toList_append] using congrArg String.toList hsame
  obtain ⟨middle, hmiddle, hrest⟩ : ∃ middle, t.toList = s.toList ++ middle ∧
      separator.toList ++ j.toList = middle ++ (separator.toList ++ k.toList) := by
    rcases List.append_eq_append_iff.mp hlists with ⟨middle, ht, hrest⟩ | ⟨middle, hs, hrest⟩
    · exact ⟨middle, ht, hrest⟩
    · have hnil : middle = [] := by
        have hlengths := congrArg List.length hs
        rw [List.length_append, String.length_toList, String.length_toList] at hlengths
        exact List.length_eq_zero_iff.mp (by omega)
      subst hnil
      exact ⟨[], by simpa using hs.symm, hrest.symm⟩
  have hnone : ∀ rest, middle ≠ separator.toList ++ rest := by
    rintro rest rfl
    have htext : t = s ++ separator ++ String.ofList rest := by
      rw [← String.toList_inj, hmiddle, String.append_assoc, String.toList_append,
        String.toList_append, String.toList_ofList]
    rw [htext, contains_separator_append] at ht
    cases ht
  rcases continuation_eq hrest hnone with ⟨rfl, hkeys⟩ | ⟨rfl, hkeys⟩
  · refine Or.inl ⟨?_, String.toList_inj.mp hkeys⟩
    rw [← String.toList_inj, hmiddle, List.append_nil]
  · refine Or.inr ⟨?_, ?_⟩
    · rw [← String.toList_inj, hmiddle, String.toList_append]
      rfl
    · rw [← String.toList_inj, hkeys, String.toList_append]
      rfl

/-- Two records of tables that are not adjacent have one id only if they are one record. -/
theorem documentId_injective {s t id : String} {j k : Key} (hadjacent : ¬Adjacent s t)
    (hs : documentId s j = .ok id) (ht : documentId t k = .ok id) :
    s = t ∧ j.toText = k.toText := by
  obtain ⟨hsname, hs⟩ := documentId_eq_ok_iff.mp hs
  obtain ⟨htname, ht⟩ := documentId_eq_ok_iff.mp ht
  have hsame := hs.trans ht.symm
  rcases Nat.le_total s.length t.length with hlength | hlength
  · rcases joined_eq htname hlength hsame with hone | ⟨hadd, _⟩
    · exact hone
    · exact absurd (Or.inl hadd) hadjacent
  · rcases joined_eq hsname hlength hsame.symm with ⟨htable, hkey⟩ | ⟨hadd, _⟩
    · exact ⟨htable.symm, hkey.symm⟩
    · exact absurd (Or.inr hadd) hadjacent

/-- A table and the one with one underscore more share ids. -/
theorem documentId_append_underscore {s : String} (hs : Text.contains separator s = false)
    (ht : Text.contains separator (s ++ "_") = false) (text : String) :
    ∃ id, documentId s (.text ("_" ++ text)) = .ok id ∧
      documentId (s ++ "_") (.text text) = .ok id := by
  refine ⟨_, documentId_eq_ok_iff.mpr ⟨hs, rfl⟩, documentId_eq_ok_iff.mpr ⟨ht, ?_⟩⟩
  have hunderscore : "_" ++ separator = separator ++ "_" := by decide
  have hmoved : s ++ "_" ++ separator = s ++ separator ++ "_" := by
    rw [String.append_assoc, hunderscore, ← String.append_assoc]
  rw [Key.toText, Key.toText, hmoved, String.append_assoc]

end Identity

/-! ## Forms of keys -/

namespace Key

/-- Every key reads back from its JSON form, from its text, and from the id of its record in any
    table whose name is free of the separator, from which the text of the key comes out as it went
    in. Whatever the table, a text is read from an id only if the id is made of the table, the
    separator and that text. -/
theorem forms_read_back (key : Key) :
    ofJson? key.kind key.toJson = some key ∧ Identity.key key.kind key.toText = .ok key ∧
      (∀ table, Text.contains separator table = false →
        ∃ id, Identity.documentId table key = .ok id ∧
          Identity.keyText table id = .ok key.toText ∧
          Identity.keyOf table key.kind id = .ok key) ∧
      ∀ table id text, Identity.keyText table id = .ok text ↔ id = table ++ separator ++ text := by
  refine ⟨ofJson?_toJson key, Identity.key_toText key, fun table htable => ?_,
    fun table id text => Identity.keyText_eq_ok_iff⟩
  have hid : Identity.documentId table key = .ok (table ++ separator ++ key.toText) :=
    Identity.documentId_eq_ok_iff.mpr ⟨htable, rfl⟩
  exact ⟨_, hid, Identity.keyText_eq_ok_iff.mpr rfl, Identity.keyOf_of_documentId hid⟩

/-- The least integer of 128 bits, which 64 bits do not hold. -/
def leastKey : Key := .bigInt ⟨-170141183460469231731687303715884105728, by decide, by decide⟩

/-- Ids with that integer, and with a text that itself begins with a separator. -/
theorem forms_read_back_leastKey :
    Text.contains separator "parts" = false ∧
      (∃ id, Identity.documentId "parts" leastKey = .ok id ∧
        Identity.keyText "parts" id = .ok leastKey.toText ∧
        Identity.keyOf "parts" .bigInt id = .ok leastKey) ∧
      ∃ id, Identity.documentId "parts" (.text "__a__") = .ok id ∧
        Identity.keyText "parts" id = .ok "__a__" ∧
        Identity.keyOf "parts" .text id = .ok (.text "__a__") := by
  have htable : Text.contains separator "parts" = false := by decide
  obtain ⟨_, _, hleast, _⟩ := forms_read_back leastKey
  obtain ⟨_, _, htext, _⟩ := forms_read_back (.text "__a__")
  exact ⟨htable, hleast "parts" htable, htext "parts" htable⟩

end Key

end DocMapper
