import DocMapper.Proofs.Script.Conjunctions

/-!
# Joining the texts of conditions

Whatever a condition asks for, its text stays an operand of its own: it leaves nothing open, takes
in nothing that stands around, and shows no operator that binds as loosely as `&&`. So it can be
joined with `&&` to other texts of that kind.
-/

namespace DocMapper.Script

variable {text : List Char}

/-! ## Identifiers -/

/-- Whether a character can stand in an identifier as it is. Beyond ASCII all but blanks can, since
    which of them are letters plays no part here. -/
def isIdentifierChar (c : Char) : Bool := isNameChar c || (0x80 ≤ c.toNat && !Text.isBlank c)

/-- Whether a character is a hexadecimal digit. -/
def isHexDigit (c : Char) : Bool := (Reading.hexDigit? c).isSome

/-- The text spells a part of an identifier: every character as it is, or by an escape with four
    digits, or with as many as there are between braces. All identifiers are such texts. -/
inductive SpellsName : List Char → Prop where
  | nothing : SpellsName []
  | char {c : Char} {rest : List Char} (hc : isIdentifierChar c = true) (hrest : SpellsName rest) :
      SpellsName (c :: rest)
  | codeUnit {digits rest : List Char} (hlength : digits.length = 4)
      (hdigits : digits.all isHexDigit = true) (hrest : SpellsName rest) :
      SpellsName (['\\', 'u'] ++ digits ++ rest)
  | codePoint {digits rest : List Char} (hdigits : digits.all isHexDigit = true)
      (hrest : SpellsName rest) :
      SpellsName (['\\', 'u'] ++ ('{' :: digits ++ ['}']) ++ rest)

theorem spellsName_of_all (hall : text.all isIdentifierChar = true) : SpellsName text := by
  induction text with
  | nil => exact .nothing
  | cons c rest ih =>
    obtain ⟨hc, hrest⟩ := Bool.and_eq_true_iff.mp hall
    exact .char hc (ih hrest)

theorem operand_hexDigits (hdigits : text.all isHexDigit = true) : Operand text :=
  operand_of_kind isHexDigit hdigits (by decide) (by decide)

/-- An identifier is an operand, also with braces in its escapes. -/
theorem SpellsName.operand (hname : SpellsName text) : Operand text := by
  have hescape : Operand ['\\', 'u'] := operand_of_all (by decide) (by decide)
  induction hname with
  | nothing => exact operand_of_all rfl rfl
  | @char c rest hc _ ih =>
    have hchar : Operand [c] :=
      operand_of_kind isIdentifierChar (by simpa using hc) (by decide) (by decide)
    exact hchar.append ih
  | codeUnit _ hdigits _ ih => exact (hescape.append (operand_hexDigits hdigits)).append ih
  | codePoint hdigits _ ih =>
    obtain ⟨top, hspans, -⟩ := operand_hexDigits hdigits
    exact (hescape.append (operand_curly hspans)).append ih

/-! ## Joined texts -/

/-- Joined operands fall apart into themselves. -/
theorem operands_joined {texts : List (List Char)} (hne : texts ≠ [])
    (htexts : ∀ text ∈ texts, Operand text) : operands (joined texts) = texts.map Text.trim := by
  induction texts with
  | nil => exact absurd rfl hne
  | cons text texts ih =>
    obtain ⟨htext, hrest⟩ := List.forall_mem_cons.mp htexts
    cases texts with
    | nil =>
      rw [joined_singleton]
      exact htext.operands_eq
    | cons second texts =>
      rw [joined_cons_cons, operands_behind htext, ih (List.cons_ne_nil _ _) hrest]
      rfl

/-- Joined operands are true where all of them are. -/
theorem valueUnder_joined {texts : List (List Char)} (hne : texts ≠ [])
    (htexts : ∀ text ∈ texts, Operand text) (truth : List Char → Bool) :
    valueUnder truth (joined texts) = texts.all fun text => truth (Text.trim text) := by
  have hloose : ¬Loose (joined texts) := (closed_joined_of_operands hne htexts).2
  rw [valueUnder, alternatives_of_not_loose hloose, List.any_cons, List.any_nil, Bool.or_false,
    operands_joined hne htexts, List.all_map]
  rfl

theorem Operand.not_mem_topLevel (hoperand : Operand text) {mark : Char}
    (hmark : mark ∈ joints) : mark ∉ start.topLevel text := by
  obtain ⟨top, hspans, htight⟩ := hoperand
  rw [hspans.from_start.2]
  exact fun hmem => not_mem_joints_of_all htight hmem hmark

end DocMapper.Script

namespace DocMapper

/-- The marks that end a quotation or escape in it, and all control characters, are escaped. -/
theorem Json.escape_of_special {c : Char} (hspecial : c = '"' ∨ c = '\\' ∨ c.toNat < 0x20) :
    ∃ body, Json.escape c = '\\' :: body := by
  obtain ⟨-, hmark, hslash, hcontrol⟩ | ⟨body, hescape, -⟩ := Json.Reader.escape_cases c
  · simp only [hmark, hslash, hcontrol, or_self] at hspecial
  · exact ⟨body, hescape⟩

namespace Condition

open Script

/-- The text of a condition over any identifier ends as code with all brackets closed, after closing
    none that it did not open, and shows neither `&`, `|`, a comma nor a semicolon at the top.
    Joined with `&&` to other operands it is one operand and they are the others, so that all are
    true where each of them is. What could end a quoted text is escaped in it. -/
theorem script_stands_alone {document : String} (hdocument : SpellsName document.toList)
    (c : Condition) : Closed (c.script document).toList ∧
      (∀ mark ∈ ['&', '|', ',', ';'], mark ∉ start.topLevel (c.script document).toList) ∧
      (∀ front back : List (List Char), (∀ text ∈ front ++ back, Operand text) →
        operands (joined (front ++ (c.script document).toList :: back)) =
          front.map Text.trim ++ Text.trim (c.script document).toList :: back.map Text.trim ∧
        ∀ truth, valueUnder truth (joined (front ++ (c.script document).toList :: back)) =
          ((front.all fun text => truth (Text.trim text)) &&
            truth (Text.trim (c.script document).toList) &&
              back.all fun text => truth (Text.trim text))) ∧
      ∀ special : Char, special = '"' ∨ special = '\\' ∨ special.toNat < 0x20 →
        ∃ body, Json.escape special = '\\' :: body := by
  have hscript : Operand (c.script document).toList := c.guard.operand_text hdocument.operand
  refine ⟨hscript.closed, fun mark hmark => hscript.not_mem_topLevel ?_,
    fun front back hothers => ?_, fun special => Json.escape_of_special⟩
  · have hjoints : ∀ mark ∈ ['&', '|', ',', ';'], mark ∈ joints := by simp [joints]
    exact hjoints mark hmark
  · have hne : front ++ (c.script document).toList :: back ≠ [] :=
      List.append_ne_nil_of_right_ne_nil _ (List.cons_ne_nil _ _)
    have htexts : ∀ text ∈ front ++ (c.script document).toList :: back, Operand text := by
      obtain ⟨hfront, hback⟩ := List.forall_mem_append.mp hothers
      exact List.forall_mem_append.mpr ⟨hfront, List.forall_mem_cons.mpr ⟨hscript, hback⟩⟩
    refine ⟨?_, fun truth => ?_⟩
    · rw [operands_joined hne htexts, List.map_append, List.map_cons]
    · rw [valueUnder_joined hne htexts, List.all_append, List.all_cons, Bool.and_assoc]

/-- A condition with names and values that would end the literals they stand in. -/
def hostile : Condition :=
  .or (.not (.leaf "a\"] || b[\"" .oneOf (.arr [.str "\"]), (\"", .str "\\"])) .null)
    (.leaf "\x7d)" .regexp (.str "\n;\") && (\""))

theorem script_stands_alone_hostile : SpellsName "größe$1".toList ∧
    Closed (hostile.script "größe$1").toList ∧
      ∀ mark ∈ ['&', '|', ',', ';'], mark ∉ start.topLevel (hostile.script "größe$1").toList :=
  have hname : SpellsName "größe$1".toList := spellsName_of_all (by decide +kernel)
  ⟨hname, (script_stands_alone hname hostile).1, (script_stands_alone hname hostile).2.1⟩

end Condition

end DocMapper
