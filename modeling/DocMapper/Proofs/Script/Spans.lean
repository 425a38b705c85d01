import DocMapper.Proofs.Json.Written
import DocMapper.Proofs.Script.Scanner

/-!
# Texts that stay at one depth

JSON text and the text of a guard begin and end as code at one depth, wherever they stand, and show
nothing at the top that could join them to what stands around.
-/

namespace DocMapper.Script

open Place

variable {p q : Place} {text front back top more : List Char} {mark c : Char}

/-! ## Reading one text after another -/

theorem run_cons (p : Place) (c : Char) (text : List Char) :
    p.run (c :: text) = (p.step c).bind fun q => q.run text := List.foldlM_cons ..

/-- The scanner goes on from where the first character leads. -/
theorem run_cons_of_step (hstep : p.step c = some q) (text : List Char) :
    p.run (c :: text) = q.run text := by
  rw [run_cons, hstep, Option.bind_some]

theorem run_append (p : Place) (front back : List Char) :
    p.run (front ++ back) = (p.run front).bind fun q => q.run back := List.foldlM_append ..

/-- The scanner goes on from where the first text leads. -/
theorem run_append_of_run (hfront : p.run front = some q) (back : List Char) :
    p.run (front ++ back) = q.run back := by
  rw [run_append, hfront, Option.bind_some]

theorem topLevel_cons (hstep : p.step c = some q) (text : List Char) : p.topLevel (c :: text) =
    if p.isTop c then c :: q.topLevel text else q.topLevel text := by
  rw [topLevel, hstep]

/-- What stands outside of all brackets is collected in two stretches. -/
theorem topLevel_append (hfront : p.run front = some q) (back : List Char) :
    p.topLevel (front ++ back) = p.topLevel front ++ q.topLevel back := by
  induction front generalizing p with
  | nil =>
    cases hfront
    rfl
  | cons c front ih =>
    rw [run_cons] at hfront
    obtain ⟨next, hstep, hrest⟩ := Option.bind_eq_some_iff.mp hfront
    rw [List.cons_append, topLevel_cons hstep, topLevel_cons hstep, ih hrest]
    split <;> rfl

/-- The text is code that ends at the depth where it begins, whatever that is. With no bracket open
    around it, this is what it shows at the top. -/
def Spans (text top : List Char) : Prop :=
  ∀ operand brackets, (∃ ended, (⟨.code operand, brackets⟩ : Place).run text =
      some ⟨.code ended, brackets⟩) ∧
    (⟨.code operand, brackets⟩ : Place).topLevel text = if brackets.isEmpty then top else []

/-- A span can stand alone. -/
theorem Spans.from_start (hspans : Spans text top) :
    (∃ ended, start.run text = some ⟨.code ended, []⟩) ∧ start.topLevel text = top :=
  hspans false []

theorem spans_nil : Spans [] [] := by
  intro operand brackets
  refine ⟨⟨operand, rfl⟩, ?_⟩
  split <;> rfl

/-- A span behind a span is a span. -/
theorem Spans.append (hfront : Spans front top) (hback : Spans back more) :
    Spans (front ++ back) (top ++ more) := by
  intro operand brackets
  obtain ⟨⟨ended, hrun⟩, htop⟩ := hfront operand brackets
  obtain ⟨hends, hmore⟩ := hback ended brackets
  rw [run_append_of_run hrun, topLevel_append hrun, htop, hmore]
  refine ⟨hends, ?_⟩
  split <;> rfl

/-- The marks of brackets, literals and comments. -/
def marks : List Char := ['(', '[', '{', ')', ']', '}', '"', apostrophe, backquote, '/']

/-- A character that is no mark. -/
def isPlain (c : Char) : Bool := !marks.contains c

/-- A plain character opens nothing and closes nothing. -/
theorem codeStep_of_isPlain (hplain : isPlain c = true) (operand : Bool)
    (brackets : List Bracket) :
    ∃ ended, codeStep operand brackets c = some ⟨.code ended, brackets⟩ := by
  simp only [isPlain, marks, List.contains_eq_mem, List.mem_cons, List.not_mem_nil, or_false,
    Bool.not_eq_true', decide_eq_false_iff_not, not_or] at hplain
  obtain ⟨h1, h2, h3, h4, h5, h6, h7, h8, h9, h10⟩ := hplain
  unfold codeStep
  rw [if_neg h1, if_neg h2, if_neg h3, if_neg h4, if_neg h5, if_neg h6, if_neg (by simp [h7, h8]),
    if_neg h9, if_neg h10]
  split <;> exact ⟨_, rfl⟩

@[simp] theorem isTop_code (operand : Bool) (brackets : List Bracket) (c : Char) :
    (⟨.code operand, brackets⟩ : Place).isTop c = brackets.isEmpty := Bool.and_true _

@[simp] theorem isTop_quoted (mark : Char) (brackets : List Bracket) (c : Char) :
    (⟨.quoted mark, brackets⟩ : Place).isTop c = false := Bool.and_false _

@[simp] theorem isTop_escaped (mark : Char) (brackets : List Bracket) (c : Char) :
    (⟨.escaped mark, brackets⟩ : Place).isTop c = false := Bool.and_false _

/-- What is code is read by the step for code. -/
theorem step_code (operand : Bool) (brackets : List Bracket) (c : Char) :
    (⟨.code operand, brackets⟩ : Place).step c = codeStep operand brackets c := rfl

theorem spans_char (hplain : isPlain c = true) : Spans [c] [c] := by
  intro operand brackets
  obtain ⟨ended, hstep⟩ := codeStep_of_isPlain hplain operand brackets
  rw [← step_code] at hstep
  rw [run_cons_of_step hstep, topLevel_cons hstep, isTop_code]
  exact ⟨⟨ended, rfl⟩, rfl⟩

/-- Plain characters are a span. -/
theorem spans_of_isPlain (hplain : text.all isPlain = true) : Spans text text := by
  induction text with
  | nil => exact spans_nil
  | cons c text ih =>
    obtain ⟨hc, hrest⟩ := Bool.and_eq_true_iff.mp hplain
    exact (spans_char hc).append (ih hrest)

/-- Brackets of a kind around a text that stays at one depth. -/
theorem Spans.bracketed {first last : Char} {bracket : Bracket} (hinner : Spans text top)
    (hopens : ∀ operand brackets, codeStep operand brackets first =
      some ⟨.code false, bracket :: brackets⟩)
    (hcloses : ∀ operand brackets, codeStep operand (bracket :: brackets) last =
      some ⟨.code true, brackets⟩) : Spans (first :: text ++ [last]) [first] := by
  intro operand brackets
  obtain ⟨⟨ended, hrun⟩, htop⟩ := hinner false (bracket :: brackets)
  have hopen := (step_code operand brackets first).trans (hopens operand brackets)
  have hclose := (step_code ended (bracket :: brackets) last).trans (hcloses ended brackets)
  rw [List.cons_append, run_cons_of_step hopen, run_append_of_run hrun, run_cons_of_step hclose,
    topLevel_cons hopen, topLevel_append hrun, htop, topLevel_cons hclose, isTop_code, isTop_code]
  exact ⟨⟨true, rfl⟩, rfl⟩

/-- A bracketed span hides what it holds. -/
theorem Spans.round (hinner : Spans text top) : Spans ('(' :: text ++ [')']) ['('] :=
  hinner.bracketed (fun _ _ => rfl) (fun _ _ => rfl)

theorem Spans.square (hinner : Spans text top) : Spans ('[' :: text ++ [']']) ['['] :=
  hinner.bracketed (fun _ _ => rfl) (fun _ _ => rfl)

theorem Spans.curly (hinner : Spans text top) : Spans ('{' :: text ++ ['}']) ['{'] :=
  hinner.bracketed (fun _ _ => rfl) (fun _ _ => rfl)

/-- Spans that are joined by a span are a span. -/
theorem spans_intercalate {sign : List Char} (hsign : Spans sign more) {texts : List (List Char)}
    (htexts : ∀ text ∈ texts, ∃ top, Spans text top) :
    ∃ top, Spans (sign.intercalate texts) top := by
  induction texts with
  | nil => exact ⟨[], spans_nil⟩
  | cons text texts ih =>
    obtain ⟨⟨top, htext⟩, hrest⟩ := List.forall_mem_cons.mp htexts
    cases texts with
    | nil => exact ⟨top, by rwa [List.intercalate_singleton]⟩
    | cons second texts =>
      obtain ⟨others, hothers⟩ := ih hrest
      rw [List.intercalate_cons_cons]
      exact ⟨_, (htext.append hsign).append hothers⟩

/-! ## Quoted texts -/

/-- The text stays between quotation marks. -/
def StaysQuoted (text : List Char) : Prop :=
  ∀ brackets, (⟨.quoted '"', brackets⟩ : Place).run text = some ⟨.quoted '"', brackets⟩ ∧
    (⟨.quoted '"', brackets⟩ : Place).topLevel text = []

theorem StaysQuoted.append (hfront : StaysQuoted front) (hback : StaysQuoted back) :
    StaysQuoted (front ++ back) := by
  intro brackets
  obtain ⟨hrun, htop⟩ := hfront brackets
  obtain ⟨hends, hmore⟩ := hback brackets
  rw [run_append_of_run hrun, topLevel_append hrun, htop, hmore]
  exact ⟨hends, rfl⟩

/-- Inside quotes any other character goes unnoticed. -/
theorem staysQuoted_char (hmark : c ≠ '"') (hslash : c ≠ '\\') (hline : c ≠ '\n')
    (hreturn : c ≠ '\r') : StaysQuoted [c] := by
  intro brackets
  have hstep : (⟨.quoted '"', brackets⟩ : Place).step c = some ⟨.quoted '"', brackets⟩ := by
    rw [step]
    dsimp only
    rw [if_neg hmark, if_neg hslash, if_neg (by simp [hline, hreturn])]
  rw [run_cons_of_step hstep, topLevel_cons hstep, isTop_quoted]
  exact ⟨rfl, rfl⟩

/-- Inside quotes an escaped character goes unnoticed. -/
theorem staysQuoted_escaped (c : Char) : StaysQuoted ['\\', c] := by
  intro brackets
  have hslash : (⟨.quoted '"', brackets⟩ : Place).step '\\' = some ⟨.escaped '"', brackets⟩ := rfl
  have hstep : (⟨.escaped '"', brackets⟩ : Place).step c = some ⟨.quoted '"', brackets⟩ := rfl
  rw [run_cons_of_step hslash, run_cons_of_step hstep, topLevel_cons hslash, topLevel_cons hstep,
    isTop_quoted, isTop_escaped]
  exact ⟨rfl, rfl⟩

theorem staysQuoted_hexDigit {n : Nat} (hn : n < 16) : StaysQuoted [Json.hexDigit n] := by
  have hall : ∀ d : Fin 16, Json.hexDigit d.val ≠ '"' ∧ Json.hexDigit d.val ≠ '\\' ∧
      Json.hexDigit d.val ≠ '\n' ∧ Json.hexDigit d.val ≠ '\r' := by decide
  obtain ⟨hmark, hslash, hline, hreturn⟩ := hall ⟨n, hn⟩
  exact staysQuoted_char hmark hslash hline hreturn

/-- What stands for a character does not end the quotation. -/
theorem staysQuoted_escape (c : Char) : StaysQuoted (Json.escape c) := by
  unfold Json.escape
  split
  · exact staysQuoted_escaped '"'
  · split
    · exact staysQuoted_escaped '\\'
    · split
      · rename_i hcontrol
        split
        · exact staysQuoted_escaped 'b'
        · exact staysQuoted_escaped 't'
        · exact staysQuoted_escaped 'n'
        · exact staysQuoted_escaped 'f'
        · exact staysQuoted_escaped 'r'
        · have hzero : StaysQuoted ['0'] := staysQuoted_hexDigit (by decide : 0 < 16)
          exact (staysQuoted_escaped 'u').append (hzero.append (hzero.append
            ((staysQuoted_hexDigit (by omega)).append (staysQuoted_hexDigit (by omega)))))
      · rename_i hmark hslash hcontrol
        refine staysQuoted_char hmark hslash ?_ ?_
        · rintro rfl
          exact hcontrol (by decide)
        · rintro rfl
          exact hcontrol (by decide)

/-- An escaped text never leaves its quotes. -/
theorem staysQuoted_flatMap_escape (s : List Char) : StaysQuoted (s.flatMap Json.escape) := by
  induction s with
  | nil => exact fun _ => ⟨rfl, rfl⟩
  | cons c s ih => exact (staysQuoted_escape c).append ih

/-- A quoted text shows its first mark only. -/
theorem spans_quote (s : String) : Spans (Json.quote s) ['"'] := by
  intro operand brackets
  obtain ⟨hrun, htop⟩ := staysQuoted_flatMap_escape s.toList brackets
  have hfirst : (⟨.code operand, brackets⟩ : Place).step '"' = some ⟨.quoted '"', brackets⟩ := rfl
  have hlast : (⟨.quoted '"', brackets⟩ : Place).step '"' = some ⟨.code true, brackets⟩ := rfl
  rw [Json.quote, List.cons_append, run_cons_of_step hfirst, run_append_of_run hrun,
    run_cons_of_step hlast, topLevel_cons hfirst, topLevel_append hrun, htop, topLevel_cons hlast,
    isTop_code, isTop_quoted]
  exact ⟨⟨true, rfl⟩, rfl⟩

/-! ## Operands -/

/-- The characters that can join what stands on their two sides. -/
def joints : List Char := ['&', '|', ',', ';', ':', '?']

/-- A character that is no joint. -/
def isTight (c : Char) : Bool := !joints.contains c

/-- What binds tightly holds no joint. -/
theorem not_mem_joints_of_all (htight : top.all isTight = true) (hc : c ∈ top) : c ∉ joints := by
  have htight := List.all_eq_true.mp htight c hc
  rwa [isTight, List.contains_eq_mem, Bool.not_eq_true', decide_eq_false_iff_not] at htight

/-- The text stays at one depth and shows nothing at the top that could join it to what stands
    around. -/
def Operand (text : List Char) : Prop :=
  ∃ top, Spans text top ∧ top.all isTight = true

/-- An operand behind an operand is an operand. -/
theorem Operand.append (hfront : Operand front) (hback : Operand back) :
    Operand (front ++ back) := by
  obtain ⟨top, hspans, htop⟩ := hfront
  obtain ⟨more, hmore, hrest⟩ := hback
  exact ⟨top ++ more, hspans.append hmore, by rw [List.all_append, htop, hrest, Bool.and_true]⟩

/-- A text without marks and joints. -/
theorem operand_of_all (hplain : text.all isPlain = true) (htight : text.all isTight = true) :
    Operand text := ⟨text, spans_of_isPlain hplain, htight⟩

/-- A text of characters of a kind to which no mark and no joint belongs. -/
theorem operand_of_kind (kind : Char → Bool) (htext : text.all kind = true)
    (hmarks : marks.all (!kind ·) = true) (hjoints : joints.all (!kind ·) = true) :
    Operand text := by
  have habsent : ∀ {others : List Char}, others.all (!kind ·) = true →
      text.all (!others.contains ·) = true := by
    intro others hothers
    refine List.all_eq_true.mpr fun c hc => ?_
    rw [List.contains_eq_mem, Bool.not_eq_true', decide_eq_false_iff_not]
    intro hmem
    have hother := List.all_eq_true.mp hothers c hmem
    rw [List.all_eq_true.mp htext c hc] at hother
    cases hother
  exact operand_of_all (habsent hmarks) (habsent hjoints)

/-- In brackets may stand whatever stays at one depth. -/
theorem operand_round (hinner : Spans text top) : Operand ('(' :: text ++ [')']) :=
  ⟨['('], hinner.round, by decide⟩

theorem operand_square (hinner : Spans text top) : Operand ('[' :: text ++ [']']) :=
  ⟨['['], hinner.square, by decide⟩

theorem operand_curly (hinner : Spans text top) : Operand ('{' :: text ++ ['}']) :=
  ⟨['{'], hinner.curly, by decide⟩

/-- A quoted text is an operand, whatever it says. -/
theorem operand_quote (s : String) : Operand (Json.quote s) := ⟨['"'], spans_quote s, by decide⟩

/-! ## JSON text -/

theorem operand_number (n : Number) : Operand n.write :=
  operand_of_kind Json.Reader.isNumberChar
    (List.all_eq_true.mpr fun _ => Number.isNumberChar_of_mem_write) (by decide) (by decide)

/-- The text of a value can stand as an operand; lists of values or of members stay at one depth. -/
theorem operand_write_all : (∀ v : Json, Operand v.write) ∧
    (∀ fields, ∃ top, Spans (Json.writeFields fields) top) ∧
      ∀ items, ∃ top, Spans (Json.writeItems items) top := by
  have hcomma : Spans [','] [','] := spans_char (by decide)
  have hmember : ∀ (k : String) {text : List Char}, Operand text →
      ∃ top, Spans (Json.quote k ++ ':' :: text) top := by
    intro k text htext
    obtain ⟨top, hspans, -⟩ := htext
    exact ⟨_, (spans_quote k).append ((spans_char (by decide : isPlain ':' = true)).append hspans)⟩
  refine Json.write.mutual_induct _ _ _ ?null ?yes ?no ?number ?quoted ?array ?object
    ?noItem ?oneItem ?moreItems ?noField ?oneField ?moreFields
  case null => exact operand_of_all (by decide) (by decide)
  case yes => exact operand_of_all (by decide) (by decide)
  case no => exact operand_of_all (by decide) (by decide)
  case number => exact operand_number
  case quoted => exact operand_quote
  case array =>
    rintro items ⟨top, hitems⟩
    exact operand_square hitems
  case object =>
    rintro fields ⟨top, hfields⟩
    exact operand_curly hfields
  case noItem => exact ⟨[], spans_nil⟩
  case oneItem =>
    rintro x ⟨top, hx, -⟩
    exact ⟨top, hx⟩
  case moreItems =>
    rintro x rest hrest ⟨top, hx, -⟩ ⟨more, hmore⟩
    rw [Json.writeItems]
    · exact ⟨_, hx.append (hcomma.append hmore)⟩
    · exact hrest
  case noField => exact ⟨[], spans_nil⟩
  case oneField =>
    intro k x hx
    exact hmember k hx
  case moreFields =>
    rintro k x rest hrest hx ⟨more, hmore⟩
    obtain ⟨top, hmember⟩ := hmember k hx
    rw [Json.writeFields]
    · exact ⟨_, hmember.append (hcomma.append hmore)⟩
    · exact hrest

/-- The text of a value can stand as an operand. -/
theorem operand_write (v : Json) : Operand v.write := operand_write_all.1 v

/-! ## Guards -/

/-- An attribute of a document is an operand if the document is. -/
theorem operand_member {document : String} (hdocument : Operand document.toList)
    (attr : String) : Operand (Guard.member document attr).toList := by
  rw [Guard.toList_member]
  exact hdocument.append (operand_square (spans_quote attr))

/-- A bracketed operand is an operand. -/
theorem Operand.round (hinner : Operand text) : Operand ('(' :: text ++ [')']) := by
  obtain ⟨top, hspans, -⟩ := hinner
  exact operand_round hspans

/-- Brackets make one operand of two, whatever joins them. -/
theorem Operand.grouped {sign : List Char} (hfront : Operand front)
    (hsign : sign.all isPlain = true) (hback : Operand back) :
    Operand ('(' :: (front ++ (sign ++ back)) ++ [')']) := by
  obtain ⟨top, hfront, -⟩ := hfront
  obtain ⟨more, hback, -⟩ := hback
  exact operand_round (hfront.append ((spans_of_isPlain hsign).append hback))

end DocMapper.Script

namespace DocMapper.Guard

open Script

/-- The text of a guard can stand as an operand, whatever its names and values are. -/
theorem operand_text {document : String} (hdocument : Operand document.toList)
    (g : Guard) : Operand (g.text document).toList := by
  induction g with
  | test c attr value =>
    have hsign : Operand (' ' :: (c.sign.toList ++ [' '])) := by
      cases c <;> exact operand_of_all (by decide) (by decide)
    rw [toList_text_test]
    exact (operand_member hdocument attr).append (hsign.append (operand_write value))
  | listed attr values =>
    have hindex : Operand ".indexOf".toList := operand_of_all (by decide) (by decide)
    have hfound : Operand " !== -1".toList := operand_of_all (by decide) (by decide)
    rw [toList_text_listed]
    exact (operand_write values).round.append
      (hindex.append ((operand_member hdocument attr).round.append hfound))
  | matched attr pattern =>
    have hnew : Operand "new RegExp".toList := operand_of_all (by decide) (by decide)
    have htest : Operand ".test".toList := operand_of_all (by decide) (by decide)
    rw [toList_text_matched]
    exact hnew.append ((operand_write pattern).round.append
      (htest.append (operand_member hdocument attr).round))
  | always =>
    have htrue : Operand "true".toList := operand_of_all (by decide) (by decide)
    exact htrue
  | negation g ih =>
    have hmark : Operand ['!'] := operand_of_all (by decide) (by decide)
    rw [toList_text_negation]
    exact hmark.append ih.round
  | both g h ihg ihh =>
    rw [toList_text_both]
    exact ihg.grouped (by decide) ihh
  | either g h ihg ihh =>
    rw [toList_text_either]
    exact ihg.grouped (by decide) ihh

end DocMapper.Guard
