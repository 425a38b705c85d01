import DocMapper.Proofs.Script.Spans
import DocMapper.Proofs.Text.Parts

/-!
# Texts joined with `&&`

In front of a text, an operand and `&&` open nothing and hide nothing: the text is closed as before,
and falls apart at `||` as before. Only its first alternative has the operand in front.
-/

namespace DocMapper.Script

open Place

variable {p q : Place} {text front more operand top : List Char} {mark c : Char}

/-! ## Pieces -/

theorem glue_nil {pieces : List (List Char)} (hne : pieces ≠ []) : glue [] pieces = pieces := by
  cases pieces with
  | nil => exact absurd rfl hne
  | cons piece pieces => rfl

theorem glue_ne_nil (front : List Char) (pieces : List (List Char)) : glue front pieces ≠ [] := by
  cases pieces <;> exact List.cons_ne_nil _ _

theorem glue_glue (c : Char) (front : List Char) (pieces : List (List Char)) :
    glue [c] (glue front pieces) = glue (c :: front) pieces := by
  cases pieces <;> rfl

theorem splitTop_ne_nil (mark : Char) (p : Place) (text : List Char) :
    splitTop mark p text ≠ [] := by
  fun_cases splitTop mark p text
  · exact List.cons_ne_nil _ _
  · exact List.cons_ne_nil _ _
  · exact List.cons_ne_nil _ _
  · exact List.cons_ne_nil _ _
  · exact glue_ne_nil _ _

/-- A character that is no mark at the top belongs to the piece that follows. -/
theorem splitTop_cons (hstep : p.step c = some q) (hother : p.isTop c = true → c ≠ mark)
    (text : List Char) : splitTop mark p (c :: text) = glue [c] (splitTop mark q text) := by
  cases text with
  | nil => rfl
  | cons d text =>
    have hmark : (p.isTop c && c = mark) = false := by
      cases htop : p.isTop c with
      | false => rfl
      | true => exact decide_eq_false (hother htop)
    rw [splitTop, hmark, Bool.false_and, if_neg Bool.false_ne_true, hstep]

/-- A text that does not show the mark at the top belongs to the first piece of what follows. -/
theorem splitTop_append (hrun : p.run front = some q) (habsent : mark ∉ p.topLevel front)
    (back : List Char) : splitTop mark p (front ++ back) = glue front (splitTop mark q back) := by
  induction front generalizing p with
  | nil =>
    cases hrun
    exact (glue_nil (splitTop_ne_nil mark _ back)).symm
  | cons c front ih =>
    rw [run_cons] at hrun
    obtain ⟨next, hstep, hrest⟩ := Option.bind_eq_some_iff.mp hrun
    rw [topLevel_cons hstep] at habsent
    have hother : p.isTop c = true → c ≠ mark := by
      rintro htop rfl
      rw [if_pos htop] at habsent
      exact habsent List.mem_cons_self
    have hbehind : mark ∉ next.topLevel front := by
      intro hmem
      refine habsent ?_
      split
      · exact List.mem_cons_of_mem c hmem
      · exact hmem
    rw [List.cons_append, splitTop_cons hstep hother, ih hrest hbehind, glue_glue]

theorem splitTop_mark (mark : Char) (ended : Bool) (text : List Char) :
    splitTop mark ⟨.code ended, []⟩ (mark :: mark :: text) = [] :: splitTop mark start text := by
  rw [splitTop, isTop_code]
  simp

/-- A text that stays at one depth and does not show the mark is one piece. -/
theorem splitTop_of_spans (hspans : Spans text top) (habsent : mark ∉ top) :
    splitTop mark start text = [text] := by
  obtain ⟨⟨ended, hrun⟩, htop⟩ := hspans.from_start
  rw [← htop] at habsent
  have hpieces := splitTop_append hrun habsent []
  rw [List.append_nil] at hpieces
  exact hpieces.trans (congrArg (fun piece => [piece]) (List.append_nil text))

/-! ## Operands in front -/

/-- The sign between two operands. -/
def conjunctionSign : List Char := [' ', '&', '&', ' ']

/-- An operand with the sign behind it leads to where an expression begins. -/
theorem run_operand (hoperand : Operand operand) :
    start.run (operand ++ conjunctionSign) = some start := by
  obtain ⟨top, hspans, -⟩ := hoperand
  obtain ⟨⟨ended, hrun⟩, -⟩ := hspans.from_start
  rw [run_append_of_run hrun]
  rfl

/-- Of an operand and the sign nothing but operators that bind as `&&` or tighter shows. -/
theorem not_mem_topLevel_operand (hoperand : Operand operand) (hmark : mark ∈ joints)
    (hother : mark ≠ '&') : mark ∉ start.topLevel (operand ++ conjunctionSign) := by
  obtain ⟨top, hspans, htight⟩ := hoperand
  obtain ⟨⟨ended, hrun⟩, htop⟩ := hspans.from_start
  rw [topLevel_append hrun, htop]
  intro hmem
  have hsign : (⟨.code ended, []⟩ : Place).topLevel conjunctionSign = conjunctionSign := rfl
  rw [hsign] at hmem
  rcases List.mem_append.mp hmem with hmem | hmem
  · exact not_mem_joints_of_all htight hmem hmark
  · have hblank : mark ≠ ' ' := by
      rintro rfl
      exact absurd hmark (by decide)
    simp [conjunctionSign, hblank, hother] at hmem

theorem closed_behind (hoperand : Operand operand) :
    Closed (operand ++ conjunctionSign ++ more) ↔ Closed more := by
  rw [Closed, run_append_of_run (run_operand hoperand), Closed]

theorem topLevel_behind (hoperand : Operand operand) (hmark : mark ∈ joints) (hother : mark ≠ '&') :
    mark ∈ start.topLevel (operand ++ conjunctionSign ++ more) ↔ mark ∈ start.topLevel more := by
  rw [topLevel_append (run_operand hoperand), List.mem_append]
  exact or_iff_right (not_mem_topLevel_operand hoperand hmark hother)

/-- Only the first alternative has the operand in front. -/
theorem alternatives_behind (hoperand : Operand operand) (more : List Char) :
    alternatives (operand ++ conjunctionSign ++ more) =
      glue (operand ++ conjunctionSign) (alternatives more) :=
  splitTop_append (run_operand hoperand)
    (not_mem_topLevel_operand hoperand (by decide) (by decide)) more

/-- What binds more loosely in front of `&&` is what does in the text behind it. -/
theorem loose_behind (hoperand : Operand operand) :
    Loose (operand ++ conjunctionSign ++ more) ↔ Loose more := by
  have halternatives : alternatives (operand ++ conjunctionSign ++ more) =
      [operand ++ conjunctionSign ++ more] ↔ alternatives more = [more] := by
    rw [alternatives_behind hoperand]
    cases hpieces : alternatives more with
    | nil => exact absurd hpieces (splitTop_ne_nil '|' start more)
    | cons piece pieces =>
      rw [glue, List.cons.injEq, List.cons.injEq, List.append_cancel_left_eq]
  exact or_congr (not_congr halternatives) (or_congr
    (topLevel_behind hoperand (by decide) (by decide))
    (topLevel_behind hoperand (by decide) (by decide)))

/-- A blank in front of a text makes no other operands of it. -/
theorem operands_blank (text : List Char) : operands (' ' :: text) = operands text := by
  have hstep : start.step ' ' = some start := rfl
  rw [operands, splitTop_cons hstep (fun _ => by decide), operands]
  cases hpieces : splitTop '&' start text with
  | nil => exact absurd hpieces (splitTop_ne_nil '&' start text)
  | cons piece pieces =>
    rw [glue, List.map_cons, List.map_cons, List.singleton_append, Text.trim_blank_cons]

/-- An operand in front is the first one of the text. -/
theorem operands_behind (hoperand : Operand operand) (more : List Char) :
    operands (operand ++ conjunctionSign ++ more) = Text.trim operand :: operands more := by
  obtain ⟨top, hspans, htight⟩ := hoperand
  obtain ⟨⟨ended, hrun⟩, htop⟩ :=
    (hspans.append (spans_char (by decide : isPlain ' ' = true))).from_start
  have habsent : '&' ∉ start.topLevel (operand ++ [' ']) := by
    rw [htop]
    intro hmem
    rcases List.mem_append.mp hmem with hmem | hmem
    · exact not_mem_joints_of_all htight hmem (by decide)
    · exact absurd hmem (by decide)
  have htext : operand ++ conjunctionSign ++ more =
      operand ++ [' '] ++ '&' :: '&' :: ' ' :: more := by
    simp [conjunctionSign]
  rw [htext, operands, splitTop_append hrun habsent, splitTop_mark, glue, List.append_nil,
    List.map_cons, Text.trim_append_blank]
  exact congrArg _ (operands_blank more)

/-- An operand is the only one of itself. -/
theorem Operand.operands_eq (hoperand : Operand operand) :
    operands operand = [Text.trim operand] := by
  obtain ⟨top, hspans, htight⟩ := hoperand
  rw [operands, splitTop_of_spans hspans fun hmem =>
    not_mem_joints_of_all htight hmem (by decide)]
  rfl

/-! ## Joined operands -/

theorem Operand.closed (hoperand : Operand operand) : Closed operand := by
  obtain ⟨top, hspans, -⟩ := hoperand
  exact hspans.from_start.1

theorem Operand.not_loose (hoperand : Operand operand) : ¬Loose operand := by
  obtain ⟨top, hspans, htight⟩ := hoperand
  have htop : start.topLevel operand = top := hspans.from_start.2
  have habsent : ∀ mark ∈ joints, mark ∉ top := fun mark hmark hmem =>
    not_mem_joints_of_all htight hmem hmark
  rw [Loose, htop, not_or, not_or]
  exact ⟨fun hne => hne (splitTop_of_spans hspans (habsent '|' (by decide))),
    habsent ':' (by decide), habsent ',' (by decide)⟩

theorem alternatives_of_not_loose (hloose : ¬Loose text) : alternatives text = [text] :=
  Decidable.not_not.mp fun hne => hloose (.inl hne)

/-- Texts with `&&` between them. -/
def joined (texts : List (List Char)) : List Char := conjunctionSign.intercalate texts

theorem joined_cons_cons (text second : List Char) (texts : List (List Char)) :
    joined (text :: second :: texts) = text ++ conjunctionSign ++ joined (second :: texts) :=
  List.intercalate_cons_cons

theorem joined_singleton (text : List Char) : joined [text] = text := List.intercalate_singleton

/-- Of joined texts the last one decides whether anything stays open or binds more loosely. -/
theorem closed_loose_joined {front : List (List Char)} (hfront : ∀ text ∈ front, Operand text)
    (last : List Char) : (Closed (joined (front ++ [last])) ↔ Closed last) ∧
      (Loose (joined (front ++ [last])) ↔ Loose last) := by
  induction front with
  | nil => rw [List.nil_append, joined_singleton]; exact ⟨Iff.rfl, Iff.rfl⟩
  | cons text front ih =>
    obtain ⟨htext, hrest⟩ := List.forall_mem_cons.mp hfront
    obtain ⟨hclosed, hloose⟩ := ih hrest
    have hjoined : joined (text :: front ++ [last]) =
        text ++ conjunctionSign ++ joined (front ++ [last]) := by
      cases front <;> exact joined_cons_cons ..
    rw [hjoined, closed_behind htext, loose_behind htext]
    exact ⟨hclosed, hloose⟩

/-- Texts that are all operands leave nothing open when joined, and nothing binds more loosely. -/
theorem closed_joined_of_operands {texts : List (List Char)} (hne : texts ≠ [])
    (htexts : ∀ text ∈ texts, Operand text) : Closed (joined texts) ∧ ¬Loose (joined texts) := by
  have hlast := htexts _ (List.getLast_mem hne)
  obtain ⟨hclosed, hloose⟩ := closed_loose_joined
    (fun text hmem => htexts text ((List.dropLast_sublist texts).subset hmem)) (texts.getLast hne)
  rw [List.dropLast_concat_getLast] at hclosed hloose
  exact ⟨hclosed.mpr hlast.closed, fun h => hlast.not_loose (hloose.mp h)⟩

/-- The first of joined texts is an operand of the first alternative. -/
theorem trim_mem_operands_joined (hoperand : Operand operand) (texts : List (List Char))
    {first : List Char} (hfirst : first ∈ (alternatives (joined (operand :: texts))).head?) :
    Text.trim operand ∈ operands first := by
  cases texts with
  | nil =>
    rw [joined_singleton, alternatives_of_not_loose hoperand.not_loose] at hfirst
    cases hfirst
    rw [hoperand.operands_eq]
    exact List.mem_cons_self
  | cons second texts =>
    rw [joined_cons_cons, alternatives_behind hoperand] at hfirst
    cases hpieces : alternatives (joined (second :: texts)) with
    | nil => exact absurd hpieces (splitTop_ne_nil '|' start _)
    | cons piece pieces =>
      rw [hpieces] at hfirst
      cases hfirst
      rw [operands_behind hoperand]
      exact List.mem_cons_self

/-- A text in which nothing binds more loosely is true only where all its operands are. -/
theorem true_of_valueUnder (hloose : ¬Loose text) {truth : List Char → Bool}
    (hvalue : valueUnder truth text = true) : ∀ operand ∈ operands text, truth operand = true := by
  rw [valueUnder, alternatives_of_not_loose hloose, List.any_cons, List.any_nil,
    Bool.or_false] at hvalue
  exact List.all_eq_true.mp hvalue

end DocMapper.Script
