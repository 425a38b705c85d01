import DocMapper.Proofs.Json.Preorder
import DocMapper.Proofs.Json.Quoting
import DocMapper.Proofs.Number.ReadBack

/-!
# Values told by their texts

The first character of a text tells the kind of the value that it starts with, and what stands
behind a value cannot be taken for a part of it. So the text of a value can be told apart from what
follows. Main statement: no two values have one text.
-/

namespace DocMapper

variable {c : Char} {rest others : List Char}

/-! ## Numbers -/

namespace Reading

theorem isNumberChar_of_isDigit (hc : c.isDigit = true) : Json.Reader.isNumberChar c = true := by
  simp [Json.Reader.isNumberChar, hc]

end Reading

open Json.Reader Reading

namespace DecimalLayout

theorem isNumberChar_of_mem_writeScientific {d : Decimal} (hc : c ∈ writeScientific d) :
    isNumberChar c = true := by
  have hdigits : ∀ {n : Nat}, c ∈ Decimal.digitChars n → isNumberChar c = true :=
    fun hmem => isNumberChar_of_isDigit (Decimal.isDigit_of_mem_digitChars hmem)
  rw [writeScientific, List.mem_append, List.mem_cons, List.mem_cons] at hc
  rcases hc with hmantissa | rfl | rfl | hpower
  · split at hmantissa
    · rename_i first second later hchars
      simp only [List.mem_cons] at hmantissa
      rcases hmantissa with rfl | rfl | hlater
      · exact hdigits (n := d.digits) (hchars ▸ List.mem_cons_self)
      · rfl
      · exact hdigits (n := d.digits) (hchars ▸ List.mem_cons_of_mem _ (List.mem_cons.mpr hlater))
    · exact hdigits hmantissa
  · rfl
  · split <;> rfl
  · exact hdigits hpower

/-- Numbers are written in the characters that a reader takes for a number. -/
theorem isNumberChar_of_mem_write {layout : DecimalLayout} {d : Decimal}
    (hc : c ∈ layout.write d) : isNumberChar c = true := by
  rw [write] at hc
  split at hc
  · rcases mem_writePositional hc with hdigit | rfl
    · exact isNumberChar_of_isDigit hdigit
    · rfl
  · exact isNumberChar_of_mem_writeScientific hc

/-- In JSON text a double has a point or an exponent. -/
theorem exists_mark_of_json (d : Decimal) :
    ∃ c ∈ DecimalLayout.json.write d, c = '.' ∨ c = 'e' := by
  rw [write]
  split
  · refine ⟨'.', ?_, .inl rfl⟩
    rw [writePositional]
    split <;> simp [DecimalLayout.json]
  · exact ⟨'e', by simp [writeScientific], .inr rfl⟩

end DecimalLayout

namespace Double

theorem isNumberChar_of_mem_write {layout : DecimalLayout} {x : Double} (hc : c ∈ x.write layout) :
    isNumberChar c = true := by
  rw [write, List.mem_append] at hc
  rcases hc with hsign | hdecimal
  · split at hsign
    · rw [List.mem_singleton.mp hsign]
      rfl
    · cases hsign
  · exact DecimalLayout.isNumberChar_of_mem_write hdecimal

theorem write_ne_nil (layout : DecimalLayout) (x : Double) : x.write layout ≠ [] := by
  intro hnil
  have hread := decimal?_write layout x
  rw [hnil] at hread
  cases hread

end Double

namespace Number

variable {m n : Number}

theorem write_int (n : Integer) : (Number.int n).write =
    (if n.val < 0 then ['-'] else []) ++ Decimal.digitChars n.val.natAbs := rfl

/-- An integer is written with a sign and digits. -/
theorem sign_or_digit_of_mem_int {n : Integer} (hc : c ∈ (Number.int n).write) :
    c = '-' ∨ c.isDigit = true := by
  rw [write_int, List.mem_append] at hc
  rcases hc with hsign | hdigit
  · split at hsign
    · exact .inl (List.mem_singleton.mp hsign)
    · cases hsign
  · exact .inr (Decimal.isDigit_of_mem_digitChars hdigit)

theorem isNumberChar_of_mem_write (hc : c ∈ n.write) : isNumberChar c = true := by
  cases n with
  | int n =>
    rcases sign_or_digit_of_mem_int hc with rfl | hdigit
    · rfl
    · exact isNumberChar_of_isDigit hdigit
  | float x => exact Double.isNumberChar_of_mem_write hc

theorem write_ne_nil (n : Number) : n.write ≠ [] := by
  cases n with
  | int n =>
    intro hnil
    exact Nat.toDigits_ne_nil (List.append_eq_nil_iff.mp hnil).2
  | float x => exact x.write_ne_nil .json

/-- Whole numbers and decimals are never written alike. -/
theorem write_int_ne_float (n : Integer) (x : Double) :
    (Number.int n).write ≠ (Number.float x).write := by
  intro heq
  obtain ⟨c, hmem, hmark⟩ :=
    DecimalLayout.exists_mark_of_json (x.shortest DecimalLayout.json.tiesUp)
  have hc : c ∈ (Number.int n).write := heq ▸ List.mem_append_right _ hmem
  rcases sign_or_digit_of_mem_int hc with rfl | hdigit
  · exact absurd hmark (by decide)
  · rcases hmark with rfl | rfl <;> exact absurd hdigit (by decide)

/-- No two numbers have one JSON text. -/
theorem write_inj (heq : m.write = n.write) : m = n := by
  cases m with
  | int i =>
    cases n with
    | int j => exact congrArg Number.int (Integer.ext (sign_digitChars_inj heq))
    | float y => exact absurd heq (write_int_ne_float i y)
  | float x =>
    cases n with
    | int j => exact absurd heq.symm (write_int_ne_float j x)
    | float y => exact congrArg Number.float (Double.write_inj .json heq)

end Number

/-! ## What stands behind a value -/

namespace Json

/-- What may stand behind a value within a text: nothing, a comma or a closing bracket. -/
def Closes (rest : List Char) : Prop := ∀ c ∈ rest.head?, c = ',' ∨ c = ']' ∨ c = '\x7d'

theorem closes_nil : Closes [] := by simp [Closes]

theorem closes_cons (hc : c = ',' ∨ c = ']' ∨ c = '\x7d') : Closes (c :: rest) := by
  intro d hd
  cases hd
  exact hc

/-- A number ends where something closes it. -/
theorem takeWhile_number (n : Number) (hrest : Closes rest) :
    (n.write ++ rest).takeWhile isNumberChar = n.write := by
  have hnone : rest.takeWhile isNumberChar = [] := by
    cases rest with
    | nil => rfl
    | cons c rest =>
      have hc : isNumberChar c = false := by
        rcases hrest c rfl with rfl | rfl | rfl <;> rfl
      rw [List.takeWhile_cons_of_neg (by rw [hc]; exact Bool.false_ne_true)]
  rw [List.takeWhile_append_of_pos fun c hc => Number.isNumberChar_of_mem_write hc, hnone,
    List.append_nil]

/-- A number that something closes is determined by the text. -/
theorem write_number_append_inj {m n : Number} (hrest : Closes rest) (hothers : Closes others)
    (heq : m.write ++ rest = n.write ++ others) : m = n ∧ rest = others := by
  have hsame : m.write = n.write := by
    rw [← takeWhile_number m hrest, heq, takeWhile_number n hothers]
  rw [hsame] at heq
  exact ⟨Number.write_inj hsame, List.append_cancel_left heq⟩

/-! ## First characters -/

/-- The rank of the value that a text starts with, or seven where it starts with none. -/
def leadRank : List Char → Nat
  | [] => 7
  | c :: _ =>
    if c = 'n' then 0
    else if c = 'f' then 1
    else if c = 't' then 2
    else if isNumberChar c then 3
    else if c = '"' then 4
    else if c = '[' then 5
    else if c = '\x7b' then 6
    else 7

theorem leadRank_of_isNumberChar (hc : isNumberChar c = true) : leadRank (c :: rest) = 3 := by
  have hapart : c ≠ 'n' ∧ c ≠ 'f' ∧ c ≠ 't' := by
    refine ⟨?_, ?_, ?_⟩ <;>
    · rintro rfl
      cases hc
  rw [leadRank, if_neg hapart.1, if_neg hapart.2.1, if_neg hapart.2.2, if_pos hc]

/-- The first character written tells the kind. -/
theorem leadRank_write (v : Json) (rest : List Char) : leadRank (v.write ++ rest) = v.rank := by
  cases v with
  | bool b => cases b <;> rfl
  | num n =>
    obtain ⟨c, chars, hchars⟩ := List.exists_cons_of_ne_nil n.write_ne_nil
    rw [write, hchars, List.cons_append]
    exact leadRank_of_isNumberChar
      (Number.isNumberChar_of_mem_write (n := n) (hchars ▸ List.mem_cons_self))
  | _ => rfl

theorem rank_lt (v : Json) : v.rank < 7 := by
  rcases v with _ | ⟨_ | _⟩ | _ | _ | _ | _ <;> exact of_decide_eq_true rfl

/-- A value is no closing bracket. -/
theorem write_append_ne {v : Json} (hc : leadRank (c :: others) = 7) :
    v.write ++ rest ≠ c :: others := by
  intro heq
  have hlt := v.rank_lt
  rw [← leadRank_write v rest, heq, hc] at hlt
  exact Nat.lt_irrefl 7 hlt

/-- Values that begin a text alike are of one kind. -/
theorem sameKind_of_write_append {v w : Json} (heq : v.write ++ rest = w.write ++ others) :
    SameKind v w := by
  refine sameKind_of_rank_eq ?_
  rw [← leadRank_write v rest, heq, leadRank_write]

/-! ## Values -/

variable {items elements : List Json} {fields members : List (String × Json)} {x : Json}
  {k : String}

/-- The text behind the first item of an array. -/
def behindItem (items : List Json) (rest : List Char) : List Char :=
  match items with
  | [] => ']' :: rest
  | x :: more => ',' :: (writeItems (x :: more) ++ ']' :: rest)

/-- The text behind the first member of an object. -/
def behindMember (fields : List (String × Json)) (rest : List Char) : List Char :=
  match fields with
  | [] => '\x7d' :: rest
  | field :: more => ',' :: (writeFields (field :: more) ++ '\x7d' :: rest)

theorem write_arr_append (items : List Json) (rest : List Char) :
    (arr items).write ++ rest = '[' :: (writeItems items ++ ']' :: rest) := by
  simp [write]

theorem write_obj_append (fields : List (String × Json)) (rest : List Char) :
    (obj fields).write ++ rest = '\x7b' :: (writeFields fields ++ '\x7d' :: rest) := by
  simp [write]

/-- A list is its first item and what stands behind it. -/
theorem writeItems_append (x : Json) (items : List Json) (rest : List Char) :
    writeItems (x :: items) ++ ']' :: rest = x.write ++ behindItem items rest := by
  cases items <;> simp [writeItems, behindItem]

/-- An object is its first member and what stands behind it. -/
theorem writeFields_append (k : String) (x : Json) (fields : List (String × Json))
    (rest : List Char) : writeFields ((k, x) :: fields) ++ '\x7d' :: rest =
      quote k ++ ':' :: (x.write ++ behindMember fields rest) := by
  cases fields <;> simp [writeFields, behindMember]

/-- What stands behind an item closes it. -/
theorem closes_behindItem (items : List Json) (rest : List Char) :
    Closes (behindItem items rest) := by
  cases items <;> exact closes_cons (by decide)

/-- What stands behind a member closes it. -/
theorem closes_behindMember (fields : List (String × Json)) (rest : List Char) :
    Closes (behindMember fields rest) := by
  cases fields <;> exact closes_cons (by decide)

/-- A text that starts with the value starts with no other one. -/
def Determined (v : Json) : Prop :=
  ∀ {w rest others}, Closes rest → Closes others → v.write ++ rest = w.write ++ others →
    v = w ∧ rest = others

/-- A text that starts with the items up to the bracket starts with no other ones. -/
def ItemsDetermined (items : List Json) : Prop :=
  ∀ {elements rest others}, writeItems items ++ ']' :: rest = writeItems elements ++ ']' :: others →
    items = elements ∧ rest = others

/-- A text that starts with the members up to the brace starts with no other ones. -/
def FieldsDetermined (fields : List (String × Json)) : Prop :=
  ∀ {members rest others},
    writeFields fields ++ '\x7d' :: rest = writeFields members ++ '\x7d' :: others →
      fields = members ∧ rest = others

theorem itemsDetermined_nil : ItemsDetermined [] := by
  intro elements rest others heq
  cases elements with
  | nil => exact ⟨rfl, (List.cons.inj heq).2⟩
  | cons y elements =>
    rw [writeItems_append] at heq
    exact absurd heq.symm (write_append_ne rfl)

/-- A list is determined if its first item and the rest are. -/
theorem itemsDetermined_cons (hx : x.Determined) (hitems : ItemsDetermined items) :
    ItemsDetermined (x :: items) := by
  intro elements rest others heq
  rw [writeItems_append] at heq
  cases elements with
  | nil => exact absurd heq (write_append_ne rfl)
  | cons y elements =>
    rw [writeItems_append] at heq
    obtain ⟨rfl, hbehind⟩ := hx (closes_behindItem _ _) (closes_behindItem _ _) heq
    cases items with
    | nil =>
      cases elements with
      | nil => exact ⟨rfl, (List.cons.inj hbehind).2⟩
      | cons z elements => exact absurd (List.cons.inj hbehind).1 (by decide)
    | cons z items =>
      cases elements with
      | nil => exact absurd (List.cons.inj hbehind).1 (by decide)
      | cons _ elements =>
        obtain ⟨hsame, hrest⟩ := hitems (List.cons.inj hbehind).2
        exact ⟨congrArg _ hsame, hrest⟩

theorem fieldsDetermined_nil : FieldsDetermined [] := by
  intro members rest others heq
  cases members with
  | nil => exact ⟨rfl, (List.cons.inj heq).2⟩
  | cons member members =>
    rw [writeFields_append] at heq
    exact absurd (List.cons.inj heq).1 (by decide)

/-- An object is determined if its first member and the rest are. -/
theorem fieldsDetermined_cons (hx : x.Determined) (hfields : FieldsDetermined fields) :
    FieldsDetermined ((k, x) :: fields) := by
  intro members rest others heq
  rw [writeFields_append] at heq
  cases members with
  | nil => exact absurd (List.cons.inj heq).1 (by decide)
  | cons member members =>
    rw [writeFields_append] at heq
    obtain ⟨rfl, hvalue⟩ := quote_append_inj heq
    obtain ⟨rfl, hbehind⟩ :=
      hx (closes_behindMember _ _) (closes_behindMember _ _) (List.cons.inj hvalue).2
    cases fields with
    | nil =>
      cases members with
      | nil => exact ⟨rfl, (List.cons.inj hbehind).2⟩
      | cons _ members => exact absurd (List.cons.inj hbehind).1 (by decide)
    | cons _ fields =>
      cases members with
      | nil => exact absurd (List.cons.inj hbehind).1 (by decide)
      | cons _ members =>
        obtain ⟨hsame, hrest⟩ := hfields (List.cons.inj hbehind).2
        exact ⟨congrArg _ hsame, hrest⟩

/-- A text starts with one value only. -/
theorem determined : (∀ v : Json, v.Determined) ∧
    (∀ fields : List (String × Json), FieldsDetermined fields) ∧
      ∀ items : List Json, ItemsDetermined items := by
  have hlone : ∀ v : Json, (∀ w, SameKind v w → v = w) → v.Determined := by
    intro v hsame w rest others _ _ heq
    obtain rfl := hsame w (sameKind_of_write_append heq)
    exact ⟨rfl, List.append_cancel_left heq⟩
  refine write.mutual_induct _ _ _ ?null ?true ?false ?num ?str ?arr ?obj itemsDetermined_nil
    (fun x hx => itemsDetermined_cons hx itemsDetermined_nil)
    (fun x rest _ hx hrest => itemsDetermined_cons hx hrest) fieldsDetermined_nil
    (fun k x hx => fieldsDetermined_cons hx fieldsDetermined_nil)
    (fun k x rest _ hx hrest => fieldsDetermined_cons hx hrest)
  case null =>
    refine hlone _ fun w hkind => ?_
    cases hkind
    rfl
  case true =>
    refine hlone _ fun w hkind => ?_
    cases hkind
    rfl
  case false =>
    refine hlone _ fun w hkind => ?_
    cases hkind
    rfl
  case num =>
    intro n w rest others hrest hothers heq
    cases sameKind_of_write_append heq with
    | num _ m =>
      obtain ⟨rfl, hbehind⟩ := write_number_append_inj hrest hothers heq
      exact ⟨rfl, hbehind⟩
  case str =>
    intro s w rest others _ _ heq
    cases sameKind_of_write_append heq with
    | str _ t =>
      obtain ⟨rfl, hbehind⟩ := quote_append_inj heq
      exact ⟨rfl, hbehind⟩
  case arr =>
    intro items hitems w rest others _ _ heq
    cases sameKind_of_write_append heq with
    | arr _ elements =>
      rw [write_arr_append, write_arr_append] at heq
      obtain ⟨rfl, hbehind⟩ := hitems (List.cons.inj heq).2
      exact ⟨rfl, hbehind⟩
  case obj =>
    intro fields hfields w rest others _ _ heq
    cases sameKind_of_write_append heq with
    | obj _ members =>
      rw [write_obj_append, write_obj_append] at heq
      obtain ⟨rfl, hbehind⟩ := hfields (List.cons.inj heq).2
      exact ⟨rfl, hbehind⟩

/-- No two values have one text. -/
theorem text_inj {v w : Json} (htext : v.text = w.text) : v = w := by
  have heq : v.write ++ [] = w.write ++ [] := by rw [String.ofList_inj.mp htext]
  exact (determined.1 v closes_nil closes_nil heq).1

end Json

end DocMapper
