import DocMapper.Aggregate.Compute
import DocMapper.Proofs.Json.Written
import DocMapper.Proofs.Number.ReadBack
import DocMapper.Proofs.Text.Parts
import Mathlib.Algebra.Order.Field.Rat
import Mathlib.Algebra.Order.Ring.Cast
import Mathlib.Data.List.Basic
import Mathlib.Data.List.Induction

/-!
# Least and greatest values

The least and the greatest value of an attribute are found by one pass over the documents, which
keeps the best number so far. Main statement: the answer is the first value with the best number,
and documents without a number count for nothing wherever they stand. The number of a value is the
one that it is, that it writes, or, for a date, that of its milliseconds.
-/

namespace DocMapper

/-! ## Numbers by value -/

namespace Double

variable {x y : Double}

/-- The exact value. -/
def value (x : Double) : ℚ := x.units / one

theorem value_lt_iff : x.value < y.value ↔ x.units < y.units := by
  have hone : (0 : ℚ) < one := Nat.cast_pos.mpr (by decide +kernel)
  rw [value, value, div_lt_div_iff_of_pos_right hone, Int.cast_lt]

theorem compare_eq_lt_iff : x.compare y = .lt ↔ x.value < y.value := by
  rw [compare, Std.compare_eq_lt, value_lt_iff]

theorem compare_eq_gt_iff : x.compare y = .gt ↔ y.value < x.value := by
  rw [compare, Std.compare_eq_gt, value_lt_iff]

end Double

namespace Integer

variable {m n : Integer}

/-- An integer of at most 53 bits is exact in double precision. -/
theorem Short.value_toDouble (hshort : n.Short) : n.toDouble.value = n.val := by
  have hone : (Double.one : ℚ) ≠ 0 := Nat.cast_ne_zero.mpr (Nat.ne_of_gt Double.one_pos)
  have hunits : n.toDouble.units = n.val * Double.one := by
    have hexact : Double.nearest (n.val.natAbs * Double.one) 1 = n.val.natAbs * Double.one :=
      Double.nearest_mul_one hshort
    by_cases hneg : n.val < 0
    · rw [units_toDouble_of_neg hneg, hexact, Nat.cast_mul, Int.ofNat_natAbs_of_nonpos hneg.le,
        neg_mul, neg_neg]
    · rw [units_toDouble_of_nonneg hneg, hexact, Nat.cast_mul, Int.natAbs_of_nonneg (not_lt.mp hneg)]
  rw [Double.value, hunits, Int.cast_mul, Int.cast_natCast, mul_div_cancel_right₀ _ hone]

theorem value_toDouble_mono (hle : m.val ≤ n.val) : m.toDouble.value ≤ n.toDouble.value := by
  rw [← not_lt, Double.value_lt_iff, not_lt]
  exact units_toDouble_mono hle

end Integer

namespace Aggregate

/-! ## One pass -/

section Pass

variable {rank : Double → ℚ} {better : Double → Double → Bool}
  {entries : List (Double × Json)} {best : Double × Json}

/-- The better one of an entry and the best so far, which stays where they are equal. -/
def pick (better : Double → Double → Bool) (best : Option (Double × Json))
    (entry : Double × Json) : Option (Double × Json) :=
  match best with
  | none => some entry
  | some kept => if better entry.1 kept.1 then some entry else some kept

/-- No entry ranks before this one, and those in front of it rank behind. -/
def FirstRanked (rank : Double → ℚ) (entries : List (Double × Json))
    (best : Double × Json) : Prop :=
  ∃ before after, entries = before ++ best :: after ∧
    (∀ entry ∈ entries, rank best.1 ≤ rank entry.1) ∧ ∀ entry ∈ before, rank best.1 < rank entry.1

/-- One more entry takes the place of the best one if it ranks before it, and else comes behind. -/
theorem FirstRanked.pick (hbetter : ∀ x y, better x y = true ↔ rank x < rank y)
    (hfirst : FirstRanked rank entries best) (entry : Double × Json) :
    ∃ next, Aggregate.pick better (some best) entry = some next ∧
      FirstRanked rank (entries ++ [entry]) next := by
  obtain ⟨before, after, rfl, hleast, hbefore⟩ := hfirst
  by_cases hless : rank entry.1 < rank best.1
  · have hpicked : Aggregate.pick better (some best) entry = some entry :=
      if_pos ((hbetter _ _).mpr hless)
    have hlower : ∀ other ∈ before ++ best :: after, rank entry.1 < rank other.1 :=
      fun other hmem => hless.trans_le (hleast other hmem)
    refine ⟨entry, hpicked, before ++ best :: after, [], rfl, ?_, hlower⟩
    refine List.forall_mem_append.mpr ⟨fun other hmem => (hlower other hmem).le, ?_⟩
    exact List.forall_mem_singleton.mpr le_rfl
  · have hpicked : Aggregate.pick better (some best) entry = some best :=
      if_neg (mt (hbetter _ _).mp hless)
    refine ⟨best, hpicked, before, after ++ [entry], by simp, ?_, hbefore⟩
    exact List.forall_mem_append.mpr ⟨hleast, List.forall_mem_singleton.mpr (not_lt.mp hless)⟩

/-- A pass over entries ends with the first of the best, if there is any. -/
theorem foldl_pick (hbetter : ∀ x y, better x y = true ↔ rank x < rank y) (hne : entries ≠ []) :
    ∃ best, entries.foldl (pick better) none = some best ∧ FirstRanked rank entries best := by
  induction entries using List.reverseRecOn with
  | nil => exact absurd rfl hne
  | append_singleton front entry ih =>
    rw [List.foldl_append, List.foldl_cons, List.foldl_nil]
    by_cases hfront : front = []
    · subst hfront
      refine ⟨entry, rfl, [], [], rfl, ?_, List.forall_mem_nil _⟩
      exact List.forall_mem_singleton.mpr le_rfl
    · obtain ⟨best, hbest, hfirst⟩ := ih hfront
      rw [hbest]
      exact hfirst.pick hbetter entry

end Pass

/-! ## Values with a number -/

variable {type : Option AttributeType} {attr : String} {docs others : List Document} {v : Json}
  {x : Double}

/-- The number at an attribute of a document. -/
def numberAt (attr : String) (type : Option AttributeType) (doc : Document) : Option Double :=
  (Dict.get? doc attr).bind (numeric · type)

/-- The number at an attribute with the value that it comes from. -/
def entryAt (attr : String) (type : Option AttributeType) (doc : Document) :
    Option (Double × Json) :=
  (Dict.get? doc attr).bind fun v => (numeric v type).map (·, v)

/-- A document has an entry if it has a number at the attribute. -/
theorem entryAt_eq_some_iff {doc : Document} : entryAt attr type doc = some (x, v) ↔
    Dict.get? doc attr = some v ∧ numeric v type = some x := by
  simp only [entryAt, Option.bind_eq_some_iff, Option.map_eq_some_iff, Prod.mk.injEq]
  constructor
  · rintro ⟨v, hv, x, hx, rfl, rfl⟩
    exact ⟨hv, hx⟩
  · rintro ⟨hv, hx⟩
    exact ⟨v, hv, x, hx, rfl, rfl⟩

theorem map_entryAt (attr : String) (type : Option AttributeType) (doc : Document) :
    (entryAt attr type doc).map Prod.fst = numberAt attr type doc := by
  rw [entryAt, numberAt]
  cases Dict.get? doc attr with
  | none => rfl
  | some v => cases h : numeric v type <;> simp [h]

theorem isBlank_of_isNumberChar {c : Char} (hc : Json.Reader.isNumberChar c = true) :
    Text.isBlank c = false := by
  simp only [Json.Reader.isNumberChar, Bool.or_eq_true, decide_eq_true_eq] at hc
  rcases hc with ((((hdigit | rfl) | rfl) | rfl) | rfl) | rfl
  · rw [Char.isDigit, Bool.and_eq_true, decide_eq_true_eq, decide_eq_true_eq] at hdigit
    have hlow : 48 ≤ c.toNat := UInt32.le_iff_toNat_le.mp hdigit.1
    have hhigh : c.toNat ≤ 57 := UInt32.le_iff_toNat_le.mp hdigit.2
    simp only [Text.isBlank, Bool.or_eq_false_iff, Bool.and_eq_false_iff, decide_eq_false_iff_not,
      beq_eq_false_iff_ne]
    omega
  all_goals rfl

/-- A number is read from its text, with blanks around it or without. -/
theorem finite?_of_written {layout : DecimalLayout} {front back : List Char} {s : String}
    (hs : s.toList = front ++ x.write layout ++ back)
    (hfront : ∀ c ∈ front, Text.isBlank c = true) (hback : ∀ c ∈ back, Text.isBlank c = true) :
    Reading.finite? s = some x := by
  have hwritten : ∀ c ∈ x.write layout, Text.isBlank c = false := fun c hc =>
    isBlank_of_isNumberChar (Double.isNumberChar_of_mem_write hc)
  rw [Reading.finite?, hs, Text.trim_around hfront hwritten hback, Double.decimal?_write]
  rfl

/-- What numbers the values of an attribute of this type stand for. A number in double precision
    stands for itself, and an integer for one that keeps its order among the integers, and that is
    the integer itself if this has at most 53 bits. A text stands for the number that it writes, in
    whatever layout and with blanks around it, unless it is read as a date; then it stands for the
    milliseconds of the instant. Nothing else stands for a number. -/
structure StandsForNumbers (type : Option AttributeType) : Prop where
  float : ∀ x, numeric (.num (.float x)) type = some x
  integer : ∀ n : Integer, ∃ x, numeric (.num (.int n)) type = some x ∧
    (n.Short → x.value = n.val) ∧
      ∀ m y, numeric (.num (.int m)) type = some y → n.val ≤ m.val → x.value ≤ y.value
  text : ∀ (layout : DecimalLayout) (x : Double) (front back : List Char) (s : String),
    s.toList = front ++ x.write layout ++ back → (∀ c ∈ front, Text.isBlank c = true) →
      (∀ c ∈ back, Text.isBlank c = true) → (type = some .date → Instant.ofText? s = none) →
        numeric (.str s) type = some x
  date : type = some .date → ∀ (s : String) (millis : Integer),
    Instant.ofText? s = some millis.val → numeric (.str s) type = numeric (.num (.int millis)) type
  num_or_str : ∀ v x, numeric v type = some x → (∃ n, v = .num n) ∨ ∃ s, v = .str s

/-- Numbers are read as the numbers that they stand for. -/
theorem standsForNumbers (type : Option AttributeType) : StandsForNumbers type where
  float _ := rfl
  integer n := by
    refine ⟨n.toDouble, rfl, Integer.Short.value_toDouble, ?_⟩
    rintro m _ ⟨⟩ hle
    exact Integer.value_toDouble_mono hle
  text layout x front back s hs hfront hback hdate := by
    have hread := finite?_of_written hs hfront hback
    by_cases htype : type = some .date
    · simp [numeric, htype, hdate htype, hread]
    · simp [numeric, htype, hread]
  date htype s millis hinstant := by
    simp [numeric, htype, hinstant, Number.toDouble]
  num_or_str v x hnumeric := by
    cases v with
    | num n => exact .inl ⟨n, rfl⟩
    | str s => exact .inr ⟨s, rfl⟩
    | _ => cases hnumeric

/-- The pass over the values that are there is a pass over the entries of the documents. -/
theorem extreme_eq_foldl_pick (better : Double → Double → Bool) (attr : String)
    (type : Option AttributeType) (docs : List Document) :
    extreme better type ((valuesAt attr docs).filter fun v => !v.isNull) =
      ((docs.filterMap (entryAt attr type)).foldl (pick better) none).map Prod.snd := by
  have hentries : docs.filterMap (entryAt attr type) =
      ((valuesAt attr docs).filter fun v => !v.isNull).filterMap
        fun v => (numeric v type).map (·, v) := by
    rw [List.filterMap_filter, valuesAt, List.filterMap_filterMap]
    refine List.filterMap_congr fun doc _ => congrArg _ (funext fun v => ?_)
    cases v <;> rfl
  rw [hentries, List.foldl_filterMap, extreme]
  refine congrArg (Option.map Prod.snd) (congrArg (fun step => List.foldl step none _) ?_)
  funext best v
  cases hnumber : numeric v type with
  | none => rfl
  | some x => cases best <;> rfl

/-- The answer is the value of the first document with the best number: no document has a number
    that is better, and those in front of it have none or one that is worse. There is no answer
    where no document has a number. -/
structure IsFirstBest (below : ℚ → ℚ → Prop) (attr : String) (type : Option AttributeType)
    (docs : List Document) (answer : Option Json) : Prop where
  best : ∀ v, answer = some v → ∃ before doc after x, docs = before ++ doc :: after ∧
    Dict.get? doc attr = some v ∧ numeric v type = some x ∧
    (∀ other ∈ docs, ∀ y, numberAt attr type other = some y → ¬below y.value x.value) ∧
    ∀ earlier ∈ before, ∀ y, numberAt attr type earlier = some y → below x.value y.value
  eq_none_iff : answer = none ↔ ∀ doc ∈ docs, numberAt attr type doc = none

/-- An extreme is the first of the best entries, whichever way is better. -/
theorem isFirstBest_extreme {rank : Double → ℚ} {better : Double → Double → Bool}
    {below : ℚ → ℚ → Prop} (hbetter : ∀ x y, better x y = true ↔ rank x < rank y)
    (hbelow : ∀ x y : Double, below x.value y.value ↔ rank x < rank y) (attr : String)
    (type : Option AttributeType) (docs : List Document) :
    IsFirstBest below attr type docs
      (extreme better type ((valuesAt attr docs).filter fun v => !v.isNull)) := by
  rw [extreme_eq_foldl_pick]
  have hentry : ∀ doc ∈ docs, ∀ y, numberAt attr type doc = some y →
      ∃ entry ∈ docs.filterMap (entryAt attr type), entry.1 = y := by
    intro doc hdoc y hy
    rw [← map_entryAt, Option.map_eq_some_iff] at hy
    obtain ⟨entry, hentry, rfl⟩ := hy
    exact ⟨entry, List.mem_filterMap.mpr ⟨doc, hdoc, hentry⟩, rfl⟩
  by_cases hne : docs.filterMap (entryAt attr type) = []
  · rw [hne]
    refine ⟨fun v hv => (by cases hv), iff_of_true rfl fun doc hdoc => ?_⟩
    rw [← map_entryAt, List.filterMap_eq_nil_iff.mp hne doc hdoc, Option.map_none]
  · obtain ⟨⟨x, v⟩, hpass, before, after, hsplit, hleast, hbefore⟩ := foldl_pick hbetter hne
    rw [hpass]
    refine ⟨?_, ?_⟩
    · rintro _ ⟨⟩
      obtain ⟨front, rest, rfl, hfront, hrest⟩ := List.filterMap_eq_append_iff.mp hsplit
      obtain ⟨skipped, doc, after', rfl, hskipped, hdoc, _⟩ := List.filterMap_eq_cons_iff.mp hrest
      obtain ⟨hget, hnumeric⟩ := entryAt_eq_some_iff.mp hdoc
      refine ⟨front ++ skipped, doc, after', x, by simp, hget, hnumeric, ?_, ?_⟩
      · intro other hmem y hy
        obtain ⟨entry, hentry, rfl⟩ := hentry other hmem y hy
        rw [hbelow, not_lt]
        exact hleast entry hentry
      · intro earlier hmem y hy
        rw [hbelow]
        rw [← map_entryAt, Option.map_eq_some_iff] at hy
        obtain ⟨entry, hown, rfl⟩ := hy
        rcases List.mem_append.mp hmem with hin | hin
        · exact hbefore entry (hfront ▸ List.mem_filterMap.mpr ⟨earlier, hin, hown⟩)
        · rw [hskipped earlier hin] at hown
          cases hown
    · refine iff_of_false (fun hnone => by cases hnone) fun hall => hne ?_
      refine List.filterMap_eq_nil_iff.mpr fun doc hdoc => ?_
      rw [← Option.map_eq_none_iff, map_entryAt]
      exact hall doc hdoc

/-- Documents without a number can be put in and left out. -/
theorem extreme_congr (better : Double → Double → Bool)
    (hsame : others.filter (fun doc => (numberAt attr type doc).isSome) =
      docs.filter fun doc => (numberAt attr type doc).isSome) :
    extreme better type ((valuesAt attr others).filter fun v => !v.isNull) =
      extreme better type ((valuesAt attr docs).filter fun v => !v.isNull) := by
  have hentries : ∀ l : List Document, l.filterMap (entryAt attr type) =
      (l.filter fun doc => (numberAt attr type doc).isSome).filterMap (entryAt attr type) := by
    intro l
    rw [List.filterMap_filter]
    refine List.filterMap_congr fun doc _ => ?_
    rw [← map_entryAt, Option.isSome_map]
    cases entryAt attr type doc <;> rfl
  rw [extreme_eq_foldl_pick, extreme_eq_foldl_pick, hentries others, hsame, ← hentries docs]

theorem compute_min (schema : Schema) (attr : String) (docs : List Document) :
    compute schema ⟨.min, some attr⟩ docs =
      .ok (.value (extreme (fun x y => x.compare y == .lt) (schema.attributeType? attr)
        ((valuesAt attr docs).filter fun v => !v.isNull))) := rfl

theorem compute_max (schema : Schema) (attr : String) (docs : List Document) :
    compute schema ⟨.max, some attr⟩ docs =
      .ok (.value (extreme (fun x y => x.compare y == .gt) (schema.attributeType? attr)
        ((valuesAt attr docs).filter fun v => !v.isNull))) := rfl

/-- The least value of an attribute is the first one with the least number, and the greatest the
    first one with the greatest. A number stands for itself, and a text for the number or the instant
    that it writes; documents whose value stands for none do not affect the answers, wherever they
    are. -/
theorem extremes_first_best (schema : Schema) (attr : String) (docs : List Document) :
    ∃ least greatest, compute schema ⟨.min, some attr⟩ docs = .ok (.value least) ∧
      compute schema ⟨.max, some attr⟩ docs = .ok (.value greatest) ∧
      IsFirstBest (· < ·) attr (schema.attributeType? attr) docs least ∧
      IsFirstBest (· > ·) attr (schema.attributeType? attr) docs greatest ∧
      StandsForNumbers (schema.attributeType? attr) ∧
      ∀ others, others.filter
          (fun doc => (numberAt attr (schema.attributeType? attr) doc).isSome) =
            docs.filter (fun doc => (numberAt attr (schema.attributeType? attr) doc).isSome) →
        compute schema ⟨.min, some attr⟩ others = .ok (.value least) ∧
          compute schema ⟨.max, some attr⟩ others = .ok (.value greatest) := by
  have hless : ∀ x y : Double, (x.compare y == .lt) = true ↔ x.value < y.value := fun x y => by
    rw [beq_iff_eq, Double.compare_eq_lt_iff]
  have hgreater : ∀ x y : Double, (x.compare y == .gt) = true ↔ -x.value < -y.value :=
    fun x y => by rw [beq_iff_eq, Double.compare_eq_gt_iff, neg_lt_neg_iff]
  have hbehind : ∀ x y : Double, x.value > y.value ↔ -x.value < -y.value := fun x y => by
    rw [neg_lt_neg_iff, gt_iff_lt]
  have hleast : IsFirstBest (· < ·) attr (schema.attributeType? attr) docs _ :=
    isFirstBest_extreme hless (fun _ _ => Iff.rfl) attr _ docs
  have hgreatest : IsFirstBest (· > ·) attr (schema.attributeType? attr) docs _ :=
    isFirstBest_extreme hgreater hbehind attr _ docs
  refine ⟨_, _, compute_min schema attr docs, compute_max schema attr docs, hleast, hgreatest,
    standsForNumbers _, fun others hsame => ?_⟩
  rw [compute_min, compute_max, extreme_congr _ hsame, extreme_congr _ hsame]
  exact ⟨rfl, rfl⟩

end Aggregate

end DocMapper
