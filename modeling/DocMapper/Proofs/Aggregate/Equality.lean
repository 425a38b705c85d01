import DocMapper.Proofs.Aggregate.Distinct
import DocMapper.Proofs.Condition.Agreement
import DocMapper.Proofs.Json.Written

/-!
# Distinct values and filters

The text that tells a value from others has a number in double precision where the value is one, and
all else as it is held. The store puts the numbers within arrays and objects in double precision too
and knows no sign of zeros. Main statement: a filter on each of the distinct values selects the
documents that it stands for exactly if no two of the values differ in nothing else.
-/

namespace DocMapper

namespace Json

/-- The value in double precision if it is a number. Numbers within it stay as they are held. -/
def topInDouble : Json → Json
  | .num n => .num (.float n.toDouble)
  | v => v

/-- Neither an array nor an object, and no zero. -/
def IsPlain : Json → Prop
  | .num n => n.toDouble.magnitude ≠ 0
  | .arr _ | .obj _ => False
  | _ => True

theorem inDoubles_topInDouble (v : Json) : v.topInDouble.inDoubles = v.inDoubles := by
  cases v <;> rfl

/-- Values that are one with their number in double precision compare equal. -/
theorem collate_eq_of_topInDouble {v w : Json} (hsame : v.topInDouble = w.topInDouble) :
    v.collate w = .eq := by
  rw [collate_eq_iff.1, ← inDoubles_topInDouble v, hsame, inDoubles_topInDouble]

theorem IsPlain.topInDouble_eq_of_collate {v w : Json} (hplain : v.IsPlain)
    (hequal : v.collate w = .eq) : v.topInDouble = w.topInDouble := by
  have hrank : v.rank = w.rank := by
    rw [← rank_inDoubles, collate_eq_iff.1 v w |>.mp hequal, rank_inDoubles]
  cases sameKind_of_rank_eq hrank with
  | null => rfl
  | bool b => rfl
  | num m n =>
    rw [collate, compare_eq_iff_unsignedZero_eq] at hequal
    have hm : m.toDouble.magnitude ≠ 0 := hplain
    rw [Double.unsignedZero, if_neg hm, Double.unsignedZero] at hequal
    split at hequal
    · rw [hequal] at hm
      exact absurd rfl hm
    · exact congrArg (num <| .float ·) hequal
  | str s t =>
    rw [collate, Std.compare_eq_iff_eq] at hequal
    rw [hequal]
  | arr items others => exact hplain.elim
  | obj fields others => exact hplain.elim

end Json

namespace Aggregate

open Json

variable {type : Option AttributeType} {attr : String} {docs : List Document} {v w : Json}

/-! ## Keys of values -/

theorem leadRank_valueKey_num (n : Number) (type : Option AttributeType) :
    leadRank (valueKey (.num n) type).toList = 3 := by
  have hkey : (valueKey (.num n) type).toList = n.toDouble.write .plain := String.toList_ofList
  obtain ⟨c, chars, hchars⟩ := List.exists_cons_of_ne_nil (n.toDouble.write_ne_nil .plain)
  have hc : c ∈ n.toDouble.write .plain := hchars ▸ List.mem_cons_self
  rw [hkey, hchars, leadRank_of_isNumberChar (Double.isNumberChar_of_mem_write hc)]

/-- Outside dates what is no number has its JSON text. -/
theorem valueKey_of_not_num (hdate : type ≠ some .date) (hv : ∀ n, v ≠ .num n) :
    valueKey v type = v.text := by
  cases v with
  | num n => exact absurd rfl (hv n)
  | str s => exact valueKey_of_no_instant (if_neg hdate)
  | _ => rfl

theorem valueKey_num_ne (hdate : type ≠ some .date) (hw : ∀ n, w ≠ .num n) (n : Number) :
    valueKey (.num n) type ≠ valueKey w type := by
  intro heq
  have hlead := leadRank_valueKey_num n type
  have hrank := leadRank_write w []
  rw [heq, valueKey_of_not_num hdate hw, text, String.toList_ofList] at hlead
  rw [List.append_nil, hlead] at hrank
  cases w with
  | num m => exact hw m rfl
  | bool b => cases b <;> cases hrank
  | _ => cases hrank

/-- Outside dates values have one key where they are one value, or numbers of one double. -/
theorem valueKey_eq_iff_topInDouble (hdate : type ≠ some .date) :
    valueKey v type = valueKey w type ↔ v.topInDouble = w.topInDouble := by
  have htop : ∀ {u : Json}, (∀ n, u ≠ .num n) → u.topInDouble = u := by
    intro u hu
    cases u with
    | num n => exact absurd rfl (hu n)
    | _ => rfl
  by_cases hv : ∃ m, v = .num m <;> by_cases hw : ∃ n, w = .num n
  · obtain ⟨m, rfl⟩ := hv
    obtain ⟨n, rfl⟩ := hw
    constructor
    · intro heq
      have hdouble : m.toDouble = n.toDouble := Double.write_inj .plain (String.ofList_inj.mp heq)
      exact congrArg (num <| .float ·) hdouble
    · intro hsame
      have hdouble : m.toDouble = n.toDouble := by simpa [topInDouble] using hsame
      exact congrArg (Quantity.finite · |>.text) hdouble
  · obtain ⟨m, rfl⟩ := hv
    have hw := not_exists.mp hw
    rw [htop hw]
    exact iff_of_false (valueKey_num_ne hdate hw m) fun hsame => hw _ hsame.symm
  · obtain ⟨n, rfl⟩ := hw
    have hv := not_exists.mp hv
    rw [htop hv]
    exact iff_of_false (valueKey_num_ne hdate hv n).symm (hv _)
  · have hv := not_exists.mp hv
    have hw := not_exists.mp hw
    rw [htop hv, htop hw, valueKey_of_not_num hdate hv, valueKey_of_not_num hdate hw]
    exact ⟨text_inj, congrArg text⟩

/-! ## Filters -/

/-- A filter on a value selects the documents whose value compares equal to it. -/
theorem exists_selector_equal [PatternEngine] (hattr : IsAttribute attr) (u : Json) :
    ∃ selector, (Condition.leaf attr .equal u).compile = .ok selector ∧ ∀ doc,
      selector.matches? doc = .ok ((Dict.get? doc attr).any fun v => v.collate u == .eq) := by
  refine ⟨.equals attr u, rfl, fun doc => ?_⟩
  rw [Selector.matches?_equals (Selector.role_eq_attribute hattr.2),
    Condition.at?_of_isAttribute hattr]

/-- It selects those whose value has the same key exactly if what compares equal to the value is one
    value or a number of one double. -/
theorem selects_key_iff [PatternEngine] (hattr : IsAttribute attr) (hdate : type ≠ some .date)
    (docs : List Document) (u : Json) :
    (∃ selector, (Condition.leaf attr .equal u).compile = .ok selector ∧ ∀ doc ∈ docs,
        selector.matches? doc =
          .ok ((Dict.get? doc attr).any fun v => valueKey v type = valueKey u type)) ↔
      ∀ v ∈ valuesAt attr docs, v.collate u = .eq → v.topInDouble = u.topInDouble := by
  obtain ⟨selector, hcompile, hselects⟩ := exists_selector_equal hattr u
  constructor
  · rintro ⟨other, hother, hmatches⟩ v hv hequal
    cases hcompile.symm.trans hother
    obtain ⟨doc, hdoc, hget⟩ := mem_valuesAt_iff.mp hv
    have hheld := hmatches doc hdoc
    rw [hselects, hget] at hheld
    simp only [Option.any_some, hequal, beq_self_eq_true, Except.ok.injEq] at hheld
    exact (valueKey_eq_iff_topInDouble hdate).mp (of_decide_eq_true hheld.symm)
  · intro hagree
    refine ⟨selector, hcompile, fun doc hdoc => ?_⟩
    rw [hselects]
    cases hget : Dict.get? doc attr with
    | none => rfl
    | some v =>
      have hv : v ∈ valuesAt attr docs := mem_valuesAt_iff.mpr ⟨doc, hdoc, hget⟩
      rw [Option.any_some, Option.any_some]
      refine congrArg _ (Bool.eq_iff_iff.mpr ?_)
      rw [beq_iff_eq, decide_eq_true_eq, valueKey_eq_iff_topInDouble hdate]
      exact ⟨hagree v hv, collate_eq_of_topInDouble⟩

/-- Outside dates, values that are one distinct value are equal to a filter, and the converse holds
    for a value that is neither an array nor an object nor a zero. A filter on each of the distinct
    values selects the documents that the value stands for, and no others, exactly if those values
    of the documents that are equal to a filter are one value or numbers of one double. -/
theorem distinct_agrees_with_filters_iff [PatternEngine] (schema : Schema)
    (hattr : IsAttribute attr) (hdate : schema.attributeType? attr ≠ some .date) :
    (∀ v w, valueKey v (schema.attributeType? attr) = valueKey w (schema.attributeType? attr) →
        v.collate w = .eq) ∧
      (∀ v w : Json, v.IsPlain →
        (valueKey v (schema.attributeType? attr) = valueKey w (schema.attributeType? attr) ↔
          v.collate w = .eq)) ∧
      ∀ docs : List Document, ∃ distinct,
        compute schema ⟨.distinct, some attr⟩ docs = .ok (.values distinct) ∧
          ((∀ u ∈ distinct, ∃ selector, (Condition.leaf attr .equal u).compile = .ok selector ∧
              ∀ doc ∈ docs, selector.matches? doc = .ok ((Dict.get? doc attr).any fun v =>
                valueKey v (schema.attributeType? attr) =
                  valueKey u (schema.attributeType? attr))) ↔
            ∀ v ∈ valuesAt attr docs, ∀ w ∈ valuesAt attr docs,
              v.collate w = .eq → v.topInDouble = w.topInDouble) := by
  have hcompute : ∀ docs, compute schema ⟨.distinct, some attr⟩ docs = .ok (.values
      (firstOfEach (valueKey · (schema.attributeType? attr)) [] (valuesAt attr docs))) :=
    fun _ => rfl
  generalize schema.attributeType? attr = type at *
  have hkey : ∀ {v w : Json}, valueKey v type = valueKey w type ↔ v.topInDouble = w.topInDouble :=
    valueKey_eq_iff_topInDouble hdate
  refine ⟨fun v w heq => collate_eq_of_topInDouble (hkey.mp heq), fun v w hplain => ?_,
    fun docs => ⟨_, hcompute docs, ?_, ?_⟩⟩
  · exact ⟨fun heq => collate_eq_of_topInDouble (hkey.mp heq),
      fun hequal => hkey.mpr (hplain.topInDouble_eq_of_collate hequal)⟩
  · intro hfilters v hv w hw hequal
    obtain ⟨u, hu, huw⟩ : ∃ u ∈ firstOfEach (valueKey · type) [] (valuesAt attr docs),
        valueKey u type = valueKey w type := exists_mem_firstOfEach hw List.not_mem_nil
    have hwu : w.collate u = .eq := collate_eq_of_topInDouble (hkey.mp huw.symm)
    have hvu := (selects_key_iff hattr hdate docs u).mp (hfilters u hu) v hv
      (Std.TransCmp.eq_trans hequal hwu)
    exact hvu.trans (hkey.mp huw)
  · intro hagree u hu
    exact (selects_key_iff hattr hdate docs u).mpr fun v hv =>
      hagree v hv u (mem_of_mem_firstOfEach hu).1

/-! ## Sizes of tools -/

def toolSchema : Schema := { table := "tools", primaryKey := ⟨"id", .text, none⟩ }

/-- The number one as an integer and in double precision. -/
def oneWhole : Json := .num (.int (.ofUInt64 1))

def oneDouble : Json := .num (.float (Integer.ofUInt64 1).toDouble)

/-- Tools of one size in three notations, one with two sizes and one without. -/
def mixedTools : List Document :=
  [[("size", oneWhole)], [("size", oneDouble)], [("size", .str "1")],
    [("size", .arr [oneWhole, oneDouble])], []]

/-- Two tools with a list of sizes each. -/
def listedTools : List Document := [[("size", .arr [oneWhole])], [("size", .arr [oneDouble])]]

/-- No two sizes of the first tools differ in how numbers within them are held. -/
theorem distinct_agrees_with_filters_mixedTools :
    IsAttribute "size" ∧ toolSchema.attributeType? "size" ≠ some .date ∧ ∃ distinct,
      compute toolSchema ⟨.distinct, some "size"⟩ mixedTools = .ok (.values distinct) ∧
        ∀ u ∈ distinct, ∃ selector, (Condition.leaf "size" .equal u).compile = .ok selector ∧
          ∀ doc ∈ mixedTools, selector.matches? doc = .ok ((Dict.get? doc "size").any fun v =>
            valueKey v (toolSchema.attributeType? "size") =
              valueKey u (toolSchema.attributeType? "size")) := by
  have hattr : IsAttribute "size" := by decide
  have hdate : toolSchema.attributeType? "size" ≠ some .date := by decide
  obtain ⟨distinct, hcompute, hfilters⟩ :=
    (distinct_agrees_with_filters_iff toolSchema hattr hdate).2.2 mixedTools
  exact ⟨hattr, hdate, distinct, hcompute, hfilters.mpr (by decide +kernel)⟩

/-- Lists of one size are equal to a filter and yet two distinct values where the size is held in
    two ways, so a filter on the first of them selects the tool of the second too. -/
theorem distinct_lists_equal_to_filter :
    (Json.arr [oneWhole]).collate (.arr [oneDouble]) = .eq ∧
      valueKey (.arr [oneWhole]) none ≠ valueKey (.arr [oneDouble]) none ∧
      compute toolSchema ⟨.distinct, some "size"⟩ listedTools =
        .ok (.values [.arr [oneWhole], .arr [oneDouble]]) ∧
      ∃ selector, (Condition.leaf "size" .equal (.arr [oneWhole])).compile = .ok selector ∧
        ∀ doc ∈ listedTools, selector.matches? doc = .ok true := by
  have hequal : (Json.arr [oneWhole]).collate (.arr [oneDouble]) = .eq :=
    (collate_eq_iff.1 _ _).mpr rfl
  have hapart : valueKey (.arr [oneWhole]) none ≠ valueKey (.arr [oneDouble]) none := by
    rw [Ne, valueKey_eq_iff_topInDouble (by simp)]
    simp [topInDouble, oneWhole, oneDouble]
  have hcompute : compute toolSchema ⟨.distinct, some "size"⟩ listedTools =
      .ok (.values (firstOfEach (valueKey · none) [] [.arr [oneWhole], .arr [oneDouble]])) := rfl
  have hdistinct : firstOfEach (valueKey · none) [] [Json.arr [oneWhole], .arr [oneDouble]] =
      [.arr [oneWhole], .arr [oneDouble]] := by
    simp [firstOfEach, hapart.symm]
  refine ⟨hequal, hapart, by rw [hcompute, hdistinct], ?_⟩
  have hsize : IsAttribute "size" := by decide
  obtain ⟨selector, hcompile, hselects⟩ := exists_selector_equal hsize (.arr [oneWhole])
  refine ⟨selector, hcompile, fun doc hdoc => ?_⟩
  rw [hselects]
  simp only [listedTools, List.mem_cons, List.not_mem_nil, or_false] at hdoc
  rcases hdoc with rfl | rfl
  · simp [Dict.get?, (collate_eq_iff.1 (Json.arr [oneWhole]) _).mpr rfl]
  · simp [Dict.get?, (collate_eq_iff.1 (Json.arr [oneDouble]) (.arr [oneWhole])).mpr rfl]

end Aggregate

end DocMapper
