import DocMapper.Proofs.Aggregate.Classes
import DocMapper.Proofs.Condition.Absence
import DocMapper.Proofs.Condition.Agreement

/-!
# Counts and filters of one attribute

A filter takes a name with dots for a path into nested objects; a count takes every name for one of
the document itself. Main statement: a count is that of the documents which a filter finds with a
value if as many of them have a value at the path only as have one under the name only, and this is
so for all documents exactly if the name has no dot.
-/

namespace DocMapper

/-! ## Documents with a value -/

namespace Document

open Aggregate

variable {doc : Document} {attr : String}

instance (doc : Document) (attr : String) : Decidable (doc.HasValue attr) :=
  decidable_of_iff _ hasValue_iff.symm

theorem keyAt_ne_null_iff :
    keyAt attr doc ≠ .null ↔ ((Dict.get? doc attr).any fun v => !v.isNull) = true := by
  rw [keyAt, Ne, ← isNull_eq_true_iff]
  cases Dict.get? doc attr with
  | none => simp [Json.isNull]
  | some v => simp

/-- Without a dot in the name a filter looks where a count does. -/
theorem hasValue_iff_of_isAttribute (hattr : IsAttribute attr) :
    doc.HasValue attr ↔ keyAt attr doc ≠ .null := by
  rw [hasValue_iff, keyAt_ne_null_iff, Condition.at?_of_isAttribute hattr]

/-- A document whose only name has a dot in it has nothing at the path of that name. -/
theorem at?_singleton_of_dotted (hdot : '.' ∈ attr.toList) (v : Json) :
    at? [(attr, v)] attr = none := by
  obtain ⟨first, second, others, hpieces, hfirst⟩ := Text.pieces_of_mem hdot
  have hne : attr ≠ String.ofList first := by
    rintro rfl
    rw [String.toList_ofList] at hdot
    exact hfirst hdot
  rw [at?, Text.split, hpieces]
  simp [follow?, Dict.get?, hne]

end Document

/-! ## Documents that are found -/

namespace Selector

variable {attr : String}

/-- The documents that a selector matches. -/
def picks [PatternEngine] (s : Selector) (docs : List Document) : List Document :=
  docs.filter fun doc => (s.matches? doc).toOption = some true

/-- A bound is answered for every document, by whether it has a value. -/
theorem matches?_bound [PatternEngine] (hattr : Text.startsWith "$" attr = false) (doc : Document) :
    (bound attr).matches? doc = .ok (decide (doc.HasValue attr)) := by
  have hvalue : decide (doc.HasValue attr) = (doc.at? attr).any fun v => !v.isNull := by
    rw [Bool.eq_iff_iff, decide_eq_true_eq, Document.hasValue_iff]
  rw [hvalue, matches?, bound, eval, evalClause_bound hattr]
  cases (doc.at? attr).any fun v => !v.isNull <;> rfl

theorem picks_bound [PatternEngine] (hattr : Text.startsWith "$" attr = false)
    (docs : List Document) :
    (bound attr).picks docs = docs.filter fun doc => doc.HasValue attr := by
  refine List.filter_congr fun doc _ => ?_
  rw [matches?_bound hattr]
  simp [Except.toOption]

end Selector

namespace Aggregate

open Selector

variable {attr : String} {docs : List Document}

theorem length_present (attr : String) (docs : List Document) :
    (present attr docs).length = docs.countP fun doc => keyAt attr doc ≠ .null := by
  rw [present_eq, ← List.countP_eq_length_filter, List.countP_map]
  refine List.countP_congr fun doc _ => ?_
  simp [← isNull_eq_true_iff]

section Counting

variable {α : Type} (p q : α → Prop) [DecidablePred p] [DecidablePred q] (l : List α)

theorem countP_split :
    l.countP p = (l.countP fun x => p x ∧ q x) + l.countP fun x => p x ∧ ¬q x := by
  rw [List.countP_eq_countP_filter_add l (p ·) (q ·), List.countP_filter, List.countP_filter]
  simp only [Bool.decide_and, decide_not]

/-- Two properties hold equally often where each holds as often without the other as that does
    without it. -/
theorem countP_eq_countP_iff : l.countP p = l.countP q ↔
    (l.countP fun x => p x ∧ ¬q x) = l.countP fun x => q x ∧ ¬p x := by
  have hboth : (l.countP fun x => p x ∧ q x) = l.countP fun x => q x ∧ p x := by
    simp only [and_comm]
  rw [countP_split p q, countP_split q p, hboth, Nat.add_left_cancel_iff]

end Counting

/-- The count of an attribute over the documents that a selector picks takes in all of them exactly
    if each has a value under the name. -/
theorem length_present_picks_iff [PatternEngine] (hattr : Text.startsWith "$" attr = false) :
    (present attr ((bound attr).picks docs)).length = ((bound attr).picks docs).length ↔
      ∀ doc ∈ docs, doc.HasValue attr → keyAt attr doc ≠ .null := by
  rw [length_present_eq_iff, picks_bound hattr]
  simp only [List.mem_filter, decide_eq_true_eq, and_imp]

/-- A name with a dot is counted in a document that a filter does not find. -/
theorem length_present_ne_of_dotted [PatternEngine] (hattr : Text.startsWith "$" attr = false)
    (hdot : '.' ∈ attr.toList) :
    (present attr [[(attr, .bool true)]]).length ≠
      ((bound attr).picks [[(attr, .bool true)]]).length := by
  have hnone : ¬Document.HasValue [(attr, .bool true)] attr := by
    rw [Document.hasValue_iff, Document.at?_singleton_of_dotted hdot]
    exact Bool.false_ne_true
  have hcounted : present attr [[(attr, .bool true)]] = [.bool true] := by
    simp [present, valuesAt, Dict.get?, Json.isNull]
  rw [hcounted, picks_bound hattr]
  simp [hnone]

/-- Whatever the name, a filter for a value other than `null` is answered for every document. The
    count of the attribute is the number of documents which the filter finds exactly if as many of
    them have a value at the path only as have one under the name only; the count over the documents
    which it finds is their number exactly if all of these have a value under the name too. In all
    lists of documents the two numbers are one exactly if the name has no dot. -/
theorem count_agrees_with_filter_iff [PatternEngine] (schema : Schema)
    (hattr : Text.startsWith "$" attr = false) :
    (∀ doc, (bound attr).matches? doc = .ok (decide (doc.HasValue attr))) ∧
      (∀ docs, compute schema ⟨.count, some attr⟩ docs =
          .ok (.count ((bound attr).picks docs).length) ↔
        (docs.countP fun doc => doc.HasValue attr ∧ keyAt attr doc = .null) =
          docs.countP fun doc => keyAt attr doc ≠ .null ∧ ¬doc.HasValue attr) ∧
      (∀ docs, compute schema ⟨.count, some attr⟩ ((bound attr).picks docs) =
          .ok (.count ((bound attr).picks docs).length) ↔
        ∀ doc ∈ docs, doc.HasValue attr → keyAt attr doc ≠ .null) ∧
      ((∀ docs, compute schema ⟨.count, some attr⟩ docs =
          .ok (.count ((bound attr).picks docs).length)) ↔ '.' ∉ attr.toList) := by
  have hcompute : ∀ docs n, compute schema ⟨.count, some attr⟩ docs = .ok (.count n) ↔
      (present attr docs).length = n := by
    intro docs n
    have hcount : compute schema ⟨.count, some attr⟩ docs =
        .ok (.count (present attr docs).length) := rfl
    rw [hcount, Except.ok.injEq, AggregateOutput.count.injEq]
  have hpicks : ∀ docs, ((bound attr).picks docs).length =
      docs.countP fun doc => doc.HasValue attr := by
    intro docs
    rw [picks_bound hattr, List.countP_eq_length_filter]
  simp only [hcompute]
  refine ⟨matches?_bound hattr, fun docs => ?_, fun docs => length_present_picks_iff hattr, ?_, ?_⟩
  · rw [length_present, hpicks, eq_comm, countP_eq_countP_iff]
    simp only [not_not]
  · intro hagrees hdot
    exact length_present_ne_of_dotted hattr hdot (hagrees _)
  · intro hplain docs
    rw [length_present, hpicks]
    refine List.countP_congr fun doc _ => ?_
    simp only [decide_eq_true_eq, Document.hasValue_iff_of_isAttribute ⟨hplain, hattr⟩]

/-! ## Widths of racks -/

def rackSchema : Schema := { table := "racks", primaryKey := ⟨"id", .text, none⟩ }

/-- A rack with its width among its measures, and one with a name for it that has a dot. -/
def nestedRack : Document := [("size", .obj [("width", .bool true)])]

def flatRack : Document := [("size.width", .bool true)]

/-- Of these racks the first two have a size. -/
theorem count_agrees_with_filter_racks :
    Text.startsWith "$" "size" = false ∧ '.' ∉ "size".toList ∧
      compute rackSchema ⟨.count, some "size"⟩
          [nestedRack, [("size", .str "wide")], [("size", .null)], flatRack] =
        .ok (.count ((bound "size").picks
          [nestedRack, [("size", .str "wide")], [("size", .null)], flatRack]).length) := by
  have hattr : Text.startsWith "$" "size" = false := by decide
  have hplain : '.' ∉ "size".toList := by decide
  obtain ⟨_, _, _, hagrees⟩ := count_agrees_with_filter_iff rackSchema hattr
  exact ⟨hattr, hplain, hagrees.mpr hplain _⟩

/-- A filter finds the rack with a width among its measures, and the count passes it over; the other
    rack is counted and not found. -/
theorem nested_width_not_counted :
    (bound "size.width").picks [nestedRack] = [nestedRack] ∧
      compute rackSchema ⟨.count, some "size.width"⟩ [nestedRack] = .ok (.count 0) ∧
      (bound "size.width").picks [flatRack] = [] ∧
      compute rackSchema ⟨.count, some "size.width"⟩ [flatRack] = .ok (.count 1) := by
  decide +kernel

end Aggregate

end DocMapper
