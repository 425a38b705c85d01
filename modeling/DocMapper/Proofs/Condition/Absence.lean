import DocMapper.Proofs.Condition.Negation
import DocMapper.Proofs.Selector.Bounds

/-!
# Conditions on values that are absent

A document without a value at an attribute lacks it or has `null` there. What a leaf admits of the
two can be read off its operator and its operand.
-/

namespace DocMapper

/-- How a document comes to have no value at an attribute. -/
inductive Absence where
  | missing
  | null
deriving DecidableEq, Repr

/-- What is found in place of the value. -/
def Absence.value : Absence → Option Json
  | .missing => none
  | .null => some .null

/-- The document has a value greater than `null` at the attribute. -/
def Document.HasValue (doc : Document) (attr : String) : Prop :=
  ∃ v, doc.at? attr = some v ∧ v.collate .null = .gt

variable {doc : Document} {attr : String} {absence : Absence}

/-! ## Values -/

theorem Json.collate_null (v : Json) :
    Json.collate .null v = if v.isNull then .eq else .lt := by
  cases v with
  | bool b => cases b <;> rfl
  | _ => rfl

/-- Whatever is not `null` is greater. -/
theorem Json.collate_null_right (v : Json) : v.collate .null = if v.isNull then .eq else .gt := by
  cases v with
  | bool b => cases b <;> rfl
  | _ => rfl

/-- An attribute has a value, or is absent in one of the ways. -/
theorem Document.hasValue_or_absent (doc : Document) (attr : String) :
    doc.HasValue attr ∨ ∃ absence : Absence, doc.at? attr = absence.value := by
  cases hvalue : doc.at? attr with
  | none => exact .inr ⟨.missing, rfl⟩
  | some v =>
    cases v with
    | null => exact .inr ⟨.null, rfl⟩
    | _ => exact .inl ⟨_, hvalue, Json.collate_null_right _⟩

theorem Document.not_hasValue_of_absent (habsent : doc.at? attr = absence.value) :
    ¬doc.HasValue attr := by
  rintro ⟨v, hvalue, hgreater⟩
  rw [habsent] at hvalue
  cases absence with
  | missing => cases hvalue
  | null =>
    cases hvalue
    cases hgreater

theorem Document.hasValue_iff :
    doc.HasValue attr ↔ ((doc.at? attr).any fun v => !v.isNull) = true := by
  rw [HasValue]
  cases doc.at? attr with
  | none => simp
  | some v => simp [Json.collate_null_right]

/-! ## Leaves without a value -/

variable [PatternEngine]

/-- Whether a leaf holds without a value: a negated test where the test is not passed, any other
    comparison only of `null`, and only where `null` stands in the relation to the operand. -/
def Operator.admits : Operator → Absence → Json → Bool
  | .not, absence, test => !Selector.passes absence.value test
  | _, .missing, _ => false
  | .equal, .null, v => v.isNull
  | .different, .null, v => !v.isNull
  | .biggerEq, .null, v => v.isNull
  | .smaller, .null, v => !v.isNull
  | .smallerEq, .null, _ => true
  | .oneOf, .null, .arr items => items.any Json.isNull
  | .between, .null, .arr [low, _] => low.isNull
  | _, .null, _ => false

namespace Condition

/-- Whether the leaf under negations holds without a value. -/
def leafAdmits (absence : Absence) : Condition → Bool
  | .leaf _ operator operand => operator.admits absence operand
  | .not condition _ => condition.leafAdmits absence
  | .group _ _ _ => false

/-- Whether a leaf, or negations around one, let a document without the value through. Of the
    comparisons only that of the outermost negation counts. -/
def admits (absence : Absence) : Condition → Bool
  | .leaf _ operator operand => operator.admits absence operand
  | .not condition comparison =>
    condition.leafAdmits absence && !Selector.passes absence.value comparison
  | .group _ _ _ => false

end Condition

/-! ## Bounds -/

/-- The clause of a bound is answered for every document. -/
theorem Selector.evalClause_bound (hattr : Text.startsWith "$" attr = false) (doc : Document) :
    evalClause doc attr (.obj [("$gt", .null)]) =
      .ok ((doc.at? attr).any fun v => !v.isNull) := by
  rw [evalClause_comparison (role_eq_attribute hattr) (by decide) (by decide) (by decide)]
  cases doc.at? attr with
  | none => rfl
  | some v =>
    have hgreater : applyOperator "$gt" v .null = .ok (v.collate .null == .gt) := rfl
    simp only [hgreater, Json.collate_null_right, Option.any_some]
    cases v.isNull <;> rfl

/-- A bound asks for a value. -/
theorem Selector.satisfied_bound (hattr : Text.startsWith "$" attr = false) :
    (Selector.bound attr).Satisfied doc ↔ doc.HasValue attr := by
  rw [bound, satisfied_singleton, evalClause_bound hattr, Document.hasValue_iff, Except.ok.injEq]

/-! ## Conditions -/

/-- The comparisons that `null` stands in, where it comes before every other value. -/
theorem Operator.relates_null {operator : Operator} (hnot : operator ≠ .not) (operand : Json) :
    operator.relates .null operand = operator.admits .null operand := by
  have hequal : ∀ v, (Json.collate .null v == .eq) = v.isNull := by
    intro v
    rw [Json.collate_null]
    cases v.isNull <;> rfl
  have hnever : ∀ v, Json.collate .null v ≠ .gt := by
    intro v
    rw [Json.collate_null]
    cases v.isNull <;> decide
  cases operator with
  | not => exact absurd rfl hnot
  | equal => exact hequal operand
  | different => exact congrArg Bool.not (hequal operand)
  | bigger => exact beq_false_of_ne (hnever operand)
  | biggerEq =>
    rw [relates, admits, Json.collate_null]
    cases operand.isNull <;> rfl
  | smaller =>
    rw [relates, admits, Json.collate_null]
    cases operand.isNull <;> rfl
  | smallerEq => exact bne_iff_ne.mpr (hnever operand)
  | oneOf =>
    cases operand with
    | arr items => exact congrArg items.any (funext hequal)
    | _ => rfl
  | regexp => cases operand <;> rfl
  | between =>
    cases operand with
    | arr bounds =>
      obtain _ | ⟨low, _ | ⟨high, _ | ⟨_, _⟩⟩⟩ := bounds
      · rfl
      · rfl
      · have hhigh : (Json.collate .null high != .gt) = true := bne_iff_ne.mpr (hnever high)
        rw [relates, admits, hhigh, Bool.and_true, Json.collate_null]
        cases low.isNull <;> rfl
      · rfl
    | _ => rfl

/-- What an operator says of an absent value is what it admits. -/
theorem Operator.holds_absence (operator : Operator) (absence : Absence) (operand : Json) :
    operator.holds absence.value operand = operator.admits absence operand := by
  cases absence with
  | missing => cases operator <;> rfl
  | null =>
    by_cases hnot : operator = .not
    · subst hnot
      rfl
    · rw [holds, if_neg hnot]
      exact relates_null hnot operand

namespace Condition

variable {c : Condition}

/-- What a leaf says of an absent attribute is what it admits. -/
theorem leafHolds_of_absent (hname : c.attributeName? = some attr)
    (habsent : doc.at? attr = absence.value) : c.leafHolds doc = c.leafAdmits absence := by
  induction c with
  | leaf own operator operand =>
    cases hname
    rw [leafHolds, leafAdmits, habsent, Operator.holds_absence]
  | not inner comparison ih => exact ih hname
  | group left operator right => cases hname

/-- A document without a value satisfies only conditions that admit its absence. -/
theorem admits_of_satisfiedBy (hname : c.attributeName? = some attr)
    (hattr : Text.startsWith "$" attr = false) (habsent : doc.at? attr = absence.value)
    (hsat : c.SatisfiedBy doc) : c.admits absence = true := by
  obtain ⟨s, hcompile, hmatches⟩ := hsat
  cases c with
  | leaf own operator operand =>
    cases hname
    have hholds := compile_leaf_answers hattr hcompile doc true hmatches
    rw [leafHolds, habsent, Operator.holds_absence] at hholds
    exact hholds.symm
  | not inner comparison =>
    have hinner : inner.attributeName? = some attr := hname
    have hholds := compile_not_answers hinner hattr hcompile doc true hmatches
    rw [leafHolds_of_absent hinner habsent, habsent] at hholds
    exact hholds.symm
  | group left operator right => cases hname

end Condition

end DocMapper
