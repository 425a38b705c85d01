import DocMapper.Proofs.Condition.Answers
import DocMapper.Proofs.Condition.Meaning

/-!
# Compiled conditions mean what conditions mean

A missing value is equal to nothing and stands in no relation, so it passes few tests. Main
statement: a condition fails to compile exactly when a range in it is malformed, and wherever
matching its selector answers, the answer is the direct evaluation of the condition.
-/

namespace DocMapper.Selector

/-- The operators that a missing value passes are the one that asks for its absence and the
    negations of tests that it does not pass. -/
theorem passesAll_none_iff [PatternEngine] (operators : Fields) :
    passesAll none operators = true ↔ ∀ entry ∈ operators, entry = ("$exists", .bool false) ∨
      entry.1 = "$not" ∧ passes none entry.2 = false := by
  induction operators with
  | nil => simp [passesAll]
  | cons head rest ih =>
    obtain ⟨operator, operand⟩ := head
    have hnone : none.any (fun v => related operator v operand) = false := rfl
    rw [passesAll, Bool.and_eq_true, ih, List.forall_mem_cons, hnone]
    refine and_congr_left fun _ => ?_
    by_cases hexists : operator = "$exists"
    · subst hexists
      rw [if_pos rfl]
      have hne : "$exists" ≠ "$not" := by decide
      constructor
      · intro habsent
        cases operand <;> simp [Json.asBool?] at habsent ⊢
        exact habsent
      · rintro (heq | ⟨heq, _⟩)
        · cases heq
          rfl
        · exact absurd heq hne
    · rw [if_neg hexists]
      by_cases hnot : operator = "$not"
      · rw [if_pos hnot, Bool.not_eq_true']
        constructor
        · intro hfails
          exact Or.inr ⟨hnot, hfails⟩
        · rintro (heq | ⟨_, hfails⟩)
          · cases heq
            exact absurd rfl hexists
          · exact hfails
      · rw [if_neg hnot]
        constructor
        · intro hfalse
          cases hfalse
        · rintro (heq | ⟨heq, _⟩)
          · cases heq
            exact absurd rfl hexists
          · exact absurd heq hnot

/-- A missing value passes only tests that are objects of such operators, and passes all of
    these. -/
theorem passes_none_iff [PatternEngine] (operand : Json) :
    passes none operand = true ↔ ∃ operators, operand = .obj operators ∧ operators ≠ [] ∧
      ∀ entry ∈ operators, entry = ("$exists", .bool false) ∨
        entry.1 = "$not" ∧ passes none entry.2 = false := by
  constructor
  · intro hpasses
    cases operand with
    | obj operators =>
      rw [passes] at hpasses
      by_cases hops : isOperatorObject (.obj operators) = true
      · rw [if_pos hops] at hpasses
        refine ⟨operators, rfl, ?_, (passesAll_none_iff operators).mp hpasses⟩
        rintro rfl
        exact absurd hops (by decide)
      · rw [if_neg hops] at hpasses
        cases hpasses
    | _ => cases hpasses
  · rintro ⟨operators, rfl, hne, hall⟩
    have hops : isOperatorObject (.obj operators) = true := by
      simp only [isOperatorObject, Bool.and_eq_true, Bool.not_eq_true', List.isEmpty_eq_false_iff,
        List.all_eq_true]
      refine ⟨hne, fun entry hentry => ?_⟩
      rcases hall entry hentry with heq | ⟨heq, _⟩
      · rw [heq]
        decide
      · rw [heq]
        decide
    rw [passes, if_pos hops]
    exact (passesAll_none_iff operators).mpr hall

end DocMapper.Selector

namespace DocMapper.Condition

/-- A negated test holds of a missing attribute, unless the test is one that a missing value
    passes. -/
theorem holds_negated_missing [PatternEngine] {attr : String} {doc : Document} (operand : Json)
    (hmissing : doc.at? attr = none) :
    (leaf attr .not operand).holds doc = true ↔ ¬∃ operators, operand = .obj operators ∧
      operators ≠ [] ∧ ∀ entry ∈ operators, entry = ("$exists", .bool false) ∨
        entry.1 = "$not" ∧ Selector.passes none entry.2 = false := by
  rw [← Selector.passes_none_iff, holds, Operator.holds, if_pos rfl, hmissing]
  simp

/-- Compilation preserves meaning. It fails only for a malformed range, wherever that stands, and
    always then. Else the selector of a regular condition answers the direct evaluation of the
    condition on every document on which matching does not fail. Documents need not have the
    attributes: a negated test holds of a missing one, but for the operators that a missing value
    passes. -/
theorem compile_preserves_meaning [PatternEngine] (c : Condition) :
    ((∃ e, c.compile = .error e) ↔ c.HasMalformedRange) ∧
      (∀ e, c.compile = .error e → e = .betweenBounds) ∧
      (c.Regular → ∀ s, c.compile = .ok s → ∀ doc b, s.matches? doc = .ok b → b = c.holds doc) ∧
      ∀ attr operand doc, Document.at? doc attr = none →
        ((leaf attr .not operand).holds doc = true ↔
          ¬∃ operators, operand = .obj operators ∧ operators ≠ [] ∧
            ∀ entry ∈ operators, entry = ("$exists", .bool false) ∨
              entry.1 = "$not" ∧ Selector.passes none entry.2 = false) := by
  refine ⟨?_, ?_, ?_, ?_⟩
  · rcases compile_spec c with ⟨hmalformed, herror⟩ | ⟨hwell, s, hs⟩
    · exact ⟨fun _ => hmalformed, fun _ => ⟨_, herror⟩⟩
    · constructor
      · rintro ⟨e, he⟩
        rw [hs] at he
        cases he
      · intro hmalformed
        exact absurd hmalformed hwell
  · intro e he
    rcases compile_spec c with ⟨_, herror⟩ | ⟨_, s, hs⟩
    · rw [herror] at he
      cases he
      rfl
    · rw [hs] at he
      cases he
  · intro hregular s hcompile doc b hmatches
    exact compile_answers hregular hcompile b hmatches
  · intro attr operand doc hmissing
    exact holds_negated_missing operand hmissing

/-- A disjunction of a negated range, bound to a value, and a negated group. -/
def boundOrNegatedSample : Condition :=
  .or (.not (.leaf "size.width" .between (.arr [.str "a", .str "m"])) (.str "k"))
    (.not (.and (.leaf "kind" .not (.obj [("$exists", .bool false)]))
      (.leaf "tag" .oneOf (.arr [.str "x"]))) .null)

theorem compile_preserves_meaning_boundOrNegatedSample :
    boundOrNegatedSample.Regular ∧
      (∃ s, boundOrNegatedSample.compile = .ok s ∧
        s.matches? [("size", .obj [("width", .str "k")]), ("tag", .str "x")] = .ok true ∧
        boundOrNegatedSample.holds [("size", .obj [("width", .str "k")]), ("tag", .str "x")] =
          true) := by
  have hregular : boundOrNegatedSample.Regular := by
    refine ⟨⟨?_, Or.inr ⟨_, _, _, rfl⟩⟩, ⟨?_, ?_⟩, Or.inl rfl⟩ <;> rw [Regular] <;> decide
  refine ⟨hregular, _, rfl, rfl, ?_⟩
  exact ((compile_preserves_meaning boundOrNegatedSample).2.2.1 hregular _ rfl _ true rfl).symm

/-- A negated test does not hold of every missing attribute: asked whether it is not absent, a
    missing value answers no. -/
theorem negated_absence_fails_when_missing :
    ¬∀ (attr : String) (operand : Json) (doc : Document) (s : Selector) (b : Bool),
      (leaf attr .not operand).Regular → doc.at? attr = none →
        (leaf attr .not operand).compile = .ok s → s.matches? doc = .ok b → b = true := by
  intro hmissing
  have hfalse := hmissing "a" (.obj [("$exists", .bool false)]) [] _ false
    (by rw [Regular]; decide) rfl rfl rfl
  cases hfalse

end DocMapper.Condition
