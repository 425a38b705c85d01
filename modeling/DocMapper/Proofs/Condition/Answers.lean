import DocMapper.Proofs.Condition.Compile
import DocMapper.Proofs.Condition.Meaning
import DocMapper.Proofs.Selector.Answers

/-!
# Answers of compiled conditions

Only a range can keep a condition from compiling, and every malformed range does, wherever it
stands in the condition. The selector of any other condition answers what the condition means,
constructor by constructor.
-/

namespace DocMapper

/-! ## Conditions that compile -/

namespace Condition

/-- Every operator but the range has a token. The token of the negated test is the only one that is
    asked of missing values too. -/
theorem token_spec {operator : Operator} (hrange : operator ≠ .between) :
    ∃ token, operator.token = .ok token ∧ Text.startsWith "$" token = true ∧
      token ≠ "$exists" ∧ (token = "$not" ↔ operator = .not) := by
  cases operator with
  | between => exact absurd rfl hrange
  | _ => exact ⟨_, rfl, by decide, by decide, by decide⟩

theorem leafClause_of_ne_between {operator : Operator} {token : String} (operand : Json)
    (hrange : operator ≠ .between) (htoken : operator.token = .ok token) :
    leafClause operator operand = .ok (.obj [(token, operand)]) := by
  unfold leafClause
  rw [if_neg hrange, htoken]
  rfl

theorem leafClause_malformed {operand : Json}
    (hbounds : ¬∃ low high, operand = .arr [low, high]) :
    leafClause .between operand = .error .betweenBounds := by
  unfold leafClause
  rw [if_pos rfl]
  split
  · rename_i low high
    exact absurd ⟨low, high, rfl⟩ hbounds
  · rfl

/-- A condition with a malformed range fails to compile for that reason, and any other compiles. -/
theorem compile_spec (c : Condition) :
    (c.HasMalformedRange ∧ c.compile = .error .betweenBounds) ∨
      (¬c.HasMalformedRange ∧ ∃ s, c.compile = .ok s) := by
  induction c with
  | leaf attr operator operand =>
    rw [compile, HasMalformedRange]
    by_cases hrange : operator = .between
    · subst hrange
      by_cases hbounds : ∃ low high, operand = .arr [low, high]
      · obtain ⟨low, high, rfl⟩ := hbounds
        exact Or.inr ⟨fun hmalformed => hmalformed.2 ⟨low, high, rfl⟩, _, rfl⟩
      · rw [leafClause_malformed hbounds]
        exact Or.inl ⟨⟨rfl, hbounds⟩, rfl⟩
    · obtain ⟨token, htoken, _⟩ := token_spec hrange
      rw [leafClause_of_ne_between operand hrange htoken]
      exact Or.inr ⟨fun hmalformed => hrange hmalformed.1, _, rfl⟩
  | not condition comparison ih =>
    rw [compile, HasMalformedRange]
    rcases ih with ⟨hmalformed, herror⟩ | ⟨hwell, s, hs⟩
    · rw [herror]
      exact Or.inl ⟨hmalformed, rfl⟩
    · rw [hs]
      refine Or.inr ⟨hwell, ?_⟩
      cases condition.attributeName? <;> exact ⟨_, rfl⟩
  | group left operator right ihleft ihright =>
    rw [compile, HasMalformedRange]
    rcases ihleft with ⟨hmalformed, herror⟩ | ⟨hleft, l, hl⟩
    · rw [herror]
      exact Or.inl ⟨Or.inl hmalformed, rfl⟩
    · rcases ihright with ⟨hmalformed, herror⟩ | ⟨hright, r, hr⟩
      · rw [hl, herror]
        exact Or.inl ⟨Or.inr hmalformed, rfl⟩
      · rw [hl, hr]
        exact Or.inr ⟨not_or.mpr ⟨hleft, hright⟩, _, rfl⟩

end Condition

/-! ## Answers -/

open Selector

variable [PatternEngine] {doc : Document} {value : Option Json}

namespace Selector

theorem passes_operators {operators : Fields} (hops : isOperatorObject (.obj operators) = true) :
    passes value (.obj operators) = passesAll value operators := by
  rw [passes, if_pos hops]

theorem evalClause_not (fields : Fields) :
    evalClause doc "$not" (.obj fields) = (eval doc fields).map not := by
  have hrole : role "$not" = .not := by decide
  simp only [evalClause, hrole]
  cases eval doc fields <;> rfl

/-- A selector of one clause answers as the clause does. -/
theorem eval_singleton_answers {key : String} {clause : Json} {truth : Bool}
    (hclause : Answers (evalClause doc key clause) truth) :
    Answers (eval doc [(key, clause)]) truth := by
  have hnone : Answers (eval doc []) true := answers_ok true
  have hboth := answers_and hclause hnone
  rw [Bool.and_true] at hboth
  exact hboth

end Selector

namespace Condition

/-- The token of a comparison names the relation of the operator. -/
theorem related_token {operator : Operator} {token : String} (htoken : operator.token = .ok token)
    (hnot : operator ≠ .not) (v operand : Json) :
    related token v operand = operator.relates v operand := by
  cases operator with
  | not => exact absurd rfl hnot
  | between => cases htoken
  | _ =>
    cases htoken
    rfl

/-- The clause of a leaf is passed by exactly the values that the leaf holds of. -/
theorem passes_leafClause {operator : Operator} {operand clause : Json}
    (hclause : leafClause operator operand = .ok clause) :
    passes value clause = operator.holds value operand := by
  by_cases hrange : operator = .between
  · subst hrange
    by_cases hbounds : ∃ low high, operand = .arr [low, high]
    · obtain ⟨low, high, rfl⟩ := hbounds
      cases hclause
      have hops : isOperatorObject (.obj [("$gte", low), ("$lte", high)]) = true := by
        rw [isOperatorObject_pair]
        decide
      rw [passes_operators hops]
      cases value <;> simp [passesAll, related, Operator.holds, Operator.relates]
    · rw [leafClause_malformed hbounds] at hclause
      cases hclause
  · obtain ⟨token, htoken, hdollar, hexists, hnot⟩ := token_spec hrange
    rw [leafClause_of_ne_between operand hrange htoken] at hclause
    cases hclause
    rw [passes_operators (by rwa [isOperatorObject_singleton])]
    simp only [passesAll, Bool.and_true, if_neg hexists, hnot, Operator.holds]
    by_cases hneg : operator = .not
    · rw [if_pos hneg, if_pos hneg]
    · rw [if_neg hneg, if_neg hneg]
      simp only [related_token htoken hneg]

/-- A compiled leaf answers whether its comparison holds. -/
theorem evalClause_leafClause_answers {attr : String} {operator : Operator}
    {operand clause : Json} (hattr : Text.startsWith "$" attr = false)
    (hclause : leafClause operator operand = .ok clause) :
    Answers (evalClause doc attr clause) (operator.holds (doc.at? attr) operand) := by
  rw [evalClause_attribute (role_eq_attribute hattr), ← passes_leafClause hclause]
  exact (test_answers _).1 clause

/-- A group of two selectors answers what its operator makes of their answers. -/
theorem matches_group_answers {l r : Selector} {left right : Bool}
    (hl : Answers (l.matches? doc) left) (hr : Answers (r.matches? doc) right) :
    Answers ((Selector.group .and [l, r]).matches? doc) (left && right) ∧
      Answers ((Selector.group .or [l, r]).matches? doc) (left || right) := by
  have hand := answers_and hl (answers_and hr (answers_ok true))
  have hor := answers_or hl (answers_or hr (answers_ok false))
  rw [Bool.and_true] at hand
  rw [Bool.or_false] at hor
  exact ⟨eval_singleton_answers hand, eval_singleton_answers hor⟩

/-- A bound negation answers both of its clauses. -/
theorem matches_bound_negation_answers {attr : String} {clause comparison : Json} {truth : Bool}
    (hattr : Text.startsWith "$" attr = false)
    (hclause : Answers (evalClause doc attr clause) truth) :
    Answers (((⟨[(attr, clause)]⟩ : Selector).insert "$not" (.obj [(attr, comparison)])).matches?
      doc) (truth && !passes (doc.at? attr) comparison) := by
  have hcomparison : Answers (eval doc [(attr, comparison)])
      (passes (doc.at? attr) comparison) := by
    refine eval_singleton_answers ?_
    rw [evalClause_attribute (role_eq_attribute hattr)]
    exact (test_answers _).1 comparison
  have hnegated : Answers (evalClause doc "$not" (.obj [(attr, comparison)]))
      (!passes (doc.at? attr) comparison) := by
    rw [evalClause_not]
    exact answers_not hcomparison
  have hne : attr ≠ "$not" := ne_token hattr (by decide)
  unfold Selector.matches? Selector.insert
  -- Clauses are kept in key order, so either of the two may be asked first.
  by_cases hlt : "$not" < attr
  · simp only [Dict.insert, if_pos hlt]
    rw [Bool.and_comm]
    exact answers_and hnegated (eval_singleton_answers hclause)
  · simp only [Dict.insert, if_neg hlt, if_neg hne]
    exact answers_and hclause (eval_singleton_answers hnegated)

theorem holds_not {c : Condition} {comparison : Json} (hname : c.attributeName? = none) :
    (Condition.not c comparison).holds doc = !c.holds doc := by
  cases c with
  | leaf attr operator operand => cases hname
  | _ => rw [holds]; intro _ _ _ heq; cases heq

/-- Wherever matching a compiled condition answers, the answer is the meaning of the condition. -/
theorem compile_answers {c : Condition} {s : Selector} (hregular : c.Regular)
    (hcompile : c.compile = .ok s) : Answers (s.matches? doc) (c.holds doc) := by
  induction c generalizing s with
  | leaf attr operator operand =>
    obtain ⟨clause, hclause, rfl⟩ := compile_leaf_eq_ok.mp hcompile
    exact eval_singleton_answers (evalClause_leafClause_answers hregular hclause)
  | not condition comparison ih =>
    obtain ⟨hinner, hname | ⟨attr, operator, operand, rfl⟩⟩ := hregular
    · obtain ⟨inner, hcompiled, rfl⟩ := (compile_not_of_no_attribute hname).mp hcompile
      rw [holds_not hname]
      refine eval_singleton_answers ?_
      rw [Selector.toJson, evalClause_not]
      exact answers_not (ih hinner hcompiled)
    · obtain ⟨inner, hcompiled, rfl⟩ := (compile_not_of_attribute rfl).mp hcompile
      obtain ⟨clause, hclause, rfl⟩ := compile_leaf_eq_ok.mp hcompiled
      exact matches_bound_negation_answers hinner (evalClause_leafClause_answers hinner hclause)
  | group left operator right ihleft ihright =>
    obtain ⟨hleft, hright⟩ := hregular
    obtain ⟨l, r, hl, hr, rfl⟩ := compile_group_eq_ok.mp hcompile
    obtain ⟨hand, hor⟩ := matches_group_answers (ihleft hleft hl) (ihright hright hr)
    cases operator with
    | and => exact hand
    | or => exact hor

end Condition

end DocMapper
