import DocMapper.Proofs.Condition.Agreement

/-!
# Negations around negations

A negation of a leaf asks for the leaf and excludes the value that it is bound to. The clause of a
further negation around it takes the place of this one. Main statement: a negation adds to what the
condition inside asks for, except that it lets the value pass which a negation inside is bound to.
-/

namespace DocMapper.Condition

open Selector

section Negations

variable [PatternEngine] {c : Condition} {attr : String} {comparison : Json} {s : Selector}

/-- A leaf, or negations around one, compile to the clause of the leaf with the comparison of the
    outermost negation beside it, if there is any. -/
theorem compile_eq_ok_of_attributeName? (hname : c.attributeName? = some attr)
    (hattr : Text.startsWith "$" attr = false) (hcompile : c.compile = .ok s) :
    ∃ clause, (∀ doc, Answers (evalClause doc attr clause) (c.leafHolds doc)) ∧
      ((∃ operator operand, c = .leaf attr operator operand) ∧ s = ⟨[(attr, clause)]⟩ ∨
        ∃ inner other, c = .not inner other ∧
          s = (⟨[(attr, clause)]⟩ : Selector).insert "$not" (.obj [(attr, other)])) := by
  induction c generalizing s with
  | leaf own operator operand =>
    cases hname
    obtain ⟨clause, hclause, rfl⟩ := compile_leaf_eq_ok.mp hcompile
    exact ⟨clause, fun doc => evalClause_leafClause_answers hattr hclause,
      .inl ⟨⟨operator, operand, rfl⟩, rfl⟩⟩
  | not inner other ih =>
    have hinner : inner.attributeName? = some attr := hname
    obtain ⟨compiled, hcompiled, rfl⟩ := (compile_not_of_attribute hinner).mp hcompile
    obtain ⟨clause, hanswers, ⟨_, rfl⟩ | ⟨_, _, _, rfl⟩⟩ := ih hinner hcompiled
    · exact ⟨clause, hanswers, .inr ⟨inner, other, rfl, rfl⟩⟩
    · refine ⟨clause, hanswers, .inr ⟨inner, other, rfl, ?_⟩⟩
      rw [Selector.insert, Selector.insert, Selector.insert, Dict.insert_insert_self]
  | group left operator right => cases hname

/-- A negation of a leaf, or of negations around one, asks for the leaf and excludes the value that
    it is bound to, whatever other values the negations inside are bound to. -/
theorem compile_not_answers (hname : c.attributeName? = some attr)
    (hattr : Text.startsWith "$" attr = false)
    (hcompile : (Condition.not c comparison).compile = .ok s) (doc : Document) :
    Answers (s.matches? doc) (c.leafHolds doc && !passes (doc.at? attr) comparison) := by
  have houter : (Condition.not c comparison).attributeName? = some attr := hname
  obtain ⟨clause, hanswers, ⟨⟨_, _, hleaf⟩, _⟩ | ⟨_, _, heq, rfl⟩⟩ :=
    compile_eq_ok_of_attributeName? houter hattr hcompile
  · cases hleaf
  · cases heq
    exact matches_bound_negation_answers hattr (hanswers doc)

theorem compile_leaf_answers {operator : Operator} {operand : Json}
    (hattr : Text.startsWith "$" attr = false)
    (hcompile : (Condition.leaf attr operator operand).compile = .ok s) (doc : Document) :
    Answers (s.matches? doc) ((Condition.leaf attr operator operand).leafHolds doc) := by
  have hregular : (Condition.leaf attr operator operand).Regular := hattr
  exact compile_answers hregular hcompile

theorem equality_answers (hattr : Text.startsWith "$" attr = false) (v : Json) (doc : Document) :
    Answers ((⟨[(attr, v)]⟩ : Selector).matches? doc) (passes (doc.at? attr) v) := by
  refine eval_singleton_answers ?_
  rw [evalClause_attribute (role_eq_attribute hattr)]
  exact (test_answers _).1 v

/-- A negation that has an attribute asks for the leaf and excludes its own comparison. So it adds
    this to what the condition inside asks for, wherever the three selectors are answered, unless
    that condition is a negation itself, of a leaf that holds, and excludes the document by a
    comparison which the new one takes out of force. -/
theorem negation_adds_unless_nested (hname : c.attributeName? = some attr)
    (hattr : Text.startsWith "$" attr = false)
    (hcompile : (Condition.not c comparison).compile = .ok s) :
    ∃ kept, c.compile = .ok kept ∧ ∀ doc negated held excluded,
      s.matches? doc = .ok negated → kept.matches? doc = .ok held →
        (⟨[(attr, comparison)]⟩ : Selector).matches? doc = .ok excluded →
          negated = (c.leafHolds doc && !excluded) ∧
            (negated = (held && !excluded) ↔
              ¬∃ inner other, c = .not inner other ∧ c.leafHolds doc = true ∧
                passes (doc.at? attr) other = true ∧ excluded = false) := by
  have hinside := hcompile
  rw [compile] at hinside
  obtain ⟨kept, hkept, _⟩ := bind_eq_ok_iff.mp hinside
  refine ⟨kept, hkept, fun doc negated held excluded hnegated hheld hexcluded => ?_⟩
  obtain rfl := equality_answers hattr comparison doc excluded hexcluded
  obtain rfl := compile_not_answers hname hattr hcompile doc negated hnegated
  refine ⟨rfl, ?_⟩
  cases c with
  | leaf own operator operand =>
    cases hname
    obtain rfl := compile_leaf_answers hattr hkept doc held hheld
    refine iff_of_true rfl ?_
    rintro ⟨_, _, heq, _⟩
    cases heq
  | not inner other =>
    have hinner : inner.attributeName? = some attr := hname
    have hleaf : (Condition.not inner other).leafHolds doc = inner.leafHolds doc := rfl
    obtain rfl := compile_not_answers hinner hattr hkept doc held hheld
    simp only [Condition.not.injEq, and_assoc, exists_and_left, exists_eq_left', hleaf]
    cases inner.leafHolds doc <;> cases passes (doc.at? attr) other <;>
      cases passes (doc.at? attr) comparison <;> simp
  | group left operator right => cases hname

end Negations

/-- A size above the smallest, bound to a medium one. -/
def sizeBound : Condition := .not (.leaf "size" .bigger (.str "a")) (.str "m")

theorem negation_adds_unless_nested_sizeBound :
    ∃ s kept, (Condition.not sizeBound (.str "x")).compile = .ok s ∧
      sizeBound.compile = .ok kept ∧ kept.matches? [("size", .str "k")] = .ok true ∧
        s.matches? [("size", .str "k")] = .ok true := by
  have hdollar : Text.startsWith "$" "size" = false := by decide
  have hcompile : ∃ s, (Condition.not sizeBound (.str "x")).compile = .ok s ∧
      s.matches? [("size", .str "k")] = .ok true := ⟨_, rfl, rfl⟩
  obtain ⟨s, hs, hnegated⟩ := hcompile
  obtain ⟨kept, hkept, hadds⟩ := negation_adds_unless_nested rfl hdollar hs
  obtain ⟨held, hheld⟩ : ∃ held, kept.matches? [("size", .str "k")] = .ok held := by
    cases hkept
    exact ⟨_, rfl⟩
  obtain ⟨-, hiff⟩ := hadds _ true held false hnegated hheld rfl
  have hadded : true = (held && !false) := by
    refine hiff.mpr ?_
    rintro ⟨inner, other, heq, -, hpasses, -⟩
    cases heq
    cases hpasses
  rw [Bool.not_false, Bool.and_true] at hadded
  rw [← hadded] at hheld
  exact ⟨s, kept, hs, hkept, hheld, hnegated⟩

/-- The medium size that the inner negation excludes passes the outer one. -/
theorem nested_negation_drops_comparison :
    ¬∀ (c : Condition) (attr : String) (v : Json) (s kept : Selector) (doc : Document)
      (negated held excluded : Bool), c.attributeName? = some attr →
        Text.startsWith "$" attr = false → (Condition.not c v).compile = .ok s →
          c.compile = .ok kept → s.matches? doc = .ok negated → kept.matches? doc = .ok held →
            (⟨[(attr, v)]⟩ : Selector).matches? doc = .ok excluded →
              negated = (held && !excluded) := by
  intro hadds
  have hfalse := hadds sizeBound "size" (.str "x") _ _ [("size", .str "m")] true false false rfl
    (by decide) rfl rfl rfl rfl rfl
  cases hfalse

end DocMapper.Condition
