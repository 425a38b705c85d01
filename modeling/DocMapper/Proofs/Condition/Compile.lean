import DocMapper.Condition.Compile
import DocMapper.Proofs.Selector.Conjunction
import DocMapper.Proofs.Traversal

/-!
# Compiled conditions

What a successful compilation says about the parts of a condition. A document satisfies a
condition when it satisfies the selector that the condition compiles to.
-/

namespace DocMapper.Condition

variable {c : Condition} {attr : String} {comparison : Json} {s : Selector}

theorem compile_leaf_eq_ok {operator : Operator} {operand : Json} :
    (leaf attr operator operand).compile = .ok s ↔
      ∃ clause, leafClause operator operand = .ok clause ∧ s = ⟨[(attr, clause)]⟩ := by
  rw [compile]
  constructor
  · intro hcompile
    obtain ⟨clause, hclause, hcompile⟩ := bind_eq_ok_iff.mp hcompile
    cases hcompile
    exact ⟨clause, hclause, rfl⟩
  · rintro ⟨clause, hclause, rfl⟩
    rw [hclause]
    rfl

/-- A negation that has an attribute keeps what it negates, with the comparison beside it. -/
theorem compile_not_of_attribute (hname : c.attributeName? = some attr) :
    (Condition.not c comparison).compile = .ok s ↔
      ∃ inner, c.compile = .ok inner ∧ s = inner.insert "$not" (.obj [(attr, comparison)]) := by
  rw [compile, hname]
  constructor
  · intro hcompile
    obtain ⟨inner, hinner, hcompile⟩ := bind_eq_ok_iff.mp hcompile
    cases hcompile
    exact ⟨inner, hinner, rfl⟩
  · rintro ⟨inner, hinner, rfl⟩
    rw [hinner]
    rfl

/-- Any other negation negates the whole selector. -/
theorem compile_not_of_no_attribute (hname : c.attributeName? = none) :
    (Condition.not c comparison).compile = .ok s ↔
      ∃ inner, c.compile = .ok inner ∧ s = ⟨[("$not", inner.toJson)]⟩ := by
  rw [compile, hname]
  constructor
  · intro hcompile
    obtain ⟨inner, hinner, hcompile⟩ := bind_eq_ok_iff.mp hcompile
    cases hcompile
    exact ⟨inner, hinner, rfl⟩
  · rintro ⟨inner, hinner, rfl⟩
    rw [hinner]
    rfl

theorem compile_not_eq_ok :
    (Condition.not c comparison).compile = .ok s ↔ ∃ inner, c.compile = .ok inner ∧
      ((∃ attr, c.attributeName? = some attr ∧
          s = inner.insert "$not" (.obj [(attr, comparison)])) ∨
        c.attributeName? = none ∧ s = ⟨[("$not", inner.toJson)]⟩) := by
  cases hname : c.attributeName? with
  | some attr =>
    rw [compile_not_of_attribute hname]
    simp
  | none =>
    rw [compile_not_of_no_attribute hname]
    simp

/-- A group compiles exactly when both sides do, to the group of their selectors. -/
theorem compile_group_eq_ok {left right : Condition} {operator : GroupOperator} {s : Selector} :
    (group left operator right).compile = .ok s ↔ ∃ l r, left.compile = .ok l ∧
      right.compile = .ok r ∧ s = Selector.group operator [l, r] := by
  rw [compile]
  constructor
  · intro hcompile
    obtain ⟨l, hl, hcompile⟩ := bind_eq_ok_iff.mp hcompile
    obtain ⟨r, hr, hcompile⟩ := bind_eq_ok_iff.mp hcompile
    cases hcompile
    exact ⟨l, r, hl, hr, rfl⟩
  · rintro ⟨l, r, hl, hr, rfl⟩
    rw [hl, hr]
    rfl

/-- Conditions joined one after another compile only if each of them does. -/
theorem compiles_of_foldl_and {first : Condition} {rest : List Condition} {s : Selector}
    (hcompile : (rest.foldl Condition.and first).compile = .ok s) :
    ∀ c ∈ first :: rest, ∃ t, c.compile = .ok t := by
  induction rest generalizing first with
  | nil => simpa using ⟨s, hcompile⟩
  | cons head rest ih =>
    rw [List.foldl_cons] at hcompile
    obtain ⟨hboth, hrest⟩ := List.forall_mem_cons.mp (ih hcompile)
    obtain ⟨t, ht⟩ := hboth
    obtain ⟨l, r, hl, hr, _⟩ := compile_group_eq_ok.mp ht
    exact List.forall_mem_cons.mpr ⟨⟨l, hl⟩, List.forall_mem_cons.mpr ⟨⟨r, hr⟩, hrest⟩⟩

variable [PatternEngine]

/-- The condition compiles to a selector that the document satisfies. -/
def SatisfiedBy (doc : Document) (c : Condition) : Prop :=
  ∃ s, c.compile = .ok s ∧ s.Satisfied doc

theorem satisfiedBy_iff_of_compile {doc : Document} {c : Condition} {s : Selector}
    (hcompile : c.compile = .ok s) : c.SatisfiedBy doc ↔ s.Satisfied doc := by
  constructor
  · rintro ⟨t, ht, hsat⟩
    rw [hcompile] at ht
    cases ht
    exact hsat
  · intro hsat
    exact ⟨s, hcompile, hsat⟩

/-- Both conditions are satisfied exactly when each of them is; in particular both compile. -/
theorem satisfiedBy_and {doc : Document} {left right : Condition} :
    (left.and right).SatisfiedBy doc ↔ left.SatisfiedBy doc ∧ right.SatisfiedBy doc := by
  constructor
  · rintro ⟨s, hcompile, hsat⟩
    obtain ⟨l, r, hl, hr, rfl⟩ := compile_group_eq_ok.mp hcompile
    obtain ⟨hsatl, hsatr⟩ := Selector.satisfied_group_and.mp hsat
    exact ⟨⟨l, hl, hsatl⟩, ⟨r, hr, hsatr⟩⟩
  · rintro ⟨⟨l, hl, hsatl⟩, ⟨r, hr, hsatr⟩⟩
    exact ⟨_, compile_group_eq_ok.mpr ⟨l, r, hl, hr, rfl⟩,
      Selector.satisfied_group_and.mpr ⟨hsatl, hsatr⟩⟩

theorem satisfiedBy_foldl_and {doc : Document} (first : Condition) (rest : List Condition) :
    (rest.foldl Condition.and first).SatisfiedBy doc ↔
      ∀ c ∈ first :: rest, c.SatisfiedBy doc := by
  induction rest generalizing first with
  | nil => simp
  | cons head rest ih =>
    rw [List.foldl_cons, ih, List.forall_mem_cons, satisfiedBy_and, List.forall_mem_cons,
      List.forall_mem_cons, and_assoc]

end DocMapper.Condition
