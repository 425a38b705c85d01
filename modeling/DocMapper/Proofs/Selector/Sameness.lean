import DocMapper.Proofs.Condition.Meaning
import DocMapper.Proofs.Json.Sameness
import DocMapper.Proofs.Selector.Operators

/-!
# Selectors that are the same

Matching compares numbers by the collation only, so the same clauses give the same answer or fail
in the same way.
-/

namespace DocMapper.Selector

open Json

theorem isEmpty_unsignedFields (fields : Fields) :
    (unsignedFields fields).isEmpty = fields.isEmpty := by
  cases fields <;> rfl

theorem all_keys_unsignedFields (p : String → Bool) (fields : Fields) :
    ((unsignedFields fields).all fun entry => p entry.1) = fields.all fun entry => p entry.1 := by
  induction fields with
  | nil => rfl
  | cons head rest ih =>
    rw [unsignedFields, List.all_cons, List.all_cons, ih]

theorem isOperatorObject_unsignedZeros (clause : Json) :
    isOperatorObject clause.unsignedZeros = isOperatorObject clause := by
  cases clause with
  | obj fields =>
    rw [unsignedZeros, isOperatorObject, isOperatorObject, isEmpty_unsignedFields,
      all_keys_unsignedFields]
  | _ => rfl

theorem all_isObject_unsignedItems (members : List Json) :
    (unsignedItems members).all isObject = members.all isObject := by
  induction members with
  | nil => rfl
  | cons head rest ih =>
    rw [unsignedItems, List.all_cons, List.all_cons, ih]
    cases head <;> rfl

variable [PatternEngine] {doc : Document} {value : Option Json}

theorem applyOperator_unsignedZeros (operator : String) (v operand : Json) :
    applyOperator operator v operand.unsignedZeros = applyOperator operator v operand := by
  unfold applyOperator
  rw [collate_unsignedZeros.1 operand v]
  cases operand with
  | arr items => simp only [unsignedZeros, any_equivalent_unsignedItems]
  | _ => rfl

/-- The test of an attribute does not see the signs of zeros in it. -/
theorem test_unsignedZeros (value : Option Json) :
    (∀ clause : Json, test value clause.unsignedZeros = test value clause) ∧
      ∀ operators : Fields, testAll value (unsignedFields operators) = testAll value operators := by
  refine passes.mutual_induct _ _ ?operators ?object ?plain ?nil ?cons
  case operators =>
    intro operators hops ih
    have hunsigned := isOperatorObject_unsignedZeros (.obj operators)
    rw [unsignedZeros, hops] at hunsigned
    rw [unsignedZeros, test_eq_testAll hops, test_eq_testAll hunsigned, ih]
  case object =>
    intro operators hops
    have hunsigned := isOperatorObject_unsignedZeros (.obj operators)
    have hequivalent := equivalent_unsignedZeros (v := .obj operators)
    rw [unsignedZeros] at hunsigned hequivalent ⊢
    rw [test, if_neg (by rwa [hunsigned]), test, if_neg hops]
    simp only [hequivalent]
  case plain =>
    intro clause hplain
    cases clause with
    | obj fields => exact absurd rfl (hplain fields)
    | num n =>
      have hequivalent := equivalent_unsignedZeros (v := .num n)
      rw [unsignedZeros] at hequivalent ⊢
      simp only [test, hequivalent]
    | arr items =>
      have hequivalent := equivalent_unsignedZeros (v := .arr items)
      rw [unsignedZeros] at hequivalent ⊢
      simp only [test, hequivalent]
    | _ => rfl
  case nil => rfl
  case cons =>
    intro operator operand rest hoperand hrest
    have hask : ask value operator operand.unsignedZeros = ask value operator operand := by
      unfold ask
      rw [hoperand]
      simp only [applyOperator_unsignedZeros]
      cases operand <;> rfl
    rw [unsignedFields, testAll_cons, testAll_cons, hask, hrest]

/-- Matching does not see the signs of zeros in a selector. -/
theorem eval_unsignedZeros (doc : Document) :
    (∀ clause : Json, (∀ key, evalClause doc key clause.unsignedZeros = evalClause doc key clause) ∧
      ∀ fields, clause = .obj fields → eval doc (unsignedFields fields) = eval doc fields) ∧
      (∀ clauses, eval doc (unsignedFields clauses) = eval doc clauses) ∧
      ∀ members, evalAll doc (unsignedItems members) = evalAll doc members ∧
        evalAny doc (unsignedItems members) = evalAny doc members := by
  refine unsignedZeros.mutual_induct _ _ _ ?num ?arr ?obj ?plain ?noItems ?items ?noFields ?fields
  case num =>
    intro n
    refine ⟨fun key => ?_, fun _ hobj => by cases hobj⟩
    have htest := (test_unsignedZeros (doc.at? key)).1 (.num n)
    rw [unsignedZeros] at htest ⊢
    simp only [evalClause, htest]
  case arr =>
    intro members ih
    refine ⟨fun key => ?_, fun _ hobj => by cases hobj⟩
    have htest := (test_unsignedZeros (doc.at? key)).1 (.arr members)
    rw [unsignedZeros] at htest ⊢
    simp only [evalClause, htest, ih.1, ih.2, all_isObject_unsignedItems]
  case obj =>
    intro fields ih
    refine ⟨fun key => ?_, fun _ hobj => by cases hobj; exact ih⟩
    have htest := (test_unsignedZeros (doc.at? key)).1 (.obj fields)
    rw [unsignedZeros] at htest ⊢
    simp only [evalClause, htest, ih]
  case plain =>
    intro clause hnum harr hobj
    rw [unsignedZeros.eq_4 clause hnum harr hobj]
    exact ⟨fun _ => rfl, fun fields heq => absurd heq (hobj fields)⟩
  case noItems => exact ⟨rfl, rfl⟩
  case items =>
    intro member rest hmember hrest
    cases member with
    | obj fields =>
      have heval := hmember.2 fields rfl
      rw [unsignedItems, unsignedZeros]
      simp only [evalAll, evalAny, heval, hrest.1, hrest.2, and_self]
    | _ => exact ⟨rfl, rfl⟩
  case noFields => rfl
  case fields =>
    intro key clause rest hclause hrest
    rw [unsignedFields, eval, eval, hclause.1, hrest]

/-- The same clauses are answered alike. -/
theorem evalClause_of_same {clause other : Json} (hsame : clause.same other = true)
    (doc : Document) (key : String) : evalClause doc key clause = evalClause doc key other := by
  rw [← ((eval_unsignedZeros doc).1 clause).1, ← ((eval_unsignedZeros doc).1 other).1,
    unsignedZeros_eq_of_same.1 clause other hsame]

end DocMapper.Selector
