import DocMapper.Proofs.Selector.Bounds
import DocMapper.Proofs.Selector.Merge

/-!
# Conjuncts of conditions

A condition asks for its conjuncts: what is left of it when the groups that join two conditions by
"and" are looked through. Once its selector is flattened each conjunct is a member of its own, and
among the keys of that member only one can name an attribute.
-/

namespace DocMapper

namespace Selector

/-- Whether a member of a conjunction has a clause under a key. -/
def memberConstrains (attr : String) : Json → Bool
  | .obj fields => Dict.contains fields attr
  | _ => false

theorem constrains_allOf_of_attribute {attr : String} (hattr : Text.startsWith "$" attr = false)
    (members : List Json) :
    (allOf members).constrains attr = members.any (memberConstrains attr) := by
  have hkey : decide ("$and" = attr) = false := decide_eq_false (ne_token hattr (by decide)).symm
  rw [constrains_allOf, hkey, Bool.false_or]
  rfl

end Selector

namespace Condition

open Selector

variable {doc : Document} {c : Condition} {s : Selector} {attr : String}

/-- The conditions that "and" joins, from left to right. -/
def conjuncts : Condition → List Condition
  | .group left .and right => left.conjuncts ++ right.conjuncts
  | c => [c]

theorem conjuncts_foldl_and (first : Condition) (rest : List Condition) :
    (rest.foldl Condition.and first).conjuncts = (first :: rest).flatMap conjuncts := by
  induction rest generalizing first with
  | nil => simp
  | cons head rest ih =>
    rw [List.foldl_cons, ih, List.flatMap_cons, List.flatMap_cons, List.flatMap_cons, and, conjuncts,
      List.append_assoc]

/-- A condition is satisfied when its conjuncts are; in particular all of them compile. -/
theorem satisfiedBy_iff_conjuncts [PatternEngine] :
    c.SatisfiedBy doc ↔ ∀ d ∈ c.conjuncts, d.SatisfiedBy doc := by
  induction c with
  | leaf attr operator operand => simp [conjuncts]
  | not inner comparison => simp [conjuncts]
  | group left operator right ihleft ihright =>
    cases operator with
    | or => simp [conjuncts]
    | and =>
      have hboth : (left.group .and right).SatisfiedBy doc ↔
          left.SatisfiedBy doc ∧ right.SatisfiedBy doc := satisfiedBy_and
      rw [hboth, ihleft, ihright, conjuncts, List.forall_mem_append]

/-! ## Keys of compiled conditions -/

/-- The only attribute with a clause at the top of a compiled condition is that of the condition. -/
theorem contains_compile (hattr : Text.startsWith "$" attr = false) (hcompile : c.compile = .ok s) :
    s.clauses.contains attr = true ↔ c.attributeName? = some attr := by
  induction c generalizing s with
  | leaf own operator operand =>
    obtain ⟨_, _, rfl⟩ := compile_leaf_eq_ok.mp hcompile
    rw [Dict.contains_singleton, decide_eq_true_iff, attributeName?, Option.some.injEq]
  | not inner comparison ih =>
    have hnot : decide ("$not" = attr) = false := decide_eq_false (ne_token hattr (by decide)).symm
    obtain ⟨compiled, hcompiled, ⟨_, _, rfl⟩ | ⟨hname, rfl⟩⟩ := compile_not_eq_ok.mp hcompile
    · rw [Selector.insert, Dict.contains_insert, hnot, Bool.false_or]
      exact ih hcompiled
    · rw [Dict.contains_singleton, hnot, attributeName?, hname]
      simp
  | group left operator right =>
    obtain ⟨_, _, _, _, rfl⟩ := compile_group_eq_ok.mp hcompile
    have htoken : attr ≠ operator.token := ne_token hattr (by cases operator <;> decide)
    rw [Selector.group, Dict.contains_singleton, decide_eq_false htoken.symm]
    simp [attributeName?]

theorem any_flattenMember_of_not_and (hattr : Text.startsWith "$" attr = false)
    (hgroup : ∀ left right, c ≠ .group left .and right) (hcompile : c.compile = .ok s) :
    (flattenMember s.toJson).any (memberConstrains attr) = true ↔
      ∃ d ∈ c.conjuncts, d.attributeName? = some attr := by
  rw [flattenMember_of_no_conjunction (no_conjunction_of_compile hgroup hcompile),
    conjuncts.eq_2 c hgroup]
  simp only [List.any_cons, List.any_nil, Bool.or_false, List.mem_singleton, exists_eq_left]
  exact contains_compile hattr hcompile

/-- Flattening leaves a member with a clause of an attribute exactly where a conjunct names it. -/
theorem any_flattenMember_compile (hattr : Text.startsWith "$" attr = false)
    (hcompile : c.compile = .ok s) :
    (flattenMember s.toJson).any (memberConstrains attr) = true ↔
      ∃ d ∈ c.conjuncts, d.attributeName? = some attr := by
  induction c generalizing s with
  | leaf own operator operand =>
    exact any_flattenMember_of_not_and hattr (fun _ _ => Condition.noConfusion) hcompile
  | not inner comparison =>
    exact any_flattenMember_of_not_and hattr (fun _ _ => Condition.noConfusion) hcompile
  | group left operator right ihleft ihright =>
    cases operator with
    | or => exact any_flattenMember_of_not_and hattr (by rintro _ _ ⟨⟩) hcompile
    | and =>
      obtain ⟨l, r, hl, hr, rfl⟩ := compile_group_eq_ok.mp hcompile
      have hflat : flattenMember (Selector.group .and [l, r]).toJson =
          flattenMember l.toJson ++ (flattenMember r.toJson ++ []) := rfl
      rw [hflat, List.append_nil, List.any_append, Bool.or_eq_true, ihleft hl, ihright hr, conjuncts]
      simp only [List.mem_append, or_and_right, exists_or]

end Condition

end DocMapper
