import DocMapper.Proofs.Condition.Compile
import DocMapper.Proofs.Selector.Overlay

/-!
# Merged selectors

Main statement: a selector merged into another one asks for both, wherever the two are answered and
no clause is replaced by another one. Only plain clauses replace any, and each that does is told.
-/

namespace DocMapper

namespace Selector

variable {base added s : Selector}

theorem flattenMember_of_no_conjunction (hconj : s.conjunction? = none) :
    flattenMember s.toJson = [s.toJson] := by
  obtain ⟨clauses⟩ := s
  rw [toJson]
  by_cases hgroup : ∃ key members, clauses = [(key, .arr members)]
  · obtain ⟨key, members, rfl⟩ := hgroup
    have hkey : key ≠ "$and" := by
      rintro rfl
      cases hconj
    rw [flattenMember, if_neg hkey]
  · refine flattenMember.eq_2 _ fun key members heq => hgroup ⟨key, members, ?_⟩
    cases heq
    rfl

theorem collapsible_of_no_conjunction (hconj : s.conjunction? = none) : s.Collapsible := by
  intro members heq
  rw [hconj] at heq
  cases heq

/-- A selector can be taken apart exactly when, as a member, it leaves nothing but selectors. -/
theorem collapsible_iff : s.Collapsible ↔ ∀ m ∈ flattenMember s.toJson, m.isObject = true := by
  cases hconj : s.conjunction? with
  | some members =>
    obtain rfl := conjunction?_eq_some.mp hconj
    have hflat : flattenMember (allOf members).toJson = flattenMembers members := by
      rw [toJson, allOf, flattenMember, if_pos rfl]
    rw [hflat]
    exact ⟨fun hall => hall members rfl, fun hall _ heq => by cases heq; exact hall⟩
  | none =>
    rw [flattenMember_of_no_conjunction hconj, List.forall_mem_singleton]
    exact ⟨fun _ => rfl, fun _ => collapsible_of_no_conjunction hconj⟩

theorem conjunction?_insert_ne {key : String} (hkey : key ≠ "$and") (clause : Json) :
    (s.insert key clause).conjunction? = none := by
  cases hconj : (s.insert key clause).conjunction? with
  | none => rfl
  | some members =>
    have hself : (s.insert key clause).get? key = some clause := Dict.get?_insert_self _ _ _
    rw [conjunction?_eq_some.mp hconj, allOf, get?, Dict.get?, if_neg hkey.symm] at hself
    cases hself

end Selector

namespace Condition

open Selector

theorem isObject_of_leafClause {operator : Operator} {operand clause : Json}
    (hclause : leafClause operator operand = .ok clause) : clause.isObject = true := by
  unfold leafClause at hclause
  split at hclause
  · split at hclause
    · cases hclause
      rfl
    · cases hclause
  · obtain ⟨token, _, hclause⟩ := bind_eq_ok_iff.mp hclause
    cases hclause
    rfl

/-- Only a group by "and" compiles to a conjunction. -/
theorem no_conjunction_of_compile {c : Condition} {s : Selector}
    (hgroup : ∀ left right, c ≠ .group left .and right) (hcompile : c.compile = .ok s) :
    s.conjunction? = none := by
  cases c with
  | leaf attr operator operand =>
    obtain ⟨clause, hclause, rfl⟩ := compile_leaf_eq_ok.mp hcompile
    cases clause with
    | arr members => cases isObject_of_leafClause hclause
    | _ => rfl
  | not condition comparison =>
    obtain ⟨inner, _, ⟨_, _, rfl⟩ | ⟨_, rfl⟩⟩ := compile_not_eq_ok.mp hcompile
    · exact conjunction?_insert_ne (by decide) _
    · rfl
  | group left operator right =>
    obtain ⟨_, _, _, _, rfl⟩ := compile_group_eq_ok.mp hcompile
    cases operator with
    | and => exact absurd rfl (hgroup left right)
    | or => rfl

/-- The conjunctions in a compiled condition join selectors only. -/
theorem compile_collapsible {c : Condition} {s : Selector} (hcompile : c.compile = .ok s) :
    s.Collapsible := by
  induction c generalizing s with
  | leaf attr operator operand =>
    exact collapsible_of_no_conjunction
      (no_conjunction_of_compile (fun _ _ => Condition.noConfusion) hcompile)
  | not condition comparison _ =>
    exact collapsible_of_no_conjunction
      (no_conjunction_of_compile (fun _ _ => Condition.noConfusion) hcompile)
  | group left operator right ihleft ihright =>
    obtain ⟨l, r, hl, hr, rfl⟩ := compile_group_eq_ok.mp hcompile
    cases operator with
    | or => exact collapsible_of_no_conjunction rfl
    | and =>
      have hgroup : (Selector.group .and [l, r]).conjunction? = some [l.toJson, r.toJson] := rfl
      intro members heq
      rw [hgroup] at heq
      cases heq
      rw [flattenMembers, flattenMembers, flattenMembers, List.append_nil, List.forall_mem_append]
      exact ⟨collapsible_iff.mp (ihleft hl), collapsible_iff.mp (ihright hr)⟩

end Condition

namespace Selector

variable {base added : Selector}

/-- Clauses without a group overlay the base. -/
theorem merge_of_no_group (hgroup : added.singleGroup? = none) :
    base.merge added = base.overlay added.clauses := by
  rw [merge, hgroup]

/-- A group overrides nothing, and what it is merged into is asked beside it. -/
theorem merge_of_group [PatternEngine] (base : Selector) {op : GroupOperator} {members : List Json}
    (hgroup : added.singleGroup? = some (op, members)) : (base.merge added).2 = [] ∧
      (added.Collapsible → ∀ doc asked wanted, base.matches? doc = .ok asked →
        added.matches? doc = .ok wanted →
          (base.merge added).1.matches? doc = .ok (asked && wanted)) := by
  rw [merge, hgroup]
  cases op with
  | and =>
    refine ⟨rfl, fun hcollapsible doc asked wanted hasked hwanted => ?_⟩
    obtain rfl : added = allOf members := singleGroup?_eq_some.mp hgroup
    exact matches_joined hcollapsible hasked hwanted
  | or => exact ⟨rfl, fun _ doc asked wanted hasked hwanted => matches_beside hasked hwanted⟩

/-- Merging is conjunction. On every document on which both selectors are answered the merged one
    is answered too, with both answers taken together, as long as no warning tells of a clause that
    was replaced. Only a selector that is no group makes such warnings: one for each key under which
    the two have clauses that differ, and its own clause is then the one kept, as are all its
    clauses beside those that only the base has. Its nested conjunctions have to join selectors
    only, as those of a compiled condition do. -/
theorem merge_conjoins [PatternEngine] (hbase : Dict.Ordered base.clauses)
    (hadded : Dict.Ordered added.clauses) :
    (added.Collapsible → ∀ doc asked wanted, base.matches? doc = .ok asked →
      added.matches? doc = .ok wanted → (base.merge added).2 = [] →
        (base.merge added).1.matches? doc = .ok (asked && wanted)) ∧
      (∀ w, w ∈ (base.merge added).2 ↔ added.singleGroup? = none ∧
        ∃ key previous clause, base.get? key = some previous ∧ added.get? key = some clause ∧
          previous.same clause = false ∧ w = .keyOverridden key previous clause) ∧
      (base.merge added).2.Nodup ∧
      (added.singleGroup? = none → ∀ key,
        (base.merge added).1.get? key = (added.get? key).or (base.get? key)) ∧
      ∀ c : Condition, c.compile = .ok added → added.Collapsible := by
  cases hgroup : added.singleGroup? with
  | some group =>
    obtain ⟨hsilent, hmatches⟩ := merge_of_group base hgroup
    refine ⟨fun hcollapsible doc asked wanted hasked hwanted _ =>
      hmatches hcollapsible doc asked wanted hasked hwanted, fun w => ?_, ?_, fun hnone => ?_,
      fun c hcompile => Condition.compile_collapsible hcompile⟩
    · rw [hsilent]
      constructor
      · intro hmem
        cases hmem
      · rintro ⟨hnone, _⟩
        cases hnone
    · rw [hsilent]
      exact List.nodup_nil
    · cases hnone
  | none =>
    rw [merge_of_no_group hgroup]
    refine ⟨fun _ doc asked wanted hasked hwanted hsilent => ?_, fun w => ?_, ?_, fun _ key => ?_,
      fun c hcompile => Condition.compile_collapsible hcompile⟩
    · rw [overlay_warnings hadded] at hsilent
      exact matches_overlay hbase hadded hsilent hasked hwanted
    · rw [overlay_warnings hadded, mem_overridden_iff hadded]
      exact (and_iff_right rfl).symm
    · rw [overlay_warnings hadded]
      exact nodup_overridden hadded
    · exact get?_overlay hadded key

/-- A restriction to one kind of goods with a meaningless clause behind it. -/
def kindOrNearby : Selector := ⟨[("#kind", .obj [("$eq", .str "tea")]), ("$near", .null)]⟩

/-- Goods of the largest size that are cold or of the kind of tea. -/
def coldLarge : Selector := ⟨[("$and", .arr [
  .obj [("$and", .arr [.obj [("size", .obj [("$eq", .str "xl")])]])],
  .obj [("$or", .arr [.obj [("heat", .obj [("$eq", .num (.float Double.zero.neg))])],
    .obj [("#kind", .obj [("$eq", .str "tea")])]])]])]⟩

/-- A drink that is not tea, for which the meaningless clause is never asked. -/
def icedJuice : Document :=
  [("#kind", .str "juice"), ("heat", .num (.float Double.zero)), ("size", .str "xl")]

theorem merge_conjoins_icedJuice :
    Dict.Ordered kindOrNearby.clauses ∧ Dict.Ordered coldLarge.clauses ∧ coldLarge.Collapsible ∧
      kindOrNearby.matches? icedJuice = .ok false ∧ coldLarge.matches? icedJuice = .ok true ∧
      (kindOrNearby.merge coldLarge).2 = [] ∧
      (kindOrNearby.merge coldLarge).1.matches? icedJuice = .ok false := by
  have hbase : Dict.Ordered kindOrNearby.clauses := by unfold Dict.Ordered; decide
  have hadded : Dict.Ordered coldLarge.clauses := by unfold Dict.Ordered; decide
  have hcollapsible : coldLarge.Collapsible := by
    intro members hmembers
    cases hmembers
    decide
  have hasked : kindOrNearby.matches? icedJuice = .ok false := rfl
  have hwanted : coldLarge.matches? icedJuice = .ok true := rfl
  exact ⟨hbase, hadded, hcollapsible, hasked, hwanted, rfl,
    (merge_conjoins hbase hadded).1 hcollapsible icedJuice false true hasked hwanted rfl⟩

end Selector

end DocMapper
