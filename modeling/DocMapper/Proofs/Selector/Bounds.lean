import DocMapper.Proofs.Selector.Conjunction
import DocMapper.Statement.Plan

/-!
# Bounds on sort fields

A plan asks for a value at every sort field that its selector says nothing about. The new
clause goes to one of two places, and in either it is asked for beside the rest.
-/

namespace DocMapper.Selector

/-- The attribute has a value greater than `null`. -/
def bound (attr : String) : Selector := ⟨[(attr, .obj [("$gt", .null)])]⟩

/-- A clause can be added to the selector as one more thing to ask: it is one conjunction and
    nothing else, or it has no array under the conjunction's key. -/
def Extensible (s : Selector) : Prop :=
  (∃ members, s = allOf members) ∨ ∀ members, s.get? "$and" ≠ some (.arr members)

theorem constrains_allOf (members : List Json) (attr : String) :
    (allOf members).constrains attr = (decide ("$and" = attr) ||
      members.any fun m => match m with
        | .obj fields => Dict.contains fields attr
        | _ => false) := by
  have hconj : (allOf members).conjunction? = some members := conjunction?_eq_some.mpr rfl
  have hkeys := Dict.contains_singleton "$and" (Json.arr members) attr
  unfold constrains
  rw [hconj]
  exact congrArg (· || _) hkeys

/-- A selector without an array under the conjunction's key constrains its own keys only. -/
theorem constrains_of_no_conjunction {s : Selector}
    (hplain : ∀ members, s.get? "$and" ≠ some (.arr members)) (attr : String) :
    s.constrains attr = s.clauses.contains attr := by
  have hconj : s.conjunction? = none := by
    cases hfound : s.conjunction? with
    | none => rfl
    | some members =>
      rw [conjunction?_eq_some] at hfound
      subst hfound
      exact absurd rfl (hplain members)
  simp [constrains, hconj]

theorem addClause_allOf (members : List Json) (attr : String) (clause : Json) :
    (allOf members).addClause attr clause = allOf (members ++ [.obj [(attr, clause)]]) := rfl

theorem addClause_of_no_conjunction {s : Selector}
    (hplain : ∀ members, s.get? "$and" ≠ some (.arr members)) (attr : String) (clause : Json) :
    s.addClause attr clause = s.insert attr clause := by
  unfold addClause
  split
  · rename_i members hmembers
    exact absurd hmembers (hplain members)
  · rfl

variable [PatternEngine]

/-- A bound joins the members of a conjunction. -/
theorem addClause_allOf_spec (doc : Document) (members : List Json) (attr : String) (clause : Json) :
    (Satisfied doc ((allOf members).addClause attr clause) ↔
        Satisfied doc (allOf members) ∧ Satisfied doc ⟨[(attr, clause)]⟩) ∧
      ∀ other, ((allOf members).addClause attr clause).constrains other =
        ((allOf members).constrains other || decide (attr = other)) := by
  rw [addClause_allOf]
  constructor
  · rw [satisfied_allOf, satisfied_allOf, List.forall_mem_append, List.forall_mem_singleton,
      memberSatisfied_obj]
  · intro other
    rw [constrains_allOf, constrains_allOf, List.any_append, Bool.or_assoc]
    simp only [List.any_cons, List.any_nil, Dict.contains_singleton, Bool.or_false]

/-- A bound joins plain clauses under its own key. No array comes under the conjunction's key,
    even where the bound itself is put there. -/
theorem addClause_plain_spec (doc : Document) {s : Selector}
    (hplain : ∀ members, s.get? "$and" ≠ some (.arr members)) {attr : String}
    (hfree : s.constrains attr = false) (operators : Fields) :
    (∀ members, (s.addClause attr (.obj operators)).get? "$and" ≠ some (.arr members)) ∧
      (Satisfied doc (s.addClause attr (.obj operators)) ↔
        Satisfied doc s ∧ Satisfied doc ⟨[(attr, .obj operators)]⟩) ∧
      ∀ other, (s.addClause attr (.obj operators)).constrains other =
        (s.constrains other || decide (attr = other)) := by
  have habsent : s.clauses.contains attr = false := by
    rw [← constrains_of_no_conjunction hplain, hfree]
  have hstill : ∀ members, (s.insert attr (.obj operators)).get? "$and" ≠ some (.arr members) := by
    intro members
    by_cases hkey : attr = "$and"
    · subst hkey
      simp [get?, insert]
    · simpa [get?, insert, Dict.get?_insert_of_ne s.clauses _ hkey] using hplain members
  rw [addClause_of_no_conjunction hplain]
  refine ⟨hstill, satisfied_insert_of_absent _ habsent, ?_⟩
  intro other
  rw [constrains_of_no_conjunction hstill, constrains_of_no_conjunction hplain, insert,
    Dict.contains_insert, Bool.or_comm]

/-- Binding a field keeps a selector extensible, asks for a value exactly where nothing was
    asked before, and from then on counts as asking. -/
theorem bindField_spec (doc : Document) {s : Selector} (hs : s.Extensible) (attr : String) :
    (s.bindField attr).Extensible ∧
      (Satisfied doc (s.bindField attr) ↔
        Satisfied doc s ∧ (s.constrains attr = false → Satisfied doc (bound attr))) ∧
      ∀ other, (s.bindField attr).constrains other =
        (s.constrains other || decide (attr = other)) := by
  unfold bindField
  by_cases hconstrains : s.constrains attr = true
  · rw [if_pos hconstrains]
    refine ⟨hs, by simp [hconstrains], ?_⟩
    intro other
    by_cases heq : attr = other
    · subst heq
      simp [hconstrains]
    · simp [heq]
  · rw [if_neg hconstrains]
    have hfree : s.constrains attr = false := Bool.not_eq_true _ ▸ hconstrains
    simp only [hfree, forall_const]
    rcases hs with ⟨members, rfl⟩ | hplain
    · exact ⟨Or.inl ⟨_, addClause_allOf members attr _⟩, addClause_allOf_spec doc members attr _⟩
    · obtain ⟨hstill, hsat, hkeys⟩ := addClause_plain_spec doc hplain hfree [("$gt", .null)]
      exact ⟨Or.inr hstill, hsat, hkeys⟩

/-- Binding fields one after another asks for a value at each one that the selector did not
    constrain to begin with; a field that is named twice is bound once. -/
theorem satisfied_foldl_bindField (doc : Document) {s : Selector} (hs : s.Extensible)
    (fields : List SortField) :
    Satisfied doc (fields.foldl (fun s field => s.bindField field.field) s) ↔
      Satisfied doc s ∧ ∀ field ∈ fields, s.constrains field.field = false →
        Satisfied doc (bound field.field) := by
  induction fields generalizing s with
  | nil => simp
  | cons head rest ih =>
    obtain ⟨hext, hsat, hconstrains⟩ := bindField_spec doc hs head.field
    rw [List.foldl_cons, ih hext, hsat, List.forall_mem_cons, and_assoc]
    refine and_congr_right fun _ => and_congr_right fun hhead => ?_
    refine forall₂_congr fun field _ => ?_
    rw [hconstrains, Bool.or_eq_false_iff, decide_eq_false_iff_not, and_imp]
    refine forall_congr' fun hfree => ⟨fun himp => ?_, fun hsat _ => hsat⟩
    by_cases heq : head.field = field.field
    · rw [← heq] at hfree ⊢
      exact hhead hfree
    · exact himp heq

end DocMapper.Selector
