import DocMapper.Proofs.Dict.Entries
import DocMapper.Selector.Conjunction
import DocMapper.Selector.Matching

/-!
# Satisfied selectors

A document satisfies a selector when matching answers `true`, so a selector that means nothing
is satisfied by no document. Satisfaction forgets the order in which clauses are asked: all of
them have to hold. A conjunction is satisfied when its members are, and neither flattening it nor
adding members to it one by one changes which documents that are.
-/

namespace DocMapper.Selector

/-- Asking two questions in turn answers `true` exactly when both do. -/
theorem ask_both_eq_true {ε : Type} {first second : Except ε Bool} :
    (do let held ← first; if held then second else pure false) = .ok true ↔
      first = .ok true ∧ second = .ok true := by
  cases first with
  | error e => simp [bind, Except.bind]
  | ok held => cases held <;> simp [bind, Except.bind, pure, Except.pure]

section Satisfied

variable [PatternEngine]

/-- Matching a document against the selector answers `true`. -/
def Satisfied (doc : Document) (s : Selector) : Prop := s.matches? doc = .ok true

/-- A member of a conjunction is a selector that the document satisfies. -/
def MemberSatisfied (doc : Document) (member : Json) : Prop :=
  ∃ clauses, member = .obj clauses ∧ Satisfied doc ⟨clauses⟩

theorem memberSatisfied_obj {doc : Document} {clauses : Fields} :
    MemberSatisfied doc (.obj clauses) ↔ Satisfied doc ⟨clauses⟩ := by
  constructor
  · rintro ⟨_, heq, hsat⟩
    cases heq
    exact hsat
  · intro hsat
    exact ⟨clauses, rfl, hsat⟩

/-- A document satisfies a selector exactly when each clause answers `true`. -/
theorem satisfied_iff_forall_clause {doc : Document} {clauses : Fields} :
    Satisfied doc ⟨clauses⟩ ↔
      ∀ clause ∈ clauses, evalClause doc clause.1 clause.2 = .ok true := by
  unfold Satisfied matches?
  induction clauses with
  | nil => simp [eval]
  | cons head rest ih =>
    obtain ⟨key, clause⟩ := head
    rw [eval, ask_both_eq_true, ih, List.forall_mem_cons]

theorem satisfied_singleton {doc : Document} {key : String} {clause : Json} :
    Satisfied doc ⟨[(key, clause)]⟩ ↔ evalClause doc key clause = .ok true := by
  simp [satisfied_iff_forall_clause]

/-- A new clause is asked for beside those that are there, wherever its key sorts. -/
theorem satisfied_insert_of_absent {doc : Document} {s : Selector} {key : String}
    (clause : Json) (habsent : s.clauses.contains key = false) :
    Satisfied doc (s.insert key clause) ↔ Satisfied doc s ∧ Satisfied doc ⟨[(key, clause)]⟩ := by
  obtain ⟨clauses⟩ := s
  rw [satisfied_singleton, insert, satisfied_iff_forall_clause, satisfied_iff_forall_clause]
  simp only [Dict.mem_insert_of_absent clause habsent]
  constructor
  · intro hall
    exact ⟨fun entry hmem => hall entry (Or.inr hmem), hall _ (Or.inl rfl)⟩
  · rintro ⟨hrest, hclause⟩ entry (rfl | hmem)
    · exact hclause
    · exact hrest entry hmem

/-! ## Conjunctions -/

variable {doc : Document}

theorem evalAll_eq_true {members : List Json} :
    evalAll doc members = .ok true ↔ ∀ member ∈ members, MemberSatisfied doc member := by
  induction members with
  | nil => simp [evalAll]
  | cons head rest ih =>
    rw [List.forall_mem_cons]
    cases head with
    | obj clauses =>
      rw [evalAll, ask_both_eq_true, ih, memberSatisfied_obj]
      rfl
    | _ => simp [evalAll, MemberSatisfied]

/-- A conjunction with a member that is no selector means nothing, and no document satisfies
    such a member, so the members alone decide. -/
theorem satisfied_allOf {members : List Json} :
    Satisfied doc (allOf members) ↔ ∀ member ∈ members, MemberSatisfied doc member := by
  have hrole : role "$and" = .all := by decide
  rw [allOf, satisfied_singleton, evalClause]
  simp only [hrole]
  by_cases hall : members.all Json.isObject = true
  · rw [if_pos hall, evalAll_eq_true]
  · rw [if_neg hall]
    constructor
    · intro herror
      cases herror
    · intro hsat
      refine absurd (List.all_eq_true.mpr ?_) hall
      intro member hmem
      obtain ⟨clauses, rfl, _⟩ := hsat member hmem
      rfl

/-- Two selectors joined by a conjunction are both asked for. -/
theorem satisfied_group_and {left right : Selector} :
    Satisfied doc (group .and [left, right]) ↔ Satisfied doc left ∧ Satisfied doc right := by
  have hgroup : group .and [left, right] = allOf [left.toJson, right.toJson] := rfl
  rw [hgroup, satisfied_allOf, List.forall_mem_cons, List.forall_mem_singleton]
  exact and_congr memberSatisfied_obj memberSatisfied_obj

/-- A member that is itself a conjunction is satisfied when the members it gives way to are, and
    so are the members of a conjunction with conjunctions in it. -/
theorem flatten_satisfied (doc : Document) :
    (∀ member, (∀ m ∈ flattenMember member, MemberSatisfied doc m) ↔ MemberSatisfied doc member) ∧
      ∀ members, (∀ m ∈ flattenMembers members, MemberSatisfied doc m) ↔
        ∀ m ∈ members, MemberSatisfied doc m := by
  refine flattenMember.mutual_induct _ _ ?conjunction ?group ?other ?nil ?cons
  case conjunction =>
    intro members ih
    rw [flattenMember, if_pos rfl, ih, memberSatisfied_obj]
    exact satisfied_allOf.symm
  case group =>
    intro key members hkey
    rw [flattenMember, if_neg hkey, List.forall_mem_singleton]
  case other =>
    intro member hother
    rw [flattenMember.eq_2 member hother, List.forall_mem_singleton]
  case nil => simp [flattenMembers]
  case cons =>
    intro member rest hmember hrest
    rw [flattenMembers, List.forall_mem_append, List.forall_mem_cons, hmember, hrest]

end Satisfied

/-! ## Members and groups -/

/-- Adding a member asks for it, unless a member of the same value is there already. -/
theorem addMissing_singleton (members : List Json) (m : Json) :
    addMissing members [m] = if members.any m.same then members else members ++ [m] := rfl

/-- A member that is asked for anyhow can be added without asking for more. -/
theorem forall_mem_addMissing_singleton {P : Json → Prop} {members : List Json} {m : Json}
    (himplied : (∀ member ∈ members, P member) → P m) :
    (∀ member ∈ addMissing members [m], P member) ↔ ∀ member ∈ members, P member := by
  rw [addMissing_singleton]
  split
  · rfl
  · rw [List.forall_mem_append, List.forall_mem_singleton]
    exact and_iff_left_of_imp himplied

/-- Adding a member that is there already makes no other property hold of some member. -/
theorem any_addMissing_of_mem {members : List Json} {m : Json} (hmem : m ∈ members)
    (p : Json → Bool) : (addMissing members [m]).any p = members.any p := by
  rw [addMissing_singleton]
  split
  · rfl
  · rw [List.any_append, List.any_cons, List.any_nil, Bool.or_false]
    cases hp : p m with
    | false => exact Bool.or_false _
    | true => rw [List.any_eq_true.mpr ⟨m, hmem, hp⟩, Bool.true_or]

theorem token_of_ofToken? {token : String} {op : GroupOperator}
    (htoken : GroupOperator.ofToken? token = some op) : token = op.token := by
  unfold GroupOperator.ofToken? at htoken
  split at htoken
  · rename_i hand
    cases htoken
    exact hand
  · split at htoken
    · rename_i hor
      cases htoken
      exact hor
    · cases htoken

/-- A single group has its operator's key and nothing beside it. -/
theorem singleGroup?_eq_some {s : Selector} {op : GroupOperator} {members : List Json} :
    s.singleGroup? = some (op, members) ↔ s = ⟨[(op.token, .arr members)]⟩ := by
  obtain ⟨clauses⟩ := s
  constructor
  · intro hgroup
    unfold singleGroup? at hgroup
    split at hgroup
    · rename_i key inner hclauses
      obtain ⟨found, htoken, heq⟩ := Option.map_eq_some_iff.mp hgroup
      cases heq
      dsimp only at hclauses
      rw [hclauses, token_of_ofToken? htoken]
    · cases hgroup
  · intro heq
    cases heq
    simp [singleGroup?, GroupOperator.ofToken?_token]

theorem conjunction?_eq_some {s : Selector} {members : List Json} :
    s.conjunction? = some members ↔ s = allOf members := by
  constructor
  · intro hconj
    unfold conjunction? at hconj
    split at hconj
    · rename_i hgroup
      cases hconj
      exact singleGroup?_eq_some.mp hgroup
    · cases hconj
  · rintro rfl
    rfl

end DocMapper.Selector
