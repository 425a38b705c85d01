import DocMapper.Proofs.Selector.Conjunction
import DocMapper.Proofs.Selector.Sameness

/-!
# Members asked in turn

The members of a conjunction are asked from left to right, and the first that does not hold
decides. Taking a conjunction apart, or leaving out a member that has the same as one in front of
it, changes neither the answer nor the failure.
-/

namespace DocMapper.Selector

/-- Ask a second question where the first is answered `true`. -/
def inTurn {ε : Type} (first second : Except ε Bool) : Except ε Bool := do
  let held ← first
  if held then second else pure false

section Questions

variable {ε : Type} {first second : Except ε Bool}

@[simp] theorem inTurn_true (second : Except ε Bool) : inTurn (.ok true) second = second := rfl

@[simp] theorem inTurn_false (second : Except ε Bool) : inTurn (.ok false) second = .ok false := rfl

theorem inTurn_of_ne_true (hfirst : first ≠ .ok true) : inTurn first second = first := by
  cases first with
  | error e => rfl
  | ok held =>
    cases held with
    | false => rfl
    | true => exact absurd rfl hfirst

theorem inTurn_answered (first : Except ε Bool) : inTurn first (.ok true) = first := by
  cases first with
  | error e => rfl
  | ok held => cases held <;> rfl

/-- The first answer that is no yes is the answer, however the turns are bracketed. -/
theorem inTurn_assoc (first second third : Except ε Bool) :
    inTurn (inTurn first second) third = inTurn first (inTurn second third) := by
  cases first with
  | error e => rfl
  | ok held => cases held <;> rfl

end Questions

/-! ## Members of conjunctions -/

/-- Every conjunction that flattening takes apart joins selectors and nothing else: a member that
    is none would be left over. -/
def Collapsible (s : Selector) : Prop :=
  ∀ members, s.conjunction? = some members → ∀ m ∈ flattenMembers members, m.isObject = true

theorem mem_flattenMembers {members : List Json} {member m : Json} (hmember : member ∈ members)
    (hm : m ∈ flattenMember member) : m ∈ flattenMembers members := by
  induction members with
  | nil => cases hmember
  | cons head rest ih =>
    rw [flattenMembers, List.mem_append]
    rcases List.mem_cons.mp hmember with rfl | hrest
    · exact Or.inl hm
    · exact Or.inr (ih hrest)

/-- A member that is no selector is left over when a conjunction is taken apart. -/
theorem isObject_of_flattenMembers {members : List Json}
    (hflat : ∀ m ∈ flattenMembers members, m.isObject = true) :
    ∀ member ∈ members, member.isObject = true := by
  intro member hmember
  cases member with
  | obj fields => rfl
  | _ => exact hflat _ (mem_flattenMembers hmember (by rw [flattenMember] <;> simp))

/-- Members are added behind those that are there. -/
theorem addMissing_eq_append (members extra : List Json) :
    ∃ added, addMissing members extra = members ++ added ∧ ∀ m ∈ added, m ∈ extra := by
  induction extra generalizing members with
  | nil => exact ⟨[], (List.append_nil members).symm, by simp⟩
  | cons head rest ih =>
    have hcons : addMissing members (head :: rest) =
        addMissing (addMissing members [head]) rest := rfl
    obtain ⟨added, heq, hmem⟩ := ih (addMissing members [head])
    rw [hcons, heq, addMissing_singleton]
    split
    · exact ⟨added, rfl, fun m hm => List.mem_cons_of_mem _ (hmem m hm)⟩
    · refine ⟨head :: added, by rw [List.append_assoc, List.singleton_append], ?_⟩
      exact List.forall_mem_cons.mpr
        ⟨List.mem_cons_self, fun m hm => List.mem_cons_of_mem _ (hmem m hm)⟩

/-! ## Answers in turn -/

variable [PatternEngine] {doc : Document}

theorem eval_cons (key : String) (clause : Json) (rest : Fields) :
    eval doc ((key, clause) :: rest) = inTurn (evalClause doc key clause) (eval doc rest) := rfl

theorem evalAll_obj (clauses : Fields) (rest : List Json) :
    evalAll doc (.obj clauses :: rest) = inTurn (eval doc clauses) (evalAll doc rest) := rfl

/-- The members in front are asked first. A member that is no selector does not hold. -/
theorem evalAll_append (front rest : List Json) :
    evalAll doc (front ++ rest) = inTurn (evalAll doc front) (evalAll doc rest) := by
  induction front with
  | nil => rfl
  | cons head front ih =>
    cases head with
    | obj clauses => rw [List.cons_append, evalAll_obj, ih, evalAll_obj, inTurn_assoc]
    | _ => rfl

/-- A conjunction asks its first member and then the rest. -/
theorem evalAll_cons (head : Json) (rest : List Json) :
    evalAll doc (head :: rest) = inTurn (evalAll doc [head]) (evalAll doc rest) :=
  evalAll_append [head] rest

/-- A conjunction asks its members, unless one of them is no selector. -/
theorem matches_allOf (members : List Json) : (allOf members).matches? doc =
    if members.all Json.isObject then evalAll doc members
    else .error (.memberNotSelector "$and") := by
  have hrole : role "$and" = .all := by decide
  have hnone : eval doc [] = .ok true := rfl
  rw [matches?, allOf, eval_cons, hnone, inTurn_answered, evalClause]
  simp only [hrole]
  rfl

/-- The clauses of a selector can be asked as members of a conjunction. -/
theorem evalAll_clauses (clauses : Fields) :
    (evalAll doc (clauses.map fun clause => .obj [clause])) = eval doc clauses := by
  have hnone : eval doc [] = .ok true := rfl
  induction clauses with
  | nil => rfl
  | cons head rest ih =>
    obtain ⟨key, clause⟩ := head
    rw [List.map_cons, evalAll_obj, ih, eval_cons, eval_cons, hnone, inTurn_answered]

/-- A selector that is answered has selectors as members, and they are answered alike. -/
theorem members_spec {s : Selector} {asked : Bool} (hmatches : s.matches? doc = .ok asked) :
    (∀ member ∈ s.members, member.isObject = true) ∧ evalAll doc s.members = .ok asked := by
  unfold members
  cases hconj : s.conjunction? with
  | some members =>
    rw [conjunction?_eq_some.mp hconj, matches_allOf] at hmatches
    split at hmatches
    · rename_i hall
      exact ⟨List.all_eq_true.mp hall, hmatches⟩
    · cases hmatches
  | none =>
    refine ⟨fun member hmem => ?_, (evalAll_clauses s.clauses).trans hmatches⟩
    obtain ⟨clause, _, rfl⟩ := List.mem_map.mp hmem
    rfl

/-! ## Nested conjunctions -/

/-- Taking conjunctions apart keeps what is asked and in which order. -/
theorem evalAll_flatten (doc : Document) :
    (∀ member, (∀ m ∈ flattenMember member, m.isObject = true) →
      evalAll doc (flattenMember member) = evalAll doc [member]) ∧
      ∀ members, (∀ m ∈ flattenMembers members, m.isObject = true) →
        evalAll doc (flattenMembers members) = evalAll doc members := by
  refine flattenMember.mutual_induct _ _ ?conjunction ?group ?other ?nil ?cons
  case conjunction =>
    intro members ih hflat
    rw [flattenMember, if_pos rfl] at hflat ⊢
    have hnone : evalAll doc [] = .ok true := rfl
    have hmatches : (allOf members).matches? doc = _ := matches_allOf members
    rw [if_pos (List.all_eq_true.mpr (isObject_of_flattenMembers hflat))] at hmatches
    rw [ih hflat, evalAll_obj, hnone, inTurn_answered]
    exact hmatches.symm
  case group =>
    intro key members hkey _
    rw [flattenMember, if_neg hkey]
  case other =>
    intro member hother _
    rw [flattenMember.eq_2 member hother]
  case nil => exact fun _ => rfl
  case cons =>
    intro member rest hmember hrest hflat
    rw [flattenMembers] at hflat ⊢
    obtain ⟨hfront, hback⟩ := List.forall_mem_append.mp hflat
    rw [evalAll_append, hmember hfront, hrest hback, ← evalAll_cons]

/-! ## Members that are there already -/

/-- A member that is the same as one that holds does hold too. -/
theorem evalAll_of_same {member other : Json} (hsame : member.same other = true)
    (hother : evalAll doc [other] = .ok true) : evalAll doc [member] = .ok true := by
  have hunsigned := Json.unsignedZeros_eq_of_same.1 member other hsame
  have hmember := ((eval_unsignedZeros doc).2.2 [member]).1
  have hitem := ((eval_unsignedZeros doc).2.2 [other]).1
  rw [Json.unsignedItems, Json.unsignedItems] at hmember hitem
  rw [← hmember, hunsigned, hitem, hother]

/-- Where all members hold, adding others that are missing asks for those others. A member left
    out is the same as one that holds. -/
theorem evalAll_addMissing {members : List Json} (hmembers : evalAll doc members = .ok true)
    (extra : List Json) : evalAll doc (addMissing members extra) = evalAll doc extra := by
  induction extra generalizing members with
  | nil => exact hmembers
  | cons head rest ih =>
    have hcons : addMissing members (head :: rest) =
        addMissing (addMissing members [head]) rest := rfl
    rw [hcons, addMissing_singleton, evalAll_cons head rest]
    split
    · rename_i hknown
      obtain ⟨other, hmem, hsame⟩ := List.any_eq_true.mp hknown
      have hother : evalAll doc [other] = .ok true :=
        evalAll_eq_true.mpr (List.forall_mem_singleton.mpr (evalAll_eq_true.mp hmembers other hmem))
      rw [ih hmembers, evalAll_of_same hsame hother, inTurn_true]
    · have hall : evalAll doc (members ++ [head]) = evalAll doc [head] := by
        rw [evalAll_append, hmembers, inTurn_true]
      by_cases hhead : evalAll doc [head] = .ok true
      · rw [ih (hall.trans hhead), hhead, inTurn_true]
      · obtain ⟨added, heq, _⟩ := addMissing_eq_append (members ++ [head]) rest
        rw [heq, evalAll_append, hall, inTurn_of_ne_true hhead, inTurn_of_ne_true hhead]

/-! ## Merged conjunctions -/

variable {base added : Selector} {members : List Json} {asked wanted : Bool}

/-- A conjunction that takes in the clauses of a base asks for both. -/
theorem matches_joined (hcollapsible : (allOf members).Collapsible)
    (hbase : base.matches? doc = .ok asked) (hadded : (allOf members).matches? doc = .ok wanted) :
    (allOf (addMissing (flattenMembers members) base.members)).matches? doc =
      .ok (asked && wanted) := by
  have hflat := hcollapsible members rfl
  obtain ⟨hobjects, hasked⟩ := members_spec hbase
  obtain ⟨missing, heq, hmissing⟩ := addMissing_eq_append (flattenMembers members) base.members
  have hall : (addMissing (flattenMembers members) base.members).all Json.isObject = true := by
    rw [heq, List.all_eq_true, List.forall_mem_append]
    exact ⟨hflat, fun m hm => hobjects m (hmissing m hm)⟩
  have hwanted : evalAll doc (flattenMembers members) = .ok wanted := by
    rw [(evalAll_flatten doc).2 members hflat]
    exact (members_spec hadded).2
  rw [matches_allOf, if_pos hall]
  cases wanted with
  | true => rw [evalAll_addMissing hwanted, hasked, Bool.and_true]
  | false => rw [heq, evalAll_append, hwanted, inTurn_false, Bool.and_false]

/-- A selector beside the clauses of a base asks for both. -/
theorem matches_beside (hbase : base.matches? doc = .ok asked)
    (hadded : added.matches? doc = .ok wanted) :
    (allOf (added.toJson :: base.members)).matches? doc = .ok (asked && wanted) := by
  obtain ⟨hobjects, hasked⟩ := members_spec hbase
  have hall : (added.toJson :: base.members).all Json.isObject = true :=
    List.all_eq_true.mpr (List.forall_mem_cons.mpr ⟨rfl, hobjects⟩)
  have hwanted : eval doc added.clauses = .ok wanted := hadded
  rw [matches_allOf, if_pos hall, toJson, evalAll_obj, hwanted, hasked]
  cases wanted with
  | true => rw [inTurn_true, Bool.and_true]
  | false => rw [inTurn_false, Bool.and_false]

end DocMapper.Selector
