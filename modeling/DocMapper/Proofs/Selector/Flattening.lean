import DocMapper.Proofs.Selector.Merge

/-!
# Flattened conjunctions

A conjunction is a tree: its members are leaves, or conjunctions again. A path of positions leads
through directly nested conjunctions, and paths compare from left to right. Main statement:
flattening lists the leaves of the tree in the order of their paths, and no selector that joins
selectors only changes its meaning by it.
-/

namespace DocMapper.Selector

/-! ## Nested conjunctions -/

/-- The members of a value that is one conjunction and nothing else. -/
def joined? : Json → Option (List Json)
  | .obj clauses => conjunction? ⟨clauses⟩
  | _ => none

/-- What a path leads to: every position is one among the members of the conjunction that the
    positions in front of it lead to. -/
def nested? (member : Json) : List Nat → Option Json
  | [] => some member
  | i :: path => do
    let members ← joined? member
    let inner ← members[i]?
    nested? inner path

/-- What a path leads to from the members of a conjunction. -/
def nestedIn? (members : List Json) : List Nat → Option Json
  | [] => none
  | i :: path => do
    let inner ← members[i]?
    nested? inner path

/-- All that is joined, at whatever depth, is a selector. -/
def JoinsSelectors (s : Selector) : Prop :=
  ∀ path member, nested? s.toJson path = some member → member.isObject = true

/-- The values are what the paths that end outside conjunctions lead to: all of them, from left to
    right. -/
def ListsLeaves (reached? : List Nat → Option Json) (leaves : List Json) : Prop :=
  ∃ paths : List (List Nat), paths.Pairwise (· < ·) ∧
    (∀ path, path ∈ paths ↔ ∃ leaf, reached? path = some leaf ∧ joined? leaf = none) ∧
    paths.map reached? = leaves.map some

variable {member head leaf : Json} {members rest leaves front back : List Json}
  {reached? : List Nat → Option Json} {path : List Nat} {paths : List (List Nat)} {s : Selector}

theorem joined?_eq_some : joined? member = some members ↔ member = (allOf members).toJson := by
  cases member with
  | obj clauses =>
    rw [joined?, conjunction?_eq_some, toJson, Json.obj.injEq]
    exact ⟨congrArg Selector.clauses, congrArg Selector.mk⟩
  | _ => simp [joined?, toJson]

theorem joined?_eq_none_iff :
    joined? member = none ↔ ∀ members, member ≠ (allOf members).toJson := by
  rw [Option.eq_none_iff_forall_not_mem]
  exact forall_congr' fun members => not_congr joined?_eq_some

theorem nested?_of_joined (hjoined : joined? member = some members) (hpath : path ≠ []) :
    nested? member path = nestedIn? members path := by
  cases path with
  | nil => exact absurd rfl hpath
  | cons i path =>
    rw [nested?, hjoined]
    rfl

/-- No path leads on from a value that is no conjunction. -/
theorem nested?_eq_some_of_not_joined (hleaf : joined? leaf = none) :
    nested? leaf path = some member ↔ path = [] ∧ member = leaf := by
  cases path with
  | nil => simp [nested?, eq_comm]
  | cons i path => simp [nested?, hleaf]

/-! ## Leaves from left to right -/

/-- Listed are the nested members that are no conjunctions. -/
theorem ListsLeaves.mem_iff (hlists : ListsLeaves reached? leaves) :
    leaf ∈ leaves ↔ ∃ path, reached? path = some leaf ∧ joined? leaf = none := by
  obtain ⟨paths, _, hpaths, hleaves⟩ := hlists
  have hmem : leaf ∈ leaves ↔ some leaf ∈ paths.map reached? := by
    rw [hleaves]
    simp
  rw [hmem, List.mem_map]
  constructor
  · rintro ⟨path, hpath, hreached⟩
    obtain ⟨found, hfound, hnone⟩ := (hpaths path).mp hpath
    cases hreached.symm.trans hfound
    exact ⟨path, hreached, hnone⟩
  · rintro ⟨path, hreached, hnone⟩
    exact ⟨path, (hpaths path).mpr ⟨leaf, hreached, hnone⟩, hreached⟩

theorem listsLeaves_of_not_joined (hleaf : joined? leaf = none) :
    ListsLeaves (nested? leaf) [leaf] := by
  refine ⟨[[]], List.pairwise_singleton _ _, fun path => ?_, rfl⟩
  simp only [List.mem_singleton, nested?_eq_some_of_not_joined hleaf]
  constructor
  · intro hpath
    exact ⟨leaf, ⟨hpath, rfl⟩, hleaf⟩
  · rintro ⟨_, ⟨hpath, _⟩, _⟩
    exact hpath

/-- No path from the members of a conjunction is empty. -/
theorem ne_nil_of_nestedIn? (hpaths : ∀ path, path ∈ paths ↔
    ∃ leaf, nestedIn? members path = some leaf ∧ joined? leaf = none) :
    ∀ path ∈ paths, path ≠ [] := by
  rintro path hpath rfl
  obtain ⟨_, hfound, _⟩ := (hpaths []).mp hpath
  cases hfound

/-- A conjunction has the leaves of its members. -/
theorem ListsLeaves.of_joined (hjoined : joined? member = some members)
    (hlists : ListsLeaves (nestedIn? members) leaves) : ListsLeaves (nested? member) leaves := by
  obtain ⟨paths, hordered, hpaths, hleaves⟩ := hlists
  have hnonempty := ne_nil_of_nestedIn? hpaths
  refine ⟨paths, hordered, fun path => ?_, ?_⟩
  · by_cases hpath : path = []
    · subst hpath
      refine ⟨fun hmem => absurd rfl (hnonempty [] hmem), ?_⟩
      rintro ⟨found, hfound, hnone⟩
      cases hfound
      rw [hjoined] at hnone
      cases hnone
    · rw [hpaths, nested?_of_joined hjoined hpath]
  · rw [← hleaves]
    exact List.map_congr_left fun path hpath => nested?_of_joined hjoined (hnonempty path hpath)

theorem listsLeaves_nil : ListsLeaves (nestedIn? []) [] := by
  refine ⟨[], List.Pairwise.nil, fun path => ?_, rfl⟩
  cases path <;> simp [nestedIn?]

/-- The path from one member further to the right. -/
def further : List Nat → List Nat
  | [] => []
  | i :: path => (i + 1) :: path

theorem further_lt_further {path other : List Nat} (hlt : path < other) :
    further path < further other := by
  cases hlt with
  | nil => exact .nil
  | rel hlt => exact .rel (Nat.succ_lt_succ hlt)
  | cons hlt => exact .cons hlt

theorem nestedIn?_further (head : Json) (rest : List Json) (path : List Nat) :
    nestedIn? (head :: rest) (further path) = nestedIn? rest path := by
  cases path <;> rfl

/-- The leaves of the first member come before those of the others. -/
theorem ListsLeaves.cons (hhead : ListsLeaves (nested? head) front)
    (hrest : ListsLeaves (nestedIn? rest) back) :
    ListsLeaves (nestedIn? (head :: rest)) (front ++ back) := by
  obtain ⟨paths, hordered, hpaths, hfront⟩ := hhead
  obtain ⟨others, hordered', hothers, hback⟩ := hrest
  have hnonempty := ne_nil_of_nestedIn? hothers
  -- Paths to the leaves of the first member begin with its position, all others move on by one.
  refine ⟨paths.map (0 :: ·) ++ others.map further, ?_, fun path => ?_, ?_⟩
  · refine List.pairwise_append.mpr ⟨?_, ?_, ?_⟩
    · exact List.pairwise_map.mpr (hordered.imp fun hlt => .cons hlt)
    · exact List.pairwise_map.mpr (hordered'.imp further_lt_further)
    · intro first hfirst second hsecond
      obtain ⟨path, _, rfl⟩ := List.mem_map.mp hfirst
      obtain ⟨other, hother, rfl⟩ := List.mem_map.mp hsecond
      cases other with
      | nil => exact absurd rfl (hnonempty [] hother)
      | cons i other => exact .rel (Nat.succ_pos i)
  · rw [List.mem_append, List.mem_map, List.mem_map]
    constructor
    · rintro (⟨path, hpath, rfl⟩ | ⟨other, hother, rfl⟩)
      · exact (hpaths path).mp hpath
      · rw [nestedIn?_further]
        exact (hothers other).mp hother
    · rintro ⟨leaf, hreached, hleaf⟩
      cases path with
      | nil => cases hreached
      | cons i path =>
        cases i with
        | zero => exact .inl ⟨path, (hpaths path).mpr ⟨leaf, hreached, hleaf⟩, rfl⟩
        | succ i => exact .inr ⟨i :: path, (hothers _).mpr ⟨leaf, hreached, hleaf⟩, rfl⟩
  · rw [List.map_append, List.map_map, List.map_map, List.map_append, ← hfront, ← hback]
    exact congrArg _ (List.map_congr_left fun path _ => nestedIn?_further head rest path)

/-- Flattening lists the leaves of a member, and those of the members of a conjunction. -/
theorem listsLeaves_flatten :
    (∀ member, ListsLeaves (nested? member) (flattenMember member)) ∧
      ∀ members, ListsLeaves (nestedIn? members) (flattenMembers members) := by
  refine flattenMember.mutual_induct _ _ ?conjunction ?group ?other ?nil ?cons
  case conjunction =>
    intro members hmembers
    rw [flattenMember, if_pos rfl]
    exact hmembers.of_joined (joined?_eq_some.mpr rfl)
  case group =>
    intro key members hkey
    rw [flattenMember, if_neg hkey]
    refine listsLeaves_of_not_joined (joined?_eq_none_iff.mpr fun joined heq => hkey ?_)
    cases heq
    rfl
  case other =>
    intro member hother
    rw [flattenMember.eq_2 member hother]
    exact listsLeaves_of_not_joined (joined?_eq_none_iff.mpr fun joined => hother _ joined)
  case nil => exact listsLeaves_nil
  case cons =>
    intro member rest hmember hrest
    exact hmember.cons hrest

/-! ## Flattening as a normal form -/

theorem flatten_of_conjunction (hconj : s.conjunction? = some members) :
    s.flatten = allOf (flattenMembers members) := by
  rw [flatten, hconj]

theorem flatten_of_no_conjunction (hconj : s.conjunction? = none) : s.flatten = s := by
  rw [flatten, hconj]

/-- No member of a flattened conjunction is a conjunction. -/
theorem not_joined_of_mem_flattenMembers (hmem : leaf ∈ flattenMembers members) :
    joined? leaf = none := by
  obtain ⟨_, _, hleaf⟩ := (listsLeaves_flatten.2 members).mem_iff.mp hmem
  exact hleaf

theorem flattenMember_of_not_joined (hleaf : joined? leaf = none) :
    flattenMember leaf = [leaf] := by
  cases leaf with
  | obj clauses => exact flattenMember_of_no_conjunction hleaf
  | _ => rfl

/-- Members that are no conjunctions stay as they are. -/
theorem flattenMembers_of_not_joined (hleaves : ∀ leaf ∈ leaves, joined? leaf = none) :
    flattenMembers leaves = leaves := by
  induction leaves with
  | nil => rfl
  | cons leaf leaves ih =>
    obtain ⟨hleaf, hleaves⟩ := List.forall_mem_cons.mp hleaves
    rw [flattenMembers, flattenMember_of_not_joined hleaf, ih hleaves, List.singleton_append]

/-- Flattening twice is flattening once. -/
theorem flatten_flatten (s : Selector) : s.flatten.flatten = s.flatten := by
  cases hconj : s.conjunction? with
  | none => rw [flatten_of_no_conjunction hconj, flatten_of_no_conjunction hconj]
  | some members =>
    rw [flatten_of_conjunction hconj, flatten_of_conjunction rfl,
      flattenMembers_of_not_joined fun _ => not_joined_of_mem_flattenMembers]

/-- Below a flattened selector there are no conjunctions. -/
theorem not_joined_of_nested?_flatten (hpath : path ≠ [])
    (hnested : nested? s.flatten.toJson path = some member) : joined? member = none := by
  cases hconj : s.conjunction? with
  | none =>
    have hleaf : joined? s.toJson = none := hconj
    rw [flatten_of_no_conjunction hconj, nested?_eq_some_of_not_joined hleaf] at hnested
    exact absurd hnested.1 hpath
  | some members =>
    rw [flatten_of_conjunction hconj, nested?_of_joined rfl hpath] at hnested
    cases path with
    | nil => cases hnested
    | cons i path =>
      obtain ⟨inner, hinner, hnested⟩ := Option.bind_eq_some_iff.mp hnested
      have hleaf := not_joined_of_mem_flattenMembers (List.mem_of_getElem? hinner)
      obtain ⟨_, rfl⟩ := (nested?_eq_some_of_not_joined hleaf).mp hnested
      exact hleaf

/-- What is joined is a selector exactly where nothing else is left over. -/
theorem joinsSelectors_iff_collapsible : s.JoinsSelectors ↔ s.Collapsible := by
  have hlists : ∀ members, s.conjunction? = some members →
      ListsLeaves (nested? s.toJson) (flattenMembers members) :=
    fun members hconj => (listsLeaves_flatten.2 members).of_joined hconj
  constructor
  · intro hjoins members hconj leaf hleaf
    obtain ⟨path, hreached, _⟩ := (hlists members hconj).mem_iff.mp hleaf
    exact hjoins path leaf hreached
  · intro hcollapsible path member hreached
    cases hjoined : joined? member with
    | some members =>
      rw [joined?_eq_some.mp hjoined]
      rfl
    | none =>
      cases hconj : s.conjunction? with
      | some members =>
        exact hcollapsible members hconj member
          ((hlists members hconj).mem_iff.mpr ⟨path, hreached, hjoined⟩)
      | none =>
        have hleaf : joined? s.toJson = none := hconj
        obtain ⟨_, rfl⟩ := (nested?_eq_some_of_not_joined hleaf).mp hreached
        rfl

/-- Flattening keeps the answer and the failure. -/
theorem matches_flatten [PatternEngine] (hjoins : s.JoinsSelectors) (doc : Document) :
    s.flatten.matches? doc = s.matches? doc := by
  cases hconj : s.conjunction? with
  | none => rw [flatten_of_no_conjunction hconj]
  | some members =>
    have hflat := joinsSelectors_iff_collapsible.mp hjoins members hconj
    rw [flatten_of_conjunction hconj, conjunction?_eq_some.mp hconj, matches_allOf, matches_allOf,
      if_pos (List.all_eq_true.mpr hflat), (evalAll_flatten doc).2 members hflat,
      if_pos (List.all_eq_true.mpr (isObject_of_flattenMembers hflat))]

/-- Flattening is a normal form. It keeps the meaning of a selector that joins selectors only, the
    failures included; there is no conjunction directly below the one it makes; what it joins is
    the leaves of the nested conjunctions from left to right; and a selector that is no conjunction,
    as well as one that is flattened already, stays as it is. -/
theorem flatten_normalizes [PatternEngine] (s : Selector) :
    (s.JoinsSelectors → ∀ doc, s.flatten.matches? doc = s.matches? doc) ∧
      (∀ path member, path ≠ [] → nested? s.flatten.toJson path = some member →
        joined? member = none) ∧
      (∀ members, s.conjunction? = some members → ∃ leaves,
        s.flatten = allOf leaves ∧ ListsLeaves (nested? s.toJson) leaves) ∧
      s.flatten.flatten = s.flatten ∧
      (s.conjunction? = none → s.flatten = s) := by
  refine ⟨matches_flatten, fun path member hpath hnested => ?_, fun members hconj => ?_,
    flatten_flatten s, flatten_of_no_conjunction⟩
  · exact not_joined_of_nested?_flatten hpath hnested
  · exact ⟨flattenMembers members, flatten_of_conjunction hconj,
      (listsLeaves_flatten.2 members).of_joined hconj⟩

/-- A conjunction of nested ones, one of them empty, with a disjunction and a conjunction beside a
    further clause among its leaves. -/
def nestedHeat : Selector := ⟨[("$and", .arr [
  .obj [("$and", .arr [
    .obj [("heat", .obj [("$gt", .str "cold")])],
    .obj [("$and", .arr [])],
    .obj [("$or", .arr [.obj [("$and", .arr [.obj [("size", .str "xl")]])]])]])],
  .obj [("$and", .arr [.obj [("kind", .str "tea")]]), ("size", .str "xl")]])]⟩

/-- A warm tea of the largest size. -/
def warmTea : Document := [("heat", .str "warm"), ("kind", .str "tea"), ("size", .str "xl")]

theorem flatten_normalizes_nestedHeat :
    nestedHeat.JoinsSelectors ∧ nestedHeat.matches? warmTea = .ok true ∧
      nestedHeat.flatten.matches? warmTea = .ok true ∧
      ∃ leaves, nestedHeat.flatten = allOf leaves ∧ leaves.length = 3 ∧
        ListsLeaves (nested? nestedHeat.toJson) leaves := by
  have hjoins : nestedHeat.JoinsSelectors := by
    refine joinsSelectors_iff_collapsible.mpr fun members hmembers => ?_
    cases hmembers
    decide
  have hasked : nestedHeat.matches? warmTea = .ok true := rfl
  obtain ⟨hmeaning, _, hleaves, _, _⟩ := flatten_normalizes nestedHeat
  obtain ⟨leaves, hflatten, hlists⟩ := hleaves _ rfl
  refine ⟨hjoins, hasked, (hmeaning hjoins warmTea).trans hasked, leaves, hflatten, ?_, hlists⟩
  cases hflatten
  rfl

end DocMapper.Selector
