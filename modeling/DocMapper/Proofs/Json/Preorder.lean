import DocMapper.Proofs.Json.Sameness

/-!
# The collation is a preorder

Values compare by the rank of their kind, and values of one kind by what they hold. Where one
value comes no later than a second and the second no later than a third, the first compares to the
third the way it compares to the second, or, where these two collate equal, the way the second
compares to the third. This one law, by induction on the first value, is transitivity and says
that values that collate equal can stand for each other. Those are the values that are equal once
all their numbers are in double precision.
-/

namespace DocMapper

/-- The orders between a first and a second value, a second and a third, and a first and a third
    fit together. -/
def Composes (front back whole : Ordering) : Prop :=
  front.isLE = true → back.isLE = true → whole = front.then back

/-- Two steps that do not descend do not descend together. -/
theorem Composes.isLE {front back whole : Ordering} (hcomposes : Composes front back whole)
    (hfront : front.isLE = true) (hback : back.isLE = true) : whole.isLE = true := by
  rw [hcomposes hfront hback, Ordering.isLE_then_iff_or]
  cases front with
  | lt => exact .inl rfl
  | eq => exact .inr ⟨rfl, hback⟩
  | gt => cases hfront

/-- A comparison of first parts that decides before one of second parts fits together where both
    do. -/
theorem Composes.lexicographic {front back whole front' back' whole' : Ordering}
    (hfirst : Composes front back whole) (hsecond : Composes front' back' whole') :
    Composes (front.then front') (back.then back') (whole.then whole') := by
  intro hfront hback
  rw [Ordering.isLE_then_iff_or] at hfront hback
  rcases hfront with rfl | ⟨rfl, hfront⟩ <;> rcases hback with rfl | ⟨rfl, hback⟩
  · rw [hfirst rfl rfl]
    rfl
  · rw [hfirst rfl rfl]
    rfl
  · rw [hfirst rfl rfl]
    cases front' with
    | gt => cases hfront
    | _ => rfl
  · rw [hfirst rfl rfl, hsecond hfront hback]
    rfl

/-- Transitive comparisons compose. -/
theorem composes_of_transCmp {α : Type} (cmp : α → α → Ordering) [Std.TransCmp cmp] (a b c : α) :
    Composes (cmp a b) (cmp b c) (cmp a c) := by
  intro hfront hback
  cases hab : cmp a b with
  | lt => exact Std.TransCmp.lt_of_lt_of_isLE hab hback
  | eq => exact Std.TransCmp.congr_left hab
  | gt =>
    rw [hab] at hfront
    cases hfront

namespace Json

/-! ## Kinds -/

/-- Two values of one kind. The two truth values are kinds of their own. -/
inductive SameKind : Json → Json → Prop
  | null : SameKind .null .null
  | bool (b : Bool) : SameKind (.bool b) (.bool b)
  | num (m n : Number) : SameKind (.num m) (.num n)
  | str (s t : String) : SameKind (.str s) (.str t)
  | arr (items others : List Json) : SameKind (.arr items) (.arr others)
  | obj (fields others : List (String × Json)) : SameKind (.obj fields) (.obj others)

theorem sameKind_of_rank_eq {a b : Json} (hrank : a.rank = b.rank) : SameKind a b := by
  rcases a with _ | ⟨_ | _⟩ | _ | _ | _ | _ <;> rcases b with _ | ⟨_ | _⟩ | _ | _ | _ | _ <;>
    first | constructor | cases hrank

/-- Values of different kinds are ordered by their kinds. -/
theorem collate_of_rank_ne {a b : Json} (hrank : a.rank ≠ b.rank) :
    a.collate b = compare a.rank b.rank := by
  cases a <;> cases b <;> first | rfl | exact absurd rfl hrank

theorem rank_le_of_isLE {a b : Json} (hle : (a.collate b).isLE = true) : a.rank ≤ b.rank := by
  by_cases hrank : a.rank = b.rank
  · exact Nat.le_of_eq hrank
  · rw [collate_of_rank_ne hrank] at hle
    exact Nat.isLE_compare.mp hle

theorem collate_of_rank_lt {a b : Json} (hrank : a.rank < b.rank) : a.collate b = .lt := by
  rw [collate_of_rank_ne (Nat.ne_of_lt hrank)]
  exact Nat.compare_eq_lt.mpr hrank

/-! ## The other way round -/

/-- Two values compare the other way round when they change places. -/
theorem collate_swap :
    (∀ a b : Json, b.collate a = (a.collate b).swap) ∧
      (∀ fields others : List (String × Json),
        collateFields others fields = (collateFields fields others).swap) ∧
      ∀ items others : List Json,
        collateItems others items = (collateItems items others).swap := by
  refine collate.mutual_induct _ _ _ ?num ?str ?arr ?obj ?other ?noItems ?moreItems ?fewerItems
    ?items ?noFields ?moreFields ?fewerFields ?fields
  case num => exact fun m n => Std.OrientedOrd.eq_swap
  case str => exact fun s t => Std.OrientedOrd.eq_swap
  case arr => exact fun items others ih => ih
  case obj => exact fun fields others ih => ih
  case other =>
    intro a b hnum hstr harr hobj
    by_cases hrank : a.rank = b.rank
    · cases sameKind_of_rank_eq hrank with
      | null => rfl
      | bool b => cases b <;> rfl
      | num m n => exact (hnum m n rfl rfl).elim
      | str s t => exact (hstr s t rfl rfl).elim
      | arr items others => exact (harr items others rfl rfl).elim
      | obj fields others => exact (hobj fields others rfl rfl).elim
    · rw [collate_of_rank_ne hrank, collate_of_rank_ne (Ne.symm hrank)]
      exact Std.OrientedOrd.eq_swap
  case noItems => rfl
  case moreItems => exact fun _ _ => rfl
  case fewerItems => exact fun _ _ => rfl
  case items =>
    intro x rest y others hhead hrest
    rw [collateItems, collateItems, Ordering.swap_then, hhead, hrest]
  case noFields => rfl
  case moreFields => exact fun _ _ => rfl
  case fewerFields => exact fun _ _ => rfl
  case fields =>
    intro k x rest l y others hhead hrest
    have hkey : compare l k = (compare k l).swap := Std.OrientedOrd.eq_swap
    rw [collateFields, collateFields, Ordering.swap_then, Ordering.swap_then, hkey, hhead, hrest]

/-! ## Three values in a row -/

/-- Where the kinds of three values are not all the same the ranks alone decide. -/
theorem composes_of_sameKind {a b c : Json}
    (hkinds : SameKind a b → SameKind b c → Composes (a.collate b) (b.collate c) (a.collate c)) :
    Composes (a.collate b) (b.collate c) (a.collate c) := by
  intro hfront hback
  have hab := rank_le_of_isLE hfront
  have hbc := rank_le_of_isLE hback
  rcases Nat.lt_or_eq_of_le hab with hlt | hab
  · rw [collate_of_rank_lt hlt, collate_of_rank_lt (Nat.lt_of_lt_of_le hlt hbc)]
    rfl
  · rcases Nat.lt_or_eq_of_le hbc with hlt | hbc
    · rw [collate_of_rank_lt hlt, collate_of_rank_lt (Nat.lt_of_le_of_lt (Nat.le_of_eq hab) hlt)]
      cases hfirst : a.collate b with
      | gt =>
        rw [hfirst] at hfront
        cases hfront
      | _ => rfl
    · exact hkinds (sameKind_of_rank_eq hab) (sameKind_of_rank_eq hbc) hfront hback

/-- The orders of three values fit together, and so do those of three lists of items or members. -/
theorem collate_composes :
    (∀ a b : Json, ∀ c, Composes (a.collate b) (b.collate c) (a.collate c)) ∧
      (∀ fields others : List (String × Json), ∀ last, Composes (collateFields fields others)
        (collateFields others last) (collateFields fields last)) ∧
      ∀ items others : List Json, ∀ last,
        Composes (collateItems items others) (collateItems others last)
          (collateItems items last) := by
  refine collate.mutual_induct _ _ _ ?num ?str ?arr ?obj ?other ?noItems ?moreItems ?fewerItems
    ?items ?noFields ?moreFields ?fewerFields ?fields
  case num =>
    refine fun m n c => composes_of_sameKind fun _ hkind => ?_
    cases hkind with
    | num _ k =>
      exact composes_of_transCmp compare m.toDouble.units n.toDouble.units k.toDouble.units
  case str =>
    refine fun s t c => composes_of_sameKind fun _ hkind => ?_
    cases hkind with
    | str _ u => exact composes_of_transCmp compare s t u
  case arr =>
    refine fun items others ih c => composes_of_sameKind fun _ hkind => ?_
    cases hkind with
    | arr _ last => exact ih last
  case obj =>
    refine fun fields others ih c => composes_of_sameKind fun _ hkind => ?_
    cases hkind with
    | obj _ last => exact ih last
  case other =>
    refine fun a b hnum hstr harr hobj c => composes_of_sameKind fun hkind hnext => ?_
    cases hkind with
    | null =>
      cases hnext
      exact fun _ _ => rfl
    | bool b =>
      cases hnext
      exact fun _ _ => by cases b <;> rfl
    | num m n => exact (hnum m n rfl rfl).elim
    | str s t => exact (hstr s t rfl rfl).elim
    | arr items others => exact (harr items others rfl rfl).elim
    | obj fields others => exact (hobj fields others rfl rfl).elim
  case noItems => exact fun last _ _ => rfl
  case moreItems =>
    intro y others last _ hback
    cases last with
    | nil => cases hback
    | cons z last => rfl
  case fewerItems =>
    intro x rest last hfront
    cases hfront
  case items =>
    intro x rest y others hhead hrest last
    cases last with
    | nil =>
      intro _ hback
      cases hback
    | cons z last =>
      rw [collateItems, collateItems, collateItems]
      exact (hhead z).lexicographic (hrest last)
  case noFields => exact fun last _ _ => rfl
  case moreFields =>
    intro y others last _ hback
    cases last with
    | nil => cases hback
    | cons z last => rfl
  case fewerFields =>
    intro x rest last hfront
    cases hfront
  case fields =>
    intro k x rest l y others hhead hrest last
    cases last with
    | nil =>
      intro _ hback
      cases hback
    | cons entry last =>
      obtain ⟨m, z⟩ := entry
      rw [collateFields, collateFields, collateFields]
      have hkey := composes_of_transCmp compare k l m
      exact (hkey.lexicographic (hhead z)).lexicographic (hrest last)

instance : Std.TransCmp collate where
  eq_swap {a b} := collate_swap.1 b a
  isLE_trans {a b c} := (collate_composes.1 a b c).isLE

/-! ## Values that tie -/

mutual

/-- The value with all its numbers in double precision, and no sign on a zero. -/
def inDoubles : Json → Json
  | .num n => .num (.float n.toDouble.unsignedZero)
  | .arr items => .arr (itemsInDoubles items)
  | .obj fields => .obj (fieldsInDoubles fields)
  | v => v
termination_by structural v => v

def itemsInDoubles : List Json → List Json
  | [] => []
  | x :: rest => inDoubles x :: itemsInDoubles rest
termination_by structural items => items

def fieldsInDoubles : List (String × Json) → List (String × Json)
  | [] => []
  | (k, x) :: rest => (k, inDoubles x) :: fieldsInDoubles rest
termination_by structural fields => fields

end

/-- Rounding to doubles keeps the kind. -/
theorem rank_inDoubles (v : Json) : v.inDoubles.rank = v.rank := by
  cases v <;> rfl

/-- Doubles are equal if they differ by the sign of zero at most. -/
theorem compare_eq_iff_unsignedZero_eq {x y : Double} :
    x.compare y = .eq ↔ x.unsignedZero = y.unsignedZero := by
  rw [Double.compare, Std.compare_eq_iff_eq]
  constructor
  · intro hunits
    exact Double.unsignedZero_eq_of_sameValue (beq_iff_eq.mpr hunits)
  · intro hsame
    rw [← Double.units_unsignedZero x, hsame, Double.units_unsignedZero]

/-- Values tie exactly when they differ in nothing but how their numbers are held. -/
theorem collate_eq_iff :
    (∀ a b : Json, a.collate b = .eq ↔ a.inDoubles = b.inDoubles) ∧
      (∀ fields others : List (String × Json), collateFields fields others = .eq ↔
        fieldsInDoubles fields = fieldsInDoubles others) ∧
      ∀ items others : List Json, collateItems items others = .eq ↔
        itemsInDoubles items = itemsInDoubles others := by
  refine collate.mutual_induct _ _ _ ?num ?str ?arr ?obj ?other ?noItems ?moreItems ?fewerItems
    ?items ?noFields ?moreFields ?fewerFields ?fields
  case num =>
    intro m n
    rw [collate, compare_eq_iff_unsignedZero_eq]
    simp [inDoubles]
  case str => simp [collate, inDoubles]
  case arr => simp [collate, inDoubles]
  case obj => simp [collate, inDoubles]
  case other =>
    intro a b hnum hstr harr hobj
    by_cases hrank : a.rank = b.rank
    · cases sameKind_of_rank_eq hrank with
      | null => simp [collate]
      | bool b => cases b <;> simp [collate]
      | num m n => exact (hnum m n rfl rfl).elim
      | str s t => exact (hstr s t rfl rfl).elim
      | arr items others => exact (harr items others rfl rfl).elim
      | obj fields others => exact (hobj fields others rfl rfl).elim
    · refine iff_of_false ?_ fun hsame => hrank ?_
      · rw [collate_of_rank_ne hrank, Std.compare_eq_iff_eq]
        exact hrank
      · rw [← rank_inDoubles a, hsame, rank_inDoubles]
  case noItems => simp [collateItems]
  case moreItems => simp [collateItems, itemsInDoubles]
  case fewerItems => simp [collateItems, itemsInDoubles]
  case items =>
    intro x rest y others hhead hrest
    rw [collateItems, Ordering.then_eq_eq, hhead, hrest, itemsInDoubles, itemsInDoubles,
      List.cons.injEq]
  case noFields => simp [collateFields]
  case moreFields => simp [collateFields, fieldsInDoubles]
  case fewerFields => simp [collateFields, fieldsInDoubles]
  case fields =>
    intro k x rest l y others hhead hrest
    rw [collateFields, Ordering.then_eq_eq, Ordering.then_eq_eq, Std.compare_eq_iff_eq, hhead, hrest,
      fieldsInDoubles, fieldsInDoubles, List.cons.injEq, Prod.mk.injEq]

end Json

end DocMapper
