import DocMapper.Proofs.Json.Preorder
import DocMapper.Store.Memory

/-!
# The order of documents

Documents compare by the collation of their values at the sort fields, field after field, each in
its own direction. Main statement: the collation is a total preorder on all values, and so is the
order of documents by any list of fields, whichever of them a document lacks. That is what the sort
of an answer relies on.
-/

namespace DocMapper

open Json

/-- The laws of a comparison that sorts: everything ties with itself, two things compare the other
    way round when they change places, what comes no later than something that comes no later than
    a third comes no later than the third, and what ties can stand for each other. -/
structure IsPreorder {α : Type} (cmp : α → α → Ordering) : Prop where
  refl : ∀ a, cmp a a = .eq
  swap : ∀ a b, cmp b a = (cmp a b).swap
  trans : ∀ a b c, cmp a b ≠ .gt → cmp b c ≠ .gt → cmp a c ≠ .gt
  congr : ∀ a b, cmp a b = .eq → ∀ c, cmp a c = cmp b c ∧ cmp c a = cmp c b

theorem isPreorder_of_transCmp {α : Type} (cmp : α → α → Ordering) [Std.TransCmp cmp] :
    IsPreorder cmp where
  refl _ := Std.ReflCmp.compare_self
  swap _ _ := Std.OrientedCmp.eq_swap
  trans _ _ _ hab hbc := Ordering.isLE_iff_ne_gt.mp
    (Std.TransCmp.isLE_trans (Ordering.isLE_iff_ne_gt.mpr hab) (Ordering.isLE_iff_ne_gt.mpr hbc))
  congr _ _ htie _ := ⟨Std.TransCmp.congr_left htie, Std.TransCmp.congr_right htie⟩

/-! ## Fields -/

instance : Std.TransCmp collateOptional where
  eq_swap {a b} := by
    cases a <;> cases b
    case some.some v w => exact collate_swap.1 w v
    all_goals rfl
  isLE_trans {a b c} hab hbc := by
    cases a <;> cases b <;> cases c
    case some.some.some u v w => exact (collate_composes.1 u v w).isLE hab hbc
    all_goals first | rfl | cases hab | cases hbc

namespace MemoryStore

theorem compareAt_asc (field : String) (a b : Document) :
    compareAt a b ⟨field, .asc⟩ = collateOptional (a.at? field) (b.at? field) := rfl

/-- Descending is ascending with the two documents in each other's place. -/
theorem compareAt_desc (field : String) (a b : Document) :
    compareAt a b ⟨field, .desc⟩ = compareAt b a ⟨field, .asc⟩ :=
  Std.OrientedCmp.eq_swap.symm

instance (field : String) : Std.TransCmp fun a b => compareAt a b ⟨field, .asc⟩ where
  eq_swap {a b} := by
    rw [compareAt_asc, compareAt_asc]
    exact Std.OrientedCmp.eq_swap
  isLE_trans {a b c} hab hbc := by
    rw [compareAt_asc] at hab hbc ⊢
    exact Std.TransCmp.isLE_trans hab hbc

instance (s : SortField) : Std.TransCmp fun a b => compareAt a b s := by
  obtain ⟨field, direction⟩ := s
  cases direction with
  | asc => infer_instance
  | desc =>
    simp only [compareAt_desc]
    infer_instance

instance (sort : List SortField) : Std.TransCmp fun a b => compareBy a b sort := by
  induction sort with
  | nil => exact { eq_swap := rfl, isLE_trans := fun _ _ => rfl }
  | cons s rest ih =>
    exact inferInstanceAs (Std.TransCmp (compareLex (fun a b => compareAt a b s)
      fun a b => compareBy a b rest))

/-- The collation is a total preorder on all values, numbers by what they are in double precision.
    Values tie only when nothing but how their numbers are held tells them apart. The order of
    documents by any list of fields, each in its own direction, is a total preorder too, whether the
    documents have the fields or not. -/
theorem collation_sorts :
    IsPreorder Json.collate ∧
      (∀ m n : Number, Json.collate (.num m) (.num n) =
        compare m.toDouble.units n.toDouble.units) ∧
      (∀ a b : Json, a.collate b = .eq ↔ a.inDoubles = b.inDoubles) ∧
      ∀ sort : List SortField, IsPreorder fun a b => compareBy a b sort := by
  refine ⟨isPreorder_of_transCmp _, fun m n => ?_, collate_eq_iff.1, fun sort => ?_⟩
  · rw [Json.collate, Double.compare]
  · exact isPreorder_of_transCmp _

/-! ## What comes first -/

/-- Two values tie when both are missing, or both are there and collate equal. -/
def Ties : Option Json → Option Json → Prop
  | none, none => True
  | some v, some w => v.collate w = .eq
  | _, _ => False

/-- Ascending, a value comes before those that collate greater, and a missing one before every
    value. Descending it is the other way round. -/
def Before : Direction → Option Json → Option Json → Prop
  | .asc, none, some _ | .desc, some _, none => True
  | .asc, some v, some w => v.collate w = .lt
  | .desc, some v, some w => v.collate w = .gt
  | _, _, _ => False

/-- The documents tie at every field. -/
def TieAt (sort : List SortField) (a b : Document) : Prop :=
  ∀ s ∈ sort, Ties (a.at? s.field) (b.at? s.field)

/-- The documents tie at the fields in front of one at which the first comes before the second. -/
def Precedes (sort : List SortField) (a b : Document) : Prop :=
  ∃ front s back, sort = front ++ s :: back ∧ TieAt front a b ∧
    Before s.direction (a.at? s.field) (b.at? s.field)

variable {a b : Document}

theorem compareAt_eq_iff {s : SortField} :
    compareAt a b s = .eq ↔ Ties (a.at? s.field) (b.at? s.field) := by
  obtain ⟨field, direction⟩ := s
  unfold compareAt
  cases a.at? field <;> cases b.at? field <;> cases direction <;> simp [collateOptional, Ties]

theorem compareAt_lt_iff {s : SortField} :
    compareAt a b s = .lt ↔ Before s.direction (a.at? s.field) (b.at? s.field) := by
  obtain ⟨field, direction⟩ := s
  unfold compareAt
  cases a.at? field <;> cases b.at? field <;> cases direction <;> simp [collateOptional, Before]

/-- Documents compare equal if they tie at every sort field. -/
theorem compareBy_eq_iff {sort : List SortField} : compareBy a b sort = .eq ↔ TieAt sort a b := by
  induction sort with
  | nil => simp [compareBy, TieAt]
  | cons s rest ih => rw [compareBy, Ordering.then_eq_eq, compareAt_eq_iff, ih, TieAt, TieAt,
      List.forall_mem_cons]

/-- The first field at which two documents do not tie decides. -/
theorem compareBy_lt_iff {sort : List SortField} :
    compareBy a b sort = .lt ↔ Precedes sort a b := by
  induction sort with
  | nil => simp [compareBy, Precedes]
  | cons s rest ih =>
    rw [compareBy, Ordering.then_eq_lt, compareAt_lt_iff, compareAt_eq_iff, ih]
    constructor
    · rintro (hbefore | ⟨hties, front, t, back, rfl, hfront, hbefore⟩)
      · exact ⟨[], s, rest, rfl, List.forall_mem_nil _, hbefore⟩
      · exact ⟨s :: front, t, back, rfl, List.forall_mem_cons.mpr ⟨hties, hfront⟩, hbefore⟩
    · rintro ⟨front, t, back, heq, hfront, hbefore⟩
      cases front with
      | nil =>
        cases heq
        exact .inl hbefore
      | cons head front =>
        cases heq
        obtain ⟨hties, hfront⟩ := List.forall_mem_cons.mp hfront
        exact .inr ⟨hties, front, t, back, rfl, hfront, hbefore⟩

end MemoryStore

end DocMapper
