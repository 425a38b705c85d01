import DocMapper.Json.Collation

/-!
# Values that are the same

Two values are the same exactly when they become equal once no zero has a sign. The collation
does not see signs of zeros, so the same values stand at the same place in it.
-/

namespace DocMapper

namespace Double

/-- The number without the sign of a zero. -/
def unsignedZero (x : Double) : Double := if x.magnitude = 0 then zero else x

theorem units_unsignedZero (x : Double) : x.unsignedZero.units = x.units := by
  unfold unsignedZero
  split
  · rename_i hzero
    simp [units, zero, hzero]
  · rfl

/-- Doubles of one value differ by the sign of zero at most. -/
theorem unsignedZero_eq_of_sameValue {x y : Double} (hsame : x.sameValue y = true) :
    x.unsignedZero = y.unsignedZero := by
  obtain ⟨negative, m, hm⟩ := x
  obtain ⟨other, n, hn⟩ := y
  have hunits := eq_of_beq hsame
  simp only [units] at hunits
  have hmagnitude : m = n := by
    split at hunits <;> split at hunits <;> omega
  subst hmagnitude
  unfold unsignedZero
  by_cases hzero : m = 0
  · rw [if_pos hzero, if_pos hzero]
  · rw [if_neg hzero, if_neg hzero]
    have hsign : negative = other := by
      cases negative <;> cases other <;> simp at hunits ⊢ <;> omega
    rw [hsign]

end Double

namespace Number

/-- The number without the sign of a zero. -/
def unsignedZero : Number → Number
  | .int n => .int n
  | .float x => .float x.unsignedZero

theorem unsignedZero_eq_of_same {m n : Number} (hsame : m.same n = true) :
    m.unsignedZero = n.unsignedZero := by
  cases m with
  | int m =>
    cases n with
    | int n => rw [eq_of_beq hsame]
    | float y => cases hsame
  | float x =>
    cases n with
    | int n => cases hsame
    | float y => exact congrArg float (Double.unsignedZero_eq_of_sameValue hsame)

/-- The sign of zero plays no part in comparisons. -/
theorem compare_unsignedZero (x : Double) (n : Number) :
    x.compare n.unsignedZero.toDouble = x.compare n.toDouble := by
  cases n with
  | int n => rfl
  | float y => simp only [unsignedZero, toDouble, Double.compare, Double.units_unsignedZero]

end Number

namespace Json

mutual

/-- The value without the signs of the zeros in it. -/
def unsignedZeros : Json → Json
  | .num n => .num n.unsignedZero
  | .arr items => .arr (unsignedItems items)
  | .obj fields => .obj (unsignedFields fields)
  | v => v
termination_by structural v => v

def unsignedItems : List Json → List Json
  | [] => []
  | x :: rest => unsignedZeros x :: unsignedItems rest
termination_by structural items => items

def unsignedFields : List (String × Json) → List (String × Json)
  | [] => []
  | (k, x) :: rest => (k, unsignedZeros x) :: unsignedFields rest
termination_by structural fields => fields

end

/-- The same values are equal without the signs of zeros. -/
theorem unsignedZeros_eq_of_same :
    (∀ a b : Json, a.same b = true → a.unsignedZeros = b.unsignedZeros) ∧
      (∀ a b : List (String × Json), sameFields a b = true →
        unsignedFields a = unsignedFields b) ∧
      ∀ a b : List Json, sameItems a b = true → unsignedItems a = unsignedItems b := by
  refine same.mutual_induct _ _ _ ?null ?bool ?num ?str ?arr ?obj ?other ?noItems ?items
    ?unequalItems ?noFields ?fields ?unequalFields
  case null => exact fun _ => rfl
  case bool => exact fun a b hsame => congrArg _ (congrArg bool (eq_of_beq hsame))
  case num =>
    exact fun a b hsame => congrArg num (Number.unsignedZero_eq_of_same hsame)
  case str => exact fun a b hsame => congrArg _ (congrArg str (eq_of_beq hsame))
  case arr => exact fun a b ih hsame => congrArg arr (ih hsame)
  case obj => exact fun a b ih hsame => congrArg obj (ih hsame)
  case other =>
    intro a b hnull hbool hnum hstr harr hobj hsame
    rw [same.eq_7 a b hnull hbool hnum hstr harr hobj] at hsame
    cases hsame
  case noItems => exact fun _ => rfl
  case items =>
    intro x rest y others hhead hrest hsame
    obtain ⟨hx, hothers⟩ := Bool.and_eq_true_iff.mp hsame
    rw [unsignedItems, unsignedItems, hhead hx, hrest hothers]
  case unequalItems =>
    intro a b hnil hcons hsame
    rw [sameItems.eq_3 a b hnil hcons] at hsame
    cases hsame
  case noFields => exact fun _ => rfl
  case fields =>
    intro k x rest l y others hhead hrest hsame
    obtain ⟨hentry, hothers⟩ := Bool.and_eq_true_iff.mp hsame
    obtain ⟨hkey, hx⟩ := Bool.and_eq_true_iff.mp hentry
    rw [unsignedFields, unsignedFields, eq_of_beq hkey, hhead hx, hrest hothers]
  case unequalFields =>
    intro a b hnil hcons hsame
    rw [sameFields.eq_3 a b hnil hcons] at hsame
    cases hsame

/-- The collation does not see the signs of zeros. -/
theorem collate_unsignedZeros :
    (∀ v a : Json, a.collate v.unsignedZeros = a.collate v) ∧
      (∀ fields as : List (String × Json),
        collateFields as (unsignedFields fields) = collateFields as fields) ∧
      ∀ items as : List Json, collateItems as (unsignedItems items) = collateItems as items := by
  refine unsignedZeros.mutual_induct _ _ _ ?num ?arr ?obj ?plain ?noItems ?items ?noFields ?fields
  case num =>
    intro n a
    cases a with
    | num m => exact Number.compare_unsignedZero m.toDouble n
    | _ => rfl
  case arr =>
    intro items ih a
    cases a with
    | arr as => exact ih as
    | _ => rfl
  case obj =>
    intro fields ih a
    cases a with
    | obj as => exact ih as
    | _ => rfl
  case plain =>
    intro v hnum harr hobj a
    rw [unsignedZeros.eq_4 v hnum harr hobj]
  case noItems => exact fun _ => rfl
  case items =>
    intro x rest hhead hrest as
    cases as with
    | nil => rfl
    | cons a others => rw [unsignedItems, collateItems, collateItems, hhead, hrest]
  case noFields => exact fun _ => rfl
  case fields =>
    intro k x rest hhead hrest as
    cases as with
    | nil => rfl
    | cons a others =>
      obtain ⟨l, y⟩ := a
      rw [unsignedFields, collateFields, collateFields, hhead, hrest]

/-- The signs of zeros play no part in equivalence. -/
theorem equivalent_unsignedZeros (a v : Json) : a.equivalent v.unsignedZeros = a.equivalent v := by
  rw [equivalent, collate_unsignedZeros.1, equivalent]

theorem any_equivalent_unsignedItems (a : Json) (items : List Json) :
    (unsignedItems items).any a.equivalent = items.any a.equivalent := by
  induction items with
  | nil => rfl
  | cons x rest ih =>
    rw [unsignedItems, List.any_cons, List.any_cons, ih, equivalent_unsignedZeros]

end Json

end DocMapper
