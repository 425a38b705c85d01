/-!
# Computations that can fail

A sequence of two computations succeeds where both do. A traversal succeeds where the computation
succeeds on every member, and then its results belong to the members in order. Where only the
result matters, the error is dropped.
-/

namespace DocMapper

/-- A sequence of computations succeeds if both do. -/
theorem bind_eq_ok_iff {ε α β : Type} {x : Except ε α} {f : α → Except ε β} {y : β} :
    (x >>= f) = .ok y ↔ ∃ a, x = .ok a ∧ f a = .ok y := by
  cases x <;> simp [bind, Except.bind]

/-- A sequence of computations fails by one of them. -/
theorem bind_eq_error {ε α β : Type} {x : Except ε α} {f : α → Except ε β} {e : ε}
    (hbind : (x >>= f) = .error e) : x = .error e ∨ ∃ a, x = .ok a ∧ f a = .error e := by
  cases x with
  | error cause => exact Or.inl (congrArg Except.error (Except.error.inj hbind))
  | ok a => exact Or.inr ⟨a, rfl, hbind⟩

theorem map_eq_error {ε α β : Type} {x : Except ε α} {g : α → β} {e : ε}
    (hmap : x.map g = .error e) : x = .error e := by
  cases x with
  | error cause => exact congrArg Except.error (Except.error.inj hmap)
  | ok a => cases hmap

theorem map_eq_ok {ε α β : Type} {x : Except ε α} {g : α → β} {y : β} (hmap : x.map g = .ok y) :
    ∃ v, x = .ok v ∧ g v = y := by
  cases x with
  | error cause => cases hmap
  | ok v => exact ⟨v, rfl, Except.ok.inj hmap⟩

theorem bind_ok_eq_map {ε α β : Type} (x : Except ε α) (g : α → β) :
    (x >>= fun v => .ok (g v)) = x.map g := by
  cases x <;> rfl

theorem map_map {ε α β γ : Type} (x : Except ε α) (g : α → β) (h : β → γ) :
    (x.map g).map h = x.map fun v => h (g v) := by
  cases x <;> rfl

@[simp] theorem toOption_ok {ε α : Type} (v : α) :
    (Except.ok v : Except ε α).toOption = some v := rfl

@[simp] theorem toOption_error {ε α : Type} (e : ε) :
    (Except.error e : Except ε α).toOption = none := rfl

theorem toOption_eq_some_iff {ε α : Type} {r : Except ε α} {v : α} :
    r.toOption = some v ↔ r = .ok v := by
  cases r <;> simp

variable {ε α β : Type} {f : α → Except ε β} {x : α} {xs : List α} {ys : List β}

/-- A traversal is its first step and the rest, as far as its results go. -/
theorem toOption_mapM_cons (f : α → Except ε β) (x : α) (xs : List α) :
    ((x :: xs).mapM f).toOption =
      (f x).toOption.bind fun y => (xs.mapM f).toOption.map (y :: ·) := by
  rw [List.mapM_cons]
  cases f x with
  | error e => rfl
  | ok y => cases xs.mapM f <;> rfl

/-- A traversal of members on which the computation succeeds is a map. -/
theorem mapM_eq_ok_map {g : α → β} (hall : ∀ x ∈ xs, f x = .ok (g x)) :
    xs.mapM f = .ok (xs.map g) := by
  induction xs with
  | nil => rfl
  | cons head rest ih =>
    obtain ⟨hhead, hrest⟩ := List.forall_mem_cons.mp hall
    rw [List.mapM_cons, hhead, ih hrest]
    rfl

/-- A traversal of steps that all succeed succeeds. -/
theorem exists_mapM_eq_ok (hall : ∀ x ∈ xs, ∃ y, f x = .ok y) : ∃ ys, xs.mapM f = .ok ys := by
  induction xs with
  | nil => exact ⟨[], rfl⟩
  | cons head rest ih =>
    obtain ⟨⟨y, hhead⟩, hrest⟩ := List.forall_mem_cons.mp hall
    obtain ⟨ys, hys⟩ := ih hrest
    refine ⟨y :: ys, ?_⟩
    rw [List.mapM_cons, hhead, hys]
    rfl

theorem forall_exists_ok_of_all (hall : (xs.all fun x => (f x).toBool) = true) :
    ∀ x ∈ xs, ∃ y, f x = .ok y := by
  intro x hmem
  have hx := List.all_eq_true.mp hall x hmem
  cases hresult : f x with
  | error e =>
    rw [hresult] at hx
    cases hx
  | ok y => exact ⟨y, rfl⟩

/-- A traversal that succeeds has a first result and the results of the rest. -/
theorem mapM_cons_eq_ok (hmap : (x :: xs).mapM f = .ok ys) :
    ∃ y rest, f x = .ok y ∧ xs.mapM f = .ok rest ∧ ys = y :: rest := by
  rw [List.mapM_cons] at hmap
  cases hhead : f x with
  | error e =>
    rw [hhead] at hmap
    cases hmap
  | ok y =>
    rw [hhead] at hmap
    cases hrest : xs.mapM f with
    | error e =>
      rw [hrest] at hmap
      cases hmap
    | ok rest =>
      rw [hrest] at hmap
      cases hmap
      exact ⟨y, rest, rfl, rfl, rfl⟩

/-- A traversal fails where the action fails on some member. -/
theorem exists_mem_of_mapM_error {e : ε} (hmap : xs.mapM f = .error e) :
    ∃ x ∈ xs, f x = .error e := by
  induction xs with
  | nil => cases hmap
  | cons head rest ih =>
    rw [List.mapM_cons] at hmap
    cases hhead : f head with
    | error e =>
      rw [hhead] at hmap
      cases hmap
      exact ⟨head, List.mem_cons_self, hhead⟩
    | ok y =>
      rw [hhead] at hmap
      cases hrest : rest.mapM f with
      | error e =>
        rw [hrest] at hmap ih
        cases hmap
        obtain ⟨x, hmem, hx⟩ := ih rfl
        exact ⟨x, List.mem_cons_of_mem _ hmem, hx⟩
      | ok ys =>
        rw [hrest] at hmap
        cases hmap

/-- A traversal has as many results as elements. -/
theorem length_of_mapM (hmap : xs.mapM f = .ok ys) : ys.length = xs.length := by
  induction xs generalizing ys with
  | nil =>
    cases hmap
    rfl
  | cons head rest ih =>
    obtain ⟨y, later, _, hrest, rfl⟩ := mapM_cons_eq_ok hmap
    rw [List.length_cons, List.length_cons, ih hrest]

/-- Every element has its result. -/
theorem mem_of_mapM (hmap : xs.mapM f = .ok ys) (hmem : x ∈ xs) : ∃ y ∈ ys, f x = .ok y := by
  induction xs generalizing ys with
  | nil => cases hmem
  | cons head rest ih =>
    obtain ⟨y, later, hhead, hrest, rfl⟩ := mapM_cons_eq_ok hmap
    rcases List.mem_cons.mp hmem with rfl | hlater
    · exact ⟨y, List.mem_cons_self, hhead⟩
    · obtain ⟨z, hz, hx⟩ := ih hrest hlater
      exact ⟨z, List.mem_cons_of_mem _ hz, hx⟩

/-- Results stand in the places of their elements. -/
theorem getElem?_of_mapM (hmap : xs.mapM f = .ok ys) {i : Nat} {y : β} (hy : ys[i]? = some y) :
    ∃ x, xs[i]? = some x ∧ f x = .ok y := by
  induction xs generalizing ys i with
  | nil =>
    cases hmap
    cases hy
  | cons head rest ih =>
    obtain ⟨first, later, hhead, hrest, rfl⟩ := mapM_cons_eq_ok hmap
    cases i with
    | zero =>
      cases hy
      exact ⟨head, rfl, hhead⟩
    | succ i => exact ih hrest hy

/-- Elements have their results in their places. -/
theorem exists_getElem?_of_mapM (hmap : xs.mapM f = .ok ys) {i : Nat} (hx : xs[i]? = some x) :
    ∃ y, ys[i]? = some y ∧ f x = .ok y := by
  induction xs generalizing ys i with
  | nil => cases hx
  | cons head rest ih =>
    obtain ⟨first, later, hhead, hrest, rfl⟩ := mapM_cons_eq_ok hmap
    cases i with
    | zero =>
      cases hx
      exact ⟨first, rfl, hhead⟩
    | succ i => exact ih hrest hx

end DocMapper
