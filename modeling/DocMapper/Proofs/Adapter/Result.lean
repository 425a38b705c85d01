import DocMapper.Proofs.Adapter.Footprint
import DocMapper.Proofs.Traversal

/-!
# Results of actions

What an action answers and leaves in the store where it succeeds. The wording of errors does not
count here, nor does what was done before one, and so work that only prepares can be moved to the
front.
-/

namespace DocMapper

/-- The store, however often it was called. -/
def MemoryStore.uncounted (s : MemoryStore) : MemoryStore := { s with calls := fun _ => 0 }

open Adapter

namespace Action

variable {α β γ : Type} {x : Action α} {f g : α → Action β} {a b : Adapter} {v : α} {e : Error}

/-- The answer of an action that succeeds, with the store that it leaves. -/
def result (x : Action α) (a : Adapter) : Option (α × MemoryStore) :=
  match x a with
  | (.ok v, b) => some (v, b.connection.store.uncounted)
  | (.error _, _) => none

theorem result_of_ok (hx : x a = (.ok v, b)) :
    x.result a = some (v, b.connection.store.uncounted) := by
  rw [result, hx]

theorem result_of_error (hx : x a = (.error e, b)) : x.result a = none := by
  rw [result, hx]

theorem result_pure (v : α) (a : Adapter) :
    (pure v : Action α).result a = some (v, a.connection.store.uncounted) := rfl

theorem result_throw (e : Error) (a : Adapter) : (throw e : Action α).result a = none := rfl

theorem result_bind_of_ok (hx : x a = (.ok v, b)) : (x >>= f).result a = (f v).result b := by
  rw [result, bind_of_ok hx, ← result]

theorem result_bind_of_error (hx : x a = (.error e, b)) : (x >>= f).result a = none :=
  result_of_error (bind_of_error hx)

/-- Two ways to go on have one result if they have one wherever the first action succeeds. -/
theorem result_bind_congr (hresults : ∀ v b, x a = (.ok v, b) → (f v).result b = (g v).result b) :
    (x >>= f).result a = (x >>= g).result a := by
  rcases hrun : x a with ⟨e | v, b⟩
  · rw [result_bind_of_error hrun, result_bind_of_error hrun]
  · rw [result_bind_of_ok hrun, result_bind_of_ok hrun]
    exact hresults v b hrun

/-- An answer can be rearranged afterwards. -/
theorem result_map (h : α → β) :
    (x >>= fun v => pure (h v)).result a = (x.result a).map (Prod.map h id) := by
  rcases hrun : x a with ⟨e | v, b⟩
  · rw [result_bind_of_error hrun, result_of_error hrun, Option.map_none]
  · rw [result_bind_of_ok hrun, result_of_ok hrun, result_pure]
    rfl

/-- What fails without the store has no result. -/
theorem result_lift_bind (r : Except Error α) :
    (liftM r >>= f).result a = r.toOption.bind fun v => (f v).result a := by
  cases r <;> rfl

theorem result_get_bind (f : Adapter → Action β) (a : Adapter) :
    (get >>= f).result a = (f a).result a := rfl

/-! ## Lists of actions -/

variable {k : α → Action β} {F : List α → Action (List β)} {xs : List α}

theorem result_mapM_cons (y : α) :
    ((y :: xs).mapM k).result a =
      (k y >>= fun v => xs.mapM k >>= fun vs => pure (v :: vs)).result a := by
  rw [List.mapM_cons]

/-- An action on a list that does the first entry and then the rest does the entries in turn. -/
theorem result_eq_mapM (hquiet : ∀ y, Quiet (fun _ => True) (k y))
    (hnil : ∀ a, a.Unstaged → (F []).result a = some ([], a.connection.store.uncounted))
    (hcons : ∀ y ys a, a.Unstaged → (F (y :: ys)).result a =
      (k y >>= fun v => F ys >>= fun vs => pure (v :: vs)).result a)
    (hunstaged : a.Unstaged) : (F xs).result a = (xs.mapM k).result a := by
  induction xs generalizing a with
  | nil => exact hnil a hunstaged
  | cons y ys ih =>
    rw [hcons y ys a hunstaged, result_mapM_cons]
    refine result_bind_congr fun v b hrun => ?_
    have hpasses := hquiet y a hunstaged
    rw [hrun] at hpasses
    rw [result_map, result_map, ih (hpasses.unstaged hunstaged)]

/-- Actions that are the same on every element have one result on the list. -/
theorem result_mapM_congr {l : α → Action β} (hsame : ∀ y ∈ xs, k y = l y) :
    (xs.mapM k).result a = (xs.mapM l).result a := by
  induction xs generalizing a with
  | nil => rfl
  | cons y ys ih =>
    obtain ⟨hfirst, hrest⟩ := List.forall_mem_cons.mp hsame
    rw [result_mapM_cons, result_mapM_cons, hfirst]
    refine result_bind_congr fun v b _ => ?_
    rw [result_map, result_map, ih hrest]

/-- Entries in turn have no result where one of them never has any. -/
theorem result_mapM_eq_none {y : α} (hmem : y ∈ xs) (hnone : ∀ b, (k y).result b = none) :
    (xs.mapM k).result a = none := by
  induction xs generalizing a with
  | nil => cases hmem
  | cons z ys ih =>
    rw [result_mapM_cons]
    rcases hrun : k z a with ⟨e | v, b⟩
    · exact result_bind_of_error hrun
    · rw [result_bind_of_ok hrun, result_map]
      rcases List.mem_cons.mp hmem with rfl | hlater
      · have hsome := hnone a
        rw [result_of_ok hrun] at hsome
        cases hsome
      · rw [ih hlater, Option.map_none]

end Action

end DocMapper
