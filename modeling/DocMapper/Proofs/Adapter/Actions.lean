import DocMapper.Adapter.Record
import DocMapper.Proofs.Document.Envelope

/-!
# Runs of actions

What the steps of an action do to an adapter, one law for each way to go on, and what is known of the
steps of an action that succeeded. Where no answers are staged, a call reaches the store.
-/

namespace DocMapper

namespace Adapter

/-- The documents of the store behind an adapter. -/
def documents (a : Adapter) : Dict Document := a.connection.store.documents

variable {a b : Adapter} {α β : Type} {subject : Option String} {call : Call}

/-- The adapter after its store has carried out a call. -/
def served (a : Adapter) (call : Call) : Adapter :=
  { a with connection := { a.connection with
      store := (a.connection.store.perform call).2, log := a.connection.log ++ [call] } }

/-- What is there already is gone on with. -/
theorem lift_ok_bind (v : α) (f : α → Action β) :
    ((liftM (Except.ok v : Except Error α) : Action α) >>= f) = f v := rfl

/-- After an error nothing else is done. -/
theorem lift_error_bind (e : Error) (f : α → Action β) :
    ((liftM (Except.error e : Except Error α) : Action α) >>= f) a = (.error e, a) := rfl

theorem get_bind (f : Adapter → Action β) : (get >>= f) a = f a a := rfl

/-- Where the first action succeeds, the second goes on with its answer from where it ended. -/
theorem bind_of_ok {x : Action α} {f : α → Action β} {v : α} (hx : x a = (.ok v, b)) :
    (x >>= f) a = f v b := by
  have hbind : (x >>= f) a = ExceptT.bindCont f (x a).1 (x a).2 := rfl
  rw [hbind, hx]
  rfl

/-- Where the first action fails, so does the whole, and what was done until then stays done. -/
theorem bind_of_error {x : Action α} {f : α → Action β} {e : Error} (hx : x a = (.error e, b)) :
    (x >>= f) a = (.error e, b) := by
  have hbind : (x >>= f) a = ExceptT.bindCont f (x a).1 (x a).2 := rfl
  rw [hbind, hx]
  rfl

/-! ## Calls -/

/-- The answer to a call is the store's. -/
theorem attempt_eq (hunstaged : a.connection.staged = fun _ => []) :
    attempt call a = ((a.connection.store.perform call).1, a.served call) := by
  obtain ⟨⟨store, staged, log⟩, config, registry, revisions⟩ := a
  cases hunstaged
  rfl

/-- An attempt does not fail as an action: the refusal of the store is its answer. -/
theorem lift_attempt_eq (call : Call) (hunstaged : a.connection.staged = fun _ => []) :
    (liftM (attempt call) : Action (Except StoreError call.Answer)) a =
      (.ok (a.connection.store.perform call).1, a.served call) := by
  have hlift : (liftM (attempt call) : Action (Except StoreError call.Answer)) a =
      (.ok (attempt call a).1, (attempt call a).2) := rfl
  rw [hlift, attempt_eq hunstaged]

/-- What the store answers is answered. -/
theorem ask_of_ok {answer : call.Answer} (hunstaged : a.connection.staged = fun _ => [])
    (hanswer : (a.connection.store.perform call).1 = .ok answer) :
    ask subject call a = (.ok answer, a.served call) := by
  have hattempt := lift_attempt_eq call hunstaged
  rw [hanswer] at hattempt
  exact bind_of_ok hattempt

/-- A refusal names the subject that was asked about. -/
theorem ask_of_error {cause : StoreError} (hunstaged : a.connection.staged = fun _ => [])
    (hanswer : (a.connection.store.perform call).1 = .error cause) :
    ask subject call a = (.error (.store subject cause), a.served call) := by
  have hattempt := lift_attempt_eq call hunstaged
  rw [hanswer] at hattempt
  exact bind_of_ok hattempt

end Adapter

namespace Action

open Adapter

variable {a b c : Adapter} {α β : Type}

/-- The action may answer with this value. -/
def Yields (x : Action α) (v : α) : Prop := ∃ a, (x a).1 = .ok v

/-- If two actions in turn succeed, the first one did, and so did the second from where it ended. -/
theorem bind_eq_ok {x : Action α} {f : α → Action β} {w : β} (hbind : (x >>= f) a = (.ok w, c)) :
    ∃ v b, x a = (.ok v, b) ∧ f v b = (.ok w, c) := by
  rcases hrun : x a with ⟨e | v, b⟩
  · rw [bind_of_error hrun] at hbind
    cases hbind
  · rw [bind_of_ok hrun] at hbind
    exact ⟨v, b, rfl, hbind⟩

/-- A bind ends where its action fails, and goes on from where it succeeds. -/
theorem after_bind {x : Action α} {f : α → Action β} {R S : Adapter → Prop} (hx : R (x a).2)
    (hfails : ∀ b, R b → S b) (hgoes : ∀ v b, x a = (.ok v, b) → R b → S (f v b).2) :
    S ((x >>= f) a).2 := by
  rcases hrun : x a with ⟨e | v, b⟩
  · rw [hrun] at hx
    rw [bind_of_error hrun]
    exact hfails b hx
  · rw [hrun] at hx
    rw [bind_of_ok hrun]
    exact hgoes v b hrun hx

/-! ## Computations without an adapter -/

/-- A computation without an adapter leaves the adapter as it is. -/
theorem lift_eq_ok {e : Except Error α} {v : α} (hlift : (liftM e : Action α) a = (.ok v, b)) :
    e = .ok v ∧ b = a := by
  cases e <;> cases hlift
  exact ⟨rfl, rfl⟩

/-- If the whole succeeds, so did the computation without an adapter that it began with. -/
theorem lift_bind_eq_ok {e : Except Error α} {f : α → Action β} {w : β}
    (hbind : (liftM e >>= f) a = (.ok w, c)) : ∃ v, e = .ok v ∧ f v a = (.ok w, c) := by
  cases e with
  | error e =>
    rw [lift_error_bind] at hbind
    cases hbind
  | ok v => exact ⟨v, rfl, hbind⟩

theorem yields_lift {e : Except Error α} {v : α} (hyields : Yields (liftM e) v) : e = .ok v := by
  obtain ⟨a, ha⟩ := hyields
  cases e <;> exact ha

section Traversals

variable {f : α → Action β} {g : α → Except Error β} (hf : ∀ v, f v = liftM (g v))

include hf

/-- A traversal that never looks at the adapter may as well be done without one. -/
theorem mapM_eq_lift (xs : List α) : xs.mapM f = liftM (xs.mapM g) := by
  induction xs with
  | nil => rfl
  | cons head rest ih =>
    rw [List.mapM_cons, List.mapM_cons, ih, hf]
    cases g head with
    | error e => rfl
    | ok v => cases rest.mapM g <;> rfl

/-- Such a traversal leaves the adapter as it is. -/
theorem mapM_eq_ok {xs : List α} {ys : List β} (hmap : xs.mapM f a = (.ok ys, b)) :
    xs.mapM g = .ok ys ∧ b = a := by
  rw [mapM_eq_lift hf] at hmap
  exact lift_eq_ok hmap

theorem mapM_of_yields {xs : List α} {ys : List β} (hyields : Yields (xs.mapM f) ys) :
    xs.mapM g = .ok ys := by
  rw [mapM_eq_lift hf] at hyields
  exact yields_lift hyields

end Traversals

end Action

end DocMapper
