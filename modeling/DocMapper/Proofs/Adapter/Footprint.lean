import DocMapper.Proofs.Adapter.Walk
import DocMapper.Proofs.Store.Progress

/-!
# Footprints of actions

Which calls an action makes. An action that is quiet makes calls of one sort only and remembers no
revisions. Whatever it does, an action leaves its adapter the configuration and the schemas that it
was given.
-/

namespace DocMapper

open DocMapper.Action

/-- The connection after its store has carried out calls. -/
def Connection.after (c : Connection) (calls : List Call) : Connection :=
  { c with store := c.store.performAll calls, log := c.log ++ calls }

theorem Connection.after_nil (c : Connection) : c.after [] = c := by
  rw [Connection.after, List.append_nil]
  rfl

theorem Connection.after_append (c : Connection) (calls later : List Call) :
    c.after (calls ++ later) = (c.after calls).after later := by
  simp only [Connection.after, MemoryStore.performAll, List.foldl_append, List.append_assoc]

namespace Adapter

/-- The adapters have the same configuration and know the same schemas. -/
structure Alike (a b : Adapter) : Prop where
  config : b.config = a.config
  registry : b.registry = a.registry

instance : Std.Refl Alike := ⟨fun _ => ⟨rfl, rfl⟩⟩

instance : IsTrans Adapter Alike :=
  ⟨fun _ _ _ hfirst hsecond =>
    ⟨hsecond.config.trans hfirst.config, hsecond.registry.trans hfirst.registry⟩⟩

/-- No call changes what the adapter was given, whatever the store answers. -/
theorem allows_alike (call : Call) : Allows Alike call := fun _ => ⟨rfl, rfl⟩

theorem alike_remember (id rev : String) : Along Alike (remember id rev) := fun _ => ⟨rfl, rfl⟩

theorem alike_forget (id : String) : Along Alike (forget id) := fun _ => ⟨rfl, rfl⟩

/-- No answers are staged, so every call reaches the store. -/
def Unstaged (a : Adapter) : Prop := a.connection.staged = fun _ => []

/-- The adapter has made calls of this sort, and remembers the revisions that it did. -/
def Passes (P : Call → Prop) (a b : Adapter) : Prop :=
  ∃ calls, (∀ c ∈ calls, P c) ∧ b.connection = a.connection.after calls ∧
    b.revisions = a.revisions

variable {P : Call → Prop} {a b c : Adapter} {subject : Option String} {call : Call}

theorem Passes.refl (P : Call → Prop) (a : Adapter) : Passes P a a :=
  ⟨[], List.forall_mem_nil _, (Connection.after_nil _).symm, rfl⟩

/-- Calls of one sort after calls of that sort are of that sort. -/
theorem Passes.trans (hfirst : Passes P a b) (hsecond : Passes P b c) : Passes P a c := by
  obtain ⟨calls, hcalls, hb, hrevisions⟩ := hfirst
  obtain ⟨later, hlater, hc, hagain⟩ := hsecond
  refine ⟨calls ++ later, List.forall_mem_append.mpr ⟨hcalls, hlater⟩, ?_, hagain.trans hrevisions⟩
  rw [hc, hb, Connection.after_append]

/-- What passes stages no answers. -/
theorem Passes.unstaged (hpasses : Passes P a b) (hunstaged : a.Unstaged) : b.Unstaged := by
  obtain ⟨calls, _, hb, _⟩ := hpasses
  rw [Unstaged, hb]
  exact hunstaged

/-- Where every call reaches the store, the adapter passes. -/
def Passing (P : Call → Prop) (a b : Adapter) : Prop := a.Unstaged → Passes P a b

instance : Std.Refl (Passing P) := ⟨fun a _ => Passes.refl P a⟩

instance : IsTrans Adapter (Passing P) :=
  ⟨fun _ _ _ hfirst hsecond hunstaged =>
    (hfirst hunstaged).trans (hsecond ((hfirst hunstaged).unstaged hunstaged))⟩

/-- A call of the sort may be made, and then it is the only one. -/
theorem allows_passing (hcall : P call) : Allows (Passing P) call := by
  intro a hunstaged
  rw [attempt_eq hunstaged]
  exact ⟨[call], List.forall_mem_singleton.mpr hcall, rfl, rfl⟩

/-- An adapter that may make any call may make this one. -/
theorem allows_passing_any (call : Call) : Allows (Passing fun _ => True) call :=
  allows_passing trivial

/-- The answer is the store's, which has carried out the call and nothing else. -/
theorem ask_eq_ok {answer : call.Answer} (hunstaged : a.Unstaged)
    (hask : ask subject call a = (.ok answer, b)) :
    (a.connection.store.perform call).1 = .ok answer ∧ b = a.served call := by
  cases hanswer : (a.connection.store.perform call).1 with
  | ok given =>
    rw [ask_of_ok hunstaged hanswer] at hask
    cases hask
    exact ⟨rfl, rfl⟩
  | error cause =>
    rw [ask_of_error hunstaged hanswer] at hask
    cases hask

/-- Whether the store accepts the call or not, it has carried it out. -/
theorem ask_snd (hunstaged : a.Unstaged) : (ask subject call a).2 = a.served call := by
  cases hanswer : (a.connection.store.perform call).1 with
  | ok answer => rw [ask_of_ok hunstaged hanswer]
  | error cause => rw [ask_of_error hunstaged hanswer]

end Adapter

/-- The action makes calls of this sort only, and remembers no revisions. -/
abbrev Action.Quiet {α : Type} (P : Call → Prop) (x : Action α) : Prop :=
  Action.Along (Adapter.Passing P) x

end DocMapper
