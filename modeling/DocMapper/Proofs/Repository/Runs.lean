import DocMapper.Proofs.Repository.Operations
import DocMapper.Proofs.Repository.Queries

/-!
# Runs of a repository among others

What happens to a store and to an adapter that works on it: operations and statements through the
adapter, and calls that others make to the store. Whatever the adapter remembers, some step recorded
while the store held it.
-/

namespace DocMapper

open DocMapper.Action Adapter MemoryStore

/-- One step of a run. Others share the store with the adapter; what they do to it are calls. -/
inductive Step : Type 1 where
  | register (schema : Schema)
  | setUp
  | own {α : Type} (m : Model α) (op : Operation α)
  | others (call : Call)

/-- The adapter after a step. -/
def Step.run : Step → Adapter → Adapter
  | .register schema, a => (Adapter.register schema a).2
  | .setUp, a => (Adapter.setUp a).2
  | .own m op, a => op.run m a
  | .others call, a =>
    { a with connection := { a.connection with store := (a.connection.store.perform call).2 } }

/-- The adapter after steps, one after another. -/
def runAll (steps : List Step) (a : Adapter) : Adapter := steps.foldl (fun a step => step.run a) a

theorem runAll_append (steps later : List Step) (a : Adapter) :
    runAll (steps ++ later) a = runAll later (runAll steps a) := List.foldl_append

/-- Registering a schema makes no calls. -/
theorem Adapter.quiet_register (schema : Schema) : Quiet (fun _ => True) (register schema) :=
  along_lift_bind fun _ _ a _ => Passes.refl (fun _ => True) a

variable {a : Adapter} {α : Type}

/-- An operation on an unstaged adapter heeds its store. -/
theorem Operation.heeds_run (m : Model α) (op : Operation α) (hunstaged : a.Unstaged)
    (hkept : WellKept a.documents) : Heeds a (op.run m a) := by
  cases op with
  | create x => exact m.heedful_create x a hunstaged hkept
  | createAll xs => exact m.heedful_createAll xs a hunstaged hkept
  | read key => exact m.heedful_read key a hunstaged hkept
  | readAll keys => exact m.heedful_readAll keys a hunstaged hkept
  | update x => exact m.heedful_update x a hunstaged hkept
  | updateAll xs => exact m.heedful_updateAll xs a hunstaged hkept
  | delete key => exact m.heedful_delete key a hunstaged hkept
  | deleteAll keys => exact m.heedful_deleteAll keys a hunstaged hkept
  | execute s => exact m.heedful_execute s a hunstaged hkept
  | fetch s => exact m.heedful_fetch s a hunstaged hkept
  | aggregate s => exact m.heedful_aggregate s a hunstaged hkept
  | raw query => exact m.heedful_raw query a hunstaged hkept
  | page q n => exact m.heeds_page n q hunstaged hkept

/-! ## Steps -/

/-- No answers are staged, and the documents are well kept. -/
structure Sound (a : Adapter) : Prop where
  unstaged : a.Unstaged
  kept : WellKept a.documents

/-- A step makes calls to the store, and records only what the store holds after it. -/
structure Advances (a b : Adapter) : Prop where
  unstaged : b.connection.staged = a.connection.staged
  calls : ∃ calls, b.connection.store = a.connection.store.performAll calls
  entries : ∀ id entry, b.revisions.byId.get? id = some entry →
    a.revisions.byId.get? id = some entry ∨ Holds b.documents id entry.2

theorem Adapter.Heeds.advances {a b : Adapter} (hheeds : Heeds a b) : Advances a b := by
  obtain ⟨⟨calls, hconnection⟩, hentries⟩ := hheeds
  refine ⟨?_, ⟨calls, ?_⟩, hentries⟩
  · rw [hconnection]
    rfl
  · rw [hconnection]
    rfl

/-- Every step advances the documents and keeps the adapter sound. -/
theorem Step.advances_run (step : Step) (hsound : Sound a) : Advances a (step.run a) := by
  obtain ⟨hunstaged, hkept⟩ := hsound
  cases step with
  | register schema => exact (quiet_register schema a hunstaged).heeds.advances
  | setUp => exact (along_setUp (R := Passing _) allows_passing_any a hunstaged).heeds.advances
  | own m op => exact (op.heeds_run m hunstaged hkept).advances
  | others call => exact ⟨rfl, ⟨[call], rfl⟩, fun _ _ => Or.inl⟩

/-- What has advanced is sound. -/
theorem Advances.sound {a b : Adapter} (hadvances : Advances a b) (hsound : Sound a) : Sound b := by
  obtain ⟨hunstaged, ⟨calls, hstore⟩, _⟩ := hadvances
  refine ⟨hunstaged.trans hsound.unstaged, ?_⟩
  rw [Adapter.documents, hstore]
  exact hsound.kept.performAll calls

/-- An advance makes progress at every id. -/
theorem Advances.progresses {a b : Adapter} (hadvances : Advances a b) (id : String) :
    Progresses id a.documents b.documents := by
  obtain ⟨calls, hstore⟩ := hadvances.calls
  have hprogresses := performAll_progresses a.connection.store calls id
  rw [← hstore] at hprogresses
  exact hprogresses

/-- A run keeps the adapter sound. -/
theorem sound_runAll (steps : List Step) (hsound : Sound a) : Sound (runAll steps a) := by
  induction steps generalizing a with
  | nil => exact hsound
  | cons step rest ih => exact ih ((step.advances_run hsound).sound hsound)

/-- What a run does to the store is a run of calls. -/
theorem exists_calls_runAll (steps : List Step) (hsound : Sound a) :
    ∃ calls, (runAll steps a).connection.store = a.connection.store.performAll calls := by
  induction steps generalizing a with
  | nil => exact ⟨[], rfl⟩
  | cons step rest ih =>
    have hadvances := step.advances_run hsound
    obtain ⟨first, hfirst⟩ := hadvances.calls
    obtain ⟨later, hlater⟩ := ih (hadvances.sound hsound)
    refine ⟨first ++ later, ?_⟩
    rw [performAll, List.foldl_append, ← performAll, ← performAll, ← hfirst]
    exact hlater

/-- A run makes progress at every id. -/
theorem runAll_progresses (steps : List Step) (hsound : Sound a) (id : String) :
    Progresses id a.documents (runAll steps a).documents := by
  induction steps generalizing a with
  | nil => exact Progresses.refl id a.documents
  | cons step rest ih =>
    have hadvances := step.advances_run hsound
    exact (hadvances.progresses id).trans (ih (hadvances.sound hsound))

/-! ## Runs -/

/-- The entry has been in the table all along the steps. -/
def Persists (id : String) (entry : Nat × String) (steps : List Step) (a : Adapter) : Prop :=
  ∀ mid later, steps = mid ++ later → (runAll mid a).revisions.byId.get? id = some entry

/-- One of the steps recorded the entry, which the store held by then, and nothing has replaced the
    entry since. -/
def RecordedAt (id : String) (entry : Nat × String) (before : List Step) (step : Step)
    (since : List Step) (a : Adapter) : Prop :=
  (runAll before a).revisions.byId.get? id ≠ some entry ∧
    Holds (step.run (runAll before a)).documents id entry.2 ∧
    Persists id entry since (step.run (runAll before a))

/-- Every entry was there from the first, or some step recorded it. -/
theorem persists_or_recordedAt (steps : List Step) (hsound : Sound a) {id : String}
    {entry : Nat × String} (hentry : (runAll steps a).revisions.byId.get? id = some entry) :
    Persists id entry steps a ∨ ∃ before step since, steps = before ++ step :: since ∧
      RecordedAt id entry before step since a := by
  induction steps generalizing a with
  | nil =>
    refine Or.inl fun mid later hsplit => ?_
    rw [(List.append_eq_nil_iff.mp hsplit.symm).1]
    exact hentry
  | cons step rest ih =>
    have hadvances := step.advances_run hsound
    rcases ih (hadvances.sound hsound) hentry with
      hpersists | ⟨before, later, since, rfl, hrecorded⟩
    · by_cases hold : a.revisions.byId.get? id = some entry
      · refine Or.inl fun mid later hsplit => ?_
        cases mid with
        | nil => exact hold
        | cons first mid =>
          cases hsplit
          exact hpersists mid later rfl
      · -- The entry was not there before this step, so this step has recorded it.
        have hheld := (hadvances.entries id entry (hpersists [] rest rfl)).resolve_left hold
        exact Or.inr ⟨[], step, rest, rfl, hold, hheld, hpersists⟩
    · exact Or.inr ⟨step :: before, later, since, rfl, hrecorded⟩

end DocMapper
