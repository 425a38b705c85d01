import DocMapper.Proofs.Repository.Runs

/-!
# What a run leaves alone

The configuration of an adapter stays through every run, and so do the schemas that it knows, but
for those that are registered on the way.
-/

namespace DocMapper

open DocMapper.Action Adapter

theorem Operation.alike_run {α : Type} (m : Model α) (op : Operation α) (a : Adapter) :
    a.Alike (op.run m a) :=
  op.along_run m allows_alike alike_remember alike_forget a

namespace Adapter

variable {a : Adapter} {schema : Schema}

/-- A schema of the table is known, with the primary key in the same attribute. -/
def Knows (a : Adapter) (schema : Schema) : Prop :=
  ∃ known, a.registry.get? schema.table = some known ∧
    known.primaryKey.attr = schema.primaryKey.attr

theorem Knows.congr {b : Adapter} (hknows : a.Knows schema) (hregistry : b.registry = a.registry) :
    b.Knows schema := by
  rwa [Knows, hregistry]

theorem Knows.register (hknows : a.Knows schema) {other : Schema}
    (hother : other.table = schema.table → other.primaryKey.attr = schema.primaryKey.attr) :
    (Adapter.register other a).2.Knows schema := by
  cases hcheck : other.check with
  | error e =>
    rw [Adapter.register, hcheck, lift_error_bind]
    exact hknows
  | ok _ =>
    have hregister : Adapter.register other a =
        (.ok (), { a with registry := a.registry.insert other.table other }) := by
      rw [Adapter.register, hcheck]
      rfl
    rw [hregister]
    by_cases htable : other.table = schema.table
    · refine ⟨other, ?_, hother htable⟩
      rw [← htable]
      exact Dict.get?_insert_self _ _ _
    · obtain ⟨known, hget, hattr⟩ := hknows
      exact ⟨known, (Dict.get?_insert_of_ne _ _ htable).trans hget, hattr⟩

theorem knows_register (a : Adapter) (hcheck : schema.check = .ok ()) :
    (Adapter.register schema a).2.Knows schema := by
  rw [Adapter.register, hcheck]
  exact ⟨schema, Dict.get?_insert_self _ _ _, rfl⟩

end Adapter

/-- The step registers no other primary key for the table of the schema. -/
def Step.Agrees (schema : Schema) : Step → Prop
  | .register other => other.table = schema.table →
      other.primaryKey.attr = schema.primaryKey.attr
  | _ => True

theorem Step.knows_run {schema : Schema} {a : Adapter} {step : Step} (hagrees : step.Agrees schema)
    (hknows : a.Knows schema) : (step.run a).Knows schema := by
  cases step with
  | register other => exact hknows.register hagrees
  | setUp => exact hknows.congr (along_setUp allows_alike a).registry
  | own m op => exact hknows.congr (op.alike_run m a).registry
  | others call => exact hknows

theorem knows_runAll {schema : Schema} {a : Adapter} (steps : List Step)
    (hagree : ∀ step ∈ steps, step.Agrees schema) (hknows : a.Knows schema) :
    (runAll steps a).Knows schema := by
  induction steps generalizing a with
  | nil => exact hknows
  | cons step rest ih =>
    obtain ⟨hstep, hrest⟩ := List.forall_mem_cons.mp hagree
    exact ih hrest (step.knows_run hstep hknows)

end DocMapper
