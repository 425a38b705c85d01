import DocMapper.Proofs.Adapter.Footprint
import DocMapper.Proofs.Adapter.RevisionTable
import DocMapper.Proofs.Store.Holding

/-!
# Remembering revisions

An adapter is heedful if it remembers a revision only while the store holds it. An action is
heedful if it first makes its calls, remembering nothing, and then remembers nothing but what the
store holds by then.
-/

namespace DocMapper

open MemoryStore

namespace Adapter

/-- The adapter has made calls. What it remembers it remembered before, or the store holds it. -/
structure Heeds (a b : Adapter) : Prop where
  connection : ∃ calls, b.connection = a.connection.after calls
  entries : ∀ id entry, b.revisions.byId.get? id = some entry →
    a.revisions.byId.get? id = some entry ∨ Holds b.documents id entry.2

variable {P : Call → Prop} {a b c : Adapter}

/-- Calls keep documents well kept. -/
theorem wellKept_of_after {calls : List Call} (hkept : WellKept a.documents)
    (hconnection : b.connection = a.connection.after calls) : WellKept b.documents := by
  rw [documents, hconnection]
  exact hkept.performAll calls

theorem Passes.wellKept (hpasses : Passes P a b) (hkept : WellKept a.documents) :
    WellKept b.documents := by
  obtain ⟨calls, _, hconnection, _⟩ := hpasses
  exact wellKept_of_after hkept hconnection

/-- What passes remembers nothing new. -/
theorem Passes.heeds (hpasses : Passes P a b) : Heeds a b := by
  obtain ⟨calls, _, hconnection, hrevisions⟩ := hpasses
  refine ⟨⟨calls, hconnection⟩, fun id entry hentry => Or.inl ?_⟩
  rw [hrevisions] at hentry
  exact hentry

/-- Calls may come before what is remembered. -/
theorem Passes.heeds_trans (hpasses : Passes P a b) (hheeds : Heeds b c) : Heeds a c := by
  obtain ⟨calls, _, hconnection, hrevisions⟩ := hpasses
  obtain ⟨⟨later, hlater⟩, hentries⟩ := hheeds
  refine ⟨⟨calls ++ later, ?_⟩, ?_⟩
  · rw [hlater, hconnection, Connection.after_append]
  · rw [hrevisions] at hentries
    exact hentries

/-- No calls were made, and every revision that is remembered now was remembered before or is of
    this sort. -/
structure Noting (H : String → String → Prop) (a b : Adapter) : Prop where
  connection : b.connection = a.connection
  entries : ∀ id entry, b.revisions.byId.get? id = some entry →
    a.revisions.byId.get? id = some entry ∨ H id entry.2

instance {H : String → String → Prop} : Std.Refl (Noting H) := ⟨fun _ => ⟨rfl, fun _ _ => Or.inl⟩⟩

instance {H : String → String → Prop} : IsTrans Adapter (Noting H) where
  trans _ _ _ hfirst hsecond := by
    refine ⟨hsecond.connection.trans hfirst.connection, fun id entry hentry => ?_⟩
    rcases hsecond.entries id entry hentry with hold | hheld
    · exact hfirst.entries id entry hold
    · exact Or.inr hheld

end Adapter

namespace Action

open Adapter

variable {α β : Type} {H : String → String → Prop} {Q : Dict Document → α → Prop}
  {x : Action α} {f : α → Action β}

/-! ## Actions that only remember -/

/-- The action makes no calls, and all that it remembers is of this sort. -/
abbrev Notes (H : String → String → Prop) (x : Action α) : Prop := Along (Noting H) x

/-- What may be held may be remembered. -/
theorem notes_remember {id rev : String} (hheld : H id rev) : Notes H (remember id rev) := by
  refine fun a => ⟨rfl, fun other entry hentry => ?_⟩
  have hrecord : (a.revisions.record id rev).byId.get? other = some entry := hentry
  rcases RevisionTable.get?_of_get?_record hrecord with hold | ⟨rfl, hrev⟩
  · exact Or.inl hold
  · rw [← hrev] at hheld
    exact Or.inr hheld

/-- Anything may be forgotten. -/
theorem notes_forget (id : String) : Notes H (forget id) :=
  fun _ => ⟨rfl, fun _ _ hentry => Or.inl (RevisionTable.get?_of_get?_forget hentry)⟩

/-- What is only remembered at the end makes no calls. -/
theorem connection_bind {a : Adapter} (hf : ∀ v, Notes (fun _ _ => True) (f v)) :
    ((x >>= f) a).2.connection = (x a).2.connection := by
  rcases hrun : x a with ⟨e | v, b⟩
  · rw [bind_of_error hrun]
  · rw [bind_of_ok hrun]
    exact (hf v b).connection

/-! ## Heedful actions -/

/-- What the action answers stands in this relation to the documents that the store has by then. -/
def Brings (Q : Dict Document → α → Prop) (x : Action α) : Prop :=
  ∀ (a b : Adapter) (v : α), a.Unstaged → WellKept a.documents → x a = (.ok v, b) →
    Q b.documents v

/-- The action makes its adapter remember nothing but what the store holds. -/
def Heedful (x : Action α) : Prop :=
  ∀ a : Adapter, a.Unstaged → WellKept a.documents → Heeds a (x a).2

/-- An adapter that remembers only what its store holds heeds it. -/
theorem heeds_of_notes {a : Adapter} (hnotes : Notes (Holds a.documents) x) : Heeds a (x a).2 := by
  obtain ⟨hconnection, hentries⟩ := hnotes a
  refine ⟨⟨[], ?_⟩, ?_⟩
  · rw [hconnection, Connection.after_nil]
  · rw [Adapter.documents, hconnection]
    exact hentries

theorem heedful_of_quiet (hx : Quiet (fun _ => True) x) : Heedful x :=
  fun a hunstaged _ => (hx a hunstaged).heeds

/-- Calls that remember nothing may come before a heedful action. -/
theorem heedful_bind_of_quiet (hx : Quiet (fun _ => True) x) (hf : ∀ v, Heedful (f v)) :
    Heedful (x >>= f) := by
  intro a hunstaged hkept
  refine after_bind (hx a hunstaged) (fun _ => Passes.heeds) fun v b _ hpasses => ?_
  exact hpasses.heeds_trans (hf v b (hpasses.unstaged hunstaged) (hpasses.wellKept hkept))

/-- First the calls, and then only what their answers say is held. -/
theorem heedful_bind_of_notes (hx : Quiet (fun _ => True) x) (hbrings : Brings Q x)
    (hf : ∀ documents v, Q documents v → Notes (Holds documents) (f v)) : Heedful (x >>= f) := by
  intro a hunstaged hkept
  refine after_bind (hx a hunstaged) (fun _ => Passes.heeds) fun v b hrun hpasses => ?_
  exact hpasses.heeds_trans (heeds_of_notes (hf b.documents v (hbrings a b v hunstaged hkept hrun)))

/-- What only looks at the answer of a heedful action leaves it heedful. -/
theorem heedful_bind_of_pure (hx : Heedful x) (hf : ∀ v, ∃ e, f v = liftM (e : Except Error β)) :
    Heedful (x >>= f) := by
  intro a hunstaged hkept
  refine after_bind (hx a hunstaged hkept) (fun _ => id) fun v b _ hheeds => ?_
  obtain ⟨e, he⟩ := hf v
  rw [he]
  cases e <;> exact hheeds

end Action

end DocMapper
