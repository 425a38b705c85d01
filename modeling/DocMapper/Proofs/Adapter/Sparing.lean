import DocMapper.Proofs.Adapter.Remembering

/-!
# Documents that are left alone

An action spares documents if it leaves them as they are, whatever comes of it. It is atomic on them
if it leaves them as they are where it fails. What goes on after sparing actions with an atomic one
is atomic.
-/

namespace DocMapper

/-- The call asks for something and writes nothing. -/
def Call.Reads : Call → Prop
  | .get _ | .fetch _ | .find _ | .view _ _ _ => True
  | _ => False

/-- The call leaves these documents alone, whatever the store has. -/
def Call.Spares (S : String → Prop) (c : Call) : Prop :=
  ∀ (s : MemoryStore) (id : String), S id →
    (s.perform c).2.documents.get? id = s.documents.get? id

namespace MemoryStore

variable {S : String → Prop} {c : Call} {s : MemoryStore} {own : String}

/-- What only reads spares every document. -/
theorem spares_of_reads (hreads : c.Reads) : c.Spares S := by
  cases c with
  | get | fetch | find | view => exact fun _ _ _ => rfl
  | insert | destroy | bulk | createIndex => cases hreads

/-- A call about one document spares the others. -/
theorem spares_of_target (htarget : c.target? = some own) (hown : ¬S own) : c.Spares S := by
  intro s id hid
  have hne : own ≠ id := by
    rintro rfl
    exact hown hid
  exact performAll_get?_of_ne s [c] (List.forall_mem_singleton.mpr htarget) hne

/-- A call that fails writes nothing. -/
theorem documents_perform_of_error {e : StoreError} (herror : (s.perform c).1 = .error e) :
    (s.perform c).2.documents = s.documents := by
  have hkeep : ∀ {α : Type} (result : Except StoreError (α × Dict Document)),
      ((s.count c.primitive).keepDocuments result).1 = .error e →
        ((s.count c.primitive).keepDocuments result).2.documents = s.documents := by
    intro α result hresult
    cases result with
    | error cause => rfl
    | ok written => cases hresult
  cases c with
  | insert | destroy | bulk => exact hkeep _ herror
  | createIndex request =>
    simp only [perform, effect]
    cases addIndex (s.count (Call.createIndex request).primitive).indexes request <;> rfl
  | get | fetch | find | view => rfl

end MemoryStore

/-- The adapter still stages no answers, its store has these documents as they were, and its table
    of revisions is still in order. -/
structure Adapter.Undisturbed (S : String → Prop) (a b : Adapter) : Prop where
  unstaged : b.Unstaged
  get?_eq : ∀ id, S id → b.documents.get? id = a.documents.get? id
  tidy : a.revisions.Tidy → b.revisions.Tidy

namespace Adapter

variable {S : String → Prop} {a b c : Adapter}

theorem Undisturbed.refl (hunstaged : a.Unstaged) : a.Undisturbed S a where
  unstaged := hunstaged
  get?_eq _ _ := rfl
  tidy := id

/-- Documents that are left alone twice are left alone. -/
theorem Undisturbed.trans (hfirst : a.Undisturbed S b) (hsecond : b.Undisturbed S c) :
    a.Undisturbed S c where
  unstaged := hsecond.unstaged
  get?_eq id hid := (hsecond.get?_eq id hid).trans (hfirst.get?_eq id hid)
  tidy htidy := hsecond.tidy (hfirst.tidy htidy)

/-- Where every call reaches the store, these documents are not disturbed. -/
def Sparing (S : String → Prop) (a b : Adapter) : Prop := a.Unstaged → a.Undisturbed S b

instance : Std.Refl (Sparing S) := ⟨fun _ => Undisturbed.refl⟩

instance : IsTrans Adapter (Sparing S) :=
  ⟨fun _ _ _ hfirst hsecond hunstaged =>
    (hfirst hunstaged).trans (hsecond (hfirst hunstaged).unstaged)⟩

/-- A call that spares the documents may be made. -/
theorem allows_sparing {call : Call} (hspares : call.Spares S) : Allows (Sparing S) call := by
  intro a hunstaged
  rw [attempt_eq hunstaged]
  exact ⟨hunstaged, fun id hid => hspares _ id hid, id⟩

/-- Where no document is to be spared, any call may be made. -/
theorem allows_sparing_none (call : Call) : Allows (Sparing fun _ => False) call :=
  allows_sparing fun _ _ => False.elim

end Adapter

namespace Action

open Adapter MemoryStore

/-- Whatever comes of the action, it leaves these documents as they are. -/
abbrev Spares {α : Type} (S : String → Prop) (x : Action α) : Prop := Along (Sparing S) x

/-- Where the action fails, it leaves these documents as they are. -/
def Atomic {α : Type} (S : String → Prop) (x : Action α) : Prop :=
  ∀ (a b : Adapter) (e : Error), a.Unstaged → x a = (.error e, b) →
    ∀ id, S id → b.documents.get? id = a.documents.get? id

variable {S : String → Prop} {α β : Type} {x : Action α} {f : α → Action β}

/-- Remembering a revision leaves all documents alone, and the table tidy. -/
theorem spares_remember (id rev : String) : Spares S (remember id rev) :=
  fun _ hunstaged => ⟨hunstaged, fun _ _ => rfl, fun htidy => htidy.record id rev⟩

/-- So does forgetting one. -/
theorem spares_forget (id : String) : Spares S (forget id) :=
  fun _ hunstaged => ⟨hunstaged, fun _ _ => rfl, fun htidy => htidy.forget id⟩

/-! ## Atomic actions -/

/-- What spares documents whatever comes of it spares them where it fails. -/
theorem atomic_of_spares (hx : Spares S x) : Atomic S x := by
  intro a b e hunstaged hrun id hid
  have hspared := hx a hunstaged
  rw [hrun] at hspared
  exact hspared.get?_eq id hid

theorem atomic_throw (e : Error) : Atomic S (throw e : Action α) :=
  atomic_of_spares (along_throw e)

/-- A call that fails writes nothing. -/
theorem atomic_ask (subject : Option String) (call : Call) : Atomic S (ask subject call) := by
  intro a b e hunstaged hask id _
  cases hanswer : (a.connection.store.perform call).1 with
  | ok answer =>
    rw [ask_of_ok hunstaged hanswer] at hask
    cases hask
  | error cause =>
    rw [ask_of_error hunstaged hanswer] at hask
    cases hask
    have hdocuments : (a.served call).documents = a.documents := documents_perform_of_error hanswer
    rw [hdocuments]

/-- What is done before an atomic action has to spare the documents by itself. -/
theorem atomic_bind (hx : Spares S x) (hf : ∀ v, Atomic S (f v)) : Atomic S (x >>= f) := by
  intro a b e hunstaged hbind id hid
  have hfirst := hx a hunstaged
  rcases hrun : x a with ⟨given | v, c⟩
  · rw [bind_of_error hrun] at hbind
    cases hbind
    rw [hrun] at hfirst
    exact hfirst.get?_eq id hid
  · rw [bind_of_ok hrun] at hbind
    rw [hrun] at hfirst
    exact (hf v c b e hfirst.unstaged hbind id hid).trans (hfirst.get?_eq id hid)

theorem atomic_lift_bind {e : Except Error α} (hf : ∀ v, Atomic S (f v)) :
    Atomic S (liftM e >>= f) := atomic_bind (along_lift e) hf

/-- What only makes something of the answer does not fail. -/
theorem atomic_map {g : α → β} (hx : Atomic S x) : Atomic S (x >>= fun v => pure (g v)) := by
  intro a b e hunstaged hbind
  rcases hrun : x a with ⟨given | v, c⟩
  · rw [bind_of_error hrun] at hbind
    cases hbind
    exact hx a b e hunstaged hrun
  · rw [bind_of_ok hrun] at hbind
    cases hbind

/-! ## Operations on records -/

variable {table : String} {key : Key} {attributes : Fields} {rev : Option String}

/-- A creation writes by its only call, so that it fails before anything is written. -/
theorem atomic_create : Atomic S (create table key attributes) :=
  atomic_lift_bind fun _ => atomic_lift_bind fun _ => atomic_map (atomic_ask _ _)

/-- So does an update. -/
theorem atomic_update : Atomic S (update table key attributes rev) := by
  cases rev with
  | none => exact atomic_throw _
  | some given =>
    exact atomic_lift_bind fun _ => atomic_lift_bind fun _ => atomic_map (atomic_ask _ _)

/-- The record is made before the document is deleted. -/
theorem atomic_delete : Atomic S (delete table key) :=
  atomic_lift_bind fun _ =>
    atomic_bind (along_ask _ (allows_sparing (spares_of_reads trivial))) fun _ =>
      atomic_bind along_get fun _ => atomic_lift_bind fun _ => atomic_map (atomic_ask _ _)

end Action

end DocMapper
