import DocMapper.Adapter.Setup
import DocMapper.Proofs.Adapter.Actions
import Mathlib.Order.Defs.Unbundled

/-!
# Walks along actions

An action takes its adapter along call after call. A relation that holds from every adapter to
itself, and onwards from step to step, holds along an action if it holds along each call that the
action makes and along what it remembers and forgets. Each action is walked once here, for any such
relation; which calls the relation has to allow is what the action asks of it.
-/

namespace DocMapper

/-- Whatever the store answers to the call, the relation holds across it. -/
def Adapter.Allows (R : Adapter → Adapter → Prop) (call : Call) : Prop :=
  ∀ a, R a (Adapter.attempt call a).2

namespace Action

open Adapter

variable {R : Adapter → Adapter → Prop} {α β : Type} {x : Action α} {f : α → Action β}

/-- Whatever comes of the action, the relation holds across it. -/
def Along (R : Adapter → Adapter → Prop) (x : Action α) : Prop := ∀ a, R a (x a).2

/-- The outcome as a value is the same action. -/
theorem along_outcome (hx : Along R x) : Along R x.outcome := hx

theorem along_attempt {call : Call} (hcall : Allows R call) :
    Along R (liftM (attempt call) : Action (Except StoreError call.Answer)) := hcall

/-- The second action may count on being given what the first one answers. -/
theorem along_bind [IsTrans Adapter R] (hx : Along R x)
    (hf : ∀ v, Yields x v → Along R (f v)) : Along R (x >>= f) := by
  intro a
  refine after_bind (hx a) (fun _ => id) fun v b hrun hthere => ?_
  have hyields : Yields x v := ⟨a, by rw [hrun]⟩
  exact trans_of R hthere (hf v hyields b)

variable [Std.Refl R]

/-- Nothing happens to the adapter, so the relation holds between it and itself. -/
theorem along_pure (v : α) : Along R (pure v) := fun a => refl_of R a

theorem along_throw (e : Error) : Along R (throw e : Action α) := fun a => refl_of R a

theorem along_get : Along R (get : Action Adapter) := fun a => refl_of R a

theorem along_lift (e : Except Error α) : Along R (liftM e : Action α) := by
  intro a
  cases e <;> exact refl_of R a

variable [IsTrans Adapter R]

/-- What comes behind a computation without an adapter may count on its outcome. -/
theorem along_lift_bind {e : Except Error α} (hf : ∀ v, e = .ok v → Along R (f v)) :
    Along R (liftM e >>= f) :=
  along_bind (along_lift e) fun v hyields => hf v (yields_lift hyields)

/-- A traversal walks along what it does for each element. -/
theorem along_mapM {xs : List α} (hf : ∀ v ∈ xs, Along R (f v)) : Along R (xs.mapM f) := by
  induction xs with
  | nil =>
    rw [List.mapM_nil]
    exact along_pure []
  | cons head rest ih =>
    obtain ⟨hhead, hrest⟩ := List.forall_mem_cons.mp hf
    rw [List.mapM_cons]
    exact along_bind hhead fun v _ => along_bind (ih hrest) fun vs _ => along_pure (v :: vs)

theorem along_forM {f : α → Action PUnit} {xs : List α} (hf : ∀ v ∈ xs, Along R (f v)) :
    Along R (xs.forM f) := by
  induction xs with
  | nil => exact along_pure _
  | cons head rest ih =>
    obtain ⟨hhead, hrest⟩ := List.forall_mem_cons.mp hf
    exact along_bind hhead fun _ _ => ih hrest

/-- Whether its call fails or not, asking makes no other. -/
theorem along_ask (subject : Option String) {call : Call} (hcall : Allows R call) :
    Along R (ask subject call) := by
  refine along_bind (along_attempt hcall) fun answer _ => ?_
  cases answer with
  | ok answer => exact along_pure _
  | error cause => exact along_throw _

/-! ## Records -/

section Records

variable {table : String} {key : Key} {attributes : Fields} {rev : Option String}

/-- A creation inserts the document that encloses its attributes. -/
theorem along_create (hinsert : ∀ id doc, Identity.documentId table key = .ok id →
    Document.enclose table id attributes = .ok doc → Allows R (.insert doc)) :
    Along R (create table key attributes) :=
  along_lift_bind fun id hid => along_lift_bind fun doc hdoc =>
    along_bind (along_ask _ (hinsert id doc hid hdoc)) fun _ _ => along_pure _

/-- Reading a record asks for its document. -/
theorem along_read (hget : ∀ id, Identity.documentId table key = .ok id → Allows R (.get id)) :
    Along R (read table key) :=
  along_lift_bind fun id hid => along_bind (along_ask _ (hget id hid)) fun _ _ =>
    along_bind along_get fun _ _ => along_lift _

/-- An update inserts the document with the revision that it was given; without one it asks for
    nothing. -/
theorem along_update (hinsert : ∀ given id doc, rev = some given →
    Identity.documentId table key = .ok id → Document.enclose table id attributes = .ok doc →
      Allows R (.insert (Dict.insert doc revisionField (.str given)))) :
    Along R (update table key attributes rev) := by
  cases rev with
  | none => exact along_throw _
  | some given =>
    exact along_lift_bind fun id hid => along_lift_bind fun doc hdoc =>
      along_bind (along_ask _ (hinsert given id doc rfl hid hdoc)) fun _ _ => along_pure _

/-- A deletion reads before it destroys. -/
theorem along_delete (hget : ∀ id, Identity.documentId table key = .ok id → Allows R (.get id))
    (hdestroy : ∀ id given, Identity.documentId table key = .ok id →
      Allows R (.destroy id given)) :
    Along R (delete table key) :=
  along_lift_bind fun id hid => along_bind (along_ask _ (hget id hid)) fun _ _ =>
    along_bind along_get fun _ _ => along_lift_bind fun record _ =>
      along_bind (along_ask _ (hdestroy id record.rev hid)) fun _ _ => along_pure _

end Records

/-! ## Batches -/

section Batches

variable {table : String} {keys : List Key} {batch : List Fields} {revs : List (Option String)}

/-- A batch is written by a single call, whether all of it is accepted or not. -/
theorem along_writeAll {docs : List Document} (hbulk : Allows R (.bulk docs)) :
    Along R (writeAll docs) := by
  refine along_bind (along_ask _ hbulk) fun outcomes _ => ?_
  cases failures outcomes with
  | nil => exact along_pure _
  | cons => exact along_throw _

/-- The documents of a batch are all enclosed before they are written at once. -/
theorem along_createAll (hbulk : ∀ (ids : List String) docs,
    (ids.zip batch).mapM (fun (id, fields) => Document.enclose table id fields) = .ok docs →
      Allows R (.bulk docs)) : Along R (createAll table keys batch) :=
  along_lift_bind fun _ _ => along_lift_bind fun ids _ =>
    along_bind (along_mapM fun _ _ => along_lift _) fun docs hyields =>
      along_bind (along_writeAll (hbulk ids docs (mapM_of_yields (fun _ => rfl) hyields)))
        fun _ _ => along_pure _

/-- Nothing is written unless every record comes with a revision. -/
theorem along_updateAll (hbulk : ∀ ids docs, firstWithoutRevision? keys revs = none →
    documentIds table keys = .ok ids →
      ((ids.zip batch).zip revs).mapM
        (fun ((id, fields), rev) => replacement table id fields rev) = .ok docs →
          Allows R (.bulk docs)) : Along R (updateAll table keys batch revs) := by
  refine along_lift_bind fun _ _ => along_lift_bind fun _ _ => ?_
  cases hfirst : firstWithoutRevision? keys revs with
  | some key => exact along_throw _
  | none =>
    refine along_lift_bind fun ids hids =>
      along_bind (along_mapM fun _ _ => along_lift _) fun docs hyields =>
        along_bind (along_writeAll ?_) fun _ _ => along_pure _
    exact hbulk ids docs hfirst hids (mapM_of_yields (fun _ => rfl) hyields)

variable (hfetch : ∀ ids, Allows R (.fetch ids))

include hfetch

/-- The documents of all records are asked for by a single call. -/
theorem along_fetchAll : Along R (fetchAll table keys) := by
  refine along_lift_bind fun _ _ => along_bind (along_ask _ (hfetch _)) fun rows _ => ?_
  cases missing rows with
  | nil => exact along_pure _
  | cons => exact along_throw _

theorem along_readAll : Along R (readAll table keys) :=
  along_bind (along_fetchAll hfetch) fun _ _ => along_bind along_get fun _ _ =>
    along_mapM fun _ _ => along_lift _

/-- What is deleted at once is read at once before. -/
theorem along_deleteAll (hbulk : ∀ docs, Allows R (.bulk docs)) :
    Along R (deleteAll table keys) :=
  along_bind (along_readAll hfetch) fun _ _ => along_bind (along_writeAll (hbulk _)) fun _ _ =>
    along_pure _

end Batches

/-! ## Design documents -/

section Setup

variable (hcalls : ∀ call, Allows R call)

include hcalls

/-- That an index is there already is no failure. -/
theorem along_createIndex (r : IndexRequest) : Along R (createIndex r) := by
  refine along_bind (along_attempt (hcalls _)) fun answer _ => ?_
  cases answer with
  | ok receipt => exact along_pure _
  | error cause =>
    by_cases hexists : alreadyExists (.store (some r.name) cause) = true
    · simp only [if_pos hexists]
      exact along_pure _
    · simp only [if_neg hexists]
      exact along_throw _

/-- A design document is inserted. -/
theorem along_putDesign (d : DesignDocument) : Along R (putDesign d) :=
  along_bind (along_ask _ (hcalls _)) fun _ _ => along_pure _

/-- A design document is looked up, and written only if it is missing or holds other views. -/
theorem along_updateDesign (d : DesignDocument) : Along R (updateDesign d) := by
  refine along_bind (along_attempt (hcalls _)) fun answer _ => ?_
  cases answer with
  | ok existing =>
    by_cases hholds : holdsViews existing d.views = true
    · simp only [if_pos hholds]
      exact along_pure _
    · simp only [if_neg hholds]
      exact along_lift_bind fun _ _ => along_putDesign hcalls _
  | error cause =>
    by_cases hmissing : cause.status? = some 404
    · simp only [if_pos hmissing]
      exact along_putDesign hcalls d
    · simp only [if_neg hmissing]
      exact along_throw _

/-- Setting a store up creates every index, and then every design document. -/
theorem along_setUp : Along R setUp :=
  along_bind along_get fun _ _ => along_bind (along_forM fun r _ => along_createIndex hcalls r)
    fun _ _ => along_forM fun d _ => along_updateDesign hcalls d

end Setup

end Action

end DocMapper
