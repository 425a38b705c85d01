import DocMapper.Proofs.Adapter.Sparing
import DocMapper.Proofs.Sequence.Counter
import DocMapper.Proofs.Statement.Paging
import DocMapper.Repository

/-!
# Walks along operations

Operations on models and runs of statements are put together of actions on records, on counters and
on views, and are walked as these are: a relation holds along an operation if it holds along the
calls that the operation makes and along the revisions that it remembers and forgets.
-/

namespace DocMapper

open DocMapper.Action Adapter

variable {R : Adapter → Adapter → Prop} [Std.Refl R] [IsTrans Adapter R]

namespace Sequence

variable {s : Sequence} (hown : ∀ c, c.target? = some s.counterId → Allows R c)

include hown

/-- Drawing from a sequence asks for the counter document and writes it back. -/
theorem along_counter : Along R s.counter := by
  refine along_bind (along_outcome (along_read fun id hid => hown _ ?_)) fun result _ => ?_
  · cases s.documentId_counter.symm.trans hid
    rfl
  · cases result with
    | ok record => exact along_lift_bind fun _ _ => along_pure _
    | error e =>
      by_cases hmissing : e.kind = .notFound
      · simp only [if_pos hmissing]
        exact along_pure _
      · simp only [if_neg hmissing]
        exact along_throw _

/-- A sequence makes calls about its counter only. -/
theorem along_advance (steps : Nat) : Along R (s.advance steps) := by
  refine along_bind (along_counter hown) fun (previous, rev) _ => along_lift_bind fun _ _ =>
    along_lift_bind fun _ _ => ?_
  cases rev with
  | some rev =>
    refine along_bind (along_update fun given id doc _ hid hdoc => hown _ ?_) fun _ _ =>
      along_pure _
    cases s.documentId_counter.symm.trans hid
    obtain ⟨hreserves, rfl⟩ := Document.enclose_eq_ok hdoc
    exact Document.id?_kept hreserves
  | none =>
    refine along_bind (along_create fun id doc hid hdoc => hown _ ?_) fun _ _ => along_pure _
    cases s.documentId_counter.symm.trans hid
    obtain ⟨hreserves, rfl⟩ := Document.enclose_eq_ok hdoc
    exact Document.id?_enclosed hreserves

theorem along_range (count : Nat) : Along R (s.range count) := by
  unfold range
  by_cases hzero : count = 0
  · rw [if_pos hzero]
    exact along_pure _
  · rw [if_neg hzero]
    exact along_bind (along_advance hown count) fun _ _ => along_lift _

end Sequence

/-! ## Views and pages -/

namespace Adapter

/-- An aggregate makes calls for views only, one or two. -/
theorem along_viewAggregate {plan : ViewPlan}
    (hviews : ∀ ddoc view options, Allows R (.view ddoc view options)) :
    Along R (viewAggregate plan) := by
  have hasks : ∀ d, Along R (askView d) := fun d => along_ask _ (hviews _ _ _)
  unfold viewAggregate
  cases plan.target with
  | single d => exact along_bind (hasks d) fun _ _ => along_pure _
  | average sum count =>
    exact along_bind (hasks sum) fun _ _ => along_bind (hasks count) fun _ _ => along_pure _

section Finds

variable (hfinds : ∀ query, Allows R (.find query))

include hfinds

/-- A query is one call. -/
theorem along_find (query : Query) : Along R (find query) := along_ask _ (hfinds _)

/-- Every page is asked for by a query of its own. -/
theorem along_scanPages (cap : Option UInt64) (pageSize fuel : Nat) (page : Query)
    (docs : List Document) : Along R (scanPages cap pageSize fuel page docs) := by
  induction fuel generalizing page docs with
  | zero => exact along_pure _
  | succ fuel ih =>
    rw [scanPages]
    split
    · exact along_pure _
    · refine along_bind (along_ask _ (hfinds _)) fun answer _ => ?_
      split
      · exact along_pure _
      · exact ih _ _

/-- A scan asks for page after page and makes no other call. -/
theorem along_scan (query : Query) (pageSize : UInt64) : Along R (scan query pageSize) :=
  along_bind along_get fun _ _ => along_scanPages hfinds _ _ _ _ _

end Finds

end Adapter

namespace Model

variable {α : Type} (m : Model α)

/-! ## Models of records and documents -/

/-- A written record is remembered before it is decoded. -/
theorem along_finish {record : StoredRecord}
    (hremember : Along R (remember record.id record.rev)) : Along R (m.finish record) :=
  along_bind hremember fun _ _ => along_lift _

/-- A deleted record is forgotten before it is decoded. -/
theorem along_finishDeleted {record : StoredRecord} (hforget : Along R (forget record.id)) :
    Along R (m.finishDeleted record) :=
  along_bind hforget fun _ _ => along_lift _

/-- Of a document the revision is remembered that is in it. -/
theorem along_ofDocument {doc : Document} (hremember : ∀ id rev, doc.id? = some id →
    doc.revision? = some rev → Along R (remember id rev)) : Along R (m.ofDocument doc) := by
  unfold ofDocument
  cases hid : doc.id? with
  | none => exact along_throw _
  | some id =>
    refine along_lift_bind fun key _ => ?_
    cases hrev : doc.revision? with
    | none => exact along_lift _
    | some rev => exact along_bind (hremember id rev hid hrev) fun _ _ => along_lift _

/-- Of documents that come in part nothing is remembered. -/
theorem along_rowsOf {selected : Bool} {docs : List Document}
    (hremember : selected = false → ∀ doc ∈ docs, ∀ id rev, doc.id? = some id →
      doc.revision? = some rev → Along R (remember id rev)) :
    Along R (m.rowsOf selected docs) := by
  cases selected with
  | true => exact along_pure _
  | false =>
    exact along_bind (along_mapM fun doc hmem => m.along_ofDocument (hremember rfl doc hmem))
      fun _ _ => along_pure _

/-- Planning reads the registry and calls nothing. -/
theorem along_planOf (s : Statement) : Along R (planOf s) :=
  along_bind along_get fun _ _ => along_lift_bind fun _ _ => along_pure _

/-! ## Keys -/

section Keys

variable (hcounters : ∀ name c, c.target? = some (KeyedMap.recordId sequenceTable name) →
  Allows R c)

include hcounters

/-- Keys are drawn only where the model has a sequence. -/
theorem along_reserve (count : Nat) : Along R (m.reserve count) := by
  unfold reserve
  split
  · by_cases hzero : count = 0
    · rw [if_pos hzero]
      exact along_pure _
    · rw [if_neg hzero]
      exact Sequence.along_range (hcounters _) _
  · exact along_pure _

/-- Keys cost calls about counters only. -/
theorem along_assignKeys (batch : List Fields) : Along R (m.assignKeys batch) :=
  along_bind (m.along_reserve hcounters _) fun _ _ => along_lift _

end Keys

/-! ## Reading -/

section Reading

variable (hreads : ∀ call : Call, call.Reads → Allows R call)
  (hremember : ∀ id rev, Along R (remember id rev))

include hreads hremember

/-- Reading remembers the revision that it finds. -/
theorem along_read (key : Key) : Along R (m.read key) :=
  along_bind (Action.along_read fun _ _ => hreads _ trivial) fun _ _ =>
    m.along_finish (hremember _ _)

theorem along_readAll (keys : List Key) : Along R (m.readAll keys) :=
  along_bind (Action.along_readAll fun _ => hreads _ trivial) fun _ _ =>
    along_mapM fun _ _ => m.along_finish (hremember _ _)

/-- Every record that a query answers with is remembered. -/
theorem along_findOutput (query : Query) (groupBy : Option String) :
    Along R (m.findOutput query groupBy) := by
  have hrows : ∀ selected docs, Along R (m.rowsOf selected docs) := fun _ _ =>
    m.along_rowsOf fun _ _ _ _ _ _ _ => hremember _ _
  refine along_bind (along_find (fun _ => hreads _ trivial) query) fun answer _ => ?_
  cases groupBy with
  | none => exact along_bind (hrows _ _) fun _ _ => along_pure _
  | some attr =>
    exact along_bind (along_mapM fun group _ => along_bind (hrows _ _) fun _ _ => along_pure _)
      fun _ _ => along_pure _

/-- Whatever the plan of a statement is, carrying it out writes nothing. -/
theorem along_carryOut (plan : Plan) : Along R (m.carryOut plan) := by
  cases plan with
  | view plan =>
    exact along_bind (along_viewAggregate fun _ _ _ => hreads _ trivial) fun _ _ => along_pure _
  | find query manual groupBy =>
    cases manual with
    | none => exact m.along_findOutput hreads hremember query groupBy
    | some request =>
      exact along_bind along_get fun _ _ =>
        along_bind (along_scan (fun _ => hreads _ trivial) _ _) fun _ _ =>
          along_lift_bind fun _ _ => along_pure _

theorem along_execute (s : Statement) : Along R (m.execute s) :=
  along_bind (along_planOf s) fun plan _ => m.along_carryOut hreads hremember plan

/-- Fetching executes the statement and looks at what comes of it. -/
theorem along_fetch (s : Statement) : Along R (m.fetch s) := by
  refine along_bind (m.along_execute hreads hremember s) fun output _ => ?_
  split
  · exact along_pure _
  · exact along_throw _
  · exact along_throw _

/-- So does aggregating. -/
theorem along_aggregate (s : Statement) : Along R (m.aggregate s) := by
  refine along_bind (m.along_execute hreads hremember s) fun output _ => ?_
  split
  · exact along_pure _
  · exact along_throw _

theorem along_raw (query : Query) : Along R (m.raw query) :=
  along_bind (along_find (fun _ => hreads _ trivial) query) fun _ _ =>
    m.along_rowsOf fun _ _ _ _ _ _ _ => hremember _ _

/-- Turning to a page is a query, whatever pager it starts from. -/
theorem along_page (n : Nat) (q : Pager) (a : Adapter) : R a (m.page n q a).2 :=
  m.page_snd n q (refl_of R a)
    (fun _ => m.along_rowsOf (fun _ _ _ _ _ _ _ => hremember _ _) a)
    fun query => m.along_raw hreads hremember query a

end Reading

/-! ## Writing -/

section Writing

variable (hcalls : ∀ call, Allows R call) (hremember : ∀ id rev, Along R (remember id rev))
  (hforget : ∀ id, Along R (forget id))

include hcalls

section Remembering

include hremember

/-- Creating draws a key where one is missing, writes and remembers. -/
theorem along_create (x : α) : Along R (m.create x) := by
  refine along_lift_bind fun _ _ =>
    along_bind (m.along_assignKeys (fun _ _ _ => hcalls _) _) fun assigned _ => ?_
  cases assigned with
  | nil => exact along_throw _
  | cons entry rest =>
    exact along_bind (Action.along_create fun _ _ _ _ => hcalls _) fun _ _ =>
      m.along_finish (hremember _ _)

theorem along_createAll (xs : List α) : Along R (m.createAll xs) :=
  along_lift_bind fun _ _ =>
    along_bind (m.along_assignKeys (fun _ _ _ => hcalls _) _) fun _ _ =>
      along_bind (Action.along_createAll fun _ _ _ => hcalls _) fun _ _ =>
        along_mapM fun _ _ => m.along_finish (hremember _ _)

/-- Updating writes under the remembered revision and remembers the one that comes of it. -/
theorem along_update (x : α) : Along R (m.update x) :=
  along_lift_bind fun _ _ => along_lift_bind fun _ _ => along_bind along_get fun _ _ =>
    along_bind (Action.along_update fun _ _ _ _ _ _ => hcalls _) fun _ _ =>
      m.along_finish (hremember _ _)

theorem along_updateAll (xs : List α) : Along R (m.updateAll xs) :=
  along_lift_bind fun _ _ => along_lift_bind fun _ _ => along_bind along_get fun _ _ =>
    along_bind (Action.along_updateAll fun _ _ _ _ _ => hcalls _) fun _ _ =>
      along_mapM fun _ _ => m.along_finish (hremember _ _)

end Remembering

section Forgetting

include hforget

/-- Deleting reads, writes the tombstone and forgets. -/
theorem along_delete (key : Key) : Along R (m.delete key) :=
  along_bind (Action.along_delete (fun _ _ => hcalls _) fun _ _ _ => hcalls _) fun _ _ =>
    m.along_finishDeleted (hforget _)

theorem along_deleteAll (keys : List Key) : Along R (m.deleteAll keys) :=
  along_bind (Action.along_deleteAll (fun _ => hcalls _) fun _ => hcalls _) fun _ _ =>
    along_mapM fun _ _ => m.along_finishDeleted (hforget _)

end Forgetting

end Writing

end Model

/-! ## Operations -/

/-- What is done with the models of a repository. -/
inductive Operation (α : Type) where
  | create (x : α)
  | createAll (xs : List α)
  | read (key : Key)
  | readAll (keys : List Key)
  | update (x : α)
  | updateAll (xs : List α)
  | delete (key : Key)
  | deleteAll (keys : List Key)
  | execute (s : Statement)
  | fetch (s : Statement)
  | aggregate (s : Statement)
  | raw (query : Query)
  | page (q : Pager) (n : Nat)

namespace Operation

variable {α : Type}

/-- The adapter after an operation, whether it succeeds or fails. -/
def run (m : Model α) : Operation α → Adapter → Adapter
  | .create x, a => (m.create x a).2
  | .createAll xs, a => (m.createAll xs a).2
  | .read key, a => (m.read key a).2
  | .readAll keys, a => (m.readAll keys a).2
  | .update x, a => (m.update x a).2
  | .updateAll xs, a => (m.updateAll xs a).2
  | .delete key, a => (m.delete key a).2
  | .deleteAll keys, a => (m.deleteAll keys a).2
  | .execute s, a => (m.execute s a).2
  | .fetch s, a => (m.fetch s a).2
  | .aggregate s, a => (m.aggregate s a).2
  | .raw query, a => (m.raw query a).2
  | .page q n, a => (m.page n q a).2

/-- What holds across every call, and across whatever is remembered or forgotten, holds across every
    operation. -/
theorem along_run (m : Model α) (op : Operation α) (hcalls : ∀ call, Allows R call)
    (hremember : ∀ id rev, Along R (remember id rev)) (hforget : ∀ id, Along R (forget id))
    (a : Adapter) : R a (op.run m a) := by
  have hreads : ∀ call : Call, call.Reads → Allows R call := fun call _ => hcalls call
  cases op with
  | create x => exact m.along_create hcalls hremember x a
  | createAll xs => exact m.along_createAll hcalls hremember xs a
  | read key => exact m.along_read hreads hremember key a
  | readAll keys => exact m.along_readAll hreads hremember keys a
  | update x => exact m.along_update hcalls hremember x a
  | updateAll xs => exact m.along_updateAll hcalls hremember xs a
  | delete key => exact m.along_delete hcalls hforget key a
  | deleteAll keys => exact m.along_deleteAll hcalls hforget keys a
  | execute s => exact m.along_execute hreads hremember s a
  | fetch s => exact m.along_fetch hreads hremember s a
  | aggregate s => exact m.along_aggregate hreads hremember s a
  | raw query => exact m.along_raw hreads hremember query a
  | page q n => exact m.along_page hreads hremember n q a

end Operation

end DocMapper
