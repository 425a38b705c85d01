import DocMapper.Proofs.Adapter.Batches
import DocMapper.Proofs.Store.Batch

/-!
# Refusals in a batch

A batch that is refused names the documents that the store would not write, by their positions in
the batch. The documents at all other positions were written, and nothing else has changed.
-/

namespace DocMapper

open DocMapper.Action MemoryStore

namespace Adapter

variable {α β : Type} {a b : Adapter} {outcomes : List BulkOutcome} {i : Nat}

/-- A failure stands for the outcome at its position, with the words of that outcome. -/
theorem mem_failures_iff {f : BatchFailure} : f ∈ failures outcomes ↔
    ∃ outcome, outcomes[f.index]? = some outcome ∧ outcome.error = some f.error ∧
      outcome.reason = f.reason := by
  unfold failures
  constructor
  · intro hmem
    obtain ⟨⟨outcome, j⟩, hentry, hf⟩ := List.mem_filterMap.mp hmem
    obtain ⟨error, herror, rfl⟩ := Option.map_eq_some_iff.mp hf
    exact ⟨outcome, List.mk_mem_zipIdx_iff_getElem?.mp hentry, herror, rfl⟩
  · rintro ⟨outcome, houtcome, herror, hreason⟩
    refine List.mem_filterMap.mpr ⟨(outcome, f.index),
      List.mk_mem_zipIdx_iff_getElem?.mpr houtcome, ?_⟩
    simp only [herror, hreason, Option.map_some]

/-- Failures come in the order of the documents that were refused. -/
theorem failures_increasing (outcomes : List BulkOutcome) :
    (failures outcomes).Pairwise fun f g => f.index < g.index := by
  unfold failures
  rw [List.pairwise_filterMap]
  have hindexes : outcomes.zipIdx.Pairwise fun p q => p.2 < q.2 := by
    have hrange : (List.range' 0 outcomes.length).Pairwise (· < ·) := List.pairwise_lt_range'
    rw [← List.zipIdx_map_snd 0 outcomes] at hrange
    exact List.pairwise_map.mp hrange
  refine hindexes.imp fun hlt f hf g hg => ?_
  obtain ⟨_, _, rfl⟩ := Option.map_eq_some_iff.mp hf
  obtain ⟨_, _, rfl⟩ := Option.map_eq_some_iff.mp hg
  exact hlt

/-! ## Where a batch is refused -/

variable {table : String} {keys : List Key} {batch : List Fields} {revs : List (Option String)}
  {docs : List Document} {refused : List BatchFailure}

/-- The action never fails with the refusals of a batch. -/
def Unrefused (x : Action α) : Prop := ∀ a b refused, x a ≠ (.error (.batch refused), b)

/-- If the whole is refused, the first part was not, and so the second part was. -/
theorem bind_eq_refused {x : Action α} {f : α → Action β} (hx : Unrefused x)
    (hbind : (x >>= f) a = (.error (.batch refused), b)) :
    ∃ v c, x a = (.ok v, c) ∧ f v c = (.error (.batch refused), b) := by
  rcases hrun : x a with ⟨e | v, c⟩
  · rw [bind_of_error hrun] at hbind
    cases hbind
    exact absurd hrun (hx a _ refused)
  · rw [bind_of_ok hrun] at hbind
    exact ⟨v, c, rfl, hbind⟩

theorem unrefused_bind {x : Action α} {f : α → Action β} (hx : Unrefused x)
    (hf : ∀ v, Unrefused (f v)) : Unrefused (x >>= f) := by
  intro a b refused hbind
  obtain ⟨v, c, _, hrest⟩ := bind_eq_refused hx hbind
  exact hf v c b refused hrest

/-- What is computed without the store is never refused by it. -/
theorem unrefused_lift {r : Except Error α} (hr : ∀ refused, r ≠ .error (.batch refused)) :
    Unrefused (liftM r : Action α) := by
  intro a b refused hlift
  cases r with
  | ok v => cases hlift
  | error e =>
    cases hlift
    exact hr refused rfl

theorem lift_bind_eq_refused {r : Except Error α} {f : α → Action β}
    (hr : ∀ refused, r ≠ .error (.batch refused))
    (hbind : (liftM r >>= f) a = (.error (.batch refused), b)) :
    ∃ v, r = .ok v ∧ f v a = (.error (.batch refused), b) := by
  obtain ⟨v, c, hlift, hrest⟩ := bind_eq_refused (unrefused_lift hr) hbind
  obtain ⟨hr, rfl⟩ := lift_eq_ok hlift
  exact ⟨v, hr, hrest⟩

/-- A traversal is refused only at one of its elements. -/
theorem mapM_ne_refused {f : α → Except Error β} (hf : ∀ v refused, f v ≠ .error (.batch refused))
    (xs : List α) (refused : List BatchFailure) : xs.mapM f ≠ .error (.batch refused) := by
  intro hmap
  obtain ⟨v, _, hv⟩ := exists_mem_of_mapM_error hmap
  exact hf v refused hv

/-- What is refused after a traversal without an adapter has got through the traversal. -/
theorem mapM_bind_eq_refused {γ : Type} {f : α → Action β} {g : α → Except Error β}
    {h : List β → Action γ} {xs : List α} (hf : ∀ v, f v = liftM (g v))
    (hg : ∀ v refused, g v ≠ .error (.batch refused))
    (hbind : (xs.mapM f >>= h) a = (.error (.batch refused), b)) :
    ∃ ys, xs.mapM g = .ok ys ∧ h ys a = (.error (.batch refused), b) := by
  rw [mapM_eq_lift hf] at hbind
  exact lift_bind_eq_refused (mapM_ne_refused hg xs) hbind

theorem unrefused_mapM {f : α → Action β} (hf : ∀ v, Unrefused (f v)) (xs : List α) :
    Unrefused (xs.mapM f) := by
  induction xs with
  | nil => exact fun a b refused hnil => by cases hnil
  | cons x rest ih =>
    rw [List.mapM_cons]
    refine unrefused_bind (hf x) fun v => unrefused_bind ih fun vs => ?_
    exact fun a b refused hanswer => by cases hanswer

/-- A single call fails with an error of the store, never with that of a batch. -/
theorem unrefused_ask (subject : Option String) (call : Call) : Unrefused (ask subject call) := by
  refine unrefused_bind (fun a b refused hattempt => ?_) fun answer => ?_
  · cases hattempt
  · cases answer <;> exact fun a b refused hanswer => by cases hanswer

theorem checkLengths_ne_refused (m n : Nat) (refused : List BatchFailure) :
    checkLengths m n ≠ .error (.batch refused) := by
  unfold checkLengths
  split <;> exact fun herror => by cases herror

theorem documentId_ne_refused (table : String) (key : Key) (refused : List BatchFailure) :
    Identity.documentId table key ≠ .error (.batch refused) := by
  unfold Identity.documentId
  split <;> exact fun herror => by cases herror

theorem enclose_ne_refused (table id : String) (fields : Fields) (refused : List BatchFailure) :
    Document.enclose table id fields ≠ .error (.batch refused) := by
  unfold Document.enclose
  split <;> exact fun herror => by cases herror

theorem replacement_ne_refused (table id : String) (fields : Fields) (rev : Option String)
    (refused : List BatchFailure) : replacement table id fields rev ≠ .error (.batch refused) := by
  intro hreplacement
  unfold replacement at hreplacement
  cases henclose : Document.enclose table id fields with
  | error e =>
    rw [henclose] at hreplacement
    cases hreplacement
    exact enclose_ne_refused table id fields refused henclose
  | ok doc =>
    rw [henclose] at hreplacement
    cases hreplacement

theorem recordOf_ne_refused (registry : Dict Schema) (table : String) (key : Key) (doc : Document)
    (refused : List BatchFailure) : recordOf registry table key doc ≠ .error (.batch refused) := by
  intro hrecord
  unfold recordOf Document.revision at hrecord
  cases hid : Identity.documentId table key with
  | error e =>
    rw [hid] at hrecord
    cases hrecord
    exact documentId_ne_refused table key refused hid
  | ok id =>
    rw [hid] at hrecord
    cases hrev : doc.revision? <;> rw [hrev] at hrecord <;> cases hrecord

/-- Reading fails for records that are missing, which is another error than a refusal. -/
theorem unrefused_readAll (table : String) (keys : List Key) : Unrefused (readAll table keys) := by
  refine unrefused_bind (unrefused_bind (unrefused_lift ?_) fun ids => ?_) fun docs => ?_
  · exact mapM_ne_refused (documentId_ne_refused table) keys
  · refine unrefused_bind (unrefused_ask _ _) fun rows => ?_
    cases missing rows <;> exact fun a b refused hanswer => by cases hanswer
  · refine unrefused_bind (fun a b refused hget => by cases hget) fun known => ?_
    exact unrefused_mapM (fun _ => unrefused_lift (recordOf_ne_refused _ _ _ _)) _

/-- A refusal lists all failures of the batch, and there is at least one. The other documents of the
    batch stay written. -/
theorem writeAll_eq_refused (hunstaged : a.Unstaged)
    (hwrite : writeAll docs a = (.error (.batch refused), b)) :
    refused = failures (putAll a.connection.store.digest a.documents docs).1 ∧ refused ≠ [] ∧
      b.documents = (putAll a.connection.store.digest a.documents docs).2 := by
  obtain ⟨given, c, hask, hanswer⟩ := bind_eq_refused (unrefused_ask none _) hwrite
  obtain ⟨hgiven, rfl⟩ := ask_eq_ok hunstaged hask
  have hbulk : (a.connection.store.perform (.bulk docs)).1 =
      .ok (putAll a.connection.store.digest a.documents docs).1 := rfl
  rw [hbulk, Except.ok.injEq] at hgiven
  subst hgiven
  cases hfailures : failures (putAll a.connection.store.digest a.documents docs).1 with
  | nil =>
    simp only [hfailures] at hanswer
    cases hanswer
  | cons first rest =>
    simp only [hfailures] at hanswer
    cases hanswer
    exact ⟨rfl, List.cons_ne_nil _ _, rfl⟩

theorem writeAll_bind_eq_refused {h : List BulkOutcome → α}
    (hwrite : (writeAll docs >>= fun outcomes => pure (h outcomes)) a =
      (.error (.batch refused), b)) : writeAll docs a = (.error (.batch refused), b) := by
  rcases hrun : writeAll docs a with ⟨e | outcomes, c⟩
  · rw [bind_of_error hrun] at hwrite
    cases hwrite
    rfl
  · rw [bind_of_ok hrun] at hwrite
    cases hwrite

/-- Creations were refused only once all documents had been enclosed and were written at once. -/
theorem createAll_eq_refused
    (hcreate : createAll table keys batch a = (.error (.batch refused), b)) :
    ∃ ids docs, keys.length = batch.length ∧ documentIds table keys = .ok ids ∧
      ((ids.zip batch).mapM fun (id, fields) => Document.enclose table id fields) = .ok docs ∧
      writeAll docs a = (.error (.batch refused), b) := by
  obtain ⟨_, hbatch, hcreate⟩ := lift_bind_eq_refused (checkLengths_ne_refused _ _) hcreate
  obtain ⟨ids, hids, hcreate⟩ := lift_bind_eq_refused
    (mapM_ne_refused (documentId_ne_refused table) keys) hcreate
  obtain ⟨docs, hdocs, hcreate⟩ := mapM_bind_eq_refused
    (g := fun (id, fields) => Document.enclose table id fields) (fun _ => rfl)
    (fun _ => enclose_ne_refused _ _ _) hcreate
  exact ⟨ids, docs, length_eq_of_checkLengths hbatch, hids, hdocs,
    writeAll_bind_eq_refused hcreate⟩

/-- So were updates, each of which came with a revision. -/
theorem updateAll_eq_refused
    (hupdate : updateAll table keys batch revs a = (.error (.batch refused), b)) :
    ∃ ids docs, keys.length = batch.length ∧ keys.length = revs.length ∧
      firstWithoutRevision? keys revs = none ∧ documentIds table keys = .ok ids ∧
      (((ids.zip batch).zip revs).mapM fun ((id, fields), rev) =>
        replacement table id fields rev) = .ok docs ∧
      writeAll docs a = (.error (.batch refused), b) := by
  obtain ⟨_, hbatch, hupdate⟩ := lift_bind_eq_refused (checkLengths_ne_refused _ _) hupdate
  obtain ⟨_, hrevs, hupdate⟩ := lift_bind_eq_refused (checkLengths_ne_refused _ _) hupdate
  cases hfirst : firstWithoutRevision? keys revs with
  | some key =>
    simp only [hfirst] at hupdate
    cases hupdate
  | none =>
    simp only [hfirst] at hupdate
    obtain ⟨ids, hids, hupdate⟩ := lift_bind_eq_refused
      (mapM_ne_refused (documentId_ne_refused table) keys) hupdate
    obtain ⟨docs, hdocs, hupdate⟩ := mapM_bind_eq_refused
      (g := fun ((id, fields), rev) => replacement table id fields rev) (fun _ => rfl)
      (fun _ => replacement_ne_refused _ _ _ _) hupdate
    exact ⟨ids, docs, length_eq_of_checkLengths hbatch, length_eq_of_checkLengths hrevs, rfl, hids,
      hdocs, writeAll_bind_eq_refused hupdate⟩

/-- If no key is without a revision, the one at any position has one. -/
theorem exists_rev_of_firstWithoutRevision? {key : Key} {given : Option String}
    (hfirst : firstWithoutRevision? keys revs = none) (hkey : keys[i]? = some key)
    (hgiven : revs[i]? = some given) : ∃ rev, given = some rev := by
  have hentry : (key, given) ∈ keys.zip revs :=
    List.mem_of_getElem? (List.getElem?_zip_eq_some.mpr ⟨hkey, hgiven⟩)
  have hnot := List.find?_eq_none.mp (Option.map_eq_none_iff.mp hfirst) _ hentry
  exact Option.ne_none_iff_exists'.mp fun hnone => hnot (Option.isNone_iff_eq_none.mpr hnone)

/-- The replacement of a record is the document that keeps it under the revision given. -/
theorem replacement_eq_kept {id rev : String} {fields : Fields} {doc : Document}
    (hreplacement : replacement table id fields (some rev) = .ok doc) :
    doc = Document.kept table id fields rev := by
  unfold replacement at hreplacement
  cases henclose : Document.enclose table id fields with
  | error e =>
    rw [henclose] at hreplacement
    cases hreplacement
  | ok enclosed =>
    rw [henclose] at hreplacement
    cases hreplacement
    obtain ⟨_, rfl⟩ := Document.enclose_eq_ok henclose
    rfl

/-- All records are read, or none. -/
theorem length_of_readAll {records : List StoredRecord} (hunstaged : a.Unstaged)
    (hread : readAll table keys a = (.ok records, b)) : records.length = keys.length := by
  obtain ⟨ids, docs, hids, hdocs, hrecords, _⟩ := readAll_eq_ok hunstaged hread
  have hcount := length_of_mapM hrecords
  rw [List.length_zip, length_of_mapM hdocs, length_of_mapM hids, Nat.min_self] at hcount
  exact hcount

/-- Deletions were refused only once all records had been read and their tombstones were written at
    once. -/
theorem deleteAll_eq_refused (hdelete : deleteAll table keys a = (.error (.batch refused), b)) :
    ∃ records c, readAll table keys a = (.ok records, c) ∧
      writeAll (records.map fun r => tombstone r.id r.rev) c = (.error (.batch refused), b) := by
  obtain ⟨records, c, hread, hdelete⟩ := bind_eq_refused (unrefused_readAll table keys) hdelete
  exact ⟨records, c, hread, writeAll_bind_eq_refused hdelete⟩

end Adapter

/-! ## Exact refusals -/

/-- These are exactly the refusals of a batch that leaves these documents: they name, in order, the
    positions of the documents that the store does not write, each with what the store says. What is
    at another position was written over an earlier generation, and gave way to a later document of
    its id at most. Under other ids nothing has changed. -/
structure ExactRefusals (digest : Option String → Document → UInt64) (documents : Dict Document)
    (docs : List Document) (after : Dict Document) (refused : List BatchFailure) : Prop where
  nonempty : refused ≠ []
  increasing : refused.Pairwise fun f g => f.index < g.index
  index_iff : ∀ i, i ∈ refused.map BatchFailure.index ↔ RefusedAt digest documents docs i
  worded : ∀ f ∈ refused, ∃ doc cause, docs[f.index]? = some doc ∧
    put digest (before digest documents docs f.index) doc = .error cause ∧
    (outcome doc (.error cause)).error = some f.error ∧
    (outcome doc (.error cause)).reason = f.reason
  written : ∀ i doc, docs[i]? = some doc → i ∉ refused.map BatchFailure.index →
    ∃ receipt middle, put digest (before digest documents docs i) doc = .ok (receipt, middle) ∧
      doc.id? = some receipt.id ∧ Progresses receipt.id middle after ∧
      Revision.generationOf (currentRevision documents receipt.id) <
        Revision.generationOf (currentRevision after receipt.id)
  untouched : ∀ id, (∀ doc ∈ docs, doc.id? ≠ some id) → after.get? id = documents.get? id

/-- What the store refuses of a batch are exactly the documents that it does not write. -/
theorem exactRefusals_putAll {digest : Option String → Document → UInt64}
    {documents : Dict Document} {docs : List Document}
    (hrefused : Adapter.failures (putAll digest documents docs).1 ≠ []) :
    ExactRefusals digest documents docs (putAll digest documents docs).2
      (Adapter.failures (putAll digest documents docs).1) := by
  have hindex : ∀ i, i ∈ (Adapter.failures (putAll digest documents docs).1).map
      BatchFailure.index ↔ RefusedAt digest documents docs i := by
    intro i
    rw [refusedAt_iff, List.mem_map]
    constructor
    · rintro ⟨f, hf, rfl⟩
      obtain ⟨outcome, houtcome, herror, _⟩ := Adapter.mem_failures_iff.mp hf
      refine ⟨outcome, houtcome, ?_⟩
      rw [herror]
      exact Option.some_ne_none _
    · rintro ⟨outcome, houtcome, hsome⟩
      obtain ⟨error, herror⟩ := Option.ne_none_iff_exists'.mp hsome
      exact ⟨⟨i, error, outcome.reason⟩,
        Adapter.mem_failures_iff.mpr ⟨outcome, houtcome, herror, rfl⟩, rfl⟩
  refine ⟨hrefused, Adapter.failures_increasing _, hindex, ?_, ?_, fun id habsent =>
    putAll_get?_of_absent _ _ habsent⟩
  · intro f hf
    obtain ⟨outcome, houtcome, herror, hreason⟩ := Adapter.mem_failures_iff.mp hf
    obtain ⟨doc, cause, hdoc, hput⟩ := (hindex f.index).mp (List.mem_map_of_mem hf)
    rw [getElem?_putAll, hdoc, Option.map_some, hput, Option.some.injEq] at houtcome
    subst houtcome
    exact ⟨doc, cause, hdoc, hput, herror, hreason⟩
  · intro i doc hdoc hnot
    obtain ⟨receipt, middle, hput, hlater⟩ :=
      exists_put_of_not_refusedAt hdoc (mt (hindex i).mpr hnot)
    refine ⟨receipt, middle, hput, (put_eq_ok hput).1, hlater receipt.id, ?_⟩
    have hearlier := (putAll_progresses digest documents (docs.take i) receipt.id).generationOf_le
    have hstep := generationOf_lt_of_put hput
    have hafter := (hlater receipt.id).generationOf_le
    rw [← before] at hearlier
    omega

/-- The error of a batch says exactly what the store has refused. -/
theorem exactRefusals_of_writeAll {a b : Adapter} {docs : List Document}
    {refused : List BatchFailure} (hunstaged : a.Unstaged)
    (hwrite : Adapter.writeAll docs a = (.error (.batch refused), b)) :
    ExactRefusals a.connection.store.digest a.documents docs b.documents refused := by
  obtain ⟨rfl, hsome, hdocuments⟩ := Adapter.writeAll_eq_refused hunstaged hwrite
  rw [hdocuments]
  exact exactRefusals_putAll hsome

/-! ## Calls that write batches -/

/-- A call that writes a batch of records. -/
inductive BatchCall where
  | create (keys : List Key) (batch : List Fields)
  | update (keys : List Key) (batch : List Fields) (revs : List (Option String))
  | delete (keys : List Key)

namespace BatchCall

/-- The keys of the entries. -/
def keys : BatchCall → List Key
  | create keys _ | update keys _ _ | delete keys => keys

/-- Make the call. -/
def run (table : String) : BatchCall → Action (List StoredRecord)
  | create keys batch => Adapter.createAll table keys batch
  | update keys batch revs => Adapter.updateAll table keys batch revs
  | delete keys => Adapter.deleteAll table keys

/-- The entry at a position asks for this document to be written. A record is deleted by a tombstone
    over the revision that was held for it before the batch. -/
inductive Asks (table : String) (documents : Dict Document) : BatchCall → Nat → Document → Prop
  | create {keys : List Key} {batch : List Fields} {i : Nat} {key : Key} {fields : Fields}
      {id : String} (hkey : keys[i]? = some key) (hfields : batch[i]? = some fields)
      (hid : Identity.documentId table key = .ok id) :
      Asks table documents (create keys batch) i (Document.enclosed table id fields)
  | update {keys : List Key} {batch : List Fields} {revs : List (Option String)} {i : Nat}
      {key : Key} {fields : Fields} {id rev : String} (hkey : keys[i]? = some key)
      (hfields : batch[i]? = some fields) (hrev : revs[i]? = some (some rev))
      (hid : Identity.documentId table key = .ok id) :
      Asks table documents (update keys batch revs) i (Document.kept table id fields rev)
  | delete {keys : List Key} {i : Nat} {key : Key} {id rev : String} (hkey : keys[i]? = some key)
      (hid : Identity.documentId table key = .ok id) (hheld : Holds documents id rev) :
      Asks table documents (delete keys) i (tombstone id rev)

open Adapter

variable {a b : Adapter} {table : String} {keys : List Key} {batch : List Fields}
  {revs : List (Option String)} {ids : List String} {docs : List Document} {doc : Document}
  {records : List StoredRecord} {refused : List BatchFailure} {i : Nat}

/-- The document at a position of a batch is the one that the creation at that position asks for. -/
theorem asks_create (hids : documentIds table keys = .ok ids)
    (hdocs : ((ids.zip batch).mapM fun (id, fields) => Document.enclose table id fields) = .ok docs)
    (hdoc : docs[i]? = some doc) : Asks table a.documents (create keys batch) i doc := by
  obtain ⟨⟨id, fields⟩, hentry, henclose⟩ := getElem?_of_mapM hdocs hdoc
  obtain ⟨hid, hfields⟩ := List.getElem?_zip_eq_some.mp hentry
  obtain ⟨key, hkey, hown⟩ := getElem?_of_mapM hids hid
  obtain ⟨_, rfl⟩ := Document.enclose_eq_ok henclose
  exact .create hkey hfields hown

/-- The same is true of updates. -/
theorem asks_update (hfirst : firstWithoutRevision? keys revs = none)
    (hids : documentIds table keys = .ok ids)
    (hdocs : (((ids.zip batch).zip revs).mapM fun ((id, fields), rev) =>
      replacement table id fields rev) = .ok docs)
    (hdoc : docs[i]? = some doc) : Asks table a.documents (update keys batch revs) i doc := by
  obtain ⟨⟨⟨id, fields⟩, given⟩, hentry, hreplacement⟩ := getElem?_of_mapM hdocs hdoc
  obtain ⟨hpair, hgiven⟩ := List.getElem?_zip_eq_some.mp hentry
  obtain ⟨hid, hfields⟩ := List.getElem?_zip_eq_some.mp hpair
  obtain ⟨key, hkey, hown⟩ := getElem?_of_mapM hids hid
  obtain ⟨rev, rfl⟩ := exists_rev_of_firstWithoutRevision? hfirst hkey hgiven
  rw [replacement_eq_kept hreplacement]
  exact .update hkey hfields hgiven hown

/-- And it is true of deletions, whose documents are tombstones. -/
theorem asks_delete (hunstaged : a.Unstaged) (hread : readAll table keys a = (.ok records, b))
    (hdoc : (records.map fun r => tombstone r.id r.rev)[i]? = some doc) :
    Asks table a.documents (delete keys) i doc := by
  rw [List.getElem?_map, Option.map_eq_some_iff] at hdoc
  obtain ⟨record, hrecord, rfl⟩ := hdoc
  obtain ⟨key, hkey, hid, hheld⟩ := getElem?_of_readAll hunstaged hread hrecord
  exact .delete hkey hid hheld

/-- Where a batch is refused, its refusals are exactly the documents of entries that the store does
    not write; all others are written. -/
theorem run_refusals_exact {call : BatchCall} (hunstaged : a.Unstaged)
    (hrun : call.run table a = (.error (.batch refused), b)) :
    ∃ docs, docs.length = call.keys.length ∧
      (∀ i doc, docs[i]? = some doc → Asks table a.documents call i doc) ∧
      ExactRefusals a.connection.store.digest a.documents docs b.documents refused := by
  cases call with
  | create keys batch =>
    obtain ⟨ids, docs, hbatch, hids, hdocs, hwrite⟩ := createAll_eq_refused hrun
    refine ⟨docs, ?_, fun i doc => asks_create hids hdocs,
      exactRefusals_of_writeAll hunstaged hwrite⟩
    have hcount := length_of_mapM hdocs
    rw [List.length_zip, length_of_mapM hids, ← hbatch, Nat.min_self] at hcount
    exact hcount
  | update keys batch revs =>
    obtain ⟨ids, docs, hbatch, hrevs, hfirst, hids, hdocs, hwrite⟩ := updateAll_eq_refused hrun
    refine ⟨docs, ?_, fun i doc => asks_update hfirst hids hdocs,
      exactRefusals_of_writeAll hunstaged hwrite⟩
    have hcount := length_of_mapM hdocs
    rw [List.length_zip, List.length_zip, length_of_mapM hids, ← hbatch, ← hrevs, Nat.min_self,
      Nat.min_self] at hcount
    exact hcount
  | delete keys =>
    obtain ⟨records, c, hread, hwrite⟩ := deleteAll_eq_refused hrun
    refine ⟨_, ?_, fun i doc => asks_delete hunstaged hread, ?_⟩
    · rw [List.length_map]
      exact length_of_readAll hunstaged hread
    · obtain ⟨_, _, _, _, _, rfl⟩ := readAll_eq_ok hunstaged hread
      exact exactRefusals_of_writeAll (a := a.served _) hunstaged hwrite

/-- The creation of one record twice over. -/
def twice : BatchCall := .create [.text "1", .text "1"] [[], []]

/-- Of two creations under one key the first is written and the second one refused. -/
theorem refusals_exact_twice : ∃ b docs,
    twice.run "people" (.ofStore (fresh fun _ _ => 0) {}) =
      (.error (.batch [⟨1, "conflict", some "Document update conflict."⟩]), b) ∧
    docs.length = 2 ∧
    (∀ i doc, docs[i]? = some doc → Asks "people" [] twice i doc) ∧
    ExactRefusals (fun _ _ => 0) [] docs b.documents
      [⟨1, "conflict", some "Document update conflict."⟩] := by
  have hrun : twice.run "people" (.ofStore (fresh fun _ _ => 0) {}) =
      (.error (.batch [⟨1, "conflict", some "Document update conflict."⟩]),
        (twice.run "people" (.ofStore (fresh fun _ _ => 0) {})).2) := rfl
  have hunstaged : (Adapter.ofStore (fresh fun _ _ => 0) {}).Unstaged := rfl
  obtain ⟨docs, hexact⟩ := run_refusals_exact hunstaged hrun
  exact ⟨_, docs, hrun, hexact⟩

end BatchCall

end DocMapper
