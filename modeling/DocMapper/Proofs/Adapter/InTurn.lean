import DocMapper.Proofs.Adapter.Refusals
import DocMapper.Proofs.Adapter.Result

/-!
# Batches as operations in turn

An operation on many records succeeds where the operations on single records succeed one after
another, and then it answers with the same records and leaves the same store. Keys may be repeated.
-/

namespace DocMapper

open DocMapper.Action MemoryStore

namespace MemoryStore

variable {digest : Option String → Document → UInt64} {documents : Dict Document}
  {docs : List Document}

/-- Write documents one after another, all of which have to be accepted. -/
def putEach (digest : Option String → Document → UInt64) (documents : Dict Document) :
    List Document → Option (List BulkOutcome × Dict Document)
  | [] => some ([], documents)
  | doc :: rest =>
    (put digest documents doc).toOption.bind fun written =>
      (putEach digest written.2 rest).map (Prod.map (outcome doc (.ok written.1) :: ·) id)

/-- A batch that the store accepts throughout is written one after the other. -/
theorem putEach_of_accepted
    (haccepted : ∀ outcome ∈ (putAll digest documents docs).1, outcome.error = none) :
    putEach digest documents docs = some (putAll digest documents docs) := by
  induction docs generalizing documents with
  | nil => rfl
  | cons doc rest ih =>
    rw [putAll_cons] at haccepted ⊢
    obtain ⟨hfirst, hrest⟩ := List.forall_mem_cons.mp haccepted
    obtain ⟨receipt, hreceipt⟩ := outcome_error_eq_none_iff.mp hfirst
    cases hput : put digest documents doc with
    | error cause =>
      rw [hput] at hreceipt
      cases hreceipt
    | ok written =>
      rw [leftBy_of_ok hput] at hrest ⊢
      rw [putEach, hput, toOption_ok, Option.bind_some, ih hrest]
      rfl

/-- A document that the store refuses in a batch it refuses in turn as well. -/
theorem putEach_of_refused {refused : BulkOutcome}
    (hmem : refused ∈ (putAll digest documents docs).1) (hrefused : refused.error ≠ none) :
    putEach digest documents docs = none := by
  induction docs generalizing documents with
  | nil => cases hmem
  | cons doc rest ih =>
    rw [putAll_cons] at hmem
    rw [putEach]
    cases hput : put digest documents doc with
    | error cause => rfl
    | ok written =>
      rw [leftBy_of_ok hput, hput] at hmem
      rw [toOption_ok, Option.bind_some]
      rcases List.mem_cons.mp hmem with rfl | hlater
      · exact absurd (outcome_error_eq_none_iff.mpr ⟨written.1, rfl⟩) hrefused
      · rw [ih hlater, Option.map_none]

/-- The store with other documents, however often it was called. -/
def holding (s : MemoryStore) (documents : Dict Document) : MemoryStore :=
  { s.uncounted with documents }

end MemoryStore

namespace Adapter

variable {α : Type} {a b : Adapter} {table : String} {key : Key} {keys : List Key}
  {batch : List Fields} {revs : List (Option String)} {docs : List Document} {doc : Document}
  {after : Dict Document}

/-- The second adapter comes after the first, with these documents. -/
structure Follows (a b : Adapter) (after : Dict Document) : Prop where
  unstaged : b.Unstaged
  registry : b.registry = a.registry
  digest : b.connection.store.digest = a.connection.store.digest
  documents : b.documents = after
  holding : b.connection.store.holding = a.connection.store.holding

/-- What happens in turn adds up. -/
theorem Follows.trans {c : Adapter} {middle : Dict Document} (hfirst : a.Follows b middle)
    (hsecond : b.Follows c after) : a.Follows c after where
  unstaged := hsecond.unstaged
  registry := hsecond.registry.trans hfirst.registry
  digest := hsecond.digest.trans hfirst.digest
  documents := hsecond.documents
  holding := hsecond.holding.trans hfirst.holding

/-- Behind the calls the store differs in its documents and in its counts. -/
theorem Follows.uncounted (hfollows : a.Follows b after) :
    b.connection.store.uncounted = a.connection.store.holding after := by
  rw [← hfollows.holding, ← hfollows.documents]
  rfl

/-- A call that fails ends the action; one that is answered hands its answer on. -/
theorem result_ask_bind (subject : Option String) (call : Call) (f : call.Answer → Action α)
    (hunstaged : a.Unstaged) : (ask subject call >>= f).result a =
      (a.connection.store.perform call).1.toOption.bind fun answer =>
        (f answer).result (a.served call) := by
  cases hanswer : (a.connection.store.perform call).1 with
  | error cause => rw [result_bind_of_error (ask_of_error hunstaged hanswer), toOption_error,
      Option.bind_none]
  | ok answer => rw [result_bind_of_ok (ask_of_ok hunstaged hanswer), toOption_ok, Option.bind_some]

/-- A call that only replaces the documents is such a step. -/
theorem follows_served {call : Call} (hunstaged : a.Unstaged)
    (hstore : (a.served call).connection.store =
      { a.connection.store.count call.primitive with documents := after }) :
    a.Follows (a.served call) after := by
  refine ⟨hunstaged, rfl, ?_, ?_, ?_⟩
  · rw [hstore]
    rfl
  · rw [Adapter.documents, hstore]
  · rw [hstore]
    rfl

/-- Inserting is putting one document. -/
theorem result_insert_bind {subject : Option String} {f : WriteReceipt → Action α}
    {g : WriteReceipt → Dict Document → Option (α × MemoryStore)} (hunstaged : a.Unstaged)
    (hf : ∀ receipt after b, a.Follows b after → (f receipt).result b = g receipt after) :
    (ask subject (.insert doc) >>= f).result a =
      (put a.connection.store.digest a.documents doc).toOption.bind fun written =>
        g written.1 written.2 := by
  have hperform : a.connection.store.perform (.insert doc) =
      (a.connection.store.count .insert).keepDocuments
        (put a.connection.store.digest a.documents doc) := rfl
  rw [result_ask_bind _ _ _ hunstaged, hperform]
  cases hput : put a.connection.store.digest a.documents doc with
  | error cause => rfl
  | ok written =>
    refine hf written.1 written.2 _ (follows_served hunstaged ?_)
    rw [served, hperform, hput]
    rfl

/-- Where a document is live, its deletion is the write of a tombstone. -/
theorem result_destroy_bind {subject : Option String} {id rev : String}
    {f : WriteReceipt → Action α} {g : WriteReceipt → Dict Document → Option (α × MemoryStore)}
    (hunstaged : a.Unstaged) (hlive : IsLive a.documents id)
    (hf : ∀ receipt after b, a.Follows b after → (f receipt).result b = g receipt after) :
    (ask subject (.destroy id rev) >>= f).result a =
      (put a.connection.store.digest a.documents (tombstone id rev)).toOption.bind fun written =>
        g written.1 written.2 := by
  have hremove : remove a.connection.store.digest a.documents id rev =
      put a.connection.store.digest a.documents (tombstone id rev) := by
    rcases remove_spec a.connection.store.digest a.documents id rev with ⟨_, hput⟩ | ⟨hnot, _⟩
    · exact hput
    · exact absurd hlive hnot
  have hperform : a.connection.store.perform (.destroy id rev) =
      (a.connection.store.count .destroy).keepDocuments
        (put a.connection.store.digest a.documents (tombstone id rev)) := by
    rw [← hremove]
    rfl
  rw [result_ask_bind _ _ _ hunstaged, hperform]
  cases hput : put a.connection.store.digest a.documents (tombstone id rev) with
  | error cause => rfl
  | ok written =>
    refine hf written.1 written.2 _ (follows_served hunstaged ?_)
    rw [served, hperform, hput]
    rfl

/-! ## Writing in turn -/

/-- A batch is written if and only if each of its documents can be written in turn. -/
theorem result_writeAll (hunstaged : a.Unstaged) : (writeAll docs).result a =
    (putEach a.connection.store.digest a.documents docs).map
      (Prod.map id a.connection.store.holding) := by
  have hask : ask none (.bulk docs) a =
      (.ok (putAll a.connection.store.digest a.documents docs).1, a.served (.bulk docs)) :=
    ask_of_ok hunstaged rfl
  rw [writeAll, result_bind_of_ok hask]
  cases hfailures : failures (putAll a.connection.store.digest a.documents docs).1 with
  | nil =>
    rw [putEach_of_accepted (error_eq_none_of_failures hfailures)]
    rfl
  | cons first rest =>
    have hmem : first ∈ failures (putAll a.connection.store.digest a.documents docs).1 := by
      rw [hfailures]
      exact List.mem_cons_self
    obtain ⟨outcome, houtcome, herror, _⟩ := mem_failures_iff.mp hmem
    have hrefused : outcome.error ≠ none := by
      rw [herror]
      exact Option.some_ne_none _
    rw [putEach_of_refused (List.mem_of_getElem? houtcome) hrefused]
    rfl

section Entries

variable {γ : Type} {make : String → γ → Except Error Document} {fields : γ → Fields}

/-- Write the document that is made of an entry. -/
def enter (table : String) (make : String → γ → Except Error Document) (fields : γ → Fields)
    (key : Key) (entry : γ) : Action StoredRecord := do
  let id ← Identity.documentId table key
  let doc ← make id entry
  let receipt ← ask (some id) (.insert doc)
  return ⟨id, key, receipt.rev, fields entry⟩

/-- Write the documents that are made of entries as one batch. -/
def enterAll (table : String) (make : String → γ → Except Error Document) (fields : γ → Fields)
    (keys : List Key) (entries : List γ) : Action (List StoredRecord) := do
  let ids ← documentIds table keys
  let docs ← (ids.zip entries).mapM fun (id, entry) => make id entry
  return written ids keys (entries.map fields) (← writeAll docs)

/-- Whatever the store answers, entering a record leaves the settings alone. -/
theorem quiet_enter (key : Key) (entry : γ) :
    Quiet (fun _ => True) (enter table make fields key entry) :=
  along_lift_bind fun _ _ => along_lift_bind fun _ _ =>
    along_bind (along_ask _ (allows_passing_any _)) fun _ _ => along_pure _

/-- Entering names the document, makes it, puts it and goes on with the record. -/
theorem result_enter_bind {entry : γ} {f : StoredRecord → Action α}
    {g : StoredRecord → Dict Document → Option (α × MemoryStore)} (hunstaged : a.Unstaged)
    (hf : ∀ record after b, a.Follows b after → (f record).result b = g record after) :
    (enter table make fields key entry >>= f).result a =
      (Identity.documentId table key).toOption.bind fun id =>
        (make id entry).toOption.bind fun doc =>
          (put a.connection.store.digest a.documents doc).toOption.bind fun written =>
            g ⟨id, key, written.1.rev, fields entry⟩ written.2 := by
  simp only [enter, bind_assoc, result_lift_bind, pure_bind]
  refine congrArg _ (funext fun id => congrArg _ (funext fun doc => ?_))
  exact result_insert_bind hunstaged fun receipt after b hfollows => hf _ after b hfollows

/-- A batch of entries names and makes all of its documents before the first is put. -/
theorem result_enterAll (entries : List γ) (hunstaged : a.Unstaged) :
    (enterAll table make fields keys entries).result a =
      (documentIds table keys).toOption.bind fun ids =>
        ((ids.zip entries).mapM fun (id, entry) => make id entry).toOption.bind fun docs =>
          (putEach a.connection.store.digest a.documents docs).map
            (Prod.map (written ids keys (entries.map fields)) a.connection.store.holding) := by
  rw [enterAll, result_lift_bind]
  refine congrArg _ (funext fun ids => ?_)
  have hdocs : ((ids.zip entries).mapM fun (id, entry) =>
      (liftM (make id entry) : Action Document)) =
        liftM ((ids.zip entries).mapM fun (id, entry) => make id entry) :=
    mapM_eq_lift (fun _ => rfl) _
  rw [hdocs, result_lift_bind]
  refine congrArg _ (funext fun docs => ?_)
  rw [result_map, result_writeAll hunstaged, Option.map_map]
  rfl

/-- A batch of entries writes the first and then the others. -/
theorem result_enterAll_cons (key : Key) (entry : γ) (entries : List γ) (hunstaged : a.Unstaged) :
    (enterAll table make fields (key :: keys) (entry :: entries)).result a =
      (enter table make fields key entry >>= fun record =>
        enterAll table make fields keys entries >>= fun records =>
          pure (record :: records)).result a := by
  rw [result_enterAll _ hunstaged, documentIds, toOption_mapM_cons,
    result_enter_bind hunstaged (fun record after b hfollows => by
      rw [result_map, result_enterAll entries hfollows.unstaged, hfollows.digest,
        hfollows.documents, hfollows.holding])]
  rw [documentIds]
  cases Identity.documentId table key with
  | error e => rfl
  | ok id =>
    cases keys.mapM (Identity.documentId table) with
    | error e => simp
    | ok ids =>
      simp only [toOption_ok, Option.bind_some, Option.map_some, List.zip_cons_cons,
        toOption_mapM_cons]
      cases make id entry with
      | error e => rfl
      | ok doc =>
        cases (ids.zip entries).mapM fun (id, entry) => make id entry with
        | error e => simp
        | ok docs =>
          simp only [toOption_ok, Option.bind_some, Option.map_some, putEach, Option.map_bind,
            Function.comp_def, Option.map_map]
          rfl

/-- A batch of entries is the entries written in turn. -/
theorem result_enterAll_eq_mapM {entries : List γ} (hlength : keys.length = entries.length)
    (hunstaged : a.Unstaged) : (enterAll table make fields keys entries).result a =
      ((keys.zip entries).mapM fun entry =>
        enter table make fields entry.1 entry.2).result a := by
  have hturns : (enterAll table make fields ((keys.zip entries).map Prod.fst)
      ((keys.zip entries).map Prod.snd)).result a =
        ((keys.zip entries).mapM fun entry => enter table make fields entry.1 entry.2).result a :=
    result_eq_mapM (F := fun es => enterAll table make fields (es.map Prod.fst) (es.map Prod.snd))
      (fun entry => quiet_enter entry.1 entry.2) (fun b hb => result_enterAll [] hb)
      (fun entry es b hb => result_enterAll_cons entry.1 entry.2 (es.map Prod.snd) hb) hunstaged
  rw [List.map_fst_zip (Nat.le_of_eq hlength),
    List.map_snd_zip (Nat.le_of_eq hlength.symm)] at hturns
  exact hturns

end Entries

/-- A batch of new records is entered with its fields as they are. -/
theorem createAll_eq_enterAll (hbatch : keys.length = batch.length) :
    createAll table keys batch = enterAll table (Document.enclose table) id keys batch := by
  rw [createAll, checkLengths, if_pos hbatch, lift_ok_bind, enterAll, List.map_id]

theorem lift_map_bind {β γ : Type} (r : Except Error α) (h : α → β) (f : β → Action γ) :
    ((liftM (r.map h) : Action β) >>= f) = (liftM r : Action α) >>= fun v => f (h v) := by
  cases r <;> rfl

/-- An update with a revision is entered with its fields and that revision. -/
theorem update_eq_enter (table : String) (key : Key) (fields : Fields) (rev : String) :
    update table key fields (some rev) =
      enter table (fun id entry => replacement table id entry.1 entry.2) Prod.fst key
        (fields, some rev) := by
  have hreplacement : ∀ id, replacement table id fields (some rev) =
      (Document.enclose table id fields).map (Dict.insert · revisionField (.str rev)) := by
    intro id
    rw [replacement]
    cases Document.enclose table id fields <;> rfl
  simp only [update, enter, hreplacement, lift_map_bind]

theorem zip_zip_assoc {α β γ : Type} (xs : List α) (ys : List β) (zs : List γ) :
    (xs.zip ys).zip zs = (xs.zip (ys.zip zs)).map fun (x, y, z) => ((x, y), z) := by
  induction xs generalizing ys zs with
  | nil => rfl
  | cons x xs ih =>
    cases ys with
    | nil => rfl
    | cons y ys =>
      cases zs with
      | nil => rfl
      | cons z zs => exact congrArg _ (ih ys zs)

theorem exists_entry_of_firstWithoutRevision? (hbatch : keys.length = batch.length)
    (hfirst : firstWithoutRevision? keys revs = some key) :
    ∃ fields, (key, fields, none) ∈ keys.zip (batch.zip revs) := by
  obtain ⟨⟨own, given⟩, hfound, rfl⟩ := Option.map_eq_some_iff.mp hfirst
  have hnone := List.find?_some hfound
  have hgiven : given = none := Option.isNone_iff_eq_none.mp hnone
  obtain ⟨i, hi⟩ := List.mem_iff_getElem?.mp (List.mem_of_find?_eq_some hfound)
  obtain ⟨hkey, hrev⟩ := List.getElem?_zip_eq_some.mp hi
  obtain ⟨hlt, _⟩ := List.getElem?_eq_some_iff.mp hkey
  have hfields : batch[i]? = some batch[i] := List.getElem?_eq_getElem (hbatch ▸ hlt)
  rw [hgiven] at hrev
  exact ⟨batch[i], List.mem_of_getElem? (List.getElem?_zip_eq_some.mpr
    ⟨hkey, List.getElem?_zip_eq_some.mpr ⟨hfields, hrev⟩⟩)⟩

/-- A batch of updates that all carry a revision is entered like a batch of new records. -/
theorem updateAll_eq_enterAll (hbatch : keys.length = batch.length)
    (hrevs : keys.length = revs.length) (hfirst : firstWithoutRevision? keys revs = none) :
    updateAll table keys batch revs =
      enterAll table (fun id entry => replacement table id entry.1 entry.2) Prod.fst keys
        (batch.zip revs) := by
  rw [updateAll, checkLengths, if_pos hbatch, lift_ok_bind, checkLengths, if_pos hrevs,
    lift_ok_bind, hfirst, enterAll, List.map_fst_zip (by omega)]
  simp only [zip_zip_assoc, List.mapM_map]
  rfl

/-- Where a revision is missing, neither way succeeds. -/
theorem result_updateAll_eq_mapM (hbatch : keys.length = batch.length)
    (hrevs : keys.length = revs.length) (hunstaged : a.Unstaged) :
    (updateAll table keys batch revs).result a =
      ((keys.zip (batch.zip revs)).mapM fun entry =>
        update table entry.1 entry.2.1 entry.2.2).result a := by
  have hlength : keys.length = (batch.zip revs).length := by
    rw [List.length_zip]
    omega
  cases hfirst : firstWithoutRevision? keys revs with
  | none =>
    rw [updateAll_eq_enterAll hbatch hrevs hfirst, result_enterAll_eq_mapM hlength hunstaged]
    refine result_mapM_congr fun entry hentry => ?_
    obtain ⟨i, hi⟩ := List.mem_iff_getElem?.mp hentry
    obtain ⟨hkey, hpair⟩ := List.getElem?_zip_eq_some.mp hi
    obtain ⟨_, hrev⟩ := List.getElem?_zip_eq_some.mp hpair
    obtain ⟨key, fields, given⟩ := entry
    obtain ⟨rev, rfl⟩ := exists_rev_of_firstWithoutRevision? hfirst hkey hrev
    exact (update_eq_enter table key fields rev).symm
  | some key =>
    have hnone : (updateAll table keys batch revs).result a = none := by
      rw [updateAll, checkLengths, if_pos hbatch, lift_ok_bind, checkLengths, if_pos hrevs,
        lift_ok_bind, hfirst]
      exact result_throw _ a
    obtain ⟨fields, hentry⟩ := exists_entry_of_firstWithoutRevision? hbatch hfirst
    rw [hnone, result_mapM_eq_none hentry fun b => result_throw _ b]

/-! ## Reading in turn -/

variable {registry : Dict Schema} {documents : Dict Document} {ids : List String} {id : String}
  {record : StoredRecord} {records : List StoredRecord}

/-- The record in the live document under the id of a key. -/
def recordAt (registry : Dict Schema) (table : String) (documents : Dict Document) (key : Key) :
    Option StoredRecord :=
  (Identity.documentId table key).toOption.bind fun id =>
    (lookUp documents id).toOption.bind fun doc => (recordOf registry table key doc).toOption

/-- The records under the ids of keys, found the way a batch is read. -/
def recordsAt (registry : Dict Schema) (table : String) (documents : Dict Document)
    (keys : List Key) : Option (List StoredRecord) :=
  (documentIds table keys).toOption.bind fun ids =>
    (ids.mapM (lookUp documents)).toOption.bind fun docs =>
      ((keys.zip docs).mapM fun entry => recordOf registry table entry.1 entry.2).toOption

/-- Many records are read like one record and the rest. -/
theorem recordsAt_cons (registry : Dict Schema) (table : String) (documents : Dict Document)
    (key : Key) (keys : List Key) : recordsAt registry table documents (key :: keys) =
      (recordAt registry table documents key).bind fun record =>
        (recordsAt registry table documents keys).map (record :: ·) := by
  rw [recordsAt, recordAt, recordsAt, documentIds, toOption_mapM_cons, documentIds]
  cases Identity.documentId table key with
  | error e => rfl
  | ok id =>
    cases keys.mapM (Identity.documentId table) with
    | error e => simp
    | ok ids =>
      simp only [toOption_ok, Option.map_some, Option.bind_some, toOption_mapM_cons]
      cases lookUp documents id with
      | error e => rfl
      | ok doc =>
        cases ids.mapM (lookUp documents) with
        | error e => simp
        | ok docs =>
          simp only [toOption_ok, Option.map_some, Option.bind_some, List.zip_cons_cons,
            toOption_mapM_cons]

/-- Reading decodes the document that is held, and leaves the documents as they are. -/
theorem result_read_bind {f : StoredRecord → Action α}
    {g : StoredRecord → Option (α × MemoryStore)} (hunstaged : a.Unstaged)
    (hf : ∀ record b, recordAt a.registry table a.documents key = some record →
      a.Follows b a.documents → (f record).result b = g record) :
    (read table key >>= f).result a = (recordAt a.registry table a.documents key).bind g := by
  simp only [read, bind_assoc, result_lift_bind, recordAt, Option.bind_assoc] at hf ⊢
  refine Option.bind_congr fun id hid => ?_
  rw [result_ask_bind _ _ _ hunstaged]
  refine Option.bind_congr fun doc hlookUp => ?_
  rw [result_get_bind, result_lift_bind]
  refine Option.bind_congr fun record hrecord => ?_
  have hlookUp' : (lookUp a.documents id).toOption = some doc := hlookUp
  have hrecord' : (recordOf a.registry table key doc).toOption = some record := hrecord
  refine hf record _ ?_ (follows_served hunstaged rfl)
  rw [hid, Option.bind_some, hlookUp', Option.bind_some, hrecord']

/-- Where every document is found, no row is missing. -/
theorem missing_of_mapM_lookUp (hdocs : ids.mapM (lookUp documents) = .ok docs) :
    missing (ids.map (fetchRow documents)) = [] := by
  refine List.map_eq_nil_iff.mpr (List.filter_eq_nil_iff.mpr fun row hrow hnone => ?_)
  obtain ⟨id, hid, rfl⟩ := List.mem_map.mp hrow
  obtain ⟨doc, _, hlookUp⟩ := mem_of_mapM hdocs hid
  rw [fetchRow, hlookUp] at hnone
  cases hnone

/-- Fetching finds all of the documents or none. -/
theorem result_fetchAll_bind {f : List Document → Action α}
    {g : List Document → Option (α × MemoryStore)} (hunstaged : a.Unstaged)
    (hf : ∀ docs b, a.Follows b a.documents → (f docs).result b = g docs) :
    (fetchAll table keys >>= f).result a =
      (documentIds table keys).toOption.bind fun ids =>
        (ids.mapM (lookUp a.documents)).toOption.bind g := by
  rw [fetchAll, bind_assoc, result_lift_bind]
  refine congrArg _ (funext fun ids => ?_)
  have hask : ask none (.fetch ids) a =
      (.ok (ids.map (fetchRow a.documents)), a.served (.fetch ids)) := ask_of_ok hunstaged rfl
  rw [bind_assoc, result_bind_of_ok hask]
  cases hmissing : missing (ids.map (fetchRow a.documents)) with
  | nil =>
    rw [mapM_lookUp_of_missing hmissing, toOption_ok, Option.bind_some]
    exact hf _ _ (follows_served hunstaged rfl)
  | cons first rest =>
    cases hdocs : ids.mapM (lookUp a.documents) with
    | error e => rfl
    | ok docs =>
      rw [missing_of_mapM_lookUp hdocs] at hmissing
      cases hmissing

/-- Reading many decodes the documents that are held, and leaves them as they are. -/
theorem result_readAll_bind {f : List StoredRecord → Action α}
    {g : List StoredRecord → Option (α × MemoryStore)} (hunstaged : a.Unstaged)
    (hf : ∀ records b, a.Follows b a.documents → (f records).result b = g records) :
    (readAll table keys >>= f).result a = (recordsAt a.registry table a.documents keys).bind g := by
  rw [readAll, bind_assoc, result_fetchAll_bind hunstaged (g := fun docs =>
    ((keys.zip docs).mapM fun entry => recordOf a.registry table entry.1 entry.2).toOption.bind g)]
  · simp only [recordsAt, Option.bind_assoc]
  · intro docs b hfollows
    have hrecords : ((keys.zip docs).mapM fun entry =>
        (liftM (recordOf a.registry table entry.1 entry.2) : Action StoredRecord)) =
          liftM ((keys.zip docs).mapM fun entry => recordOf a.registry table entry.1 entry.2) :=
      mapM_eq_lift (fun _ => rfl) _
    rw [bind_assoc, result_get_bind, hfollows.registry]
    refine (congrArg (fun read : Action (List StoredRecord) => (read >>= f).result b)
      hrecords).trans ?_
    rw [result_lift_bind]
    exact congrArg _ (funext fun records => hf records b hfollows)

theorem result_readAll (hunstaged : a.Unstaged) : (readAll table keys).result a =
    (recordsAt a.registry table a.documents keys).map fun records =>
      (records, a.connection.store.holding a.documents) := by
  have hbind : (readAll table keys >>= pure).result a =
      (recordsAt a.registry table a.documents keys).bind fun records =>
        some (records, a.connection.store.holding a.documents) :=
    result_readAll_bind hunstaged fun records b hfollows => by
      rw [result_pure, hfollows.uncounted]
  rw [bind_pure] at hbind
  rw [hbind, Option.map_eq_bind]
  rfl

/-- Many records are read as if one after the other. -/
theorem result_readAll_cons (key : Key) (keys : List Key) (hunstaged : a.Unstaged) :
    (readAll table (key :: keys)).result a =
      (read table key >>= fun record =>
        readAll table keys >>= fun records => pure (record :: records)).result a := by
  rw [result_readAll hunstaged, recordsAt_cons,
    result_read_bind hunstaged fun record b _ hfollows => by
      rw [result_map, result_readAll hfollows.unstaged, hfollows.registry, hfollows.documents,
        hfollows.holding]]
  cases recordAt a.registry table a.documents key with
  | none => rfl
  | some record =>
    rw [Option.bind_some, Option.bind_some, Option.map_map, Option.map_map]
    rfl

/-! ## Deleting in turn -/

/-- A record that is read carries the id of its key and the revision that is held. -/
theorem recordAt_eq_some (hrecord : recordAt registry table documents key = some record) :
    Identity.documentId table key = .ok record.id ∧ HoldsRecord documents record := by
  simp only [recordAt, Option.bind_eq_some_iff] at hrecord
  obtain ⟨id, hid, doc, hlookUp, hof⟩ := hrecord
  rw [toOption_eq_some_iff] at hid hlookUp hof
  obtain ⟨hsame, hrev⟩ := recordOf_eq_ok hof
  rw [hid, Except.ok.injEq] at hsame
  subst hsame
  exact ⟨hid, lookUp_holds hlookUp hrev⟩

/-- A deletion reads the record and then destroys its document over the revision that it read. -/
theorem delete_eq_read_bind (table : String) (key : Key) : delete table key = (do
    let record ← read table key
    let _ ← ask (some record.id) (.destroy record.id record.rev)
    return record) := by
  rw [delete, read]
  cases hid : Identity.documentId table key with
  | error e => rfl
  | ok id =>
    simp only [lift_ok_bind, bind_assoc]
    refine congrArg _ (funext fun doc => congrArg _ (funext fun known => ?_))
    cases hof : recordOf known.registry table key doc with
    | error e => rfl
    | ok record =>
      have hsame := (recordOf_eq_ok hof).1
      rw [hid, Except.ok.injEq] at hsame
      rw [lift_ok_bind, lift_ok_bind, hsame]

/-- Deleting reads the record and puts its tombstone. -/
theorem result_delete_bind {f : StoredRecord → Action α}
    {g : StoredRecord → Dict Document → Option (α × MemoryStore)} (hunstaged : a.Unstaged)
    (hf : ∀ record after b, a.Follows b after → (f record).result b = g record after) :
    (delete table key >>= f).result a =
      (recordAt a.registry table a.documents key).bind fun record =>
        (put a.connection.store.digest a.documents (tombstone record.id record.rev)).toOption.bind
          fun written => g record written.2 := by
  rw [delete_eq_read_bind, bind_assoc]
  refine result_read_bind hunstaged fun record b hrecord hread => ?_
  have hlive : IsLive b.documents record.id := by
    rw [hread.documents]
    exact (recordAt_eq_some hrecord).2.isLive
  rw [bind_assoc, ← hread.digest, ← hread.documents]
  refine result_destroy_bind (g := fun _ after => g record after) hread.unstaged hlive
    fun receipt after c hafter => ?_
  rw [pure_bind]
  exact hf record after c (hread.trans hafter)

/-- Deleting many reads all of the records before the first tombstone is put. -/
theorem result_deleteAll (hunstaged : a.Unstaged) : (deleteAll table keys).result a =
    (recordsAt a.registry table a.documents keys).bind fun records =>
      (putEach a.connection.store.digest a.documents
        (records.map fun r => tombstone r.id r.rev)).map fun written =>
          (records, a.connection.store.holding written.2) := by
  rw [deleteAll]
  refine result_readAll_bind hunstaged fun records b hfollows => ?_
  rw [result_map, result_writeAll hfollows.unstaged, hfollows.digest, hfollows.documents,
    hfollows.holding, Option.map_map]
  rfl

/-- A tombstone over a revision that is outdated is never accepted. -/
theorem putEach_of_outdated {digest : Option String → Document → UInt64} {rev : String}
    (hmem : tombstone id rev ∈ docs)
    (houtdated : Revision.generation rev < Revision.generationOf (currentRevision documents id)) :
    putEach digest documents docs = none := by
  induction docs generalizing documents with
  | nil => cases hmem
  | cons doc rest ih =>
    rw [putEach]
    cases hput : put digest documents doc with
    | error cause => rfl
    | ok written =>
      rw [toOption_ok, Option.bind_some]
      rcases List.mem_cons.mp hmem with rfl | hlater
      · rcases put_tombstone_spec digest documents id rev with ⟨hcurrent, _⟩ | ⟨_, hconflict⟩
        · rw [hcurrent, Revision.generationOf_some] at houtdated
          exact absurd houtdated (Nat.lt_irrefl _)
        · rw [hconflict] at hput
          cases hput
      · have hprogress := (put_progresses id hput).generationOf_le
        rw [ih hlater (by omega), Option.map_none]

/-- One record that cannot be read fails the whole batch. -/
theorem recordsAt_of_mem_none (hmem : key ∈ keys)
    (hnone : recordAt registry table documents key = none) :
    recordsAt registry table documents keys = none := by
  induction keys with
  | nil => cases hmem
  | cons first rest ih =>
    rw [recordsAt_cons]
    rcases List.mem_cons.mp hmem with rfl | hlater
    · rw [hnone, Option.bind_none]
    · simp only [ih hlater, Option.map_none, Option.bind_fun_none]

theorem mem_of_recordsAt (hrecords : recordsAt registry table documents keys = some records)
    (hmem : key ∈ keys) :
    ∃ record ∈ records, recordAt registry table documents key = some record := by
  induction keys generalizing records with
  | nil => cases hmem
  | cons first rest ih =>
    rw [recordsAt_cons, Option.bind_eq_some_iff] at hrecords
    obtain ⟨record, hrecord, hrest⟩ := hrecords
    obtain ⟨later, hlater, rfl⟩ := Option.map_eq_some_iff.mp hrest
    rcases List.mem_cons.mp hmem with rfl | hin
    · exact ⟨record, List.mem_cons_self, hrecord⟩
    · obtain ⟨found, hfound, hkey⟩ := ih hlater hin
      exact ⟨found, List.mem_cons_of_mem _ hfound, hkey⟩

/-- Records are read from nothing but the documents of their own keys. -/
theorem recordsAt_congr
    (hsame : ∀ key ∈ keys,
      recordAt registry table after key = recordAt registry table documents key) :
    recordsAt registry table after keys = recordsAt registry table documents keys := by
  induction keys with
  | nil => rfl
  | cons first rest ih =>
    obtain ⟨hfirst, hrest⟩ := List.forall_mem_cons.mp hsame
    rw [recordsAt_cons, recordsAt_cons, hfirst, ih hrest]

/-- Once a record is deleted, it makes no difference whether the others were read before or after:
    a batch that names it again fails either way. -/
theorem bind_putEach_after_tombstone {digest : Option String → Document → UInt64}
    {written : WriteReceipt × Dict Document} {β : Type}
    {h : List StoredRecord → List BulkOutcome × Dict Document → β}
    (hrecord : recordAt registry table documents key = some record)
    (hput : put digest documents (tombstone record.id record.rev) = .ok written) :
    ((recordsAt registry table documents keys).bind fun records =>
      (putEach digest written.2 (records.map fun r => tombstone r.id r.rev)).map (h records)) =
    (recordsAt registry table written.2 keys).bind fun records =>
      (putEach digest written.2 (records.map fun r => tombstone r.id r.rev)).map (h records) := by
  obtain ⟨_, hheld⟩ := recordAt_eq_some hrecord
  obtain ⟨hown, _, _, hafter⟩ := put_eq_ok hput
  have hsame : written.1.id = record.id := (Option.some.inj hown).symm
  have houtdated := generationOf_lt_of_put hput
  rw [hsame, hheld.currentRevision_eq, Revision.generationOf_some] at houtdated
  rw [hsame] at hafter
  by_cases hagain : ∃ other ∈ keys, Identity.documentId table other = .ok record.id
  · obtain ⟨other, hmem, hother⟩ := hagain
    have hgone : recordAt registry table written.2 other = none := by
      have hlookUp : lookUp written.2 record.id = .error (.notFound "deleted") := by
        rw [lookUp, hafter, Dict.get?_insert_self]
        rfl
      rw [recordAt, hother, toOption_ok, Option.bind_some, hlookUp, toOption_error,
        Option.bind_none]
    rw [recordsAt_of_mem_none hmem hgone, Option.bind_none]
    cases hrecords : recordsAt registry table documents keys with
    | none => rfl
    | some records =>
      obtain ⟨found, hfound, hat⟩ := mem_of_recordsAt hrecords hmem
      obtain ⟨hfoundId, hfoundHeld⟩ := recordAt_eq_some hat
      have hid : found.id = record.id := Except.ok.inj (hfoundId.symm.trans hother)
      have hrev : found.rev = record.rev := by
        rw [HoldsRecord, hid] at hfoundHeld
        exact Option.some.inj
          (hfoundHeld.currentRevision_eq.symm.trans hheld.currentRevision_eq)
      have htombstone : tombstone record.id record.rev ∈
          records.map fun r => tombstone r.id r.rev := by
        rw [← hid, ← hrev]
        exact List.mem_map_of_mem hfound
      rw [Option.bind_some, putEach_of_outdated htombstone houtdated, Option.map_none]
  · rw [recordsAt_congr fun other hmem => ?_]
    unfold recordAt
    refine Option.bind_congr fun own hown => ?_
    have hne : record.id ≠ own := by
      rintro rfl
      exact hagain ⟨other, hmem, toOption_eq_some_iff.mp hown⟩
    rw [lookUp, lookUp, hafter, Dict.get?_insert_of_ne _ _ hne]

/-- Many records are deleted as if one after the other. -/
theorem result_deleteAll_cons (key : Key) (keys : List Key) (hunstaged : a.Unstaged) :
    (deleteAll table (key :: keys)).result a =
      (delete table key >>= fun record =>
        deleteAll table keys >>= fun records => pure (record :: records)).result a := by
  rw [result_deleteAll hunstaged, recordsAt_cons,
    result_delete_bind hunstaged fun record after b hfollows => by
      rw [result_map, result_deleteAll hfollows.unstaged, hfollows.registry, hfollows.digest,
        hfollows.documents, hfollows.holding]]
  cases hrecord : recordAt a.registry table a.documents key with
  | none => rfl
  | some record =>
    rw [Option.bind_some, Option.bind_some, Option.bind_map]
    simp only [Function.comp_def, List.map_cons, putEach]
    cases hput : put a.connection.store.digest a.documents (tombstone record.id record.rev) with
    | error cause => simp only [toOption_error, Option.bind_none, Option.map_none,
        Option.bind_fun_none]
    | ok written =>
      simp only [toOption_ok, Option.bind_some, Option.map_bind, Function.comp_def, Option.map_map]
      exact bind_putEach_after_tombstone
        (h := fun records w => (record :: records, a.connection.store.holding w.2)) hrecord hput

/-! ## All operations -/

/-- Where the lists fit together, an operation on many records has the result of the operations on
    single records one after another: it succeeds where all of them do, with the same records and
    the same store. -/
theorem batches_in_turn (table : String) (hunstaged : a.Unstaged)
    (hbatch : keys.length = batch.length) (hrevs : keys.length = revs.length) :
    (createAll table keys batch).result a =
        ((keys.zip batch).mapM fun (key, fields) => create table key fields).result a ∧
      (updateAll table keys batch revs).result a =
        ((keys.zip (batch.zip revs)).mapM fun (key, fields, rev) =>
          update table key fields rev).result a ∧
      (deleteAll table keys).result a = (keys.mapM (delete table)).result a ∧
      (readAll table keys).result a = (keys.mapM (read table)).result a := by
  refine ⟨?_, ?_, ?_, ?_⟩
  · rw [createAll_eq_enterAll hbatch]
    exact result_enterAll_eq_mapM hbatch hunstaged
  · exact result_updateAll_eq_mapM hbatch hrevs hunstaged
  · exact result_eq_mapM (fun key => along_delete (fun _ _ => allows_passing_any _)
        fun _ _ _ => allows_passing_any _)
      (fun b hb => result_deleteAll hb) (fun key keys b hb => result_deleteAll_cons key keys hb)
      hunstaged
  · exact result_eq_mapM (fun key => along_read fun _ _ => allows_passing_any _)
      (fun b hb => result_readAll hb) (fun key keys b hb => result_readAll_cons key keys hb)
      hunstaged

/-- Two people are created at once as well as in turn. The other operations name one of them twice,
    and only reading succeeds. -/
theorem batches_in_turn_people :
    let a := (createAll "people" [.text "1", .text "2"] [[], []]
      (Adapter.ofStore (fresh fun _ _ => 0) {})).2
    let keys : List Key := [.text "1", .text "1"]
    let revs := [some (Revision.text 1 0), some (Revision.text 1 0)]
    a.documents.keys = ["people__1", "people__2"] ∧
      (createAll "people" keys [[], []]).result a =
        ((keys.zip [[], []]).mapM fun (key, fields) => create "people" key fields).result a ∧
      (updateAll "people" keys [[], []] revs).result a =
        ((keys.zip ([([] : Fields), []].zip revs)).mapM fun (key, fields, rev) =>
          update "people" key fields rev).result a ∧
      (deleteAll "people" keys).result a = (keys.mapM (delete "people")).result a ∧
      (readAll "people" keys).result a = (keys.mapM (read "people")).result a ∧
      ((updateAll "people" keys [[], []] revs).result a).isSome = false ∧
      ((deleteAll "people" keys).result a).isSome = false ∧
      ((readAll "people" keys).result a).isSome = true := by
  intro a keys revs
  have hunstaged : a.Unstaged := rfl
  have hbatch : keys.length = [([] : Fields), []].length := rfl
  have hrevs : keys.length = revs.length := rfl
  obtain ⟨hcreate, hupdate, hdelete, hread⟩ := batches_in_turn "people" hunstaged hbatch hrevs
  exact ⟨by decide +kernel, hcreate, hupdate, hdelete, hread, by decide +kernel,
    by decide +kernel, by decide +kernel⟩

end Adapter

end DocMapper
