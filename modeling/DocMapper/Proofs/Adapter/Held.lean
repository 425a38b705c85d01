import DocMapper.Proofs.Adapter.Remembering
import DocMapper.Proofs.Adapter.Service
import DocMapper.Proofs.Traversal

/-!
# Records that are held

The operations on records remember nothing themselves. The revision in every record that they bring
is held by the store.
-/

namespace DocMapper

open DocMapper.Action MemoryStore

namespace Adapter

variable {a b : Adapter} {α : Type} {table id rev : String} {key : Key} {attributes : Fields}
  {doc : Document}

/-! ## Single records -/

/-- The store holds the revision of the record. -/
def HoldsRecord (documents : Dict Document) (record : StoredRecord) : Prop :=
  Holds documents record.id record.rev

/-- The store holds the revision that it answers an insertion with. -/
theorem holds_of_ask_insert {subject : Option String} {receipt : WriteReceipt}
    (hunstaged : a.Unstaged) (hlive : doc.isDeleted = false) (hid : doc.id? = some id)
    (hask : ask subject (.insert doc) a = (.ok receipt, b)) : Holds b.documents id receipt.rev := by
  obtain ⟨hanswer, rfl⟩ := ask_eq_ok hunstaged hask
  cases hput : put a.connection.store.digest a.documents doc with
  | error e =>
    rw [(perform_insert_of_error hput).1] at hanswer
    cases hanswer
  | ok written =>
    obtain ⟨given, after⟩ := written
    obtain ⟨hgiven, hafter⟩ := perform_insert_of_ok hput
    rw [hgiven] at hanswer
    cases hanswer
    have hheld := holds_of_put hput hlive
    have hsame := (put_eq_ok hput).1
    rw [hid, Option.some.injEq] at hsame
    rw [documents, served, hafter, hsame]
    exact hheld

/-- The revision in a record that was created is held. -/
theorem brings_create (table : String) (key : Key) (attributes : Fields) :
    Brings HoldsRecord (create table key attributes) := by
  intro a c record hunstaged _ hcreate
  obtain ⟨id, _, hwrite⟩ := lift_bind_eq_ok hcreate
  obtain ⟨doc, hdoc, hwrite⟩ := lift_bind_eq_ok hwrite
  obtain ⟨receipt, b, hask, hanswer⟩ := bind_eq_ok hwrite
  cases hanswer
  obtain ⟨hreserves, rfl⟩ := Document.enclose_eq_ok hdoc
  exact holds_of_ask_insert hunstaged (Document.isDeleted_enclosed hreserves)
    (Document.id?_enclosed hreserves) hask

/-- So is that of a record that was updated. -/
theorem brings_update (table : String) (key : Key) (attributes : Fields) (rev : Option String) :
    Brings HoldsRecord (update table key attributes rev) := by
  intro a c record hunstaged _ hupdate
  cases rev with
  | none => cases hupdate
  | some rev =>
    obtain ⟨id, _, hwrite⟩ := lift_bind_eq_ok hupdate
    obtain ⟨doc, hdoc, hwrite⟩ := lift_bind_eq_ok hwrite
    obtain ⟨receipt, b, hask, hanswer⟩ := bind_eq_ok hwrite
    cases hanswer
    obtain ⟨hreserves, rfl⟩ := Document.enclose_eq_ok hdoc
    exact holds_of_ask_insert hunstaged (Document.isDeleted_kept hreserves)
      (Document.id?_kept hreserves) hask

/-- A record has the id of its key and the revision of its document. -/
theorem recordOf_eq_ok {registry : Dict Schema} {record : StoredRecord}
    (hrecord : recordOf registry table key doc = .ok record) :
    Identity.documentId table key = .ok record.id ∧ doc.revision? = some record.rev := by
  unfold recordOf at hrecord
  cases hid : Identity.documentId table key with
  | error e =>
    rw [hid] at hrecord
    cases hrecord
  | ok id =>
    rw [hid] at hrecord
    unfold Document.revision at hrecord
    cases hrev : doc.revision? with
    | none =>
      rw [hrev] at hrecord
      cases hrecord
    | some rev =>
      rw [hrev] at hrecord
      cases hrecord
      exact ⟨rfl, rfl⟩

/-- And that of one that was read, whoever has written it. -/
theorem brings_read (table : String) (key : Key) : Brings HoldsRecord (read table key) := by
  intro a c record hunstaged _ hread
  obtain ⟨id, hid, hget⟩ := lift_bind_eq_ok hread
  obtain ⟨doc, b, hask, hanswer⟩ := bind_eq_ok hget
  obtain ⟨hlookUp, rfl⟩ := ask_eq_ok hunstaged hask
  rw [get_bind] at hanswer
  obtain ⟨hrecord, rfl⟩ := lift_eq_ok hanswer
  obtain ⟨hsame, hrev⟩ := recordOf_eq_ok hrecord
  rw [hid, Except.ok.injEq] at hsame
  rw [HoldsRecord, ← hsame]
  exact lookUp_holds hlookUp hrev

/-! ## Batches -/

/-- These are live documents with these ids, in order, which come with the revisions known for
    them. -/
def Addressed (known : String → Option String) (ids : List String) (docs : List Document) : Prop :=
  ∀ (i : Nat) (doc : Document), docs[i]? = some doc → ∃ id, ids[i]? = some id ∧ doc.id? = some id ∧
    doc.isDeleted = false ∧ doc.revision? = known id

/-- Every document of the list is addressed to some id. -/
theorem Addressed.of_mem {known : String → Option String} {ids : List String} {docs : List Document}
    (haddressed : Addressed known ids docs) (hmem : doc ∈ docs) :
    ∃ id, doc.id? = some id ∧ doc.isDeleted = false ∧ doc.revision? = known id := by
  obtain ⟨i, hi⟩ := List.mem_iff_getElem?.mp hmem
  obtain ⟨id, _, hown⟩ := haddressed i doc hi
  exact ⟨id, hown⟩

variable {known : String → Option String} {ids : List String} {docs : List Document}
  {keys : List Key} {batch : List Fields} {outcomes : List BulkOutcome}

/-- A batch without failures was accepted as a whole. -/
theorem error_eq_none_of_failures (hfailures : failures outcomes = []) :
    ∀ outcome ∈ outcomes, outcome.error = none := by
  intro outcome hmem
  obtain ⟨i, hi⟩ := List.mem_iff_getElem?.mp hmem
  have hindexed : (outcome, i) ∈ outcomes.zipIdx := List.mk_mem_zipIdx_iff_getElem?.mpr hi
  have hnone := List.filterMap_eq_nil_iff.mp hfailures _ hindexed
  exact Option.map_eq_none_iff.mp hnone

/-- A batch that was written is a batch that the store has put, all of it. -/
theorem writeAll_eq_ok (hunstaged : a.Unstaged) (hwrite : writeAll docs a = (.ok outcomes, b)) :
    outcomes = (putAll a.connection.store.digest a.documents docs).1 ∧
      b.documents = (putAll a.connection.store.digest a.documents docs).2 ∧
      ∀ outcome ∈ outcomes, outcome.error = none := by
  obtain ⟨given, c, hask, hanswer⟩ := bind_eq_ok hwrite
  obtain ⟨hgiven, rfl⟩ := ask_eq_ok hunstaged hask
  have hbulk : (a.connection.store.perform (.bulk docs)).1 =
      .ok (putAll a.connection.store.digest a.documents docs).1 := rfl
  rw [hbulk, Except.ok.injEq] at hgiven
  subst hgiven
  cases hfailures : failures (putAll a.connection.store.digest a.documents docs).1 with
  | nil =>
    simp only [hfailures] at hanswer
    cases hanswer
    exact ⟨rfl, rfl, error_eq_none_of_failures hfailures⟩
  | cons =>
    simp only [hfailures] at hanswer
    cases hanswer

/-- Every document of a batch has an outcome. -/
theorem length_putAll (digest : Option String → Document → UInt64) (documents : Dict Document)
    (docs : List Document) : (putAll digest documents docs).1.length = docs.length := by
  induction docs generalizing documents with
  | nil => rfl
  | cons doc rest ih =>
    unfold putAll
    cases put digest documents doc with
    | error e => exact congrArg Nat.succ (ih documents)
    | ok written => exact congrArg Nat.succ (ih written.2)

/-- The records of a batch that was written are held. -/
theorem holds_of_writeAll (haddressed : Addressed known ids docs) (hunstaged : a.Unstaged)
    (hwrite : writeAll docs a = (.ok outcomes, b)) :
    ∀ record ∈ written ids keys batch outcomes, HoldsRecord b.documents record := by
  intro record hmem
  obtain ⟨rfl, hdocuments, hnone⟩ := writeAll_eq_ok hunstaged hwrite
  obtain ⟨⟨⟨⟨id, key⟩, fields⟩, outcome⟩, hzip, rfl⟩ := List.mem_map.mp hmem
  obtain ⟨i, hi⟩ := List.mem_iff_getElem?.mp hzip
  obtain ⟨hnames, houtcome⟩ := List.getElem?_zip_eq_some.mp hi
  have hid := (List.getElem?_zip_eq_some.mp (List.getElem?_zip_eq_some.mp hnames).1).1
  obtain ⟨doc, hdoc⟩ : ∃ doc, docs[i]? = some doc := by
    obtain ⟨hlt, _⟩ := List.getElem?_eq_some_iff.mp houtcome
    rw [length_putAll] at hlt
    exact ⟨_, List.getElem?_eq_getElem hlt⟩
  have hlive : ∀ doc ∈ docs, doc.isDeleted = false := by
    intro doc hmem
    obtain ⟨_, _, hlive, _⟩ := haddressed.of_mem hmem
    exact hlive
  have hknown : ∀ doc ∈ docs, ∀ own, doc.id? = some own → doc.revision? = known own := by
    intro doc hmem own hown
    obtain ⟨id, hid, _, hrevision⟩ := haddressed.of_mem hmem
    rw [hid, Option.some.injEq] at hown
    rw [← hown]
    exact hrevision
  have hentry : (doc, outcome) ∈ docs.zip (putAll a.connection.store.digest a.documents docs).1 :=
    List.mem_of_getElem? (List.getElem?_zip_eq_some.mpr ⟨hdoc, houtcome⟩)
  obtain ⟨own, rev, hown, hrev, hheld⟩ := putAll_holds known hlive hknown hnone _ hentry
  obtain ⟨given, hgiven, hdocid, _⟩ := haddressed i doc hdoc
  have hsame : own = id := by
    rw [hid, Option.some.injEq] at hgiven
    rw [hdocid, Option.some.injEq, ← hgiven] at hown
    exact hown.symm
  have hassigned : outcome.rev.getD "" = rev := congrArg (·.getD "") hrev
  have hrecord : Holds b.documents id (outcome.rev.getD "") := by
    rw [hdocuments, hassigned, ← hsame]
    exact hheld
  exact hrecord

/-- A replacement is a live document with the id and the revision that were given. -/
theorem replacement_eq_ok {rev : Option String}
    (hreplacement : replacement table id attributes rev = .ok doc) :
    doc.id? = some id ∧ doc.isDeleted = false ∧ doc.revision? = rev := by
  unfold replacement at hreplacement
  cases henclose : Document.enclose table id attributes with
  | error e =>
    rw [henclose] at hreplacement
    cases hreplacement
  | ok enclosed =>
    rw [henclose] at hreplacement
    obtain ⟨hreserves, rfl⟩ := Document.enclose_eq_ok henclose
    cases rev with
    | none =>
      cases hreplacement
      exact ⟨Document.id?_enclosed hreserves, Document.isDeleted_enclosed hreserves,
        Document.revision?_enclosed hreserves⟩
    | some rev =>
      cases hreplacement
      exact ⟨Document.id?_kept hreserves, Document.isDeleted_kept hreserves,
        Document.revision?_kept⟩

/-- Documents to be created are addressed to their ids, without revisions. -/
theorem addressed_of_enclosed
    (hdocs : (ids.zip batch).mapM (fun (id, fields) => Document.enclose table id fields) =
      .ok docs) :
    Addressed (fun _ => none) ids docs := by
  intro i doc hdoc
  obtain ⟨⟨id, fields⟩, hi, henclose⟩ := getElem?_of_mapM hdocs hdoc
  obtain ⟨hreserves, rfl⟩ := Document.enclose_eq_ok henclose
  exact ⟨id, (List.getElem?_zip_eq_some.mp hi).1, Document.id?_enclosed hreserves,
    Document.isDeleted_enclosed hreserves, Document.revision?_enclosed hreserves⟩

/-- The documents that replace others come with the revisions known for their ids. -/
theorem addressed_of_replacements {rev : Key → Option String}
    (hids : documentIds table keys = .ok ids)
    (hdocs : ((ids.zip batch).zip (keys.map rev)).mapM
      (fun ((id, fields), rev) => replacement table id fields rev) = .ok docs)
    (hknown : ∀ key id, Identity.documentId table key = .ok id → rev key = known id) :
    Addressed known ids docs := by
  intro i doc hdoc
  obtain ⟨⟨⟨id, fields⟩, given⟩, hi, hreplacement⟩ := getElem?_of_mapM hdocs hdoc
  obtain ⟨hpair, hgiven⟩ := List.getElem?_zip_eq_some.mp hi
  have hid := (List.getElem?_zip_eq_some.mp hpair).1
  obtain ⟨hdocid, hlive, hrevision⟩ := replacement_eq_ok hreplacement
  obtain ⟨key, hkey, hown⟩ := getElem?_of_mapM hids hid
  have hgiven' : (keys.map rev)[i]? = some given := hgiven
  rw [List.getElem?_map, hkey, Option.map_some, Option.some.injEq] at hgiven'
  refine ⟨id, hid, hdocid, hlive, ?_⟩
  rw [hrevision, ← hgiven', hknown key id hown]

/-- If no key is without a revision, all keys have one. -/
theorem isSome_of_firstWithoutRevision? {rev : Key → Option String}
    (hfirst : firstWithoutRevision? keys (keys.map rev) = none) :
    ∀ key ∈ keys, (rev key).isSome = true := by
  intro key hmem
  obtain ⟨i, hi⟩ := List.mem_iff_getElem?.mp hmem
  have hzip : (key, rev key) ∈ keys.zip (keys.map rev) := by
    refine List.mem_of_getElem? (List.getElem?_zip_eq_some.mpr ⟨hi, ?_⟩)
    rw [List.getElem?_map, hi]
    rfl
  have hnot := List.find?_eq_none.mp (Option.map_eq_none_iff.mp hfirst) _ hzip
  exact Option.isSome_iff_ne_none.mpr fun hnone => hnot (Option.isNone_iff_eq_none.mpr hnone)

/-- The store holds the revisions of all records. -/
def HoldsRecords (documents : Dict Document) (records : List StoredRecord) : Prop :=
  ∀ record ∈ records, HoldsRecord documents record

theorem length_eq_of_checkLengths {m n : Nat} (hcheck : checkLengths m n = .ok ()) : m = n := by
  by_cases heq : m = n
  · exact heq
  · rw [checkLengths, if_neg heq] at hcheck
    cases hcheck

/-- Creations that went through were for lists that fit together, and were written in one batch. -/
theorem createAll_eq_ok {records : List StoredRecord}
    (hcreate : createAll table keys batch a = (.ok records, b)) :
    ∃ ids docs outcomes, keys.length = batch.length ∧ documentIds table keys = .ok ids ∧
      (ids.zip batch).mapM (fun (id, fields) => Document.enclose table id fields) = .ok docs ∧
      writeAll docs a = (.ok outcomes, b) ∧ records = written ids keys batch outcomes := by
  obtain ⟨_, hbatch, hcreate⟩ := lift_bind_eq_ok hcreate
  obtain ⟨ids, hids, hcreate⟩ := lift_bind_eq_ok hcreate
  obtain ⟨docs, c, hmap, hrest⟩ := bind_eq_ok hcreate
  obtain ⟨hdocs, rfl⟩ : ((ids.zip batch).mapM fun (id, fields) =>
      Document.enclose table id fields) = .ok docs ∧ c = a := mapM_eq_ok (fun _ => rfl) hmap
  obtain ⟨outcomes, d, hwrite, hanswer⟩ := bind_eq_ok hrest
  cases hanswer
  exact ⟨ids, docs, outcomes, length_eq_of_checkLengths hbatch, hids, hdocs, hwrite, rfl⟩

/-- The revisions in records that were created at once are held. -/
theorem brings_createAll (table : String) (keys : List Key) (batch : List Fields) :
    Brings HoldsRecords (createAll table keys batch) := by
  intro a c records hunstaged _ hcreate
  obtain ⟨ids, docs, outcomes, _, _, hdocs, hwrite, rfl⟩ := createAll_eq_ok hcreate
  exact holds_of_writeAll (addressed_of_enclosed hdocs) hunstaged hwrite

/-- Replacements that went through were for lists that fit together, and were written in one
    batch. -/
theorem updateAll_eq_ok {revs : List (Option String)} {records : List StoredRecord}
    (hupdate : updateAll table keys batch revs a = (.ok records, b)) :
    ∃ ids docs outcomes, keys.length = batch.length ∧ keys.length = revs.length ∧
      documentIds table keys = .ok ids ∧
      ((ids.zip batch).zip revs).mapM
        (fun ((id, fields), rev) => replacement table id fields rev) = .ok docs ∧
      writeAll docs a = (.ok outcomes, b) ∧ records = written ids keys batch outcomes := by
  obtain ⟨_, hbatch, hupdate⟩ := lift_bind_eq_ok hupdate
  obtain ⟨_, hrevs, hupdate⟩ := lift_bind_eq_ok hupdate
  cases hfirst : firstWithoutRevision? keys revs with
  | some key =>
    simp only [hfirst] at hupdate
    cases hupdate
  | none =>
    simp only [hfirst] at hupdate
    obtain ⟨ids, hids, hupdate⟩ := lift_bind_eq_ok hupdate
    obtain ⟨docs, c, hmap, hrest⟩ := bind_eq_ok hupdate
    obtain ⟨hdocs, rfl⟩ : (((ids.zip batch).zip revs).mapM fun ((id, fields), rev) =>
        replacement table id fields rev) = .ok docs ∧ c = a := mapM_eq_ok (fun _ => rfl) hmap
    obtain ⟨outcomes, d, hwrite, hanswer⟩ := bind_eq_ok hrest
    cases hanswer
    exact ⟨ids, docs, outcomes, length_eq_of_checkLengths hbatch,
      length_eq_of_checkLengths hrevs, hids, hdocs, hwrite, rfl⟩

/-- So are those of records that were updated at once. -/
theorem brings_updateAll (table : String) (keys : List Key) (batch : List Fields)
    {rev : Key → Option String}
    (hknown : ∀ key id, Identity.documentId table key = .ok id → rev key = known id) :
    Brings HoldsRecords (updateAll table keys batch (keys.map rev)) := by
  intro a c records hunstaged _ hupdate
  obtain ⟨ids, docs, outcomes, _, _, hids, hdocs, hwrite, rfl⟩ := updateAll_eq_ok hupdate
  exact holds_of_writeAll (addressed_of_replacements hids hdocs hknown) hunstaged hwrite

/-! ## Reading many -/

/-- Where no row is missing, the rows are look-ups. -/
theorem mapM_lookUp_of_missing {documents : Dict Document}
    (hmissing : missing (ids.map (fetchRow documents)) = []) :
    ids.mapM (lookUp documents) =
      .ok ((ids.map (fetchRow documents)).filterMap FetchedRow.doc) := by
  have hthere : ∀ id ∈ ids, ¬(fetchRow documents id).doc.isNone = true := by
    intro id hmem
    exact List.filter_eq_nil_iff.mp (List.map_eq_nil_iff.mp hmissing) _ (List.mem_map_of_mem hmem)
  clear hmissing
  induction ids with
  | nil => rfl
  | cons id rest ih =>
    obtain ⟨hid, hrest⟩ := List.forall_mem_cons.mp hthere
    rw [List.mapM_cons, ih hrest, List.map_cons]
    unfold fetchRow at hid ⊢
    cases hlookUp : lookUp documents id with
    | error e =>
      rw [hlookUp] at hid
      exact absurd rfl hid
    | ok doc => rfl

/-- Documents that were fetched are the live ones under the ids, in their order. -/
theorem fetchAll_eq_ok (hunstaged : a.Unstaged) (hfetch : fetchAll table keys a = (.ok docs, b)) :
    ∃ ids, documentIds table keys = .ok ids ∧ ids.mapM (lookUp a.documents) = .ok docs ∧
      b = a.served (.fetch ids) := by
  obtain ⟨ids, hids, hfetch⟩ := lift_bind_eq_ok hfetch
  obtain ⟨rows, c, hask, hanswer⟩ := bind_eq_ok hfetch
  obtain ⟨hrows, rfl⟩ := ask_eq_ok hunstaged hask
  have hfetched : (a.connection.store.perform (.fetch ids)).1 =
      .ok (ids.map (fetchRow a.documents)) := rfl
  rw [hfetched, Except.ok.injEq] at hrows
  subst hrows
  cases hmissing : missing (ids.map (fetchRow a.documents)) with
  | nil =>
    simp only [hmissing] at hanswer
    cases hanswer
    exact ⟨ids, hids, mapM_lookUp_of_missing hmissing, rfl⟩
  | cons =>
    simp only [hmissing] at hanswer
    cases hanswer

/-- Records that were read are those in the documents that were fetched. -/
theorem readAll_eq_ok {records : List StoredRecord} (hunstaged : a.Unstaged)
    (hread : readAll table keys a = (.ok records, b)) :
    ∃ ids docs, documentIds table keys = .ok ids ∧ ids.mapM (lookUp a.documents) = .ok docs ∧
      (keys.zip docs).mapM (fun (key, doc) => recordOf a.registry table key doc) = .ok records ∧
      b = a.served (.fetch ids) := by
  obtain ⟨docs, c, hfetch, hrest⟩ := bind_eq_ok hread
  obtain ⟨ids, hids, hdocs, rfl⟩ := fetchAll_eq_ok hunstaged hfetch
  rw [get_bind] at hrest
  obtain ⟨hrecords, rfl⟩ : ((keys.zip docs).mapM fun (key, doc) =>
      recordOf a.registry table key doc) = .ok records ∧ b = a.served (.fetch ids) :=
    mapM_eq_ok (fun _ => rfl) hrest
  exact ⟨ids, docs, hids, hdocs, hrecords, rfl⟩

/-- The record at a position is read from the live document under the id of the key there. -/
theorem getElem?_of_readAll {records : List StoredRecord} {record : StoredRecord} {i : Nat}
    (hunstaged : a.Unstaged) (hread : readAll table keys a = (.ok records, b))
    (hi : records[i]? = some record) :
    ∃ key, keys[i]? = some key ∧ Identity.documentId table key = .ok record.id ∧
      HoldsRecord a.documents record := by
  obtain ⟨ids, docs, hids, hdocs, hrecords, rfl⟩ := readAll_eq_ok hunstaged hread
  obtain ⟨⟨key, doc⟩, hzip, hrecord⟩ := getElem?_of_mapM hrecords hi
  obtain ⟨hkey, hdoc⟩ := List.getElem?_zip_eq_some.mp hzip
  obtain ⟨id, hid, hlookUp⟩ := getElem?_of_mapM hdocs hdoc
  obtain ⟨own, hown, hown'⟩ := getElem?_of_mapM hids hid
  obtain ⟨hsame, hrev⟩ := recordOf_eq_ok hrecord
  have hkeys : own = key := Option.some.inj (hown.symm.trans hkey)
  rw [hkeys, hsame, Except.ok.injEq] at hown'
  refine ⟨key, hkey, hsame, ?_⟩
  rw [HoldsRecord, hown']
  exact lookUp_holds hlookUp hrev

/-- The revisions in records that were read at once are held. -/
theorem brings_readAll (table : String) (keys : List Key) :
    Brings HoldsRecords (readAll table keys) := by
  intro a c records hunstaged _ hread record hmem
  obtain ⟨i, hi⟩ := List.mem_iff_getElem?.mp hmem
  obtain ⟨key, _, _, hheld⟩ := getElem?_of_readAll hunstaged hread hi
  obtain ⟨ids, docs, _, _, _, rfl⟩ := readAll_eq_ok hunstaged hread
  exact hheld

end Adapter

end DocMapper
