import DocMapper.Proofs.Adapter.Answers
import DocMapper.Proofs.Adapter.Sparing

/-!
# Batches

What a batch leaves alone. Creating records leaves live documents as they are, even where the batch
is refused in part. A batch that went through has changed the documents of its records only.
-/

namespace DocMapper

open DocMapper.Action MemoryStore

namespace MemoryStore

variable {documents : Dict Document} {docs : List Document} {id : String}

/-- A document without a revision never goes over a live one. -/
theorem put_get?_of_isLive {digest : Option String → Document → UInt64} {doc : Document}
    {receipt : WriteReceipt} {after : Dict Document} (hrev : doc.revision? = none)
    (hput : put digest documents doc = .ok (receipt, after)) (hlive : IsLive documents id) :
    after.get? id = documents.get? id := by
  obtain ⟨_, haccepts, _, rfl⟩ := put_eq_ok hput
  rw [hrev] at haccepts
  have hne : receipt.id ≠ id := by
    rintro rfl
    exact haccepts hlive
  exact Dict.get?_insert_of_ne _ _ hne

/-- Calls that only write documents without a revision never replace a live one. -/
theorem performAll_get?_of_isLive (s : MemoryStore) (calls : List Call)
    (hcalls : ∀ c ∈ calls, ∀ documents, ∀ doc ∈ writes documents c, doc.revision? = none)
    (hlive : IsLive s.documents id) :
    (s.performAll calls).documents.get? id = s.documents.get? id :=
  performAll_preserves (W := fun doc => doc.revision? = none)
    (R := fun before after => IsLive before id → Dict.get? after id = Dict.get? before id)
    (fun _ _ => rfl)
    (fun hfirst hsecond hlive => (hsecond (hlive.congr (hfirst hlive))).trans (hfirst hlive))
    put_get?_of_isLive s calls hcalls hlive

/-- A batch without revisions never replaces a live document. -/
theorem putAll_get?_of_isLive (digest : Option String → Document → UInt64)
    (hrevs : ∀ doc ∈ docs, doc.revision? = none) (hlive : IsLive documents id) :
    (putAll digest documents docs).2.get? id = documents.get? id :=
  putAll_preserves (W := fun doc => doc.revision? = none)
    (R := fun before after => IsLive before id → Dict.get? after id = Dict.get? before id)
    (fun _ _ => rfl)
    (fun hfirst hsecond hlive => (hsecond (hlive.congr (hfirst hlive))).trans (hfirst hlive))
    put_get?_of_isLive hrevs hlive

/-- Where a batch of live documents without revisions is accepted as a whole, every one of them is
    there in the end. -/
theorem putAll_get?_of_accepted {digest : Option String → Document → UInt64}
    (hlive : ∀ doc ∈ docs, doc.isDeleted = false) (hrevs : ∀ doc ∈ docs, doc.revision? = none)
    (haccepted : ∀ outcome ∈ (putAll digest documents docs).1, outcome.error = none) :
    ∀ doc ∈ docs, ∃ id rev, doc.id? = some id ∧
      (putAll digest documents docs).2.get? id =
        some (Dict.insert doc revisionField (.str rev)) := by
  induction docs generalizing documents with
  | nil => exact List.forall_mem_nil _
  | cons doc rest ih =>
    obtain ⟨hdoc, hrest⟩ := List.forall_mem_cons.mp hlive
    obtain ⟨_, hlater⟩ := List.forall_mem_cons.mp hrevs
    unfold putAll at haccepted ⊢
    cases hput : put digest documents doc with
    | error e =>
      rw [hput] at haccepted
      have herror := (List.forall_mem_cons.mp haccepted).1
      cases e <;> cases herror
    | ok written =>
      obtain ⟨receipt, after⟩ := written
      rw [hput] at haccepted
      obtain ⟨hid, _, _, hafter⟩ := put_eq_ok hput
      have hstored : after.get? receipt.id =
          some (Dict.insert doc revisionField (.str receipt.rev)) := by
        rw [hafter, Dict.get?_insert_self, stored, if_neg (by rw [hdoc]; exact Bool.false_ne_true)]
      -- The documents after this one have no revisions, so they leave it as it is.
      have hkept : IsLive after receipt.id := (holds_of_put hput hdoc).isLive
      refine List.forall_mem_cons.mpr ⟨⟨receipt.id, receipt.rev, hid, ?_⟩,
        ih hrest hlater (List.forall_mem_cons.mp haccepted).2⟩
      exact (putAll_get?_of_isLive digest hlater hkept).trans hstored

/-- A batch leaves alone the ids that it does not write. -/
theorem putAll_get?_of_absent (digest : Option String → Document → UInt64)
    (documents : Dict Document) (habsent : ∀ doc ∈ docs, doc.id? ≠ some id) :
    (putAll digest documents docs).2.get? id = documents.get? id := by
  refine putAll_preserves (W := fun doc => doc.id? ≠ some id)
    (R := fun before after => Dict.get? after id = Dict.get? before id)
    (fun _ => rfl) (fun hfirst hsecond => hsecond.trans hfirst) ?_ habsent
  intro digest documents doc receipt after hdoc hput
  obtain ⟨hid, _, _, rfl⟩ := put_eq_ok hput
  have hne : receipt.id ≠ id := by
    rintro rfl
    exact hdoc hid
  exact Dict.get?_insert_of_ne _ _ hne

end MemoryStore

namespace Adapter

variable {a b : Adapter} {table id : String} {ids : List String} {keys : List Key}
  {batch : List Fields} {revs : List (Option String)} {records : List StoredRecord}
  {outcomes : List BulkOutcome}

/-- Creating never replaces a live document. -/
theorem createAll_get?_of_isLive (hunstaged : a.Unstaged) (hlive : IsLive a.documents id) :
    (createAll table keys batch a).2.documents.get? id = a.documents.get? id := by
  have hquiet : Quiet (fun c => ∀ documents, ∀ doc ∈ writes documents c, doc.revision? = none)
      (createAll table keys batch) := by
    refine along_createAll fun ids docs hdocs => allows_passing fun _ doc hmem => ?_
    obtain ⟨_, _, _, hrev⟩ := (addressed_of_enclosed hdocs).of_mem hmem
    exact hrev
  obtain ⟨calls, hcalls, hconnection, _⟩ := hquiet a hunstaged
  rw [documents, hconnection]
  exact performAll_get?_of_isLive _ calls hcalls hlive

/-- There is a document that encloses the attributes, under the id of the key. -/
def KeepsEntry (table : String) (documents : Dict Document) (entry : Key × Fields) : Prop :=
  ∃ id rev, Encloses table documents ⟨id, entry.1, rev, entry.2⟩

/-- Where many records were created, all of them are there in the end. -/
theorem createAll_keepsEntry (hunstaged : a.Unstaged)
    (hcreate : createAll table keys batch a = (.ok records, b)) :
    ∀ entry ∈ keys.zip batch, KeepsEntry table b.documents entry := by
  obtain ⟨ids, docs, outcomes, _, hids, hdocs, hwrite, _⟩ := createAll_eq_ok hcreate
  obtain ⟨rfl, hdocuments, haccepted⟩ := writeAll_eq_ok hunstaged hwrite
  have hlive : ∀ doc ∈ docs, doc.isDeleted = false := by
    intro doc hmem
    obtain ⟨_, _, hlive, _⟩ := (addressed_of_enclosed hdocs).of_mem hmem
    exact hlive
  have hrevs : ∀ doc ∈ docs, doc.revision? = none := by
    intro doc hmem
    obtain ⟨_, _, _, hrev⟩ := (addressed_of_enclosed hdocs).of_mem hmem
    exact hrev
  rintro ⟨key, fields⟩ hentry
  obtain ⟨i, hi⟩ := List.mem_iff_getElem?.mp hentry
  obtain ⟨hkey, hfields⟩ := List.getElem?_zip_eq_some.mp hi
  obtain ⟨id, hgiven, hid⟩ := exists_getElem?_of_mapM hids hkey
  have hpair : (ids.zip batch)[i]? = some (id, fields) :=
    List.getElem?_zip_eq_some.mpr ⟨hgiven, hfields⟩
  obtain ⟨doc, hdoc, henclose⟩ := exists_getElem?_of_mapM hdocs hpair
  obtain ⟨hreserves, rfl⟩ := Document.enclose_eq_ok henclose
  obtain ⟨own, rev, hown, hget⟩ :=
    putAll_get?_of_accepted hlive hrevs haccepted _ (List.mem_of_getElem? hdoc)
  rw [Document.id?_enclosed hreserves, Option.some.injEq] at hown
  subst hown
  refine ⟨id, rev, hreserves, hid, ?_⟩
  rw [hdocuments]
  exact hget

/-- Where the lists fit together, the records of a batch have the ids that they were given. -/
theorem map_id_written (hkeys : ids.length = keys.length) (hbatch : ids.length = batch.length)
    (houtcomes : ids.length = outcomes.length) :
    (written ids keys batch outcomes).map StoredRecord.id = ids := by
  have hfirst : (ids.zip keys).length = ids.length := by
    rw [List.length_zip, ← hkeys, Nat.min_self]
  have hsecond : ((ids.zip keys).zip batch).length = ids.length := by
    rw [List.length_zip, hfirst, ← hbatch, Nat.min_self]
  have hids : (((ids.zip keys).zip batch).zip outcomes).map (fun entry => entry.1.1.1) = ids := by
    have hcompose : (fun entry : ((String × Key) × Fields) × BulkOutcome => entry.1.1.1) =
        Prod.fst ∘ Prod.fst ∘ Prod.fst := rfl
    rw [hcompose, ← List.map_map, ← List.map_map,
      List.map_fst_zip (by omega), List.map_fst_zip (by omega), List.map_fst_zip (by omega)]
  rw [written, List.map_map]
  exact hids

/-- Where many records were replaced, the other documents are as before. -/
theorem updateAll_get?_of_absent (hunstaged : a.Unstaged)
    (hupdate : updateAll table keys batch revs a = (.ok records, b))
    (habsent : ∀ record ∈ records, record.id ≠ id) :
    b.documents.get? id = a.documents.get? id := by
  obtain ⟨ids, docs, outcomes, hbatch, hrevs, hids, hdocs, hwrite, rfl⟩ :=
    updateAll_eq_ok hupdate
  obtain ⟨houtcomes, hdocuments, _⟩ := writeAll_eq_ok hunstaged hwrite
  have hwritten : (written ids keys batch outcomes).map StoredRecord.id = ids := by
    have hlengths := length_of_mapM hids
    have hcount := length_of_mapM hdocs
    rw [List.length_zip, List.length_zip] at hcount
    refine map_id_written hlengths (hlengths.trans hbatch) ?_
    rw [houtcomes, length_putAll]
    omega
  rw [hdocuments]
  refine putAll_get?_of_absent _ _ fun doc hmem hid => ?_
  obtain ⟨i, hi⟩ := List.mem_iff_getElem?.mp hmem
  obtain ⟨⟨⟨own, fields⟩, rev⟩, hentry, hreplacement⟩ := getElem?_of_mapM hdocs hi
  have hown := (replacement_eq_ok hreplacement).1
  rw [hid, Option.some.injEq] at hown
  have hin : id ∈ ids := hown ▸ List.mem_of_getElem?
    (List.getElem?_zip_eq_some.mp (List.getElem?_zip_eq_some.mp hentry).1).1
  rw [← hwritten] at hin
  obtain ⟨record, hrecord, hsame⟩ := List.mem_map.mp hin
  exact habsent record hrecord hsame

/-- Where many records were deleted, the other documents are as before. -/
theorem deleteAll_get?_of_absent (hunstaged : a.Unstaged)
    (hdelete : deleteAll table keys a = (.ok records, b))
    (habsent : ∀ record ∈ records, record.id ≠ id) :
    b.documents.get? id = a.documents.get? id := by
  obtain ⟨found, c, hread, hrest⟩ := bind_eq_ok hdelete
  obtain ⟨outcomes, d, hwrite, hanswer⟩ := bind_eq_ok hrest
  cases hanswer
  have hspares : a.Undisturbed (fun _ => True) (readAll table keys a).2 :=
    along_readAll (R := Sparing fun _ => True)
      (fun _ => allows_sparing (spares_of_reads trivial)) a hunstaged
  rw [hread] at hspares
  obtain ⟨_, hdocuments, _⟩ := writeAll_eq_ok hspares.unstaged hwrite
  rw [hdocuments, ← hspares.get?_eq id trivial]
  refine putAll_get?_of_absent _ _ fun doc hmem hid => ?_
  obtain ⟨record, hrecord, rfl⟩ := List.mem_map.mp hmem
  exact habsent record hrecord (Option.some.inj hid)

end Adapter

end DocMapper
