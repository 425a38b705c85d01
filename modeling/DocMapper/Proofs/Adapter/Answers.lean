import DocMapper.Proofs.Adapter.Held
import DocMapper.Proofs.Key.Identity

/-!
# What operations on one record answer

A record that is live is read as it was kept. A record is written where nothing live is overwritten,
or over its current revision; then the document that encloses its attributes is kept.
-/

namespace DocMapper

open MemoryStore

namespace MemoryStore

/-- A document that comes with an accepted revision is written under the next one. -/
theorem put_of_accepts (digest : Option String → Document → UInt64) {documents : Dict Document}
    {doc : Document} {id : String} (hid : doc.id? = some id) (hlive : doc.isDeleted = false)
    (haccepts : Accepts documents id doc.revision?) :
    put digest documents doc = .ok (⟨true, id, nextRevision digest documents id doc⟩,
      documents.insert id
        (Dict.insert doc revisionField (.str (nextRevision digest documents id doc)))) := by
  rcases put_spec digest documents doc with
    ⟨hnone, _⟩ | ⟨other, hother, ⟨hrefuses, _⟩ | ⟨_, hdeleted, _⟩ | ⟨_, _, hput⟩⟩
  · rw [hid] at hnone
    cases hnone
  · cases hid.symm.trans hother
    exact absurd haccepts hrefuses
  · rw [hlive] at hdeleted
    cases hdeleted
  · cases hid.symm.trans hother
    rw [hput, stored, if_neg (by rw [hlive]; exact Bool.false_ne_true)]

end MemoryStore

namespace Adapter

variable {a : Adapter} {table id rev : String} {key : Key} {attributes : Fields}

theorem unstaged_served (call : Call) (hunstaged : a.Unstaged) : (a.served call).Unstaged :=
  hunstaged

/-- What is not live is not found. -/
theorem ask_get_of_not_isLive (subject : Option String) (hunstaged : a.Unstaged)
    (hlive : ¬IsLive a.documents id) :
    ∃ reason, ask subject (.get id) a =
      (.error (.store subject (.notFound reason)), a.served (.get id)) := by
  obtain ⟨reason, hlookUp⟩ := KeyedMap.lookUp_of_not_isLive hlive
  exact ⟨reason, ask_of_error hunstaged hlookUp⟩

/-- A record is not found where its document is not live. -/
theorem read_of_not_isLive (hunstaged : a.Unstaged) (hid : Identity.documentId table key = .ok id)
    (hlive : ¬IsLive a.documents id) :
    ∃ reason, read table key a =
      (.error (.store (some id) (.notFound reason)), a.served (.get id)) := by
  obtain ⟨reason, hask⟩ := ask_get_of_not_isLive (some id) hunstaged hlive
  refine ⟨reason, ?_⟩
  rw [read, hid, lift_ok_bind]
  exact bind_of_error hask

/-- A document with a revision is a record. -/
theorem recordOf_of_revision? {doc : Document} (registry : Dict Schema)
    (hid : Identity.documentId table key = .ok id) (hrev : doc.revision? = some rev) :
    recordOf registry table key doc = .ok ⟨id, key, rev, attributesOf registry table key doc⟩ := by
  rw [recordOf, hid, Document.revision, hrev]
  rfl

/-- A live record is read from its document as it is. -/
theorem read_of_lookUp {doc : Document} (hunstaged : a.Unstaged)
    (hid : Identity.documentId table key = .ok id) (hlookUp : lookUp a.documents id = .ok doc)
    (hrev : doc.revision? = some rev) :
    read table key a = (.ok ⟨id, key, rev, attributesOf a.registry table key doc⟩,
      a.served (.get id)) := by
  have hask : ask (some id) (.get id) a = (.ok doc, a.served (.get id)) :=
    ask_of_ok hunstaged hlookUp
  have hserved : (a.served (.get id)).registry = a.registry := rfl
  rw [read, hid, lift_ok_bind, bind_of_ok hask, get_bind, hserved,
    recordOf_of_revision? a.registry hid hrev]
  rfl

/-- So is a record that is asked for as the only one of many. -/
theorem readAll_of_lookUp {doc : Document} (hunstaged : a.Unstaged)
    (hid : Identity.documentId table key = .ok id) (hlookUp : lookUp a.documents id = .ok doc)
    (hrev : doc.revision? = some rev) :
    readAll table [key] a = (.ok [⟨id, key, rev, attributesOf a.registry table key doc⟩],
      a.served (.fetch [id])) := by
  have hids : documentIds table [key] = .ok [id] := by
    rw [documentIds, List.mapM_cons, hid]
    rfl
  have hrow : fetchRow a.documents id = { id, doc := some doc } := by
    rw [fetchRow, hlookUp]
  have hanswer : (a.connection.store.perform (.fetch [id])).1 =
      .ok [({ id, doc := some doc } : FetchedRow)] := by
    have hrows : (a.connection.store.perform (.fetch [id])).1 = .ok [fetchRow a.documents id] := rfl
    rw [hrows, hrow]
  have hfetch : fetchAll table [key] a = (.ok [doc], a.served (.fetch [id])) := by
    rw [fetchAll, hids, lift_ok_bind, bind_of_ok (ask_of_ok hunstaged hanswer)]
    rfl
  have hrecord : (liftM (recordOf a.registry table key doc) : Action StoredRecord)
      (a.served (.fetch [id])) = (.ok ⟨id, key, rev, attributesOf a.registry table key doc⟩,
        a.served (.fetch [id])) := by
    rw [recordOf_of_revision? a.registry hid hrev]
    rfl
  rw [readAll, bind_of_ok hfetch, get_bind, List.zip_cons_cons, List.zip_nil_right, List.mapM_cons]
  exact bind_of_ok hrecord

/-- A document that others wrote without a revision cannot be read. -/
theorem read_of_no_revision {doc : Document} (hunstaged : a.Unstaged)
    (hid : Identity.documentId table key = .ok id) (hlookUp : lookUp a.documents id = .ok doc)
    (hrev : doc.revision? = none) :
    read table key a = (.error .documentWithoutRevision, a.served (.get id)) := by
  have hask : ask (some id) (.get id) a = (.ok doc, a.served (.get id)) :=
    ask_of_ok hunstaged hlookUp
  rw [read, hid, lift_ok_bind, bind_of_ok hask, get_bind, recordOf, hid, Document.revision, hrev]
  rfl

/-- A document that keeps attributes is live, since none of them is reserved. -/
theorem lookUp_of_kept {documents : Dict Document} (hreserves : Document.reserves attributes = false)
    (hget : documents.get? id = some (Document.kept table id attributes rev)) :
    lookUp documents id = .ok (Document.kept table id attributes rev) := by
  rw [lookUp, hget]
  simp only [Document.isDeleted_kept hreserves, Bool.false_eq_true, if_false]

/-- In a table without a schema a record has the attributes that were written. -/
theorem read_of_kept (hunstaged : a.Unstaged) (hid : Identity.documentId table key = .ok id)
    (hreserves : Document.reserves attributes = false) (hregistry : a.registry.get? table = none)
    (hget : a.documents.get? id = some (Document.kept table id attributes rev)) :
    read table key a = (.ok ⟨id, key, rev, Dict.ofEntries (attributes.erase tableField)⟩,
      a.served (.get id)) := by
  rw [read_of_lookUp hunstaged hid (lookUp_of_kept hreserves hget) Document.revision?_kept,
    attributesOf, hregistry, Document.attributes_kept hreserves]

/-- An insertion with an accepted revision succeeds, and nothing else is written. -/
theorem ask_insert_of_accepts (subject : Option String) {doc : Document} (hunstaged : a.Unstaged)
    (hid : doc.id? = some id) (hlive : doc.isDeleted = false)
    (haccepts : Accepts a.documents id doc.revision?) :
    ∃ rev, ask subject (.insert doc) a = (.ok ⟨true, id, rev⟩, a.served (.insert doc)) ∧
      (a.served (.insert doc)).documents =
        a.documents.insert id (Dict.insert doc revisionField (.str rev)) := by
  have hput := put_of_accepts a.connection.store.digest hid hlive haccepts
  obtain ⟨hanswer, hdocuments⟩ := perform_insert_of_ok hput
  exact ⟨_, ask_of_ok hunstaged hanswer, hdocuments⟩

/-- Where no document is live, a creation succeeds and its attributes are kept. -/
theorem create_of_not_isLive (hunstaged : a.Unstaged)
    (hid : Identity.documentId table key = .ok id)
    (hreserves : Document.reserves attributes = false) (hlive : ¬IsLive a.documents id) :
    ∃ rev b, create table key attributes a = (.ok ⟨id, key, rev, attributes⟩, b) ∧
      b.Unstaged ∧ b.documents =
        a.documents.insert id (Document.kept table id attributes rev) := by
  have haccepts : Accepts a.documents id (Document.enclosed table id attributes).revision? := by
    rw [Document.revision?_enclosed hreserves]
    exact hlive
  obtain ⟨rev, hask, hdocuments⟩ := ask_insert_of_accepts (some id) hunstaged
    (Document.id?_enclosed hreserves) (Document.isDeleted_enclosed hreserves) haccepts
  refine ⟨rev, _, ?_, unstaged_served _ hunstaged, hdocuments⟩
  rw [create, hid, lift_ok_bind, Document.enclose_of_not_reserves table id hreserves, lift_ok_bind]
  exact bind_of_ok hask

/-- An update over the current revision succeeds and its attributes are kept. -/
theorem update_of_currentRevision {given : String} (hunstaged : a.Unstaged)
    (hid : Identity.documentId table key = .ok id)
    (hreserves : Document.reserves attributes = false)
    (hcurrent : currentRevision a.documents id = some given) :
    ∃ rev b, update table key attributes (some given) a = (.ok ⟨id, key, rev, attributes⟩, b) ∧
      b.Unstaged ∧ b.documents =
        a.documents.insert id (Document.kept table id attributes rev) := by
  have haccepts : Accepts a.documents id
      (Document.kept table id attributes given).revision? := by
    rw [Document.revision?_kept]
    exact hcurrent
  obtain ⟨rev, hask, hdocuments⟩ := ask_insert_of_accepts (some id) hunstaged
    (Document.id?_kept hreserves) (Document.isDeleted_kept hreserves) haccepts
  rw [Document.insert_revision_kept] at hdocuments
  refine ⟨rev, _, ?_, unstaged_served _ hunstaged, hdocuments⟩
  rw [update, hid, lift_ok_bind, Document.enclose_of_not_reserves table id hreserves, lift_ok_bind]
  exact bind_of_ok hask

/-! ## Writes that succeeded -/

variable {b : Adapter} {subject : Option String} {record : StoredRecord} {receipt : WriteReceipt}
  {doc : Document}

/-- One document was written, under this id. -/
def WritesUnder (id : String) (a b : Adapter) : Prop :=
  ∃ doc receipt, receipt.id = id ∧
    put a.connection.store.digest a.documents doc = .ok (receipt, b.documents)

/-- A write changes the document under its id, since it moves on to another generation. -/
theorem WritesUnder.get?_ne (hwrites : WritesUnder id a b) :
    b.documents.get? id ≠ a.documents.get? id := by
  obtain ⟨doc, receipt, rfl, hput⟩ := hwrites
  intro hsame
  have hlater := generationOf_lt_of_put hput
  rw [currentRevision_congr hsame] at hlater
  exact Nat.lt_irrefl _ hlater

/-- Documents under other ids are as before. -/
theorem WritesUnder.get?_of_ne {other : String} (hwrites : WritesUnder id a b) (hne : id ≠ other) :
    b.documents.get? other = a.documents.get? other := by
  obtain ⟨doc, receipt, rfl, hput⟩ := hwrites
  obtain ⟨_, _, _, hafter⟩ := put_eq_ok hput
  rw [hafter, Dict.get?_insert_of_ne _ _ hne]

theorem keepDocuments_eq_ok {s : MemoryStore} {v : WriteReceipt}
    {result : Except StoreError (WriteReceipt × Dict Document)}
    (hkeep : (s.keepDocuments result).1 = .ok v) :
    result = .ok (v, (s.keepDocuments result).2.documents) := by
  cases result with
  | error e => cases hkeep
  | ok written =>
    cases hkeep
    rfl

/-- If an insertion is answered, the store has put the document. -/
theorem put_of_ask_insert (hunstaged : a.Unstaged)
    (hask : ask subject (.insert doc) a = (.ok receipt, b)) :
    put a.connection.store.digest a.documents doc = .ok (receipt, b.documents) := by
  obtain ⟨hanswer, rfl⟩ := ask_eq_ok hunstaged hask
  exact keepDocuments_eq_ok hanswer

theorem writesUnder_of_ask_insert (hunstaged : a.Unstaged) (hid : doc.id? = some id)
    (hask : ask subject (.insert doc) a = (.ok receipt, b)) : WritesUnder id a b := by
  have hput := put_of_ask_insert hunstaged hask
  have hown := (put_eq_ok hput).1
  rw [hid, Option.some.injEq] at hown
  exact ⟨doc, receipt, hown.symm, hput⟩

theorem writesUnder_of_ask_destroy (hunstaged : a.Unstaged)
    (hask : ask subject (.destroy id rev) a = (.ok receipt, b)) : WritesUnder id a b := by
  obtain ⟨hanswer, rfl⟩ := ask_eq_ok hunstaged hask
  have hremove : remove a.connection.store.digest a.documents id rev =
      .ok (receipt, (a.served (.destroy id rev)).documents) := keepDocuments_eq_ok hanswer
  rcases remove_spec a.connection.store.digest a.documents id rev with
    ⟨_, hput⟩ | ⟨_, reason, _, herror⟩
  · rw [hput] at hremove
    have hown : (tombstone id rev).id? = some receipt.id := (put_eq_ok hremove).1
    exact ⟨tombstone id rev, receipt, (Option.some.inj hown).symm, hremove⟩
  · rw [herror] at hremove
    cases hremove

/-- The document of the record is the one that encloses its attributes. -/
structure Encloses (table : String) (documents : Dict Document) (record : StoredRecord) : Prop where
  unreserved : Document.reserves record.attributes = false
  id_eq : Identity.documentId table record.key = .ok record.id
  get?_eq : documents.get? record.id =
    some (Document.kept table record.id record.attributes record.rev)

/-- What a document encloses depends on that document only. -/
theorem Encloses.congr {documents after : Dict Document}
    (hencloses : Encloses table documents record)
    (hget : after.get? record.id = documents.get? record.id) : Encloses table after record :=
  ⟨hencloses.unreserved, hencloses.id_eq, hget.trans hencloses.get?_eq⟩

/-- The store holds the revision of what a document encloses. -/
theorem Encloses.holds {documents : Dict Document} (hencloses : Encloses table documents record) :
    HoldsRecord documents record :=
  ⟨_, hencloses.get?_eq, Document.isDeleted_kept hencloses.unreserved, Document.revision?_kept⟩

/-- The document that was inserted is there with the revision of the receipt. -/
theorem get?_of_ask_insert (hunstaged : a.Unstaged) (hid : doc.id? = some id)
    (hlive : doc.isDeleted = false) (hask : ask subject (.insert doc) a = (.ok receipt, b)) :
    b.documents.get? id = some (Dict.insert doc revisionField (.str receipt.rev)) := by
  obtain ⟨hown, _, _, hafter⟩ := put_eq_ok (put_of_ask_insert hunstaged hask)
  rw [hid, Option.some.injEq] at hown
  rw [hafter, ← hown, Dict.get?_insert_self, stored,
    if_neg (by rw [hlive]; exact Bool.false_ne_true)]

/-- A record that was created or updated has the given key and attributes, and its document was
    written under its id. -/
theorem create_eq_ok (hunstaged : a.Unstaged)
    (hcreate : create table key attributes a = (.ok record, b)) :
    record.key = key ∧ record.attributes = attributes ∧ WritesUnder record.id a b ∧
      Encloses table b.documents record := by
  obtain ⟨id, hid, hwrite⟩ := Action.lift_bind_eq_ok hcreate
  obtain ⟨doc, hdoc, hwrite⟩ := Action.lift_bind_eq_ok hwrite
  obtain ⟨receipt, c, hask, hanswer⟩ := Action.bind_eq_ok hwrite
  cases hanswer
  obtain ⟨hreserves, rfl⟩ := Document.enclose_eq_ok hdoc
  have hown : (Document.enclosed table id attributes).id? = some id :=
    Document.id?_enclosed hreserves
  exact ⟨rfl, rfl, writesUnder_of_ask_insert hunstaged hown hask, hreserves, hid,
    get?_of_ask_insert hunstaged hown (Document.isDeleted_enclosed hreserves) hask⟩

/-- An update that succeeds has written its own document only, and the record is in it. -/
theorem update_eq_ok {given : Option String} (hunstaged : a.Unstaged)
    (hupdate : update table key attributes given a = (.ok record, b)) :
    record.key = key ∧ record.attributes = attributes ∧ WritesUnder record.id a b ∧
      Encloses table b.documents record := by
  cases given with
  | none => cases hupdate
  | some given =>
    obtain ⟨id, hid, hwrite⟩ := Action.lift_bind_eq_ok hupdate
    obtain ⟨doc, hdoc, hwrite⟩ := Action.lift_bind_eq_ok hwrite
    obtain ⟨receipt, c, hask, hanswer⟩ := Action.bind_eq_ok hwrite
    cases hanswer
    obtain ⟨hreserves, rfl⟩ := Document.enclose_eq_ok hdoc
    have hown : (Document.kept table id attributes given).id? = some id :=
      Document.id?_kept hreserves
    have hget := get?_of_ask_insert hunstaged hown (Document.isDeleted_kept hreserves) hask
    rw [Document.insert_revision_kept] at hget
    exact ⟨rfl, rfl, writesUnder_of_ask_insert hunstaged hown hask, hreserves, hid, hget⟩

/-- A deletion that succeeds has written its own document only. -/
theorem delete_eq_ok (hunstaged : a.Unstaged)
    (hdelete : delete table key a = (.ok record, b)) :
    Identity.documentId table key = .ok record.id ∧ WritesUnder record.id a b := by
  obtain ⟨id, hid, hdelete⟩ := Action.lift_bind_eq_ok hdelete
  obtain ⟨doc, c, hget, hrest⟩ := Action.bind_eq_ok hdelete
  obtain ⟨_, rfl⟩ := ask_eq_ok hunstaged hget
  rw [get_bind] at hrest
  obtain ⟨brought, hrecord, hrest⟩ := Action.lift_bind_eq_ok hrest
  obtain ⟨receipt, d, hdestroy, hanswer⟩ := Action.bind_eq_ok hrest
  cases hanswer
  obtain ⟨hsame, _⟩ := recordOf_eq_ok hrecord
  have hown : record.id = id := Except.ok.inj (hsame.symm.trans hid)
  refine ⟨hsame, ?_⟩
  rw [hown]
  exact writesUnder_of_ask_destroy (a := a.served (.get id)) (unstaged_served _ hunstaged) hdestroy

end Adapter

end DocMapper
