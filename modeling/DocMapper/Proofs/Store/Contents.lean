import DocMapper.Proofs.Dict.Entries
import DocMapper.Proofs.Store.History
import DocMapper.Proofs.Store.Progress

/-!
# Contents of a store

What a store holds, read against the attempts that brought it there. Main statement: after any run
of calls every document carries its own id and a revision that counts the writes to the id, and a
deleted one is nothing but its tombstone; no id ever goes away.
-/

namespace DocMapper

namespace MemoryStore

open Attempt

variable {digest : Option String → Document → UInt64} {documents middle after : Dict Document}
  {doc : Document} {docs : List Document} {attempts earlier later : List Attempt}
  {id rev : String} {receipt : WriteReceipt} {e : StoreError}

/-- What may be kept under an id with a revision: a document that carries both itself, and where it
    is deleted nothing besides. -/
structure KeptUnder (id rev : String) (doc : Document) : Prop where
  id_eq : Dict.get? doc idField = some (.str id)
  rev_eq : Dict.get? doc revisionField = some (.str rev)
  eq_tombstone : doc.isDeleted = true → doc = tombstone id rev

theorem KeptUnder.id?_eq (hkept : KeptUnder id rev doc) : doc.id? = some id := by
  rw [Document.id?, hkept.id_eq]
  rfl

theorem KeptUnder.revision?_eq (hkept : KeptUnder id rev doc) : doc.revision? = some rev := by
  rw [Document.revision?, hkept.rev_eq]
  rfl

/-- The attempts lead from documents to documents, one after another. One that fails changes
    nothing. One that succeeds changes what is kept under its id, and that alone. -/
inductive Changes : Dict Document → List Attempt → Dict Document → Prop
  | nil (documents : Dict Document) : Changes documents [] documents
  | failed {documents after : Dict Document} {a : Attempt} {rest : List Attempt}
      (hfails : a.outcome.rev = none) (hrest : Changes documents rest after) :
      Changes documents (a :: rest) after
  | written {documents after : Dict Document} {a : Attempt} {rest : List Attempt} {id rev : String}
      {doc : Document} (hid : a.id = some id) (hrev : a.outcome.rev = some rev)
      (hkept : KeptUnder id rev doc) (hrest : Changes (documents.insert id doc) rest after) :
      Changes documents (a :: rest) after

/-- Attempts in two stretches change the documents one after the other. -/
theorem Changes.append (hearlier : Changes documents earlier middle)
    (hlater : Changes middle later after) : Changes documents (earlier ++ later) after := by
  induction hearlier with
  | nil documents => exact hlater
  | failed hfails _ ih => exact .failed hfails (ih hlater)
  | written hid hrev hkept _ ih => exact .written hid hrev hkept (ih hlater)

/-- A failed attempt changes nothing. -/
theorem changes_singleton_of_failed {a : Attempt} (hfails : a.outcome.rev = none) :
    Changes documents [a] documents := .failed hfails (.nil documents)

/-! ## Calls -/

theorem asString?_eq_some {v : Json} {s : String} (hstring : v.asString? = some s) :
    v = .str s := by
  cases v <;> cases hstring
  rfl

theorem keptUnder_tombstone (id rev : String) : KeptUnder id rev (tombstone id rev) :=
  ⟨rfl, rfl, fun _ => rfl⟩

/-- What is kept of a written document, whatever it says itself of its revision. -/
theorem keptUnder_stored (hid : doc.id? = some id) (rev : String) :
    KeptUnder id rev (stored doc id rev) := by
  unfold stored
  by_cases hdeleted : doc.isDeleted = true
  · rw [if_pos hdeleted]
    exact keptUnder_tombstone id rev
  · rw [if_neg hdeleted]
    obtain ⟨v, hget, hstring⟩ := Option.bind_eq_some_iff.mp hid
    rw [asString?_eq_some hstring] at hget
    refine ⟨?_, Dict.get?_insert_self _ _ _, fun hmarked => ?_⟩
    · rwa [Dict.get?_insert_of_ne _ _ (by decide)]
    · rw [Document.isDeleted, Dict.get?_insert_of_ne _ _ (by decide)] at hmarked
      exact absurd hmarked hdeleted

theorem outcome_rev_of_error (doc : Document) (e : StoreError) :
    (outcome doc (.error e)).rev = none := by
  cases e <;> rfl

/-- A write that goes ahead changes what is kept under its id. -/
theorem put_ok_changes (supplied : Option String) (byDestroy : Bool)
    (hput : put digest documents doc = .ok (receipt, after)) :
    Changes documents [{ id := doc.id?, supplied, byDestroy, outcome := outcome doc (.ok receipt) }]
      after := by
  obtain ⟨hid, _, _, rfl⟩ := put_eq_ok hput
  exact .written hid rfl (keptUnder_stored hid receipt.rev) (.nil _)

/-- A batch changes the documents as its outcomes say. -/
theorem putAll_changes (digest : Option String → Document → UInt64) (documents : Dict Document)
    (docs : List Document) :
    Changes documents (docs.zipWith (fun doc outcome =>
      { id := doc.id?, supplied := doc.revision?, outcome }) (putAll digest documents docs).1)
      (putAll digest documents docs).2 := by
  induction docs generalizing documents with
  | nil => exact .nil documents
  | cons doc rest ih =>
    unfold putAll
    cases hput : put digest documents doc with
    | error e => exact .failed (outcome_rev_of_error doc e) (ih documents)
    | ok written => exact (put_ok_changes _ false hput).append (ih written.2)

/-- An insert changes the documents as its answer says. -/
theorem insert_changes (s : MemoryStore) (doc : Document) :
    Changes s.documents ((Call.insert doc).attempts (s.effect (.insert doc)).1)
      (s.effect (.insert doc)).2.documents := by
  simp only [effect]
  cases hput : put s.digest s.documents doc with
  | error e => exact changes_singleton_of_failed (outcome_rev_of_error doc e)
  | ok written => exact put_ok_changes _ false hput

/-- A destroy changes the documents as its answer says. -/
theorem destroy_changes (s : MemoryStore) (id rev : String) :
    Changes s.documents ((Call.destroy id rev).attempts (s.effect (.destroy id rev)).1)
      (s.effect (.destroy id rev)).2.documents := by
  simp only [effect]
  rcases remove_spec s.digest s.documents id rev with ⟨_, hremove⟩ | ⟨_, reason, _, herror⟩
  · rw [hremove]
    cases hput : put s.digest s.documents (tombstone id rev) with
    | error e => exact changes_singleton_of_failed (outcome_rev_of_error _ e)
    | ok written => exact put_ok_changes _ true hput
  · rw [herror]
    exact changes_singleton_of_failed rfl

/-- The attempts of a call account for all that the call does to the documents. -/
theorem perform_changes (s : MemoryStore) (c : Call) :
    Changes s.documents (c.attempts (s.perform c).1) (s.perform c).2.documents := by
  cases c with
  | insert doc => exact insert_changes (s.count .insert) doc
  | destroy id rev => exact destroy_changes (s.count .destroy) id rev
  | bulk docs => exact putAll_changes s.digest s.documents docs
  | createIndex request =>
    simp only [perform, effect]
    cases addIndex (s.count (Call.createIndex request).primitive).indexes request <;>
      exact .nil s.documents
  | _ => exact .nil s.documents

/-! ## Runs of calls -/

/-- The documents are those that the history makes. -/
theorem history_changes (s : MemoryStore) (calls : List Call) :
    Changes s.documents (s.history calls) (s.performAll calls).documents := by
  induction calls generalizing s with
  | nil => exact .nil s.documents
  | cons c rest ih => exact (perform_changes s c).append (ih (s.perform c).2)

section Changed

variable (hchanges : Changes documents attempts after)

include hchanges

/-- The current revision of an id is the one that was assigned last. -/
theorem Changes.currentRevision_eq (id : String) :
    currentRevision after id = attempts.foldl (next id) (currentRevision documents id) := by
  induction hchanges with
  | nil documents => rfl
  | @failed documents after a rest hfails _ ih =>
    have hnext : a.next id (currentRevision documents id) = currentRevision documents id := by
      rw [next, hfails, Option.none_or, ite_self]
    rw [List.foldl_cons, hnext, ih]
  | @written documents after a rest own rev doc hid hrev hkept _ ih =>
    have hnext : a.next id (currentRevision documents id) =
        currentRevision (documents.insert own doc) id := by
      rw [next, hid, hrev, currentRevision, currentRevision]
      by_cases heq : own = id
      · subst heq
        rw [if_pos rfl, Dict.get?_insert_self, Option.bind_some, Document.revision?, hkept.rev_eq]
        rfl
      · rw [if_neg (by simpa using heq), Dict.get?_insert_of_ne _ _ heq]
    rw [List.foldl_cons, hnext, ih]

/-- Whatever is kept under an id was there before or was written under it. -/
theorem Changes.keptUnder (hdocuments : ∀ entry ∈ documents, ∃ rev, KeptUnder entry.1 rev entry.2) :
    ∀ entry ∈ after, ∃ rev, KeptUnder entry.1 rev entry.2 := by
  induction hchanges with
  | nil documents => exact hdocuments
  | failed _ _ ih => exact ih hdocuments
  | @written documents _ _ _ id rev doc _ _ hkept _ ih =>
    apply ih
    intro entry hentry
    rcases Dict.mem_of_mem_insert hentry with rfl | hold
    · exact ⟨rev, hkept⟩
    · exact hdocuments entry hold

/-- The ids that are there are those that were there before and those that were written. -/
theorem Changes.contains_iff (id : String) :
    after.contains id = true ↔ documents.contains id = true ∨ assigned id attempts ≠ [] := by
  induction hchanges with
  | nil documents => simp [assigned]
  | @failed documents after a rest hfails _ ih =>
    have hassigned : assigned id (a :: rest) = assigned id rest := by simp [assigned, hfails]
    rw [hassigned]
    exact ih
  | @written documents after a rest own rev doc hid hrev _ _ ih =>
    rw [ih, Dict.contains_insert, Bool.or_eq_true, decide_eq_true_iff]
    by_cases heq : own = id
    · simp [assigned, hid, hrev, heq]
    · simp [assigned, hid, heq]

end Changed

/-- After any run of calls a store holds what the attempts of the run say. Every entry carries the
    id that it is kept under and a revision whose generation is the number of successful writes to
    that id, deletions among them; a deleted entry has nothing else in it. The ids that are there
    are the ones that were written. From there on each call changes what its own attempts say: one
    that fails changes nothing, and one that succeeds its own id only. No id ever goes away.
    Documents may come with whatever they say of their revision or deletion. -/
theorem contents_match_history (digest : Option String → Document → UInt64) (calls : List Call) :
    let s := (fresh digest).performAll calls
    let attempts := (fresh digest).history calls
    Dict.Ordered s.documents ∧
      (∀ entry ∈ s.documents, ∃ rev, KeptUnder entry.1 rev entry.2 ∧
        Revision.generation rev = (assigned entry.1 attempts).length) ∧
      (∀ id, s.documents.contains id = true ↔ assigned id attempts ≠ []) ∧
      (∀ c : Call, Changes s.documents (c.attempts (s.perform c).1) (s.perform c).2.documents) ∧
      ∀ (later : List Call) (id : String), s.documents.contains id = true →
        (s.performAll later).documents.contains id = true := by
  intro s attempts
  have hchanges : Changes [] attempts s.documents := history_changes (fresh digest) calls
  have hordered : Dict.Ordered s.documents := (wellKept_empty.performAll calls).ordered
  refine ⟨hordered, fun entry hentry => ?_, fun id => ?_, perform_changes s, fun later id hid => ?_⟩
  · obtain ⟨rev, hkept⟩ := hchanges.keptUnder (List.forall_mem_nil _) entry hentry
    have hcurrent : currentRevision s.documents entry.1 = some rev := by
      rw [currentRevision, Dict.get?_of_mem hordered hentry, Option.bind_some, Document.revision?,
        hkept.rev_eq]
      rfl
    have hlast := hchanges.currentRevision_eq entry.1
    have hcounts := (history_fitting (fresh digest) calls entry.1).generationOf_foldl_next
    rw [hcurrent] at hlast
    refine ⟨rev, hkept, ?_⟩
    calc Revision.generation rev
        = Revision.generationOf (attempts.foldl (next entry.1) none) :=
          congrArg Revision.generationOf hlast
      _ = 0 + (assigned entry.1 attempts).length := hcounts
      _ = (assigned entry.1 attempts).length := Nat.zero_add _
  · rw [hchanges.contains_iff]
    simp [Dict.contains]
  · exact ((history_changes s later).contains_iff id).mpr (Or.inl hid)

/-- A document with a mark of its own in the place of a deletion is written, deleted and written
    again, refused and written once more in a batch with another one, and deleted at last. -/
def recreatedRun : List Call := [
  .insert [("_deleted", .str "no"), ("_id", .str "a")],
  .destroy "a" (Revision.text 1 0),
  .insert [("_id", .str "a"), ("_rev", .bool true)],
  .bulk [[("_id", .str "a")], [("_id", .str "a"), ("_rev", .str (Revision.text 3 0))],
    [("_id", .str "b")]],
  .destroy "a" (Revision.text 4 0)]

theorem contents_match_history_recreatedRun :
    let s := (fresh fun _ _ => 0).performAll recreatedRun
    (∃ rev, s.documents.get? "a" = some (tombstone "a" rev) ∧ Revision.generation rev = 5) ∧
      s.documents.contains "b" = true ∧
      (s.performAll recreatedRun).documents.contains "b" = true := by
  intro s
  obtain ⟨_, hentries, hids, _, hlater⟩ := contents_match_history (fun _ _ => 0) recreatedRun
  obtain ⟨doc, hget, hdeleted⟩ : ∃ doc, s.documents.get? "a" = some doc ∧ doc.isDeleted = true :=
    ⟨_, rfl, rfl⟩
  obtain ⟨rev, hkept, hgeneration⟩ := hentries ("a", doc) (Dict.mem_of_get? hget)
  have hb : s.documents.contains "b" = true := (hids "b").mpr (List.cons_ne_nil _ _)
  refine ⟨⟨rev, ?_, hgeneration.trans rfl⟩, hb, hlater recreatedRun "b" hb⟩
  rw [hget, ← hkept.eq_tombstone hdeleted]

end MemoryStore

end DocMapper
