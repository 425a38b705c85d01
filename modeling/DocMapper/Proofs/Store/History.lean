import DocMapper.Proofs.Store.Attempt

/-!
# Histories of a store

The attempts that a run of calls makes, taken from its answers. Every call obeys the revision
rules, so a whole run does. Main statement: no update is lost.
-/

namespace DocMapper

/-- The attempts that a call makes, read off its answer. -/
def Call.attempts : (c : Call) → Except StoreError c.Answer → List Attempt
  | .insert doc, answer =>
    [{ id := doc.id?, supplied := doc.revision?, outcome := MemoryStore.outcome doc answer }]
  | .destroy id rev, answer =>
    [{ id, supplied := rev, byDestroy := true,
       outcome := MemoryStore.outcome (MemoryStore.tombstone id rev) answer }]
  | .bulk docs, .ok outcomes => docs.zipWith (fun doc outcome =>
      { id := doc.id?, supplied := doc.revision?, outcome }) outcomes
  | _, _ => []

namespace MemoryStore

/-- The attempts of a run of calls, one call after another. -/
def history (s : MemoryStore) : List Call → List Attempt
  | [] => []
  | c :: rest => c.attempts (s.perform c).1 ++ (s.perform c).2.history rest

open Attempt

variable {digest : Option String → Document → UInt64} {documents after : Dict Document}
  {doc : Document} {id : String} {receipt : WriteReceipt} {e : StoreError}

/-- The attempts obey the revision rules for an id, and lead from the current revision in one
    state to that in the other. -/
def Leads (id : String) (before : Dict Document) (attempts : List Attempt)
    (after : Dict Document) : Prop :=
  Fitting id (currentRevision before id) attempts ∧
    currentRevision after id = attempts.foldl (next id) (currentRevision before id)

theorem leads_nil (id : String) (documents : Dict Document) : Leads id documents [] documents :=
  ⟨trivial, rfl⟩

/-- Attempts in two stretches lead on. -/
theorem Leads.append {middle : Dict Document} {earlier later : List Attempt}
    (hearlier : Leads id documents earlier middle) (hlater : Leads id middle later after) :
    Leads id documents (earlier ++ later) after := by
  obtain ⟨hfitting, hmiddle⟩ := hearlier
  obtain ⟨hlater, hafter⟩ := hlater
  rw [hmiddle] at hlater hafter
  refine ⟨fitting_append.mpr ⟨hfitting, hlater⟩, ?_⟩
  rw [List.foldl_append, hafter]

theorem leads_singleton {a : Attempt} (hfits : a.Fits id (currentRevision documents id))
    (hafter : currentRevision after id = a.next id (currentRevision documents id)) :
    Leads id documents [a] after :=
  ⟨⟨hfits, trivial⟩, hafter⟩

/-- A refused attempt leaves the documents alone. -/
theorem leads_of_refused {a : Attempt} (hrev : a.outcome.rev = none)
    (hrefused : a.id = some id → ∀ rev, a.supplied = some rev → a.Refused) :
    Leads id documents [a] documents := by
  refine leads_singleton ⟨?_, ?_, fun hid _ => hrefused hid⟩ ?_
  · intro _ rev hsome
    rw [hrev] at hsome
    cases hsome
  · intro _ hsucceeds
    exact absurd hrev hsucceeds
  · rw [next, hrev, Option.none_or, ite_self]

/-- A write that is refused although it comes with a revision meets a conflict. -/
theorem put_error_leads (byDestroy : Bool) (hput : put digest documents doc = .error e) :
    Leads id documents
      [{ id := doc.id?, supplied := doc.revision?, byDestroy, outcome := outcome doc (.error e) }]
      documents := by
  have hrev : (outcome doc (.error e)).rev = none := by cases e <;> rfl
  refine leads_of_refused hrev fun hid rev hsupplied => ⟨hrev, Or.inl ?_⟩
  change doc.id? = some id at hid
  change doc.revision? = some rev at hsupplied
  rcases put_spec digest documents doc with
    ⟨hnone, _⟩ | ⟨other, hother, ⟨_, hconflict⟩ | ⟨haccepts, _, hnothing, _⟩ | ⟨_, _, hok⟩⟩
  · rw [hnone] at hid
    cases hid
  · rw [hconflict] at hput
    cases hput
    rfl
  · -- Where there is nothing to delete, only a write without a revision was accepted.
    rw [hsupplied, Accepts, hnothing] at haccepts
    cases haccepts
  · rw [hok] at hput
    cases hput

/-- A write that goes ahead takes its id to the next generation and leaves the others alone. -/
theorem put_ok_leads (byDestroy : Bool)
    (hput : put digest documents doc = .ok (receipt, after)) :
    Leads id documents
      [{ id := doc.id?, supplied := doc.revision?, byDestroy, outcome := outcome doc (.ok receipt) }]
      after := by
  rcases put_spec digest documents doc with
    ⟨_, error, herror⟩ | ⟨other, hother, ⟨_, herror⟩ | ⟨_, _, _, herror⟩ | ⟨haccepts, _, hok⟩⟩
  · rw [herror] at hput
    cases hput
  · rw [herror] at hput
    cases hput
  · rw [herror] at hput
    cases hput
  · rw [hok] at hput
    cases hput
    refine leads_singleton ⟨?_, ?_, ?_⟩ ?_
    · intro hid rev hrev
      cases hother.symm.trans hid
      cases hrev
      exact Revision.generation_text _ _
    · intro hid _ rev hsupplied
      cases hother.symm.trans hid
      change doc.revision? = some rev at hsupplied
      rw [hsupplied] at haccepts
      exact haccepts
    · intro _ hfails
      exact absurd (Option.some_ne_none _) hfails
    · rw [currentRevision_insert_stored, next, hother]
      simp only [Option.some.injEq, outcome, Option.some_or]

/-- A batch leads the id along by its outcomes. -/
theorem putAll_leads (digest : Option String → Document → UInt64) (documents : Dict Document)
    (docs : List Document) (id : String) :
    Leads id documents (docs.zipWith (fun doc outcome =>
      { id := doc.id?, supplied := doc.revision?, outcome }) (putAll digest documents docs).1)
      (putAll digest documents docs).2 := by
  induction docs generalizing documents with
  | nil => exact leads_nil id documents
  | cons doc rest ih =>
    unfold putAll
    cases hput : put digest documents doc with
    | error e => exact (put_error_leads false hput).append (ih documents)
    | ok written => exact (put_ok_leads false hput).append (ih written.2)

/-- An insert leads the id along by its answer. -/
theorem insert_leads (s : MemoryStore) (doc : Document) (id : String) :
    Leads id s.documents ((Call.insert doc).attempts (s.effect (.insert doc)).1)
      (s.effect (.insert doc)).2.documents := by
  simp only [effect]
  cases hput : put s.digest s.documents doc with
  | error e => exact put_error_leads false hput
  | ok written => exact put_ok_leads false hput

/-- A destroy that finds nothing live is refused without a conflict; any other is a write. -/
theorem remove_leads (s : MemoryStore) (target rev id : String) :
    Leads id s.documents
      ((Call.destroy target rev).attempts (s.effect (.destroy target rev)).1)
      (s.effect (.destroy target rev)).2.documents := by
  simp only [effect]
  rcases remove_spec s.digest s.documents target rev with ⟨_, hremove⟩ | ⟨_, reason, _, herror⟩
  · rw [hremove]
    cases hput : put s.digest s.documents (tombstone target rev) with
    | error e => exact put_error_leads true hput
    | ok written => exact put_ok_leads true hput
  · rw [herror]
    exact leads_of_refused rfl fun _ _ _ => ⟨rfl, Or.inr ⟨rfl, rfl⟩⟩

/-- Every call leads the id along by its answer. -/
theorem perform_leads (s : MemoryStore) (c : Call) (id : String) :
    Leads id s.documents (c.attempts (s.perform c).1) (s.perform c).2.documents := by
  cases c with
  | insert doc => exact insert_leads (s.count .insert) doc id
  | destroy target rev => exact remove_leads (s.count .destroy) target rev id
  | bulk docs => exact putAll_leads s.digest s.documents docs id
  | createIndex request =>
    simp only [perform, effect]
    cases addIndex (s.count (Call.createIndex request).primitive).indexes request <;>
      exact leads_nil id s.documents
  | _ => exact leads_nil id s.documents

/-- At every id, each attempt of a history fits the revision that it meets. -/
theorem history_fitting (s : MemoryStore) (calls : List Call) (id : String) :
    Fitting id (currentRevision s.documents id) (s.history calls) := by
  induction calls generalizing s with
  | nil => trivial
  | cons c rest ih =>
    obtain ⟨hfitting, hafter⟩ := perform_leads s c id
    rw [history, fitting_append, ← hafter]
    exact ⟨hfitting, ih (s.perform c).2⟩

theorem keepDocuments_eq_error {α : Type} {s : MemoryStore}
    {result : Except StoreError (α × Dict Document)}
    (hkeep : (s.keepDocuments result).1 = .error e) : result = .error e := by
  cases result with
  | ok kept => cases hkeep
  | error error =>
    cases hkeep
    rfl

/-- No update is lost, whichever calls were made in whichever order and whatever the digits of
    revisions are. The revisions assigned to an id are pairwise distinct, and none is accepted
    twice: of two attempts with one revision at most one succeeds, and the other is refused. A
    refusal is a conflict, but for the destroy of an id that is not live, which gets what a
    look-up of the id gets. -/
theorem no_update_lost (digest : Option String → Document → UInt64) (calls : List Call)
    (id : String) :
    (assigned id ((fresh digest).history calls)).Nodup ∧
      (accepted id ((fresh digest).history calls)).Nodup ∧
      ((fresh digest).history calls).Pairwise (fun first second =>
        ∀ rev, first.Supplies id rev → second.Supplies id rev →
          (first.Succeeds → second.Refused) ∧ (second.Succeeds → first.Refused)) ∧
      ∀ (s : MemoryStore) (rev : String) (e : StoreError),
        (s.perform (.destroy id rev)).1 = .error e →
          (∃ doc, (s.perform (.get id)).1 = .ok doc) ∧ e = .conflict ∨
            (s.perform (.get id)).1 = .error e := by
  have hfitting := history_fitting (fresh digest) calls id
  refine ⟨hfitting.assigned_nodup, hfitting.accepted_nodup, hfitting.other_refused, ?_⟩
  intro s rev e hdestroy
  have hremove := keepDocuments_eq_error hdestroy
  exact remove_eq_error hremove

/-- Two clients write over one revision, and later two delete over one. -/
def contestedRun : List Call := [
  .insert [("_id", .str "a"), ("n", .str "0")],
  .insert [("_id", .str "a"), ("_rev", .str (Revision.text 1 0)), ("n", .str "1")],
  .insert [("_id", .str "a"), ("_rev", .str (Revision.text 1 0)), ("n", .str "2")],
  .destroy "a" (Revision.text 2 0),
  .destroy "a" (Revision.text 2 0)]

theorem no_update_lost_contestedRun :
    ∃ first second third fourth fifth,
      (fresh fun _ _ => 0).history contestedRun = [first, second, third, fourth, fifth] ∧
        second.Succeeds ∧ third.Refused ∧ fourth.Succeeds ∧ fifth.Refused := by
  refine ⟨_, _, _, _, _, rfl, Option.some_ne_none _, ?_, Option.some_ne_none _, ?_⟩
  · have hpairs := (no_update_lost (fun _ _ => 0) contestedRun "a").2.2.1
    have hsecond := (List.pairwise_cons.mp (List.pairwise_cons.mp hpairs).2).1
    exact (hsecond _ (List.mem_cons_self ..) (Revision.text 1 0) ⟨rfl, rfl⟩ ⟨rfl, rfl⟩).1
      (Option.some_ne_none _)
  · have hpairs := (no_update_lost (fun _ _ => 0) contestedRun "a").2.2.1
    have hthird := (List.pairwise_cons.mp (List.pairwise_cons.mp hpairs).2).2
    have hfourth := (List.pairwise_cons.mp (List.pairwise_cons.mp hthird).2).1
    exact (hfourth _ (List.mem_cons_self ..) (Revision.text 2 0) ⟨rfl, rfl⟩ ⟨rfl, rfl⟩).1
      (Option.some_ne_none _)

/-- The one that is refused need not get a conflict: deleting what is deleted already finds
    nothing. -/
theorem second_destroy_without_conflict :
    ¬∀ (digest : Option String → Document → UInt64) (calls : List Call) (id : String),
      ((fresh digest).history calls).Pairwise fun first second => ∀ rev,
        first.Supplies id rev → second.Supplies id rev → first.Succeeds →
          second.outcome.rev = none ∧ second.outcome.error = some "conflict" := by
  intro hconflict
  have hpairs := hconflict (fun _ _ => 0) contestedRun "a"
  have hthird := (List.pairwise_cons.mp (List.pairwise_cons.mp hpairs).2).2
  have hfourth := (List.pairwise_cons.mp (List.pairwise_cons.mp hthird).2).1
  have herror := (hfourth _ (List.mem_cons_self ..) (Revision.text 2 0) ⟨rfl, rfl⟩ ⟨rfl, rfl⟩
    (Option.some_ne_none _)).2
  exact absurd herror (by decide)

end MemoryStore

end DocMapper
