import DocMapper.Model.Plain
import DocMapper.Proofs.Repository.Runs
import DocMapper.Proofs.Store.Overwrites

/-!
# Updates of what was seen

An update comes with the revision that its adapter remembers. Main statement: the version that it
replaces is the one that the adapter recorded that revision of, and from then on nobody has written
or deleted it.
-/

namespace DocMapper

open DocMapper.Action Adapter MemoryStore

/-- The versions that were replaced by the calls that an adapter has made in between. -/
def Adapter.overwritten (a b : Adapter) : List (String × Option Document) :=
  overwritesOf a.connection.store (b.connection.log.drop a.connection.log.length)

/-- What was overwritten is read off the calls. -/
theorem Adapter.overwritten_of_after {a b : Adapter} {calls : List Call}
    (hconnection : b.connection = a.connection.after calls) :
    Adapter.overwritten a b = overwritesOf a.connection.store calls := by
  have hlog : b.connection.log = a.connection.log ++ calls := by
    rw [hconnection]
    rfl
  rw [overwritten, hlog, List.drop_left]

/-- The documents that the call asks to write come with the revisions in the table. -/
def RevisionTable.Supplies (t : RevisionTable) (c : Call) : Prop :=
  ∀ documents, ∀ doc ∈ writes documents c, ∃ id rev, doc.id? = some id ∧
    doc.revision? = some rev ∧ t.get? id = some rev

namespace Model

variable {α : Type} {a : Adapter} {table : String} {t : RevisionTable}

/-- An update with the remembered revision makes no other overwriting call. -/
theorem quiet_update_of_supplies {key : Key} {attributes : Fields} {rev : Option String}
    (hrev : ∀ id, Identity.documentId table key = .ok id → rev = t.get? id) :
    Quiet t.Supplies (Adapter.update table key attributes rev) := by
  refine Action.along_update fun given id doc hgiven hid hdoc => allows_passing ?_
  intro documents written hwritten
  obtain ⟨hreserves, rfl⟩ := Document.enclose_eq_ok hdoc
  rw [List.mem_singleton.mp hwritten]
  exact ⟨id, given, Document.id?_kept hreserves, Document.revision?_kept,
    (hrev id hid).symm.trans hgiven⟩

/-- A batch of updates with the remembered revisions makes no other overwriting call. -/
theorem quiet_updateAll_of_supplies {keys : List Key} {batch : List Fields}
    {rev : Key → Option String}
    (hrev : ∀ key id, Identity.documentId table key = .ok id → rev key = t.get? id) :
    Quiet t.Supplies (Adapter.updateAll table keys batch (keys.map rev)) := by
  refine Action.along_updateAll fun ids docs hfirst hids hdocs => allows_passing ?_
  intro documents doc hmem
  obtain ⟨i, hi⟩ := List.mem_iff_getElem?.mp hmem
  obtain ⟨id, hid, hdocid, _, hrevision⟩ := addressed_of_replacements hids hdocs hrev i doc hi
  obtain ⟨key, hkey, hown⟩ := getElem?_of_mapM hids hid
  have hsome := isSome_of_firstWithoutRevision? hfirst key (List.mem_of_getElem? hkey)
  rw [hrev key id hown] at hsome
  obtain ⟨known, hknown⟩ := Option.isSome_iff_exists.mp hsome
  exact ⟨id, known, hdocid, hrevision.trans hknown, hknown⟩

/-- Calls are made first, and what is remembered afterwards makes none. -/
theorem calls_bind_of_notes {P : Call → Prop} {β γ : Type} {x : Action β} {f : β → Action γ}
    (hx : Quiet P x) (hf : ∀ v, Notes (fun _ _ => True) (f v)) (hunstaged : a.Unstaged) :
    ∃ calls, (∀ c ∈ calls, P c) ∧ ((x >>= f) a).2.connection = a.connection.after calls := by
  obtain ⟨calls, hcalls, hconnection, _⟩ := hx a hunstaged
  exact ⟨calls, hcalls, (connection_bind hf).trans hconnection⟩

/-- An update makes its adapter write only over revisions that it remembers. -/
theorem update_supplies (m : Model α) (x : α) (hunstaged : a.Unstaged) :
    ∃ calls, (∀ c ∈ calls, a.revisions.Supplies c) ∧
      (m.update x a).2.connection = a.connection.after calls := by
  unfold update
  cases hattributes : m.validAttributes x with
  | error e => exact ⟨[], List.forall_mem_nil _, (Connection.after_nil _).symm⟩
  | ok attributes =>
    rw [lift_ok_bind]
    cases hkey : m.keyOf attributes with
    | error e => exact ⟨[], List.forall_mem_nil _, (Connection.after_nil _).symm⟩
    | ok key =>
      rw [lift_ok_bind, get_bind]
      exact calls_bind_of_notes
        (quiet_update_of_supplies fun id hid => revision?_eq hid a.revisions)
        (fun record => m.notes_finish trivial) hunstaged

/-- Every call of a batch update supplies what was remembered when it began. -/
theorem updateAll_supplies (m : Model α) (xs : List α) (hunstaged : a.Unstaged) :
    ∃ calls, (∀ c ∈ calls, a.revisions.Supplies c) ∧
      (m.updateAll xs a).2.connection = a.connection.after calls := by
  unfold updateAll
  cases hbatch : m.validBatch xs with
  | error e => exact ⟨[], List.forall_mem_nil _, (Connection.after_nil _).symm⟩
  | ok batch =>
    rw [lift_ok_bind]
    cases hkeys : m.keysOf batch with
    | error e => exact ⟨[], List.forall_mem_nil _, (Connection.after_nil _).symm⟩
    | ok keys =>
      rw [lift_ok_bind, get_bind]
      exact calls_bind_of_notes
        (quiet_updateAll_of_supplies fun key id hid => revision?_eq hid a.revisions)
        (fun records => along_mapM fun record _ => m.notes_finish trivial) hunstaged

end Model

/-- The operations that replace records. -/
inductive Operation.Updates {α : Type} : Operation α → Prop
  | update (x : α) : Updates (.update x)
  | updateAll (xs : List α) : Updates (.updateAll xs)

variable {α : Type} {a : Adapter}

/-- What an update replaces carries the revision that its adapter remembers. -/
theorem Operation.Updates.mem_overwritten {m : Model α} {op : Operation α} (hupdates : op.Updates)
    (hunstaged : a.Unstaged) {id : String} {version : Option Document}
    (hmem : (id, version) ∈ Adapter.overwritten a (op.run m a)) :
    ∃ rev middle, a.revisions.get? id = some rev ∧ Progresses id a.documents middle ∧
      version = middle.get? id ∧ currentRevision middle id = some rev := by
  obtain ⟨calls, hsupplies, hconnection⟩ : ∃ calls, (∀ c ∈ calls, a.revisions.Supplies c) ∧
      (op.run m a).connection = a.connection.after calls := by
    cases hupdates with
    | update x => exact m.update_supplies x hunstaged
    | updateAll xs => exact m.updateAll_supplies xs hunstaged
  rw [Adapter.overwritten_of_after hconnection] at hmem
  obtain ⟨c, hc, documents, doc, hdoc, middle, hid, hprogresses, hversion, haccepts⟩ :=
    mem_overwritesOf hmem
  obtain ⟨own, rev, hown, hrev, hknown⟩ := hsupplies c hc documents doc hdoc
  rw [hid, Option.some.injEq] at hown
  subst hown
  rw [hrev] at haccepts
  exact ⟨rev, middle, hknown, hprogresses, hversion, haccepts⟩

/-- A version that still carries the revision that some step recorded has been the current one ever
    since. -/
theorem unchanged_since_recorded {start : Adapter} {before since : List Step} {step : Step}
    (hsound : Sound start) {id rev : String} {stamp : Nat} {middle : Dict Document}
    (hrecorded : RecordedAt id (stamp, rev) before step since start)
    (hprogresses : Progresses id (runAll (before ++ step :: since) start).documents middle)
    (hcurrent : currentRevision middle id = some rev) :
    ∃ doc, doc.isDeleted = false ∧ doc.revision? = some rev ∧ middle.get? id = some doc ∧
      ∀ mid later, since = mid ++ later →
        (runAll (before ++ step :: mid) start).documents.get? id = some doc := by
  obtain ⟨_, ⟨doc, hdoc, hlive, hrev⟩, _⟩ := hrecorded
  have hbefore := sound_runAll before hsound
  have hthen := (step.advances_run hbefore).sound hbefore
  have hfrom : ∀ mid, runAll (before ++ step :: mid) start =
      runAll mid (step.run (runAll before start)) :=
    fun mid => runAll_append before (step :: mid) start
  -- Generations only go up, and at both ends this is the same one.
  have hgeneration : Revision.generationOf (currentRevision middle id) =
      Revision.generationOf (currentRevision (step.run (runAll before start)).documents id) := by
    rw [hcurrent, currentRevision_of_present hdoc, hrev]
  refine ⟨doc, hlive, hrev, ?_, fun mid later hsplit => ?_⟩
  · rw [hfrom] at hprogresses
    have hall := (runAll_progresses since hthen id).trans hprogresses
    exact (hall.get?_eq (Nat.le_of_eq hgeneration)).trans hdoc
  · subst hsplit
    have hfirst := runAll_progresses mid hthen id
    have hlater := runAll_progresses later (sound_runAll mid hthen) id
    rw [hfrom, runAll_append] at hprogresses
    have hrest := (hlater.trans hprogresses).generationOf_le
    rw [hgeneration] at hrest
    rw [hfrom]
    exact (hfirst.get?_eq hrest).trans hdoc

/-- No update destroys what its adapter has not seen. Take any run on a store that begins without
    documents, of operations and statements through an adapter and of calls that others make to the
    store. Whenever an update of one model or of many then replaces a version, this version is live
    and carries the revision that the adapter remembers for its id. Some step of the run recorded
    this revision, and from that step on the version has been the current one, down to its content:
    nobody has written or deleted it, nor has the adapter recorded anything else for the id.
    Documents that the update does not replace stay as they are. -/
theorem update_overwrites_seen (store : MemoryStore) (config : Config)
    (hempty : store.documents = []) (steps : List Step) {α : Type} (m : Model α)
    {op : Operation α} (hupdates : op.Updates) :
    let start := ofStore store config
    let a := runAll steps start
    let b := op.run m a
    (∀ id version, (id, version) ∈ Adapter.overwritten a b →
      ∃ doc stamp rev, version = some doc ∧ doc.isDeleted = false ∧ doc.revision? = some rev ∧
        a.revisions.byId.get? id = some (stamp, rev) ∧
        ∃ before step since, steps = before ++ step :: since ∧
          (runAll before start).revisions.byId.get? id ≠ some (stamp, rev) ∧
          ∀ mid later, since = mid ++ later →
            (runAll (before ++ step :: mid) start).revisions.byId.get? id = some (stamp, rev) ∧
            (runAll (before ++ step :: mid) start).documents.get? id = some doc) ∧
      ∀ id, (∀ version, (id, version) ∉ Adapter.overwritten a b) →
        b.documents.get? id = a.documents.get? id := by
  intro start a b
  have hsound : Sound start := by
    refine ⟨rfl, ?_⟩
    rw [show start.documents = [] from hempty]
    exact wellKept_empty
  have hreached : Sound a := sound_runAll steps hsound
  refine ⟨fun id version hmem => ?_, fun id hnone => ?_⟩
  · obtain ⟨rev, middle, hknown, hprogresses, hversion, hcurrent⟩ :=
      hupdates.mem_overwritten hreached.unstaged hmem
    obtain ⟨⟨stamp, own⟩, hentry, rfl⟩ := Option.map_eq_some_iff.mp hknown
    rcases persists_or_recordedAt steps hsound hentry with
      hpersists | ⟨before, step, since, hsplit, hrecorded⟩
    · -- The table of an adapter is empty in the beginning.
      cases hpersists [] steps rfl
    · have hsince : Progresses id (runAll (before ++ step :: since) start).documents middle := by
        rw [← hsplit]
        exact hprogresses
      obtain ⟨doc, hlive, hrev, hdoc, hunchanged⟩ :=
        unchanged_since_recorded hsound hrecorded hsince hcurrent
      obtain ⟨hnew, _, hpersists⟩ := hrecorded
      refine ⟨doc, stamp, own, hversion.trans hdoc, hlive, hrev, hentry, before, step, since,
        hsplit, hnew, fun mid later hmid => ⟨?_, hunchanged mid later hmid⟩⟩
      rw [runAll_append]
      exact hpersists mid later hmid
  · obtain ⟨calls, hconnection⟩ := (op.heeds_run m hreached.unstaged hreached.kept).connection
    rw [Adapter.overwritten_of_after hconnection] at hnone
    rw [Adapter.documents, hconnection]
    exact performAll_get?_of_not_overwritten hnone

/-- Widgets that are JSON values. -/
def widgetModel : Model Json :=
  .plain { table := "widgets", primaryKey := ⟨"id", .text, none⟩ } [] []

/-- A widget. -/
def widget (name : String) : Json := .obj [("id", .str "1"), ("name", .str name)]

/-- The document of the widget as another client has it. -/
def theirs (rev : String) : Document := [("??table", .str "widgets"), ("_id", .str "widgets__1"),
  ("_rev", .str rev), ("id", .str "1"), ("name", .str "theirs")]

/-- Another client replaces the widget. The update that has not seen this is refused; after a read
    the next one may go ahead. -/
def contestedSteps : List Step := [
  .register widgetModel.schema,
  .own widgetModel (.create (widget "first")),
  .others (.insert (theirs (Revision.text 1 0))),
  .own widgetModel (.update (widget "lost")),
  .own widgetModel (.read (.text "1"))]

theorem update_overwrites_seen_contestedSteps :
    let start := ofStore (fresh fun _ _ => 0) {}
    let a := runAll contestedSteps start
    let b := (Operation.update (widget "second")).run widgetModel a
    Adapter.overwritten a b = [("widgets__1", some (theirs (Revision.text 2 0)))] ∧
      ∃ before step since, contestedSteps = before ++ step :: since ∧
        ∀ mid later, since = mid ++ later →
          (runAll (before ++ step :: mid) start).documents.get? "widgets__1" =
            some (theirs (Revision.text 2 0)) := by
  intro start a b
  have hoverwritten : Adapter.overwritten a b =
      [("widgets__1", some (theirs (Revision.text 2 0)))] := by
    decide +kernel
  obtain ⟨hseen, _⟩ := update_overwrites_seen (fresh fun _ _ => 0) {} rfl contestedSteps
    widgetModel (.update (widget "second"))
  obtain ⟨doc, stamp, rev, hdoc, _, _, _, before, step, since, hsplit, _, hunchanged⟩ :=
    hseen "widgets__1" (some (theirs (Revision.text 2 0))) (by
      rw [hoverwritten]
      exact List.mem_singleton.mpr rfl)
  cases hdoc
  exact ⟨hoverwritten, before, step, since, hsplit, fun mid later hmid =>
    (hunchanged mid later hmid).2⟩

end DocMapper
