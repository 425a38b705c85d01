import DocMapper.Proofs.Adapter.Refinement

/-!
# Records behave like a keyed map

Main statement: the operations of an adapter on one registered table answer what a keyed map with
revisions answers, from the empty store on and whatever came before.
-/

namespace DocMapper.Adapter

open MemoryStore KeyedMap

variable {digest : Option String → Document → UInt64} {config : Config} {schema : Schema}
  {m : KeyedMap} {a b : Adapter}

/-- Only a checked schema is registered. -/
theorem register_eq_ok (hregister : register schema a = (.ok (), b)) :
    schema.check = .ok () ∧ b = { a with registry := a.registry.insert schema.table schema } := by
  unfold register at hregister
  cases hcheck : schema.check with
  | error e =>
    rw [hcheck, lift_error_bind] at hregister
    cases hregister
  | ok _ =>
    rw [hcheck, lift_ok_bind] at hregister
    cases hregister
    exact ⟨rfl, rfl⟩

/-- No table can be registered with a name that makes ids ambiguous. -/
theorem separator_of_check (hcheck : schema.check = .ok ()) :
    Text.contains separator schema.table = false := by
  unfold Schema.check at hcheck
  by_cases hempty : schema.table = ""
  · rw [if_pos hempty] at hcheck
    cases hcheck
  · rw [if_neg hempty] at hcheck
    by_cases hseparator : Text.contains separator schema.table = true
    · rw [if_pos hseparator] at hcheck
      cases hcheck
    · exact (Bool.not_eq_true _).mp hseparator

/-- A fresh store serves the empty map. -/
theorem serves_empty
    (hregister : register schema (ofStore (fresh digest) config) = (.ok (), a)) :
    Serves digest schema KeyedMap.empty a := by
  obtain ⟨_, rfl⟩ := register_eq_ok hregister
  exact ⟨rfl, Dict.get?_insert_self _ _ _, rfl, represents_empty schema.table⟩

/-- A failed operation leaves all documents alone, and any operation those of other keys. -/
theorem Serves.frame (hserves : Serves digest schema m a)
    (hseparator : Text.contains separator schema.table = false) (call : RecordCall) (id : String)
    (hunchanged : (∃ e, (call.perform schema.table a).1 = .error e) ∨
      id ≠ recordId schema.table call.key.toText) :
    (call.perform schema.table a).2.documents.get? id = a.documents.get? id := by
  obtain ⟨hanswer, hafter⟩ := RecordCall.perform_refines call hserves hseparator
  refine hserves.represents.get?_congr hafter.represents fun text hid => ?_
  rcases hunchanged with ⟨e, herror⟩ | hother
  · rw [herror] at hanswer
    rw [step_of_error hanswer.symm]
  · refine step_other call fun heq => hother ?_
    rw [hid, heq]

/-- The records of a registered table behave like a keyed map with revisions, from the empty store
    on, for every run of operations. Every answer is that of the map, up to the wording of errors,
    and the revision that the map is issued for a write counts one write more than the one before.
    What the map shows is what was written, for attributes in key order. At any point of a run a
    failed operation leaves every document alone and a successful one those of other keys. The
    fields of the store in the documents are those that the map accounts for, so that no attributes
    can stand in for them. Nothing is assumed of the keys or attributes in the run. -/
theorem records_refine_keyedMap
    (hregister : register schema (ofStore (fresh digest) config) = (.ok (), a))
    (calls : List RecordCall) :
    let issue := RecordCall.issued digest schema.table
    let expected := KeyedMap.run schema issue KeyedMap.empty calls
    let reached := (RecordCall.performAll schema.table calls a).2
    (RecordCall.performAll schema.table calls a).1.map (Except.mapError Error.kind) =
        expected.1 ∧
      (∀ previous call, Revision.generation (issue previous call) =
        Revision.generationOf previous + 1) ∧
      (∀ key rev attributes, Dict.Ordered attributes → shown schema key rev attributes =
        ⟨recordId schema.table key.toText, key, rev,
          (attributes.erase tableField).insert schema.primaryKey.attr key.toJson⟩) ∧
      (∀ (call : RecordCall) (id : String),
        (∃ e, (call.perform schema.table reached).1 = .error e) ∨
            id ≠ recordId schema.table call.key.toText →
          (call.perform schema.table reached).2.documents.get? id = reached.documents.get? id) ∧
      ∀ id doc, reached.documents.get? id = some doc →
        ∃ text entry, id = recordId schema.table text ∧ expected.2 text = some entry ∧
          doc.id? = some id ∧ doc.revision? = some entry.rev ∧
          (doc.isDeleted = true ↔ entry.attributes = none) ∧
          (doc.isDeleted = false → Dict.get? doc tableField = some (.str schema.table)) := by
  obtain ⟨hcheck, _⟩ := register_eq_ok hregister
  have hseparator := separator_of_check hcheck
  obtain ⟨hanswers, hreached⟩ :=
    RecordCall.performAll_refines calls (serves_empty hregister) hseparator
  refine ⟨hanswers, ?_, ?_, ?_, ?_⟩
  · intro previous call
    exact Revision.generation_text _ _
  · intro key rev attributes hordered
    exact shown_of_ordered key rev hordered
  · intro call id hunchanged
    exact hreached.frame hseparator call id hunchanged
  · intro id doc hget
    exact hreached.represents.fields_eq hget

/-- A table of widgets. -/
def widgetSample : Schema := { table := "widgets", primaryKey := ⟨"id", .text, none⟩ }

/-- A record is created, replaced, deleted, and replaced over the revision of its deletion; between
    these, operations fail. -/
def widgetRun : List RecordCall := [
  .create (.text "1") [("??table", .str "gadgets"), ("color", .str "red")],
  .create (.text "1") [],
  .update (.text "1") [("color", .str "blue")] (some (Revision.text 1 0)),
  .update (.text "1") [("_rev", .str "9-9")] (some (Revision.text 2 0)),
  .delete (.text "1"),
  .read (.text "1"),
  .update (.text "1") [("color", .str "green")] (some (Revision.text 2 0)),
  .update (.text "1") [("color", .str "green")] (some (Revision.text 3 0)),
  .read (.text "1")]

theorem records_refine_keyedMap_widgetRun :
    ∃ a, register widgetSample (ofStore (fresh fun _ _ => 0) {}) = (.ok (), a) ∧
      (RecordCall.performAll "widgets" widgetRun a).1.map (Except.mapError Error.kind) = [
        .ok ⟨"widgets__1", .text "1", Revision.text 1 0,
          [("??table", .str "gadgets"), ("color", .str "red")]⟩,
        .error .conflict,
        .ok ⟨"widgets__1", .text "1", Revision.text 2 0, [("color", .str "blue")]⟩,
        .error .internal,
        .ok ⟨"widgets__1", .text "1", Revision.text 2 0,
          [("color", .str "blue"), ("id", .str "1")]⟩,
        .error .notFound,
        .error .conflict,
        .ok ⟨"widgets__1", .text "1", Revision.text 4 0, [("color", .str "green")]⟩,
        .ok ⟨"widgets__1", .text "1", Revision.text 4 0,
          [("color", .str "green"), ("id", .str "1")]⟩] := by
  have hregister : ∃ a, register widgetSample (ofStore (fresh fun _ _ => 0) {}) = (.ok (), a) :=
    ⟨_, rfl⟩
  obtain ⟨a, hregister⟩ := hregister
  have hanswers := (records_refine_keyedMap hregister widgetRun).1
  exact ⟨a, hregister, hanswers.trans rfl⟩

end DocMapper.Adapter
