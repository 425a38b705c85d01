import DocMapper.Proofs.Adapter.Footprint
import DocMapper.Proofs.Adapter.Records
import DocMapper.Proofs.Key.Identity

/-!
# Isolation of tables

An operation on a record only makes calls about the document of that record. So tables whose ids
are apart are apart altogether. Main statement: two tables are apart unless the name of one is that
of the other and one more underscore, and then they are not.
-/

namespace DocMapper

open DocMapper.Action Adapter Identity MemoryStore

/-- An operation on a record makes calls about its document only, and remembers no revisions. -/
theorem RecordCall.quiet_perform {table id : String} (call : RecordCall)
    (hid : documentId table call.key = .ok id) :
    Quiet (fun c => c.target? = some id) (call.perform table) := by
  -- Whatever call names the id of the key as its target is one about the document.
  have hown : ∀ {own : String} {c : Call}, documentId table call.key = .ok own →
      c.target? = some own → Allows (Passing fun c => c.target? = some id) c := by
    intro own c hown htarget
    rw [hid] at hown
    cases hown
    exact allows_passing htarget
  cases call with
  | create key attributes =>
    refine along_create fun own doc hkey hdoc => ?_
    obtain ⟨hreserves, rfl⟩ := Document.enclose_eq_ok hdoc
    exact hown hkey (Document.id?_enclosed hreserves)
  | read key => exact along_read fun own hkey => hown hkey rfl
  | update key attributes rev =>
    refine along_update fun given own doc _ hkey hdoc => ?_
    obtain ⟨hreserves, rfl⟩ := Document.enclose_eq_ok hdoc
    have hkept : (Document.kept table own attributes given).id? = some own :=
      Document.id?_kept hreserves
    exact hown hkey hkept
  | delete key =>
    exact along_delete (fun own hkey => hown hkey rfl) fun own rev hkey => hown hkey rfl

/-- Tables whose names pass the check have unambiguous ids exactly if neither name is the other and
    one more underscore: then one id in both means one table and one key. And then no operation on
    one of them, whatever the adapter was used for before, makes a call about a document of the
    other, so that it neither sees nor changes one. -/
theorem ids_unambiguous_iff_not_adjacent {s t : Schema} (hs : s.check = .ok ())
    (ht : t.check = .ok ()) :
    ((∀ (j k : Key) (id : String), documentId s.table j = .ok id → documentId t.table k = .ok id →
        s.table = t.table ∧ j.toText = k.toText) ↔ ¬Adjacent s.table t.table) ∧
      (s.table ≠ t.table → ¬Adjacent s.table t.table →
        ∀ (a : Adapter) (call : RecordCall) (k : Key) (id : String), a.Unstaged →
          documentId t.table k = .ok id →
          ∃ calls, (call.perform s.table a).2.connection = a.connection.after calls ∧
            (∀ c ∈ calls, ∃ own, c.target? = some own ∧ own ≠ id) ∧
            (call.perform s.table a).2.documents.get? id = a.documents.get? id) := by
  have hsname := separator_of_check hs
  have htname := separator_of_check ht
  refine ⟨⟨?_, fun hadjacent j k id hj hk => documentId_injective hadjacent hj hk⟩, ?_⟩
  · rintro hunambiguous (hadd | hadd)
    · rw [← hadd] at htname
      obtain ⟨id, hj, hk⟩ := documentId_append_underscore hsname htname ""
      rw [hadd] at hk
      have htext := (hunambiguous _ _ id hj hk).2
      exact absurd htext (by decide)
    · rw [← hadd] at hsname
      obtain ⟨id, hk, hj⟩ := documentId_append_underscore htname hsname ""
      rw [hadd] at hj
      have htext := (hunambiguous _ _ id hj hk).2
      exact absurd htext (by decide)
  · intro hne hadjacent a call k id hunstaged hk
    have hown := RecordCall.documentId_eq hsname call.key
    have hapart : KeyedMap.recordId s.table call.key.toText ≠ id := by
      rintro rfl
      exact hne (documentId_injective hadjacent hown hk).1
    obtain ⟨calls, htargets, hconnection, _⟩ := call.quiet_perform hown a hunstaged
    refine ⟨calls, hconnection, fun c hc => ⟨_, htargets c hc, hapart⟩, ?_⟩
    rw [Adapter.documents, hconnection]
    exact performAll_get?_of_ne a.connection.store calls htargets hapart

/-- A table of texts. -/
def textTable (name : String) : Schema := { table := name, primaryKey := ⟨"id", .text, none⟩ }

theorem ids_unambiguous_iff_not_adjacent_orderTables :
    (∀ (j k : Key) (id : String), documentId "order_" j = .ok id → documentId "order_s" k = .ok id →
        "order_" = "order_s" ∧ j.toText = k.toText) ∧
      ∃ calls, ((RecordCall.create (.text "_1") []).perform "order_"
          (ofStore (fresh fun _ _ => 0) {})).2.connection =
            (ofStore (fresh fun _ _ => 0) {}).connection.after calls ∧
        (∀ c ∈ calls, ∃ own, c.target? = some own ∧ own ≠ "order_s__1") ∧
        ((RecordCall.create (.text "_1") []).perform "order_"
          (ofStore (fresh fun _ _ => 0) {})).2.documents.get? "order_s__1" =
            (ofStore (fresh fun _ _ => 0) {}).documents.get? "order_s__1" := by
  have hadjacent : ¬Adjacent "order_" "order_s" := by
    rw [Adjacent]
    decide
  obtain ⟨hids, happart⟩ := ids_unambiguous_iff_not_adjacent (s := textTable "order_")
    (t := textTable "order_s") rfl rfl
  exact ⟨hids.mpr hadjacent, happart (by decide) hadjacent (ofStore (fresh fun _ _ => 0) {})
    (.create (.text "_1") []) (.text "1") "order_s__1" rfl rfl⟩

/-- Adjacent tables both pass the check, though their ids are ambiguous: what was created in one is
    read in the other. -/
theorem ids_ambiguous_of_adjacent :
    (¬∀ (s t : Schema) (j k : Key) (id : String), s.check = .ok () → t.check = .ok () →
        documentId s.table j = .ok id → documentId t.table k = .ok id →
          s.table = t.table ∧ j.toText = k.toText) ∧
      ((RecordCall.read (.text "b")).perform "a_"
          ((RecordCall.create (.text "_b") [("n", .str "1")]).perform "a"
            (ofStore (fresh fun _ _ => 0) {})).2).1 =
        .ok ⟨"a___b", .text "b", Revision.text 1 0, [("n", .str "1")]⟩ := by
  refine ⟨fun hunambiguous => ?_, rfl⟩
  have htables := (hunambiguous (textTable "a") (textTable "a_") (.text "_b") (.text "b") "a___b"
    rfl rfl rfl rfl).1
  exact absurd htables (by decide)

end DocMapper
