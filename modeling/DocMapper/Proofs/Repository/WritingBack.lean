import DocMapper.Proofs.Repository.Readings

/-!
# Writing back what was read

Reading leaves the fields of the store out, and writing refuses names that belong to the store. A
document can have names of that kind that are none of the store's fields, if it was not written as a
record. Main statement: what is read can be written back exactly where it has none.
-/

namespace DocMapper

open DocMapper.Action Adapter MemoryStore KeyedMap

namespace Document

/-- Of the names that belong to the store, the document has those of the store's fields alone. -/
def NamesOnlyStoreFields (doc : Document) : Prop :=
  ∀ field ∈ doc.keys, Text.startsWith "_" field = true →
    field = idField ∨ field = revisionField ∨ field = deletedField

instance (doc : Document) : Decidable doc.NamesOnlyStoreFields :=
  inferInstanceAs (Decidable (∀ field ∈ doc.keys, _))

variable {doc : Document} {primary : String}

/-- A restored document has the primary key, and whatever was no field of the store. -/
theorem mem_keys_restore_iff (key : Key) {field : String} :
    field ∈ (doc.restore primary key).keys ↔
      field = primary ∨
        field ∈ doc.keys ∧ field ∉ [idField, revisionField, deletedField, tableField] := by
  rw [restore, Dict.mem_keys_iff, Dict.mem_keys_iff]
  by_cases heq : primary = field
  · subst heq
    simp
  · rw [Dict.get?_insert_of_ne _ _ heq, attributes, Dict.get?_foldl_erase]
    split
    · rename_i hmem
      simp [hmem, Ne.symm heq]
    · rename_i hmem
      simp [hmem, Ne.symm heq]

/-- What decoding leaves out and what encoding refuses fit together for such documents only. -/
theorem reserves_restore_eq_false_iff (key : Key)
    (hprimary : Text.startsWith "_" primary = false) :
    reserves (doc.restore primary key) = false ↔ doc.NamesOnlyStoreFields := by
  have htable : Text.startsWith "_" tableField = false := by decide
  rw [reserves, List.any_eq_false]
  constructor
  · intro hnone field hfield hunderscore
    have habsent : field ∉ (doc.restore primary key).keys := fun hmem =>
      hnone field hmem hunderscore
    rw [mem_keys_restore_iff, not_or, not_and] at habsent
    have hstore := Decidable.not_not.mp (habsent.2 hfield)
    simp only [List.mem_cons, List.not_mem_nil, or_false] at hstore
    rcases hstore with hid | hrev | hdeleted | rfl
    · exact .inl hid
    · exact .inr (.inl hrev)
    · exact .inr (.inr hdeleted)
    · rw [htable] at hunderscore
      cases hunderscore
  · intro hnames field hmem hunderscore
    obtain rfl | ⟨hfield, hother⟩ := (mem_keys_restore_iff key).mp hmem
    · rw [hprimary] at hunderscore
      cases hunderscore
    · refine hother ?_
      obtain rfl | rfl | rfl := hnames field hfield hunderscore <;> simp

/-- Restored attributes are in the form in which they are read again. -/
theorem restorable_restore (doc : Document) (primary : String) (key : Key) :
    Restorable primary key (doc.restore primary key) := by
  refine ⟨Dict.get?_insert_self _ _ _, fun hne => ?_⟩
  rw [restore, Dict.get?_insert_of_ne _ _ hne, attributes, Dict.get?_foldl_erase]
  exact if_pos (by simp)

theorem ordered_restore (primary : String) (key : Key) (hordered : Dict.Ordered doc) :
    Dict.Ordered (doc.restore primary key) :=
  Dict.ordered_insert _ _ (Dict.ordered_erase _ (Dict.ordered_erase _ (Dict.ordered_erase _
    (Dict.ordered_erase _ hordered))))

end Document

namespace Adapter

variable {a : Adapter} {schema : Schema} {key : Key} {doc : Document} {id rev : String}

/-- No table can be registered with a primary key that belongs to the store. -/
theorem startsWith_of_check (hcheck : schema.check = .ok ()) :
    Text.startsWith "_" schema.primaryKey.attr = false := by
  unfold Schema.check at hcheck
  split at hcheck
  · cases hcheck
  · split at hcheck
    · cases hcheck
    · split at hcheck
      · cases hcheck
      · rename_i hreserved
        exact (Bool.not_eq_true _).mp hreserved

theorem Hosts.startsWith_eq (hhosts : a.Hosts schema) :
    Text.startsWith "_" schema.primaryKey.attr = false := by
  obtain ⟨digest, config, before, after, hcheck, hagree⟩ := hhosts
  exact startsWith_of_check hcheck

theorem sound_read (table : String) (key : Key) (hsound : Sound a) : Sound (read table key a).2 :=
  have hpasses : Passes (fun _ => True) a (read table key a).2 :=
    along_read (fun _ _ => allows_passing_any _) a hsound.unstaged
  hpasses.heeds.advances.sound hsound

/-- Attributes that were read replace themselves, and are read again. -/
theorem update_restored (hunstaged : a.Unstaged) (hknows : a.Knows schema)
    (hid : Identity.documentId schema.table key = .ok id)
    (hcurrent : currentRevision a.documents id = some rev) (hordered : Dict.Ordered doc)
    (hreserves : Document.reserves (doc.restore schema.primaryKey.attr key) = false) :
    ∃ written b, update schema.table key (doc.restore schema.primaryKey.attr key) (some rev) a =
        (.ok written, b) ∧
      ∃ again c, read schema.table key b = (.ok again, c) ∧
        again.attributes = doc.restore schema.primaryKey.attr key := by
  obtain ⟨later, b, hupdate, hafter, hdocuments⟩ :=
    update_of_currentRevision hunstaged hid hreserves hcurrent
  refine ⟨_, b, hupdate, ?_⟩
  have hregistry : b.registry = a.registry := by
    have halike : Along Alike (update schema.table key
        (doc.restore schema.primaryKey.attr key) (some rev)) :=
      along_update fun _ _ _ _ _ _ => allows_alike _
    have hsame := (halike a).registry
    rwa [hupdate] at hsame
  have hkept : b.documents.get? id = some (Document.kept schema.table id
      (doc.restore schema.primaryKey.attr key) later) := by
    rw [hdocuments, Dict.get?_insert_self]
  have hread := read_of_lookUp hafter hid (lookUp_of_kept hreserves hkept) Document.revision?_kept
  refine ⟨_, _, hread, ?_⟩
  rw [(hknows.congr hregistry).attributesOf_eq]
  exact (Document.restore_kept_eq_iff hreserves (Document.ordered_restore _ _ hordered)).mpr
    (Document.restorable_restore doc schema.primaryKey.attr key)

/-- Reserved names are refused before anything is asked of the store. -/
theorem update_of_reserves {attributes : Fields} (rev : String)
    (hid : Identity.documentId schema.table key = .ok id)
    (hreserves : Document.reserves attributes = true) (a : Adapter) :
    ∃ name, update schema.table key attributes (some rev) a =
      (.error (.attributeReserved name schema.table), a) := by
  obtain ⟨name, henclose⟩ := Document.enclose_of_reserves schema.table id hreserves
  refine ⟨name, ?_⟩
  rw [update, hid, lift_ok_bind, henclose]
  exact lift_error_bind _ _

/-- A live record of a registered table is always read. As long as nothing is written under its id,
    it can be replaced by itself, with its own key, attributes and revision, and is then read with
    the same attributes, if none of the names in its document belongs to the store but those of the
    store's fields. Else the replacement is refused for one of these names, and nothing is asked of
    the store. The document may have been written by others and is in key order. -/
theorem read_written_back_iff (hhosts : a.Hosts schema)
    (hlive : lookUp a.documents (recordId schema.table key.toText) = .ok doc)
    (hordered : Dict.Ordered doc) :
    ∃ record b, read schema.table key a = (.ok record, b) ∧
      ∀ since, (∀ step ∈ since, step.Agrees schema) →
        (runAll since b).documents.get? record.id = b.documents.get? record.id →
          (doc.NamesOnlyStoreFields →
            ∃ written c, update schema.table record.key record.attributes (some record.rev)
                (runAll since b) = (.ok written, c) ∧
              ∃ again d, read schema.table record.key c = (.ok again, d) ∧
                again.attributes = record.attributes) ∧
          (¬doc.NamesOnlyStoreFields →
            ∃ name, update schema.table record.key record.attributes (some record.rev)
              (runAll since b) =
                (.error (.attributeReserved name schema.table), runAll since b)) := by
  have hid := hhosts.documentId_eq key
  obtain ⟨rev, hkept⟩ := hhosts.keptUnder (lookUp_eq_ok hlive).1
  have hsound : Sound (read schema.table key a).2 := sound_read _ _ hhosts.sound
  have hknows : (read schema.table key a).2.Knows schema :=
    hhosts.knows.congr (along_read (fun _ _ => allows_alike _) a).registry
  have hread := read_of_lookUp hhosts.sound.unstaged hid hlive hkept.revision?_eq
  rw [hhosts.knows.attributesOf_eq] at hread
  rw [hread] at hsound hknows
  refine ⟨_, _, hread, fun since hagree hsame => ?_⟩
  have hunstaged := (sound_runAll since hsound).unstaged
  have hknows := knows_runAll since hagree hknows
  have hpresent : currentRevision a.documents (recordId schema.table key.toText) = some rev :=
    (currentRevision_of_present (lookUp_eq_ok hlive).1).trans hkept.revision?_eq
  have hcurrent := (currentRevision_congr hsame).trans hpresent
  have hreserves : Document.reserves (doc.restore schema.primaryKey.attr key) = false ↔
      doc.NamesOnlyStoreFields := Document.reserves_restore_eq_false_iff key hhosts.startsWith_eq
  constructor
  · intro hnames
    exact update_restored hunstaged hknows hid hcurrent hordered (hreserves.mpr hnames)
  · intro hnames
    refine update_of_reserves rev hid ?_ _
    exact (Bool.not_eq_false _).mp fun hnone => hnames (hreserves.mp hnone)

/-- Parcels have their keys as texts. -/
def parcelSchema : Schema := { table := "parcels", primaryKey := ⟨"id", .text, none⟩ }

/-- The store has got a document from others before parcels are registered. -/
def depot (doc : Document) : Adapter :=
  runAll ([.others (.insert doc)] ++ [.register parcelSchema]) (ofStore (fresh fun _ _ => 0) {})

theorem depot_hosts (doc : Document) : (depot doc).Hosts parcelSchema :=
  .run _ _ [_] [] rfl (List.forall_mem_nil _)

/-- A document that others made for a parcel. It has no table, and another value for the key. -/
def foreignParcel : Document := [
  ("$size", .arr [.null]), ("?_id", .str "x"), ("_deleted", .bool false),
  ("_id", .str "parcels__1"), ("_rev", .str (Revision.text 1 0)), ("id", .bool true)]

theorem read_written_back_depot :
    ∃ record b, read "parcels" (.text "1") (depot (Dict.erase foreignParcel revisionField)) =
        (.ok record, b) ∧
      ∃ written c, update "parcels" record.key record.attributes (some record.rev) b =
          (.ok written, c) ∧
        ∃ again d, read "parcels" record.key c = (.ok again, d) ∧
          again.attributes = record.attributes := by
  have hlive : lookUp (depot (Dict.erase foreignParcel revisionField)).documents
      (recordId "parcels" (Key.text "1").toText) = .ok foreignParcel := rfl
  have hordered : Dict.Ordered foreignParcel := by
    unfold Dict.Ordered
    decide +kernel
  obtain ⟨record, b, hread, hwrites⟩ :=
    read_written_back_iff (depot_hosts _) hlive hordered
  exact ⟨record, b, hread, (hwrites [] (List.forall_mem_nil _) rfl).1 (by decide +kernel)⟩

/-- A name that belongs to the store is read as an attribute and refused as one. -/
theorem reserved_name_read_not_written :
    let stored := depot [("_id", .str "parcels__1"), ("_x", .num (.int ⟨1, by decide, by decide⟩))]
    stored.Hosts parcelSchema ∧
      ∃ record b, read "parcels" (.text "1") stored = (.ok record, b) ∧
        update "parcels" record.key record.attributes (some record.rev) b =
          (.error (.attributeReserved "_x" "parcels"), b) :=
  ⟨depot_hosts _, _, _, rfl, rfl⟩

end Adapter

end DocMapper
