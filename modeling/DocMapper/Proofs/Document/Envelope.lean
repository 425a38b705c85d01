import DocMapper.Document.Envelope
import DocMapper.Proofs.Dict.Order

/-!
# Documents of records

What a document holds that encloses attributes: the fields of the store are its own, whatever the
attributes are, and taking the attributes out again gives them back.
-/

namespace DocMapper.Document

/-- Some attribute has a name that belongs to the store. -/
def reserves (attributes : Fields) : Bool := attributes.keys.any (Text.startsWith "_")

/-- The document that encloses attributes, before the store has seen it. -/
def enclosed (table id : String) (attributes : Fields) : Document :=
  (attributes.erase tableField).foldl (fun doc entry => Dict.insert doc entry.1 entry.2)
    [(tableField, .str table), (idField, .str id)]

/-- The document that encloses attributes, as the store keeps it. -/
def kept (table id : String) (attributes : Fields) (rev : String) : Document :=
  Dict.insert (enclosed table id attributes) revisionField (.str rev)

variable {table id rev : String} {attributes : Fields}

theorem enclose_of_reserves (table id : String) (hreserves : reserves attributes = true) :
    ∃ name, enclose table id attributes = .error (.attributeReserved name table) := by
  obtain ⟨name, hmem, hname⟩ := List.any_eq_true.mp hreserves
  cases hfind : attributes.keys.find? (Text.startsWith "_") with
  | none => exact absurd hname (List.find?_eq_none.mp hfind name hmem)
  | some found =>
    refine ⟨found, ?_⟩
    rw [enclose, hfind]

theorem enclose_of_not_reserves (table id : String) (hreserves : reserves attributes = false) :
    enclose table id attributes = .ok (enclosed table id attributes) := by
  have hfind : attributes.keys.find? (Text.startsWith "_") = none := by
    refine List.find?_eq_none.mpr fun name hmem hname => ?_
    have hany : reserves attributes = true := List.any_eq_true.mpr ⟨name, hmem, hname⟩
    rw [hreserves] at hany
    cases hany
  rw [enclose, hfind]
  rfl

theorem enclose_eq_ok {doc : Document} (henclose : enclose table id attributes = .ok doc) :
    reserves attributes = false ∧ doc = enclosed table id attributes := by
  cases hreserves : reserves attributes with
  | true =>
    obtain ⟨name, herror⟩ := enclose_of_reserves table id hreserves
    rw [herror] at henclose
    cases henclose
  | false =>
    rw [enclose_of_not_reserves table id hreserves] at henclose
    cases henclose
    exact ⟨rfl, rfl⟩

/-- No attribute that goes into a document has the name of a field of the store. -/
theorem ne_of_mem_erase {field : String} (hreserves : reserves attributes = false)
    (hfield : Text.startsWith "_" field = true ∨ field = tableField) :
    ∀ entry ∈ attributes.erase tableField, entry.1 ≠ field := by
  rintro entry hentry rfl
  obtain ⟨hmem, htable⟩ := List.mem_filter.mp hentry
  rcases hfield with hunderscore | hname
  · have hany : reserves attributes = true :=
      List.any_eq_true.mpr ⟨entry.1, List.mem_map_of_mem hmem, hunderscore⟩
    rw [hreserves] at hany
    cases hany
  · rw [hname] at htable
    exact absurd htable (by decide)

/-- A field of the store has the value that enclosing gave it, if it gave any. -/
theorem get?_enclosed {field : String} (hreserves : reserves attributes = false)
    (hfield : Text.startsWith "_" field = true ∨ field = tableField) :
    Dict.get? (enclosed table id attributes) field =
      Dict.get? [(tableField, Json.str table), (idField, .str id)] field :=
  Dict.get?_foldl_insert (ne_of_mem_erase hreserves hfield)

theorem id?_enclosed (hreserves : reserves attributes = false) :
    (enclosed table id attributes).id? = some id := by
  rw [id?, get?_enclosed hreserves (Or.inl (by decide))]
  rfl

theorem revision?_enclosed (hreserves : reserves attributes = false) :
    (enclosed table id attributes).revision? = none := by
  rw [revision?, get?_enclosed hreserves (Or.inl (by decide))]
  rfl

theorem isDeleted_enclosed (hreserves : reserves attributes = false) :
    (enclosed table id attributes).isDeleted = false := by
  rw [isDeleted, get?_enclosed hreserves (Or.inl (by decide))]
  rfl

theorem get?_kept {field : String} (hne : revisionField ≠ field) :
    Dict.get? (kept table id attributes rev) field =
      Dict.get? (enclosed table id attributes) field :=
  Dict.get?_insert_of_ne _ _ hne

theorem id?_kept (hreserves : reserves attributes = false) :
    (kept table id attributes rev).id? = some id := by
  rw [id?, get?_kept (by decide)]
  exact id?_enclosed hreserves

@[simp] theorem revision?_kept : (kept table id attributes rev).revision? = some rev := by
  rw [revision?, kept, Dict.get?_insert_self]
  rfl

theorem isDeleted_kept (hreserves : reserves attributes = false) :
    (kept table id attributes rev).isDeleted = false := by
  rw [isDeleted, get?_kept (by decide)]
  exact isDeleted_enclosed hreserves

theorem table_kept (hreserves : reserves attributes = false) :
    Dict.get? (kept table id attributes rev) tableField = some (.str table) := by
  rw [get?_kept (by decide), get?_enclosed hreserves (Or.inr rfl)]
  rfl

/-- A further revision replaces the one that is there. -/
theorem insert_revision_kept (later : String) :
    Dict.insert (kept table id attributes rev) revisionField (.str later) =
      kept table id attributes later :=
  Dict.insert_insert_self _ _ _ _

/-- What is taken out of a document is what was enclosed, but for the table field. -/
theorem attributes_kept (hreserves : reserves attributes = false) :
    (kept table id attributes rev).attributes = Dict.ofEntries (attributes.erase tableField) := by
  have htable : Dict.Ordered [(tableField, Json.str table)] := List.pairwise_singleton _ _
  have hboth : Dict.Ordered [(tableField, Json.str table), (idField, .str id)] := by
    have hlt : tableField < idField := by decide
    exact List.pairwise_cons.mpr ⟨fun entry hentry => List.mem_singleton.mp hentry ▸ hlt,
      List.pairwise_singleton _ _⟩
  have herase : ∀ (field : String) (base : Document), Dict.Ordered base →
      (Text.startsWith "_" field = true ∨ field = tableField) →
        Dict.erase ((attributes.erase tableField).foldl
          (fun doc entry => Dict.insert doc entry.1 entry.2) base) field =
        (attributes.erase tableField).foldl (fun doc entry => Dict.insert doc entry.1 entry.2)
          (Dict.erase base field) :=
    fun field base hbase hfield =>
      Dict.erase_foldl_insert hbase (ne_of_mem_erase hreserves hfield)
  have hid : Dict.erase [(tableField, Json.str table), (idField, .str id)] idField =
      [(tableField, Json.str table)] := rfl
  have hrev : Dict.erase [(tableField, Json.str table)] revisionField =
      [(tableField, Json.str table)] := rfl
  have hdeleted : Dict.erase [(tableField, Json.str table)] deletedField =
      [(tableField, Json.str table)] := rfl
  have hnone : Dict.erase [(tableField, Json.str table)] tableField = [] := rfl
  have hkept : Dict.Ordered (enclosed table id attributes) := Dict.ordered_foldl_insert hboth
  -- Every field that is removed is one of the store's, so the removals reach the base.
  simp only [Document.attributes, List.foldl_cons, List.foldl_nil]
  rw [kept, Dict.erase_insert_of_ne _ hkept (by decide), Dict.erase_insert_self, enclosed,
    herase idField _ hboth (Or.inl (by decide)), hid,
    herase revisionField _ htable (Or.inl (by decide)), hrev,
    herase deletedField _ htable (Or.inl (by decide)), hdeleted,
    herase tableField _ htable (Or.inr rfl), hnone]
  rfl

/-- An attribute has its value in the document, if it does not have the name of the table field. -/
theorem get?_kept_of_attribute {field : String} {v : Json} (hreserves : reserves attributes = false)
    (hordered : Dict.Ordered attributes) (hfield : attributes.get? field = some v)
    (hne : field ≠ tableField) : Dict.get? (kept table id attributes rev) field = some v := by
  have hplain : ¬Text.startsWith "_" field = true :=
    List.any_eq_false.mp hreserves field (List.mem_map_of_mem (Dict.mem_of_get? hfield))
  have hread : (kept table id attributes rev).attributes.get? field =
      Dict.get? (kept table id attributes rev) field := by
    rw [Document.attributes, Dict.get?_foldl_erase]
    refine if_neg fun hmem => hplain ?_
    simp only [List.mem_cons, List.not_mem_nil, or_false] at hmem
    obtain rfl | rfl | rfl | rfl := hmem
    · decide
    · decide
    · decide
    · exact absurd rfl hne
  rw [← hread, attributes_kept hreserves, Dict.ofEntries_of_ordered (Dict.ordered_erase _ hordered),
    Dict.get?_erase_of_ne _ hne.symm, hfield]

/-- A record is read with its attributes as they were written, but that the table field is not
    among them and the primary key is. -/
theorem restore_kept (primary : String) (key : Key) (hreserves : reserves attributes = false) :
    (kept table id attributes rev).restore primary key =
      (Dict.ofEntries (attributes.erase tableField)).insert primary key.toJson := by
  rw [restore, attributes_kept hreserves]

/-- The attributes have the primary key in its own form, and no other one has the name of the table
    field. -/
def Restorable (primary : String) (key : Key) (attributes : Fields) : Prop :=
  attributes.get? primary = some key.toJson ∧
    (primary ≠ tableField → attributes.get? tableField = none)

/-- Such attributes are those that are read as they were written. -/
theorem restore_kept_eq_iff {primary : String} {key : Key} (hreserves : reserves attributes = false)
    (hordered : Dict.Ordered attributes) :
    (kept table id attributes rev).restore primary key = attributes ↔
      Restorable primary key attributes := by
  have herased := Dict.ordered_erase tableField hordered
  rw [restore_kept primary key hreserves, Dict.ofEntries_of_ordered herased]
  constructor
  · intro hsame
    refine ⟨?_, fun hne => ?_⟩
    · rw [← hsame, Dict.get?_insert_self]
    · rw [← hsame, Dict.get?_insert_of_ne _ _ hne, Dict.get?_erase_self]
  · rintro ⟨hkey, htable⟩
    refine Dict.eq_of_get?_eq (Dict.ordered_insert primary key.toJson herased) hordered
      fun name => ?_
    by_cases hprimary : primary = name
    · rw [← hprimary, Dict.get?_insert_self, hkey]
    · rw [Dict.get?_insert_of_ne _ _ hprimary]
      by_cases hname : tableField = name
      · subst hname
        rw [Dict.get?_erase_self, htable hprimary]
      · exact Dict.get?_erase_of_ne _ hname

end DocMapper.Document
