import DocMapper.Design.Document
import DocMapper.Proofs.Dict.Entries
import DocMapper.Proofs.Json.Record
import DocMapper.Proofs.Text.Parts
import Mathlib.Data.List.Nodup

/-!
# Generated design documents

What is in the design documents of the views that models declare. Every view has a place, the names
of its design document and of its own, and of the views that are declared for one place the last is
kept.
-/

namespace DocMapper

/-- A view with the table of the model that declares it. -/
structure DeclaredView where
  table : String
  spec : ViewSpec

namespace DeclaredView

/-- The name of the design document that holds the view. -/
def designName (v : DeclaredView) : String := v.spec.designName v.table

/-- The name of the view. -/
def viewName (v : DeclaredView) : String := v.spec.viewName v.table

/-- The definition of the view. -/
def definition (v : DeclaredView) : ViewDefinition := v.spec.definition v.table

/-- Where the view is kept: the names of the design document and of the view. -/
def place (v : DeclaredView) : String × String := (v.designName, v.viewName)

/-- The entry of the view in its design document. -/
def entry (v : DeclaredView) : String × ViewDefinition := (v.viewName, v.definition)

end DeclaredView

/-- The views that models declare, in the order of their declarations. -/
def Schema.declaredViews (schemas : List Schema) : List DeclaredView :=
  schemas.flatMap fun s => s.views.map (DeclaredView.mk s.table)

theorem Schema.mem_declaredViews {schemas : List Schema} {s : Schema} {spec : ViewSpec}
    (hschema : s ∈ schemas) (hspec : spec ∈ s.views) : ⟨s.table, spec⟩ ∈ declaredViews schemas :=
  List.mem_flatMap.mpr ⟨s, hschema, List.mem_map_of_mem hspec⟩

theorem Schema.exists_of_mem_declaredViews {schemas : List Schema} {v : DeclaredView}
    (hmem : v ∈ declaredViews schemas) : ∃ s ∈ schemas, v.spec ∈ s.views ∧ v.table = s.table := by
  obtain ⟨s, hschema, hview⟩ := List.mem_flatMap.mp hmem
  obtain ⟨spec, hspec, rfl⟩ := List.mem_map.mp hview
  exact ⟨s, hschema, hspec, rfl⟩

open Schema

/-! ## Views as JSON -/

theorem ViewDefinition.decode?_encode (d : ViewDefinition) : decode? d.encode = some d := by
  obtain ⟨map, _ | reduce⟩ := d <;> rfl

namespace DesignDocument

/-- Views read back from JSON as they were written. -/
theorem decodeViews?_encode (views : Dict ViewDefinition) :
    decodeViews? (.obj (views.mapValues ViewDefinition.encode)) = some views :=
  Record.dict?_mapValues ViewDefinition.decode?_encode views

/-! ## What is generated -/

/-- The design document of a name with views. -/
def holding (ddoc : String) (entries : List (String × ViewDefinition)) : DesignDocument :=
  { named ddoc with views := Dict.ofEntries entries }

/-- The entries of the views that are declared for a design document. -/
def entriesFor (views : List DeclaredView) (ddoc : String) : List (String × ViewDefinition) :=
  (views.filter fun v => v.designName = ddoc).map DeclaredView.entry

/-- Put declared views into the design documents, one after another. -/
def addViews (docs : Dict DesignDocument) (views : List DeclaredView) : Dict DesignDocument :=
  views.foldl (fun docs v => addView docs v.table v.spec) docs

/-- The design document of a name, without views where there is none yet. -/
def under (docs : Dict DesignDocument) (ddoc : String) : DesignDocument :=
  (docs.get? ddoc).getD (named ddoc)

variable {docs : Dict DesignDocument} {views : List DeclaredView} {schemas : List Schema}
  {ddoc : String} {d : DesignDocument}

theorem generate_eq (schemas : List Schema) :
    generate schemas = (addViews [] (declaredViews schemas)).values := by
  rw [addViews, declaredViews, List.foldl_flatMap]
  simp only [List.foldl_map]
  rfl

/-- A view is added to the design document of its name, and to no other. -/
theorem under_addView (docs : Dict DesignDocument) (v : DeclaredView) (ddoc : String) :
    under (addView docs v.table v.spec) ddoc =
      if v.designName = ddoc then
        { under docs ddoc with
          views := (under docs ddoc).views.insert v.viewName v.definition }
      else under docs ddoc := by
  by_cases hname : v.designName = ddoc
  · subst hname
    rw [if_pos rfl, under, addView]
    exact congrArg (Option.getD · _) (Dict.get?_insert_self _ _ _)
  · rw [if_neg hname, under, addView]
    exact congrArg (Option.getD · _) (Dict.get?_insert_of_ne _ _ hname)

/-- A design document collects the views of its name in their order. -/
theorem under_addViews (docs : Dict DesignDocument) (views : List DeclaredView) (ddoc : String) :
    under (addViews docs views) ddoc =
      { under docs ddoc with
        views := (entriesFor views ddoc).foldl (fun d entry => d.insert entry.1 entry.2)
          (under docs ddoc).views } := by
  induction views generalizing docs with
  | nil => rfl
  | cons v rest ih =>
    rw [addViews, List.foldl_cons, ← addViews, ih, under_addView, entriesFor, entriesFor,
      List.filter_cons]
    by_cases hname : v.designName = ddoc
    · rw [if_pos hname, if_pos (decide_eq_true hname), List.map_cons, List.foldl_cons]
      rfl
    · rw [if_neg hname, if_neg (by rwa [decide_eq_true_eq])]

/-- There is a design document for every name that occurs. -/
theorem contains_addViews (docs : Dict DesignDocument) (views : List DeclaredView)
    (ddoc : String) : (addViews docs views).contains ddoc =
      (docs.contains ddoc || views.any fun v => v.designName = ddoc) := by
  induction views generalizing docs with
  | nil => rw [List.any_nil, Bool.or_false]; rfl
  | cons v rest ih =>
    have hadd : (addView docs v.table v.spec).contains ddoc =
        (decide (v.designName = ddoc) || docs.contains ddoc) := Dict.contains_insert _ _ _ _
    rw [addViews, List.foldl_cons, ← addViews, ih, hadd, List.any_cons,
      Bool.or_comm (decide (v.designName = ddoc)), Bool.or_assoc]

theorem ordered_addViews (views : List DeclaredView) : (addViews [] views).Ordered := by
  have hadds : ∀ docs : Dict DesignDocument, docs.Ordered → (addViews docs views).Ordered := by
    induction views with
    | nil => exact fun _ hordered => hordered
    | cons v rest ih => exact fun docs hordered => ih _ (Dict.ordered_insert _ _ hordered)
  exact hadds [] List.Pairwise.nil

/-- Under each name that a view is declared for there is the document of the views that are. -/
theorem get?_addViews_eq_some_iff : (addViews [] views).get? ddoc = some d ↔
    (∃ v ∈ views, v.designName = ddoc) ∧ d = holding ddoc (entriesFor views ddoc) := by
  have hcontains := contains_addViews [] views ddoc
  have hunder : ∀ found, (addViews [] views).get? ddoc = some found →
      found = holding ddoc (entriesFor views ddoc) := by
    intro found hfound
    have heq := under_addViews [] views ddoc
    rw [under, hfound, Option.getD_some] at heq
    exact heq
  have hany : (views.any fun v => decide (v.designName = ddoc)) = true ↔
      ∃ v ∈ views, v.designName = ddoc := by simp
  constructor
  · intro hget
    refine ⟨hany.mp ?_, hunder d hget⟩
    rw [Dict.contains, hget] at hcontains
    exact hcontains.symm
  · rintro ⟨hdeclared, rfl⟩
    rw [hany.mpr hdeclared, Bool.or_true, Dict.contains, Option.isSome_iff_exists] at hcontains
    obtain ⟨found, hfound⟩ := hcontains
    rw [hfound, hunder found hfound]

theorem name_holding (ddoc : String) (entries : List (String × ViewDefinition)) :
    (holding ddoc entries).name = ddoc := by
  have hafter : Text.after? designLead (designLead ++ ddoc) = some ddoc :=
    Text.after?_eq_some_iff.mpr rfl
  exact congrArg (Option.getD · _) hafter

/-- Each generated design document holds the views of its name. -/
theorem mem_generate_iff : d ∈ generate schemas ↔ ∃ v ∈ declaredViews schemas,
    d = holding v.designName (entriesFor (declaredViews schemas) v.designName) := by
  rw [generate_eq]
  constructor
  · intro hmem
    obtain ⟨⟨ddoc, _⟩, hentry, rfl⟩ := List.mem_map.mp hmem
    have hget := Dict.get?_of_mem (ordered_addViews _) hentry
    obtain ⟨⟨v, hv, rfl⟩, hd⟩ := get?_addViews_eq_some_iff.mp hget
    exact ⟨v, hv, hd⟩
  · rintro ⟨v, hv, hd⟩
    have hget := get?_addViews_eq_some_iff.mpr ⟨⟨v, hv, rfl⟩, hd⟩
    exact List.mem_map_of_mem (Dict.mem_of_get? hget)

/-- No two design documents have one name. -/
theorem nodup_names_generate (schemas : List Schema) : ((generate schemas).map name).Nodup := by
  have hnames : (generate schemas).map name =
      (addViews [] (declaredViews schemas)).map Prod.fst := by
    rw [generate_eq, Dict.values, List.map_map]
    refine List.map_congr_left fun ⟨ddoc, d⟩ hentry => ?_
    have hget := Dict.get?_of_mem (ordered_addViews _) hentry
    rw [Function.comp_apply, (get?_addViews_eq_some_iff.mp hget).2, name_holding]
  rw [hnames]
  exact List.pairwise_map.mpr ((ordered_addViews _).imp fun hlt => String.ne_of_lt hlt)

/-- Nor one id, since the id tells the name. -/
theorem ids_apart_generate (schemas : List Schema) :
    (generate schemas).Pairwise fun d e => d.id ≠ e.id := by
  refine (List.pairwise_map.mp (nodup_names_generate schemas)).imp fun hname hid => hname ?_
  rw [name, name, hid]

/-- The design document of a declared view is the only one of its name. -/
theorem filter_generate_eq {v : DeclaredView} (hv : v ∈ declaredViews schemas) :
    (generate schemas).filter (fun d => d.name = v.designName) =
      [holding v.designName (entriesFor (declaredViews schemas) v.designName)] := by
  have hnodup : ((generate schemas).filter fun d => d.name = v.designName).Nodup :=
    (List.Nodup.of_map name (nodup_names_generate schemas)).filter _
  refine List.perm_singleton.mp ((List.perm_ext_iff_of_nodup hnodup (List.nodup_singleton _)).mpr
    fun d => ?_)
  rw [List.mem_filter, decide_eq_true_eq, List.mem_singleton, mem_generate_iff]
  constructor
  · rintro ⟨⟨w, _, rfl⟩, hname⟩
    rw [name_holding] at hname
    rw [hname]
  · rintro rfl
    exact ⟨⟨v, hv, rfl⟩, name_holding _ _⟩

/-! ## The last view of a place -/

/-- The definition of the last view that is declared for a place. -/
def lastAt (views : List DeclaredView) (place : String × String) : Option ViewDefinition :=
  ((views.filter fun v => v.place = place).getLast?).map DeclaredView.definition

/-- No two views that differ are declared for one place. -/
def PlacesApart (views : List DeclaredView) : Prop :=
  ∀ v ∈ views, ∀ w ∈ views, v.place = w.place → v.definition = w.definition

/-- Of the views that are declared for a place the last is kept there. -/
theorem get?_views_holding (views : List DeclaredView) (ddoc view : String) :
    (holding ddoc (entriesFor views ddoc)).views.get? view = lastAt views (ddoc, view) := by
  have hplaces : ((fun entry : String × ViewDefinition => decide (entry.1 = view)) ∘
      DeclaredView.entry) = fun v => decide (v.viewName = view) := rfl
  rw [holding, Dict.get?_ofEntries, entriesFor, List.filter_map, List.getLast?_map,
    Option.map_map, List.filter_filter, lastAt, hplaces]
  simp only [DeclaredView.place, Prod.mk.injEq, Bool.decide_and, Bool.and_comm]
  rfl

/-- Some view is the last at every place that a view has. -/
theorem exists_lastAt {v : DeclaredView} (hv : v ∈ views) :
    ∃ w ∈ views, w.place = v.place ∧ lastAt views v.place = some w.definition := by
  have hmem : v ∈ views.filter fun w => w.place = v.place :=
    List.mem_filter.mpr ⟨hv, decide_eq_true rfl⟩
  obtain ⟨w, hlast⟩ :=
    Option.isSome_iff_exists.mp (List.getLast?_isSome.mpr (List.ne_nil_of_mem hmem))
  obtain ⟨hw, hplace⟩ := List.mem_filter.mp (List.mem_of_getLast? hlast)
  refine ⟨w, hw, of_decide_eq_true hplace, ?_⟩
  rw [lastAt, hlast]
  rfl

/-- Every view is kept as it is declared where no two that differ are declared for one place. -/
theorem placesApart_iff :
    PlacesApart views ↔ ∀ v ∈ views, lastAt views v.place = some v.definition := by
  constructor
  · intro hapart v hv
    obtain ⟨w, hw, hplace, hlast⟩ := exists_lastAt hv
    rw [hlast, hapart w hw v hv hplace]
  · intro hkept v hv w hw hplace
    have hsame := (hkept v hv).symm
    rw [hplace, hkept w hw] at hsame
    exact Option.some.inj hsame

end DesignDocument

end DocMapper
