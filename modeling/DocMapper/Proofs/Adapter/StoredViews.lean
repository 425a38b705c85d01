import DocMapper.Proofs.Adapter.Setup
import DocMapper.Proofs.Aggregate.Choice

/-!
# Views that are stored

Whether the views behind an aggregate are stored as they were declared. The plan takes the first
declared view that fits, and a design document keeps the last one that is declared for a place, so
it is a matter of no two views being declared for one place.
-/

namespace DocMapper

open DocMapper.Action MemoryStore Schema ViewSpec

/-- The view that is to be asked is stored and live, with this definition. -/
def ViewDescriptor.Stored (documents : Dict Document) (d : ViewDescriptor)
    (definition : ViewDefinition) : Prop :=
  ∃ doc views, lookUp documents (designLead ++ d.ddoc) = .ok doc ∧
    (Dict.get? doc "views").bind DesignDocument.decodeViews? = some views ∧
    views.get? d.view = some definition

namespace DesignDocument

variable {schemas : List Schema} {views : List DeclaredView}

/-- The only design document of its name has a view as it is declared where none that differs is
declared later for its place. -/
theorem generate_keeps_iff {v : DeclaredView} (hv : v ∈ declaredViews schemas) :
    (∃ d, (generate schemas).filter (fun d => d.name = v.designName) = [d] ∧
        d.views.get? v.viewName = some v.definition) ↔
      lastAt (declaredViews schemas) v.place = some v.definition := by
  rw [filter_generate_eq hv, DeclaredView.place, ← get?_views_holding]
  constructor
  · rintro ⟨d, hd, hview⟩
    rwa [List.singleton_inj.mp hd]
  · intro hview
    exact ⟨_, rfl, hview⟩

/-- The last of all declared views is kept, whatever is declared before it. -/
theorem lastAt_concat (views : List DeclaredView) (w : DeclaredView) :
    lastAt (views ++ [w]) w.place = some w.definition := by
  have hlast : [w].filter (fun v => v.place = w.place) = [w] :=
    List.filter_cons_of_pos (decide_eq_true rfl)
  rw [lastAt, List.filter_append, hlast, List.getLast?_concat]
  rfl

end DesignDocument

open DesignDocument

variable {a b : Adapter} {schema : Schema} {request : AggregateRequest} {plan : ViewPlan}

/-- Every view that a plan asks is one that its schema declares. -/
theorem ViewPlan.exists_declaredView {schemas : List Schema} (hschema : schema ∈ schemas)
    (hplan : ViewPlan.resolve schema request = .ok plan) :
    ∀ d ∈ plan.target.descriptors, ∃ v ∈ declaredViews schemas, v.place = (d.ddoc, d.view) ∧
      v.definition = d.spec.definition schema.table := by
  intro d hd
  obtain ⟨hfind, _⟩ := ViewPlan.resolve_eq_ok_iff.mp hplan
  obtain ⟨hspec, hof⟩ := ViewTarget.descriptors_of_find hfind d hd
  refine ⟨_, mem_declaredViews hschema hspec, ?_, rfl⟩
  rw [hof]
  rfl

/-- At the place of every declared view there is, once the store is set up, the last view that is
declared for it. -/
theorem Adapter.SetUp.stored {d : ViewDescriptor} {v : DeclaredView} (hdone : a.SetUp b)
    (hv : v ∈ declaredViews a.schemas) (hplace : v.place = (d.ddoc, d.view)) :
    ∃ definition, d.Stored b.documents definition ∧
      lastAt (declaredViews a.schemas) (d.ddoc, d.view) = some definition := by
  obtain ⟨w, _, _, hlast⟩ := exists_lastAt hv
  rw [hplace] at hlast
  obtain ⟨doc, hlookUp, hviews⟩ := hdone.installed _ (mem_generate_iff.mpr ⟨v, hv, rfl⟩)
  have hname : v.designName = d.ddoc := congrArg Prod.fst hplace
  rw [hname] at hlookUp hviews
  refine ⟨w.definition, ⟨doc, _, hlookUp, hviews, ?_⟩, hlast⟩
  rw [get?_views_holding, hlast]

/-- Every declared view is kept as it is declared, exactly where no two views that differ are
declared for one place. Once the store is set up, each view that a plan asks is there: the last one
that is declared for its place, and where those are apart the one that the plan names. -/
theorem views_kept_iff_placesApart (schemas : List Schema) :
    ((∀ s ∈ schemas, ∀ spec ∈ s.views, ∃ d,
        (generate schemas).filter (fun d => d.name = spec.designName s.table) = [d] ∧
          d.views.get? (spec.viewName s.table) = some (spec.definition s.table)) ↔
      PlacesApart (declaredViews schemas)) ∧
    ∀ a : Adapter, a.schemas = schemas → a.Unstaged → Revised a.documents →
      ∃ b, Adapter.setUp a = (.ok (), b) ∧
        ∀ schema ∈ schemas, ∀ request plan, ViewPlan.resolve schema request = .ok plan →
          ∀ d ∈ plan.target.descriptors, ∃ definition, d.Stored b.documents definition ∧
            lastAt (declaredViews schemas) (d.ddoc, d.view) = some definition ∧
            (PlacesApart (declaredViews schemas) →
              definition = d.spec.definition schema.table) := by
  refine ⟨?_, ?_⟩
  · rw [placesApart_iff]
    constructor
    · intro hkept v hv
      obtain ⟨s, hs, hspec, htable⟩ := exists_of_mem_declaredViews hv
      obtain ⟨table, spec⟩ := v
      cases htable
      exact (generate_keeps_iff hv).mp (hkept s hs spec hspec)
    · intro hlast s hs spec hspec
      have hv := mem_declaredViews hs hspec
      exact (generate_keeps_iff hv).mpr (hlast _ hv)
  · rintro a rfl hunstaged hrevised
    obtain ⟨b, hsetUp, hdone⟩ | ⟨hunrevised, _⟩ := Adapter.setUp_spec hunstaged
    · refine ⟨b, hsetUp, fun schema hschema request plan hplan d hd => ?_⟩
      obtain ⟨v, hv, hplace, hdeclared⟩ := ViewPlan.exists_declaredView hschema hplan d hd
      obtain ⟨definition, hstored, hlast⟩ := hdone.stored hv hplace
      refine ⟨definition, hstored, hlast, fun hapart => ?_⟩
      have hown := placesApart_iff.mp hapart v hv
      rw [hplace, hlast, hdeclared] at hown
      exact Option.some.inj hown
    · exact absurd hrevised hunrevised

/-- Where the view of the big documents has a name of its own, the count of the table comes from the
view that counts all. -/
theorem views_kept_countAll :
    let a := Adapter.knowing (countedBy [countAll, countBig])
    a.schemas = [countedBy [countAll, countBig]] ∧ a.Unstaged ∧ Revised a.documents ∧
      PlacesApart (declaredViews a.schemas) ∧
      ∃ b plan, Adapter.setUp a = (.ok (), b) ∧
        ViewPlan.resolve (countedBy [countAll, countBig]) ⟨.count, none⟩ = .ok plan ∧
        ∀ d ∈ plan.target.descriptors, d.Stored b.documents (countAll.definition "items") := by
  have hplaces : (⟨"items", countAll⟩ : DeclaredView).place ≠
      (⟨"items", countBig⟩ : DeclaredView).place := by decide
  have hapart : PlacesApart [⟨"items", countAll⟩, ⟨"items", countBig⟩] := by
    intro v hv w hw hplace
    simp only [List.mem_cons, List.not_mem_nil, or_false] at hv hw
    obtain rfl | rfl := hv <;> obtain rfl | rfl := hw
    · rfl
    · exact absurd hplace hplaces
    · exact absurd hplace.symm hplaces
    · rfl
  have hplan : ViewPlan.resolve (countedBy [countAll, countBig]) ⟨.count, none⟩ =
      .ok ⟨⟨.count, none⟩, .single (.ofSpec "items" countAll)⟩ := rfl
  obtain ⟨b, hsetUp, hviews⟩ := (views_kept_iff_placesApart _).2
    (Adapter.knowing (countedBy [countAll, countBig])) rfl rfl revised_empty
  refine ⟨rfl, rfl, revised_empty, hapart, b, _, hsetUp, hplan, fun d hd => ?_⟩
  obtain ⟨definition, hstored, _, hown⟩ := hviews _ (List.mem_singleton_self _) _ _ hplan d hd
  rw [hown hapart] at hstored
  obtain rfl := List.mem_singleton.mp hd
  exact hstored

/-- A view that counts by size the documents that say they are big, under the usual name. -/
def countSizeBig : ViewSpec := { countBig with name := none }

/-- Where two views that count by size are declared under the usual name, the first is the one that
the plan names, and it is not there. -/
theorem first_view_replaced :
    ∃ plan, ViewPlan.resolve (countedBy [countAll, countSizeBig]) ⟨.count, none⟩ = .ok plan ∧
      ∃ d ∈ plan.target.descriptors, d.spec = countAll ∧
        ¬∃ e, (generate [countedBy [countAll, countSizeBig]]).filter (fun e => e.name = d.ddoc) =
            [e] ∧ e.views.get? d.view = some (countAll.definition "items") := by
  refine ⟨⟨⟨.count, none⟩, .single (.ofSpec "items" countAll)⟩, rfl, _, List.mem_cons_self, rfl,
    fun hkept => ?_⟩
  have hfirst : (⟨"items", countAll⟩ : DeclaredView) ∈
      declaredViews [countedBy [countAll, countSizeBig]] := List.mem_cons_self
  have hlast := (generate_keeps_iff hfirst).mp hkept
  have hlater := lastAt_concat [⟨"items", countAll⟩] ⟨"items", countSizeBig⟩
  have hsame : countAll.definition "items" = countSizeBig.definition "items" :=
    Option.some.inj (hlast.symm.trans hlater)
  exact absurd (congrArg ViewDefinition.map hsame) (by decide)

end DocMapper
