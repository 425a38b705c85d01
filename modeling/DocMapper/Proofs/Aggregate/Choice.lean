import DocMapper.Aggregate.Answer
import DocMapper.Aggregate.Plan
import DocMapper.Proofs.Traversal

/-!
# The views behind an aggregate

An aggregate without a filter is answered by the first declared views that fit it. A view may show
less than its table, so whether the whole table counts is a matter of the order in which the views
were declared.
-/

namespace DocMapper

/-! ## Rows of views that count -/

namespace ViewAnswer

/-- The answer of a view that is reduced by counting, with so many rows to count. Where there are
    none, there is nothing to reduce. -/
def counted (n : Nat) : ViewAnswer where
  rows := if n = 0 then [] else [{ value := .ofUInt64 (UInt64.ofNat n) }]

variable {n : Nat} {spec : ViewSpec} {answer other : ViewAnswer}

/-- Only the rows of an answer are read. -/
theorem output_congr (hrows : answer.rows = other.rows) (kind : AggregateKind) (spec : ViewSpec) :
    answer.output kind spec = other.output kind spec := by
  simp only [output, total, first?, hrows]

/-- The number of rows is read off the answer. -/
theorem output_counted (hlt : n < UInt64.size) (hdocs : spec.returnDocs = false) :
    (counted n).output .count spec = .count n := by
  unfold output
  rw [if_neg (by decide), if_neg (by decide), hdocs, if_neg (by decide)]
  unfold counted
  by_cases hzero : n = 0
  · subst hzero
    rfl
  · rw [if_neg hzero]
    have hcount : (UInt64.ofNat n).toNat = n := UInt64.toNat_ofNat_of_lt' hlt
    have hvalue : (Json.ofUInt64 (UInt64.ofNat n)).isNull = false := rfl
    have hread : countOf (Json.ofUInt64 (UInt64.ofNat n)) = some n := by
      rw [Json.ofUInt64, countOf, Number.toUInt64?, Integer.toUInt64?_ofUInt64]
      exact congrArg some hcount
    simp [first?, ViewRow.report, hvalue, hread]

end ViewAnswer

/-! ## Views that fit -/

namespace ViewSpec

/-- The view is of a kind, on the attribute where one is given. -/
def fits (kind : ViewKind) (attr : Option String) (v : ViewSpec) : Bool :=
  v.kind = kind && attr.all (v.attr = ·)

/-- The view has a row for every document of its table: nothing in the declaration keeps documents
    out. -/
structure CoversTable (v : ViewSpec) : Prop where
  condition : v.condition = none
  auth : v.auth = none
  map : v.map = none
  value : v.kind = .count → ∀ constant, v.value ≠ some (.literal constant)

/-- The map function of such a view tests the table and nothing else. -/
theorem CoversTable.guards_eq {v : ViewSpec} (hcovers : v.CoversTable) (table : String) :
    v.guards table = [(Guard.test .strictEqual tableField (.str table)).text "doc"] := by
  unfold guards
  rw [hcovers.condition, hcovers.auth]
  cases hkind : v.kind with
  | count =>
    cases hvalue : v.value with
    | none => rfl
    | some value =>
      cases value with
      | literal constant => exact absurd hvalue (hcovers.value hkind constant)
      | _ => rfl
  | _ => rfl

end ViewSpec

open ViewSpec

/-- The kinds of views that an aggregate needs. -/
def AggregateRequest.viewKinds (request : AggregateRequest) : List ViewKind :=
  match request.kind.viewKind? with
  | some kind => [kind]
  | none => [.sum, .count]

/-- The views that are asked. -/
def ViewTarget.descriptors : ViewTarget → List ViewDescriptor
  | .single d => [d]
  | .average sum count => [sum, count]

variable {schema : Schema} {request : AggregateRequest} {plan : ViewPlan} {kind : ViewKind}
  {attr : Option String} {requested : String} {d : ViewDescriptor}

theorem ViewDescriptor.find_eq (schema : Schema) (kind : ViewKind) (attr : Option String)
    (requested : String) : ViewDescriptor.find schema kind attr requested =
      match schema.views.find? (fits kind attr) with
      | some v => .ok (ofSpec schema.table v)
      | none => .error (.viewMissing requested attr schema.table) := by
  have hhead : schema.views.find? (fits kind attr) = (schema.viewsOf kind attr).head? :=
    List.head?_filter.symm
  rw [find, hhead]
  cases schema.viewsOf kind attr <;> rfl

theorem ViewDescriptor.find_eq_ok (hfind : ViewDescriptor.find schema kind attr requested = .ok d) :
    schema.views.find? (fits kind attr) = some d.spec ∧ d = ofSpec schema.table d.spec := by
  rw [find_eq] at hfind
  cases hfirst : schema.views.find? (fits kind attr) with
  | none =>
    rw [hfirst] at hfind
    cases hfind
  | some v =>
    rw [hfirst] at hfind
    cases hfind
    exact ⟨rfl, rfl⟩

theorem ViewDescriptor.exists_find {v : ViewSpec} (requested : String) (hmem : v ∈ schema.views)
    (hfits : v.fits kind attr = true) :
    ∃ d, ViewDescriptor.find schema kind attr requested = .ok d := by
  rw [find_eq]
  cases hfirst : schema.views.find? (fits kind attr) with
  | none => exact absurd hfits (List.find?_eq_none.mp hfirst v hmem)
  | some first => exact ⟨_, rfl⟩

/-- What is asked for each kind that is needed is the first declared view that fits. -/
theorem ViewTarget.find_eq_ok {target : ViewTarget}
    (hfind : ViewTarget.find schema request = .ok target) :
    request.viewKinds.map (fun kind => schema.views.find? (fits kind request.attr)) =
      target.descriptors.map fun d => some d.spec := by
  unfold ViewTarget.find at hfind
  unfold AggregateRequest.viewKinds
  cases hkind : request.kind.viewKind? with
  | some kind =>
    simp only [hkind] at hfind ⊢
    obtain ⟨d, hd, hsingle⟩ := bind_eq_ok_iff.mp hfind
    cases hsingle
    rw [List.map_singleton, (ViewDescriptor.find_eq_ok hd).1, descriptors, List.map_singleton]
  | none =>
    simp only [hkind] at hfind ⊢
    cases hattr : request.attr with
    | none =>
      rw [hattr] at hfind
      cases hfind
    | some attr =>
      rw [hattr] at hfind
      obtain ⟨sum, hsum, hfind⟩ := bind_eq_ok_iff.mp hfind
      obtain ⟨count, hcount, haverage⟩ := bind_eq_ok_iff.mp hfind
      cases haverage
      rw [List.map_cons, List.map_singleton, (ViewDescriptor.find_eq_ok hsum).1,
        (ViewDescriptor.find_eq_ok hcount).1, descriptors, List.map_cons, List.map_singleton]

/-- The views that are asked are declared ones, at the places where those are kept. -/
theorem ViewTarget.descriptors_of_find {target : ViewTarget}
    (hfind : ViewTarget.find schema request = .ok target) :
    ∀ d ∈ target.descriptors, d.spec ∈ schema.views ∧
      d = ViewDescriptor.ofSpec schema.table d.spec := by
  have hdeclared : ∀ {kind attr requested d},
      ViewDescriptor.find schema kind attr requested = .ok d →
        d.spec ∈ schema.views ∧ d = ViewDescriptor.ofSpec schema.table d.spec := by
    intro kind attr requested d hd
    obtain ⟨hfirst, hspec⟩ := ViewDescriptor.find_eq_ok hd
    exact ⟨List.mem_of_find?_eq_some hfirst, hspec⟩
  unfold ViewTarget.find at hfind
  cases hkind : request.kind.viewKind? with
  | some kind =>
    simp only [hkind] at hfind
    obtain ⟨d, hd, hsingle⟩ := bind_eq_ok_iff.mp hfind
    cases hsingle
    exact List.forall_mem_singleton.mpr (hdeclared hd)
  | none =>
    simp only [hkind] at hfind
    cases hattr : request.attr with
    | none =>
      rw [hattr] at hfind
      cases hfind
    | some attr =>
      rw [hattr] at hfind
      obtain ⟨sum, hsum, hfind⟩ := bind_eq_ok_iff.mp hfind
      obtain ⟨count, hcount, haverage⟩ := bind_eq_ok_iff.mp hfind
      cases haverage
      exact List.forall_mem_cons.mpr
        ⟨hdeclared hsum, List.forall_mem_singleton.mpr (hdeclared hcount)⟩

/-- A view that is asked is of a kind that is needed. -/
theorem ViewTarget.kind_mem_of_find {target : ViewTarget}
    (hfind : ViewTarget.find schema request = .ok target) :
    ∀ d ∈ target.descriptors, d.spec.kind ∈ request.viewKinds := by
  intro d hd
  have hmem : some d.spec ∈ request.viewKinds.map fun kind =>
      schema.views.find? (fits kind request.attr) := by
    rw [ViewTarget.find_eq_ok hfind]
    exact List.mem_map_of_mem hd
  obtain ⟨kind, hkind, hfirst⟩ := List.mem_map.mp hmem
  have hfits := List.find?_some hfirst
  rw [fits, Bool.and_eq_true, decide_eq_true_eq] at hfits
  rw [hfits.1]
  exact hkind

theorem ViewTarget.exists_find?_of_find {target : ViewTarget}
    (hfind : ViewTarget.find schema request = .ok target) (hkind : kind ∈ request.viewKinds) :
    ∃ v, schema.views.find? (fits kind request.attr) = some v := by
  have hmem : schema.views.find? (fits kind request.attr) ∈
      target.descriptors.map fun d => some d.spec := by
    rw [← ViewTarget.find_eq_ok hfind]
    exact List.mem_map_of_mem hkind
  obtain ⟨d, _, hd⟩ := List.mem_map.mp hmem
  exact ⟨d.spec, hd.symm⟩

theorem ViewTarget.attr_ne_none_of_avg {target : ViewTarget}
    (hfind : ViewTarget.find schema request = .ok target) (havg : request.kind = .avg) :
    request.attr ≠ none := by
  intro hattr
  rw [ViewTarget.find, havg, hattr] at hfind
  cases hfind

/-- There are views to ask where every kind that is needed has a declared view that fits, and an
    average names its attribute. -/
theorem ViewTarget.exists_find (schema : Schema)
    (hattr : request.kind = .avg → request.attr ≠ none)
    (hfits : ∀ kind ∈ request.viewKinds, ∃ v ∈ schema.views, v.fits kind request.attr = true) :
    ∃ target, ViewTarget.find schema request = .ok target := by
  unfold ViewTarget.find
  unfold AggregateRequest.viewKinds at hfits
  cases hkind : request.kind.viewKind? with
  | some kind =>
    simp only [hkind, List.forall_mem_singleton] at hfits ⊢
    obtain ⟨v, hmem, hv⟩ := hfits
    obtain ⟨d, hd⟩ := ViewDescriptor.exists_find kind.name hmem hv
    rw [hd]
    exact ⟨_, rfl⟩
  | none =>
    have havg : request.kind = .avg := by
      cases hof : request.kind <;> rw [hof] at hkind <;> first | rfl | cases hkind
    obtain ⟨attr, hsome⟩ := Option.ne_none_iff_exists'.mp (hattr havg)
    simp only [hkind, hsome] at hfits ⊢
    obtain ⟨v, hv, hsum⟩ := hfits .sum (by simp)
    obtain ⟨w, hw, hcount⟩ := hfits .count (by simp)
    obtain ⟨sum, hsum⟩ := ViewDescriptor.exists_find "avg" hv hsum
    obtain ⟨count, hcount⟩ := ViewDescriptor.exists_find "avg" hw hcount
    rw [hsum, hcount]
    exact ⟨_, rfl⟩

theorem ViewPlan.resolve_eq_ok_iff : ViewPlan.resolve schema request = .ok plan ↔
    ViewTarget.find schema request = .ok plan.target ∧ plan.request = request := by
  obtain ⟨asked, target⟩ := plan
  rw [ViewPlan.resolve, bind_eq_ok_iff]
  constructor
  · rintro ⟨found, hfound, hplan⟩
    cases hplan
    exact ⟨hfound, rfl⟩
  · rintro ⟨hfound, rfl⟩
    exact ⟨target, hfound, rfl⟩

theorem forall_descriptors_iff {P : ViewSpec → Prop}
    (hplan : ViewPlan.resolve schema request = .ok plan) :
    (∀ d ∈ plan.target.descriptors, P d.spec) ↔ ∀ kind ∈ request.viewKinds, ∀ v,
      schema.views.find? (fits kind request.attr) = some v → P v := by
  have hfirst := ViewTarget.find_eq_ok (ViewPlan.resolve_eq_ok_iff.mp hplan).1
  constructor
  · intro hall kind hkind v hv
    have hmem : some v ∈ plan.target.descriptors.map fun d => some d.spec := by
      rw [← hfirst, ← hv]
      exact List.mem_map_of_mem hkind
    obtain ⟨d, hd, hspec⟩ := List.mem_map.mp hmem
    rw [← Option.some.inj hspec]
    exact hall d hd
  · intro hall d hd
    have hmem : some d.spec ∈ request.viewKinds.map fun kind =>
        schema.views.find? (fits kind request.attr) := by
      rw [hfirst]
      exact List.mem_map_of_mem hd
    obtain ⟨kind, hkind, hv⟩ := List.mem_map.mp hmem
    exact hall kind hkind d.spec hv

/-- The views that are asked show the whole table where, for every kind that is needed, the first
    declared view that fits does. They do in every order of declaration where all views that fit
    show the whole table. A count of such a view is then that of the documents of the table. -/
theorem plan_covers_iff (hplan : ViewPlan.resolve schema request = .ok plan) :
    ((∀ d ∈ plan.target.descriptors, d.spec.CoversTable) ↔ ∀ kind ∈ request.viewKinds, ∀ v,
      schema.views.find? (fits kind request.attr) = some v → v.CoversTable) ∧
    ((∀ views, views.Perm schema.views → ∀ other,
        ViewPlan.resolve { schema with views } request = .ok other →
          ∀ d ∈ other.target.descriptors, d.spec.CoversTable) ↔
      ∀ kind ∈ request.viewKinds, ∀ v ∈ schema.views, v.fits kind request.attr = true →
        v.CoversTable) ∧
    (∀ d ∈ plan.target.descriptors, d.spec.CoversTable →
      d.spec.guards schema.table =
        [(Guard.test .strictEqual tableField (.str schema.table)).text "doc"] ∧
      (d.spec.returnDocs = false → ∀ n < UInt64.size,
        (ViewAnswer.counted n).output .count d.spec = .count n)) := by
  refine ⟨forall_descriptors_iff hplan, ⟨?_, ?_⟩, fun d _ hcovers =>
    ⟨hcovers.guards_eq schema.table, fun hdocs n hlt => ViewAnswer.output_counted hlt hdocs⟩⟩
  · intro hall kind hkind v hv hfits
    -- The view comes first in some order of declaration.
    have hperm : (v :: schema.views.erase v).Perm schema.views := (List.perm_cons_erase hv).symm
    obtain ⟨hfind, _⟩ := ViewPlan.resolve_eq_ok_iff.mp hplan
    have hviews : ∀ kind ∈ request.viewKinds, ∃ w ∈ v :: schema.views.erase v,
        w.fits kind request.attr = true := by
      intro kind hkind
      obtain ⟨w, hw⟩ := ViewTarget.exists_find?_of_find hfind hkind
      exact ⟨w, hperm.mem_iff.mpr (List.mem_of_find?_eq_some hw), List.find?_some hw⟩
    have hattr := ViewTarget.attr_ne_none_of_avg hfind
    obtain ⟨target, htarget⟩ :=
      ViewTarget.exists_find { schema with views := v :: schema.views.erase v } hattr hviews
    have hother : ViewPlan.resolve { schema with views := v :: schema.views.erase v } request =
        .ok ⟨request, target⟩ := ViewPlan.resolve_eq_ok_iff.mpr ⟨htarget, rfl⟩
    refine (forall_descriptors_iff hother).mp (hall _ hperm _ hother) kind hkind v ?_
    exact List.find?_cons_of_pos hfits
  · intro hall views hperm other hother
    refine (forall_descriptors_iff hother).mpr fun kind hkind v hv => ?_
    exact hall kind hkind v (hperm.mem_iff.mp (List.mem_of_find?_eq_some hv))
      (List.find?_some hv)

/-- A view that counts documents that say they are big. -/
def countBig : ViewSpec :=
  { kind := .count, attr := "size", name := some "big",
    condition := some (.leaf "size" .equal (.str "big")) }

/-- A view that counts all documents. -/
def countAll : ViewSpec := { kind := .count, attr := "size" }

theorem countAll_coversTable : countAll.CoversTable := by
  refine ⟨rfl, rfl, rfl, fun _ constant hvalue => ?_⟩
  cases hvalue

/-- A table with views that count. -/
def countedBy (views : List ViewSpec) : Schema :=
  { table := "items", primaryKey := ⟨"id", .text, none⟩, views }

/-- Where only the view of all documents is declared, the count comes from it in every order. -/
theorem plan_covers_countAll :
    ∃ plan, ViewPlan.resolve (countedBy [countAll]) ⟨.count, none⟩ = .ok plan ∧
      (∀ d ∈ plan.target.descriptors, d.spec.CoversTable) ∧
      ∀ views, views.Perm [countAll] → ∀ other,
        ViewPlan.resolve (countedBy views) ⟨.count, none⟩ = .ok other →
          ∀ d ∈ other.target.descriptors, d.spec.CoversTable := by
  have hplan : ViewPlan.resolve (countedBy [countAll]) ⟨.count, none⟩ =
      .ok ⟨⟨.count, none⟩, .single (.ofSpec "items" countAll)⟩ := rfl
  obtain ⟨hfirst, horder, _⟩ := plan_covers_iff hplan
  refine ⟨_, hplan, hfirst.mpr ?_, horder.mpr ?_⟩
  · intro kind _ v hv
    have hmem : v ∈ (countedBy [countAll]).views := List.mem_of_find?_eq_some hv
    rw [List.mem_singleton.mp hmem]
    exact countAll_coversTable
  · intro kind _ v hmem _
    rw [List.mem_singleton.mp hmem]
    exact countAll_coversTable

/-- Where the view of the big documents is declared before that of all documents, a count of the
    table is a count of the big ones. -/
theorem count_from_partial_view :
    ∃ plan, ViewPlan.resolve (countedBy [countBig, countAll]) ⟨.count, none⟩ = .ok plan ∧
      countAll ∈ (countedBy [countBig, countAll]).views ∧ countAll.fits .count none = true ∧
      countAll.CoversTable ∧
      ∃ d ∈ plan.target.descriptors, d.spec = countBig ∧ ¬d.spec.CoversTable := by
  refine ⟨⟨⟨.count, none⟩, .single (.ofSpec "items" countBig)⟩, rfl,
    List.mem_cons_of_mem _ List.mem_cons_self, rfl, countAll_coversTable,
    .ofSpec "items" countBig, List.mem_cons_self, rfl, fun hcovers => ?_⟩
  have hcondition := hcovers.condition
  cases hcondition

end DocMapper
