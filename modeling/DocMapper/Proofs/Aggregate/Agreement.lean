import DocMapper.Proofs.Aggregate.Choice
import DocMapper.Proofs.Aggregate.Classes

/-!
# Counts from views and counts of documents

A count comes from a view, or is computed of the documents of a table. A view has a row for every
document, with `null` for an attribute that the document is without; what is computed passes over
such documents. Main statement: the two counts agree where every document has a value, and no two
dates name one instant (`output_eq_iff`).
-/

namespace DocMapper

open Aggregate

/-! ## Plain views -/

/-- Nothing but kind, attribute and names of the view is declared. -/
structure ViewSpec.Plain (v : ViewSpec) : Prop where
  key : v.key = none
  value : v.value = none
  map : v.map = none
  reduce : v.reduce = none
  condition : v.condition = none
  auth : v.auth = none
  compositions : v.compositions = []
  returnDocs : v.returnDocs = false

variable {spec : ViewSpec} {table attr : String} {answer : ViewAnswer} {docs : List Document}
  {type : Option AttributeType} {schema : Schema} {kind : AggregateKind} {d : ViewDescriptor}

theorem ViewSpec.Plain.coversTable (hplain : spec.Plain) : spec.CoversTable where
  condition := hplain.condition
  auth := hplain.auth
  map := hplain.map
  value _ constant hvalue := by
    rw [hplain.value] at hvalue
    cases hvalue

/-- The definition of a view that emits an attribute for every document of a table and counts the
    rows. -/
def ViewDefinition.counting (table attr : String) : ViewDefinition where
  map := "function (doc) \x7b\n  if (!(" ++
    (Guard.test .strictEqual tableField (.str table)).text "doc" ++ ")) return;\n  emit(" ++
    ViewSpec.docField attr ++ ", " ++ ViewSpec.docField attr ++ ");\n\x7d"
  reduce := some "_count"

theorem ViewSpec.Plain.definition_eq (hplain : spec.Plain)
    (hreduce : spec.kind.defaultReduce? = some "_count") (table : String) :
    spec.definition table = .counting table spec.attr := by
  have hkey : spec.emittedKey = docField spec.attr := by
    rw [emittedKey, keyFields, hplain.key, hplain.compositions]
    rfl
  have hvalue : spec.emittedValue = docField spec.attr := by
    simp only [emittedValue, hplain.value, hplain.returnDocs, Bool.false_and, Bool.false_eq_true,
      if_false]
  rw [definition, mapFunction, hplain.map, hplain.reduce, hplain.coversTable.guards_eq, hkey,
    hvalue, hreduce]
  rfl

/-- The answer of a view that is grouped and reduced by counting: one row for each key, with the
    number of rows that have it. -/
structure ViewAnswer.Groups (keys : List Json) (answer : ViewAnswer) : Prop where
  nodup : (answer.rows.map ViewRow.key).Nodup
  mem : ∀ key, key ∈ answer.rows.map ViewRow.key ↔ key ∈ keys
  value : ∀ row ∈ answer.rows, row.value = .ofUInt64 (UInt64.ofNat (keys.count row.key))

/-- The answer of a plain view that counts, by its definition, where these are the documents of the
    table: the rows for all documents reduced by counting, together or by key. -/
def ViewDescriptor.Gives (d : ViewDescriptor) (docs : List Document) (answer : ViewAnswer) : Prop :=
  if d.options.group = some true then answer.Groups (docs.map (keyAt d.spec.attr))
  else answer.rows = (ViewAnswer.counted docs.length).rows

/-- The view that answers an aggregate by itself is of the kind that the aggregate needs, on its
    attribute, and asked as its declaration says. -/
theorem ViewDescriptor.of_single
    (hfind : ViewTarget.find schema ⟨kind, some attr⟩ = .ok (.single d)) :
    kind.viewKind? = some d.spec.kind ∧ d.spec.attr = attr ∧ d = ofSpec schema.table d.spec := by
  unfold ViewTarget.find at hfind
  cases hview : kind.viewKind? with
  | some needed =>
    simp only [hview] at hfind
    obtain ⟨found, hfound, hsingle⟩ := bind_eq_ok_iff.mp hfind
    cases hsingle
    obtain ⟨hfirst, hasked⟩ := ViewDescriptor.find_eq_ok hfound
    have hfits : d.spec.fits needed (some attr) = true := List.find?_some hfirst
    simp only [ViewSpec.fits, Bool.and_eq_true, decide_eq_true_eq, Option.all_some] at hfits
    exact ⟨congrArg some hfits.1.symm, hfits.2, hasked⟩
  | none =>
    simp only [hview] at hfind
    obtain ⟨_, _, hfind⟩ := bind_eq_ok_iff.mp hfind
    obtain ⟨_, _, hfind⟩ := bind_eq_ok_iff.mp hfind
    cases hfind

/-- Of plain views that count, those that tell values apart are grouped. -/
theorem ViewSpec.Plain.group_eq (hplain : spec.Plain) (table : String) :
    (ViewDescriptor.ofSpec table spec).options.group =
      if spec.kind = .distinct ∨ spec.kind = .groupBy then some true else none := by
  simp only [ViewDescriptor.ofSpec, hplain.reduce, hplain.returnDocs]
  simp

/-! ## Counts that agree -/

/-- No two texts among the values name one instant. -/
def InstantsApart (values : List Json) : Prop :=
  ∀ s t, .str s ∈ values → .str t ∈ values → SameInstant s t → s = t

/-- Values that are there are told apart where dates are. -/
theorem keys_apart_iff {values : List Json} (hsimple : ∀ v ∈ values, Simple v)
    (hpresent : ∀ v ∈ values, v ≠ .null) :
    (∀ v ∈ values, ∀ w ∈ values, valueKey v type = valueKey w type → v = w) ↔
      (type = some .date → InstantsApart values) := by
  constructor
  · intro happart hdate s t hs ht hsame
    have hkey : valueKey (.str s) type = valueKey (.str t) type :=
      valueKey_str_eq_iff.mpr (.inr ⟨hdate, hsame⟩)
    exact Json.str.inj (happart _ hs _ ht hkey)
  · intro happart v hv w hw hkey
    obtain heq | ⟨hdate, s, t, rfl, rfl, hsame⟩ := (valueKey_eq_iff (hsimple v hv) (hsimple w hw)
      (hpresent v hv) (hpresent w hw)).mp hkey
    · exact heq
    · exact congrArg Json.str (happart hdate s t hv hw hsame)

/-- There are as many groups as classes of values where every document has a value and dates are
    told apart. -/
theorem length_groups_eq_iff (hgroups : answer.Groups (docs.map (keyAt attr)))
    (hsimple : ∀ doc ∈ docs, Simple (keyAt attr doc)) :
    answer.rows.length = (firstOfEach (valueKey · type) [] (present attr docs)).length ↔
      (∀ doc ∈ docs, keyAt attr doc ≠ .null) ∧
        (type = some .date → InstantsApart (docs.map (keyAt attr))) := by
  have hsubset : present attr docs ⊆ answer.rows.map ViewRow.key := fun v hv =>
    (hgroups.mem v).mpr (mem_present_iff.mp hv).1
  have hrows : answer.rows.length = (answer.rows.map ViewRow.key).length := (List.length_map _).symm
  rw [hrows, eq_comm, length_firstOfEach_eq_iff hgroups.nodup hsubset]
  have hall : answer.rows.map ViewRow.key ⊆ present attr docs ↔
      ∀ doc ∈ docs, keyAt attr doc ≠ .null := by
    constructor
    · intro hpresent doc hdoc
      have hkey := (hgroups.mem _).mpr (List.mem_map_of_mem hdoc)
      exact (mem_present_iff.mp (hpresent hkey)).2
    · intro hpresent v hv
      have hkey := (hgroups.mem v).mp hv
      obtain ⟨doc, hdoc, rfl⟩ := List.mem_map.mp hkey
      exact mem_present_iff.mpr ⟨hkey, hpresent doc hdoc⟩
  rw [hall, and_congr_right_iff]
  intro hpresent
  have hvalues : present attr docs = docs.map (keyAt attr) := by
    rw [present_eq, List.filter_eq_self]
    refine List.forall_mem_map.mpr fun doc hdoc => ?_
    rw [Bool.not_eq_true', ← Bool.not_eq_true, isNull_eq_true_iff]
    exact hpresent doc hdoc
  rw [hvalues]
  exact keys_apart_iff (List.forall_mem_map.mpr hsimple) (List.forall_mem_map.mpr hpresent)

/-- The two counts agree where every document has a value, and, for a count of distinct values,
    dates are told apart. -/
theorem output_eq_iff (hkind : kind = .count ∨ kind = .countDistinct)
    (hfind : ViewTarget.find schema ⟨kind, some attr⟩ = .ok (.single d)) (hplain : d.spec.Plain)
    (hgives : d.Gives docs answer) (hcountable : docs.length < UInt64.size)
    (hsimple : ∀ doc ∈ docs, Simple (keyAt attr doc)) :
    ∃ computed, compute schema ⟨kind, some attr⟩ docs = .ok computed ∧
      (answer.output kind d.spec = computed ↔ (∀ doc ∈ docs, keyAt attr doc ≠ .null) ∧
        (kind = .countDistinct → schema.attributeType? attr = some .date →
          InstantsApart (docs.map (keyAt attr)))) := by
  obtain ⟨hview, rfl, hasked⟩ := ViewDescriptor.of_single hfind
  have hgroup := hplain.group_eq schema.table
  rw [← hasked] at hgroup
  unfold ViewDescriptor.Gives at hgives
  obtain rfl | rfl := hkind
  · have hcount : d.spec.kind = .count := (Option.some.inj hview).symm
    rw [hgroup, hcount] at hgives
    have hrows : answer.rows = (ViewAnswer.counted docs.length).rows := hgives
    have houtput : answer.output .count d.spec = .count docs.length := by
      rw [ViewAnswer.output_congr hrows]
      exact ViewAnswer.output_counted hcountable hplain.returnDocs
    refine ⟨.count (present d.spec.attr docs).length, rfl, ?_⟩
    rw [houtput, AggregateOutput.count.injEq, eq_comm, length_present_eq_iff]
    exact (and_iff_left fun hdistinct => by cases hdistinct).symm
  · have hdistinct : d.spec.kind = .distinct := (Option.some.inj hview).symm
    rw [hgroup, hdistinct] at hgives
    have hgroups : answer.Groups (docs.map (keyAt d.spec.attr)) := hgives
    refine ⟨_, rfl, ?_⟩
    have houtput : answer.output .countDistinct d.spec = .count answer.rows.length := rfl
    rw [houtput, AggregateOutput.count.injEq]
    refine (length_groups_eq_iff hgroups hsimple).trans ?_
    simp

end DocMapper
