import DocMapper.Proofs.Condition.Absence
import DocMapper.Proofs.Condition.Conjuncts
import DocMapper.Proofs.Statement.Filter

/-!
# Values at sort fields

A plan asks for a value at every sort field that no filter is about, and leaves the other sort
fields to their filters. Main statement: a document comes without a value at a sort field only
where every filter about that field admits this.
-/

namespace DocMapper.Statement

variable {s : Statement} {table attr : String} {filters : List Condition} {base : Selector}
  {warnings : List Warning} {doc : Document} {queryLimit : UInt64} {query : Query}
  {manual : Option AggregateRequest} {groupBy : Option String}

/-- What the filters of a statement ask for, with the groups by "and" taken apart. -/
def conjuncts (s : Statement) : List Condition :=
  (s.each Clause.filter?).flatMap Condition.conjuncts

/-- Some conjunct of the filters is a leaf of the attribute, or negations around one. -/
def FiltersBy (s : Statement) (attr : String) : Prop :=
  ∃ c ∈ s.conjuncts, c.attributeName? = some attr

instance (s : Statement) (attr : String) : Decidable (s.FiltersBy attr) :=
  inferInstanceAs (Decidable (∃ c ∈ s.conjuncts, _))

theorem satisfiedBy_conjuncts [PatternEngine] :
    (∀ c ∈ s.each Clause.filter?, c.SatisfiedBy doc) ↔ ∀ c ∈ s.conjuncts, c.SatisfiedBy doc := by
  simp only [conjuncts, List.forall_mem_flatMap, ← Condition.satisfiedBy_iff_conjuncts]

/-- Filters and a table constrain the attributes that one of them is about, and no others. -/
theorem constrains_filtered (hattr : Text.startsWith "$" attr = false)
    (hfiltered : filtered table filters = .ok (base, warnings)) :
    base.constrains attr = true ↔ attr = tableField ∨
      ∃ c ∈ filters.flatMap Condition.conjuncts, c.attributeName? = some attr := by
  cases filters with
  | nil =>
    cases hfiltered
    have hplain : ∀ members, (Selector.equals tableField (.str table)).get? "$and" ≠
        some (.arr members) := by
      intro members hmembers
      cases hmembers
    rw [Selector.constrains_of_no_conjunction hplain, Selector.equals, Dict.contains_singleton]
    simp [eq_comm]
  | cons first rest =>
    simp only [filtered, condition?] at hfiltered
    split at hfiltered
    · rename_i added hcompile
      obtain ⟨members, hmerge, hmembers, _⟩ := merge_with_table hcompile
      rw [hmerge] at hfiltered
      cases hfiltered
      rw [Selector.constrains_allOf_of_attribute hattr, hmembers,
        Condition.any_flattenMember_compile hattr hcompile, Condition.and, Condition.conjuncts,
        Condition.conjuncts_foldl_and]
      simp only [List.mem_append, or_and_right, exists_or, Condition.conjuncts,
        List.mem_singleton, exists_eq_left, Condition.attributeName?, Option.some.injEq]
      rw [or_comm, eq_comm]
    · cases hfiltered

/-- A document of the table meets the demand on a sort field by a value there; no demand is made
    where a filter is about the field. -/
theorem bound_satisfied_iff [PatternEngine] (hattr : Text.startsWith "$" attr = false)
    (hfiltered : filtered table filters = .ok (base, warnings))
    (htable : Dict.get? doc tableField = some (.str table)) :
    (base.constrains attr = false → (Selector.bound attr).Satisfied doc) ↔
      doc.HasValue attr ∨ ∃ c ∈ filters.flatMap Condition.conjuncts, c.attributeName? = some attr := by
  have hconstrains := constrains_filtered hattr hfiltered
  cases hfree : base.constrains attr with
  | false =>
    have hunnamed := mt hconstrains.mpr (Bool.eq_false_iff.mp hfree)
    rw [forall_prop_of_true rfl, Selector.satisfied_bound hattr]
    exact (or_iff_left fun hnamed => hunnamed (.inr hnamed)).symm
  | true =>
    refine iff_of_true Bool.noConfusion ?_
    rcases hconstrains.mp hfree with rfl | hnamed
    · exact .inl ⟨_, htable, Json.collate_null_right _⟩
    · exact .inr hnamed

/-- A plan to find documents asks for the table, for the conjuncts of the filters, and for a bound
    on every sort field that these leave free. -/
theorem plan_satisfied_iff [PatternEngine]
    (hplan : s.plan queryLimit = .ok (.find query manual groupBy, warnings)) :
    ∃ schema base, s.last? Clause.target? = some schema ∧
      filtered schema.table (s.each Clause.filter?) = .ok (base, []) ∧
      ∀ doc, query.selector.Satisfied doc ↔
        (Dict.get? doc tableField = some (.str schema.table) ∧
          ∀ c ∈ s.conjuncts, c.SatisfiedBy doc) ∧
        ∀ field ∈ s.each Clause.orderBy?, base.constrains field.field = false →
          (Selector.bound field.field).Satisfied doc := by
  obtain ⟨schema, base, overridden, htarget, hfiltered, _, rfl, _⟩ := plan_eq_find hplan
  obtain ⟨rfl, hext, _, hsat⟩ := filtered_spec hfiltered
  refine ⟨schema, base, htarget, hfiltered, fun doc => ?_⟩
  rw [findQuery, Selector.satisfied_foldl_bindField doc hext, hsat, satisfiedBy_conjuncts]

/-- A document that a plan selects has a value greater than `null` at every sort field that no
    conjunct of the filters is about. At one that some are about it has such a value too, unless
    each of them admits the way in which it is absent. Nothing else is asked for beside the table
    and the filters. -/
theorem sort_fields_have_values [PatternEngine]
    (hplan : s.plan queryLimit = .ok (.find query manual groupBy, warnings)) :
    (∀ field ∈ s.each Clause.orderBy?, Text.startsWith "$" field.field = false →
      ∀ doc, query.selector.matches? doc = .ok true → doc.HasValue field.field ∨
        ∃ absence : Absence, doc.at? field.field = absence.value ∧ s.FiltersBy field.field ∧
          ∀ c ∈ s.conjuncts, c.attributeName? = some field.field → c.admits absence = true) ∧
      ((∀ field ∈ s.each Clause.orderBy?, Text.startsWith "$" field.field = false) →
        ∃ schema, s.last? Clause.target? = some schema ∧
          ∀ doc, query.selector.matches? doc = .ok true ↔
            Dict.get? doc tableField = some (.str schema.table) ∧
            (∀ c ∈ s.conjuncts, c.SatisfiedBy doc) ∧
            ∀ field ∈ s.each Clause.orderBy?,
              doc.HasValue field.field ∨ s.FiltersBy field.field) := by
  obtain ⟨schema, base, htarget, hfiltered, hselects⟩ := plan_satisfied_iff hplan
  constructor
  · intro field hfield hattr doc hmatches
    obtain ⟨⟨htable, hfilters⟩, hbounds⟩ := (hselects doc).mp hmatches
    refine (doc.hasValue_or_absent field.field).imp_right ?_
    rintro ⟨absence, habsent⟩
    have hdemand := (bound_satisfied_iff hattr hfiltered htable).mp (hbounds field hfield)
    exact ⟨absence, habsent, hdemand.resolve_left (Document.not_hasValue_of_absent habsent),
      fun c hc hname => Condition.admits_of_satisfiedBy hname hattr habsent (hfilters c hc)⟩
  · intro hattrs
    refine ⟨schema, htarget, fun doc => (hselects doc).trans ?_⟩
    rw [and_assoc]
    refine and_congr_right fun htable => and_congr_right fun _ => ?_
    exact forall₂_congr fun field hfield =>
      bound_satisfied_iff (hattrs field hfield) hfiltered htable

/-- Statements on teas, sorted by size, where a filter excludes small ones, and by age. -/
def sizedTeas : Statement := ⟨[
  .target { table := "teas", primaryKey := ⟨"id", .text, none⟩ },
  .filter (.and (.leaf "size" .biggerEq (.str "m")) (.leaf "kind" .different .null)),
  .orderBy ⟨"size", .desc⟩,
  .orderBy ⟨"age", .asc⟩]⟩

theorem sort_fields_have_values_sizedTeas :
    ∃ query warnings, sizedTeas.plan 250 = .ok (.find query none none, warnings) ∧
      ∀ doc, query.selector.matches? doc = .ok true → doc.HasValue "size" ∧ doc.HasValue "age" := by
  have hplan : ∃ query warnings,
      sizedTeas.plan 250 = .ok (.find query none none, warnings) := ⟨_, _, rfl⟩
  obtain ⟨query, warnings, hplan⟩ := hplan
  obtain ⟨hvalues, _⟩ := sort_fields_have_values hplan
  refine ⟨query, warnings, hplan, fun doc hmatches => ⟨?_, ?_⟩⟩
  · rcases hvalues ⟨"size", .desc⟩ (by decide) (by decide) doc hmatches with
      hvalue | ⟨absence, _, _, hadmits⟩
    · exact hvalue
    · have hadmitted := hadmits (.leaf "size" .biggerEq (.str "m")) (by decide) rfl
      cases absence <;> cases hadmitted
  · rcases hvalues ⟨"age", .asc⟩ (by decide) (by decide) doc hmatches with
      hvalue | ⟨_, _, hage, _⟩
    · exact hvalue
    · exact absurd hage (by decide)

/-- Teas without a size, sorted by their size. -/
def unsizedTeas : Statement := ⟨[
  .target { table := "teas", primaryKey := ⟨"id", .text, none⟩ },
  .filter (.equals "size" .null),
  .orderBy ⟨"size", .asc⟩]⟩

/-- A filter that asks for `null` is all that is asked of the sort field. -/
theorem null_filter_frees_sort_field :
    ¬∀ (s : Statement) (queryLimit : UInt64) (query : Query) (manual : Option AggregateRequest)
      (groupBy : Option String) (warnings : List Warning) (field : SortField) (doc : Document),
      s.plan queryLimit = .ok (.find query manual groupBy, warnings) →
        field ∈ s.each Clause.orderBy? → Text.startsWith "$" field.field = false →
          query.selector.matches? doc = .ok true → doc.HasValue field.field := by
  intro hvalues
  let tea : Document := [("??table", .str "teas"), ("size", .null)]
  have habsent : tea.at? "size" = Absence.null.value := rfl
  refine Document.not_hasValue_of_absent habsent ?_
  exact hvalues unsizedTeas 250 _ none none _ ⟨"size", .asc⟩ tea rfl (by decide) (by decide) rfl

end DocMapper.Statement
