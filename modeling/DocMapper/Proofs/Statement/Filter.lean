import DocMapper.Proofs.Condition.Compile
import DocMapper.Proofs.Selector.Bounds
import DocMapper.Proofs.Selector.Operators

/-!
# What plans ask for

The selector of a plan to find documents asks for the table of the target, for every filter, and
for a value at every sort field that the filters leave free, and for nothing else.
-/

namespace DocMapper

/-- A text collates equal to itself only. -/
theorem Json.collate_str_eq_iff (v : Json) (s : String) :
    v.collate (.str s) = .eq ↔ v = .str s := by
  cases v with
  | str t => simp [collate]
  | bool b => cases b <;> simp [collate, rank]
  | _ => simp [collate, rank]

namespace Statement

variable {doc : Document}

/-- The table field has no dots, so its clause is asked of the field itself. -/
theorem matches?_equals_table [PatternEngine] (table : String) (doc : Document) :
    (Selector.equals tableField (.str table)).matches? doc =
      .ok (Dict.get? doc tableField = some (.str table)) := by
  have hrole : Selector.role tableField = .attribute := by decide
  have hpath : Document.at? doc tableField = Dict.get? doc tableField := rfl
  rw [Selector.matches?_equals hrole, hpath]
  refine congrArg Except.ok (Bool.eq_iff_iff.mpr ?_)
  cases Dict.get? doc tableField with
  | none => simp
  | some v => simp [Json.collate_str_eq_iff]

theorem satisfied_equals_table [PatternEngine] (table : String) :
    (Selector.equals tableField (.str table)).Satisfied doc ↔
      Dict.get? doc tableField = some (.str table) := by
  rw [Selector.Satisfied, matches?_equals_table, Except.ok.injEq, decide_eq_true_eq]

/-- Without an array under the conjunction's key the restriction to a table takes bounds. -/
theorem extensible_equals_table (table : String) :
    (Selector.equals tableField (.str table)).Extensible := by
  refine Or.inr fun members hmembers => ?_
  cases hmembers

/-- A condition joined with the restriction to a table compiles to a conjunction that holds that
    restriction already, so merging it adds nothing and overrides nothing. -/
theorem merge_with_table [PatternEngine] {table : String} {c : Condition} {added : Selector}
    (hcompile : (c.and (.leaf tableField .equal (.str table))).compile = .ok added) :
    ∃ members, (Selector.equals tableField (.str table)).merge added =
        (Selector.allOf members, []) ∧
      (∀ p, members.any p = (Selector.flattenMember added.toJson).any p) ∧
      ∀ doc, (Selector.allOf members).Satisfied doc ↔ added.Satisfied doc := by
  obtain ⟨l, r, hl, hr, rfl⟩ := Condition.compile_group_eq_ok.mp hcompile
  have htable : r = Selector.equals tableField (.str table) := by
    cases hr
    rfl
  subst htable
  let table' := Selector.equals tableField (.str table)
  have hgroup : Selector.group .and [l, table'] = Selector.allOf [l.toJson, table'.toJson] := rfl
  have hmem : table'.toJson ∈ Selector.flattenMembers [l.toJson, table'.toJson] :=
    List.mem_append_right _ List.mem_cons_self
  refine ⟨_, rfl, Selector.any_addMissing_of_mem hmem, ?_⟩
  intro doc
  rw [hgroup, Selector.satisfied_allOf, Selector.satisfied_allOf]
  have hflat := Selector.flatten_satisfied doc
  refine (Selector.forall_mem_addMissing_singleton ?_).trans (hflat.2 _)
  intro hall
  exact hall _ hmem

/-- Filters and a table become a selector that takes bounds and asks for both. All filters
    compile, and no clause overrides another. -/
theorem filtered_spec [PatternEngine] {table : String} {filters : List Condition} {base : Selector}
    {warnings : List Warning} (hfiltered : filtered table filters = .ok (base, warnings)) :
    warnings = [] ∧ base.Extensible ∧ (∀ c ∈ filters, ∃ t, c.compile = .ok t) ∧
      ∀ doc, base.Satisfied doc ↔ Dict.get? doc tableField = some (.str table) ∧
        ∀ c ∈ filters, c.SatisfiedBy doc := by
  cases filters with
  | nil =>
    cases hfiltered
    exact ⟨rfl, extensible_equals_table table, by simp, fun doc => by
      simpa using satisfied_equals_table table⟩
  | cons first rest =>
    simp only [filtered, condition?] at hfiltered
    split at hfiltered
    · rename_i added hcompile
      obtain ⟨l, _, hl, _⟩ := Condition.compile_group_eq_ok.mp hcompile
      obtain ⟨members, hmerge, _, hsat⟩ := merge_with_table hcompile
      rw [hmerge] at hfiltered
      cases hfiltered
      refine ⟨rfl, Or.inl ⟨members, rfl⟩, Condition.compiles_of_foldl_and hl, ?_⟩
      intro doc
      have htable : (Condition.leaf tableField .equal (.str table)).compile =
          .ok (Selector.equals tableField (.str table)) := rfl
      rw [hsat, ← Condition.satisfiedBy_iff_of_compile hcompile, Condition.satisfiedBy_and,
        Condition.satisfiedBy_foldl_and, Condition.satisfiedBy_iff_of_compile htable,
        satisfied_equals_table, and_comm]
    · cases hfiltered

variable {s : Statement} {queryLimit : UInt64} {query : Query} {manual : Option AggregateRequest}
  {groupBy : Option String} {warnings : List Warning}

/-- The query of a plan to find documents, where the filters ask for this selector: all sort fields
    are bound in it, one after another. -/
def findQuery (s : Statement) (queryLimit : UInt64) (manual : Option AggregateRequest)
    (base : Selector) : Query where
  selector := (s.each Clause.orderBy?).foldl (fun base field => base.bindField field.field) base
  fields :=
    if (s.each Clause.select?).flatten.isEmpty then none else some (s.each Clause.select?).flatten
  sort := s.each Clause.orderBy?
  limit := (limitFor queryLimit (s.last? Clause.limit?) manual.isSome).1
  skip := s.last? Clause.offset?

theorem findPlan_eq_ok {table : String} {asked : Option AggregateRequest}
    (hplan : s.findPlan queryLimit table asked = .ok (.find query manual groupBy, warnings)) :
    ∃ base overridden, filtered table (s.each Clause.filter?) = .ok (base, overridden) ∧
      manual = asked ∧ query = s.findQuery queryLimit manual base ∧
      groupBy = s.last? Clause.groupBy? ∧
      warnings = overridden ++ (limitFor queryLimit (s.last? Clause.limit?) manual.isSome).2 := by
  unfold findPlan at hplan
  split at hplan
  · cases hplan
  · rename_i base overridden hfiltered
    cases hplan
    exact ⟨base, overridden, hfiltered, rfl, rfl, rfl, rfl⟩

/-- Every plan to find documents comes from the target's table, whether or not an aggregate is
    asked for. -/
theorem plan_eq_find (hplan : s.plan queryLimit = .ok (.find query manual groupBy, warnings)) :
    ∃ schema base overridden, s.last? Clause.target? = some schema ∧
      filtered schema.table (s.each Clause.filter?) = .ok (base, overridden) ∧
      manual = s.last? Clause.aggregate? ∧ query = s.findQuery queryLimit manual base ∧
      groupBy = s.last? Clause.groupBy? ∧
      warnings = overridden ++ (limitFor queryLimit (s.last? Clause.limit?) manual.isSome).2 := by
  have hfind : ∃ schema, s.last? Clause.target? = some schema ∧
      s.findPlan queryLimit schema.table (s.last? Clause.aggregate?) =
        .ok (.find query manual groupBy, warnings) := by
    unfold plan at hplan
    split at hplan
    · cases hplan
    · rename_i schema htarget
      refine ⟨schema, htarget, ?_⟩
      split at hplan
      · rename_i hnone
        rwa [hnone]
      · rename_i request hsome
        split at hplan
        · cases hplan
        · split at hplan
          · cases hplan
          · split at hplan
            · cases hplan
            · rwa [hsome]
  obtain ⟨schema, htarget, hfind⟩ := hfind
  obtain ⟨base, overridden, hfiltered, hrest⟩ := findPlan_eq_ok hfind
  exact ⟨schema, base, overridden, htarget, hfiltered, hrest⟩

theorem keyOverridden_not_mem_limitFor (queryLimit : UInt64) (given : Option UInt64)
    (manual : Bool) (key : String) (previous replacement : Json) :
    Warning.keyOverridden key previous replacement ∉ (limitFor queryLimit given manual).2 := by
  unfold limitFor
  cases given <;> cases manual <;> simp

/-- A plan to find documents selects exactly the documents of the target's table that satisfy
    every filter and have a value at every sort field that the selector of the filters leaves
    free. However the filters are nested, none lets a document of another table in, and none
    overrides a clause. -/
theorem plan_find_selects [PatternEngine]
    (hplan : s.plan queryLimit = .ok (.find query manual groupBy, warnings)) :
    ∃ schema base, s.last? Clause.target? = some schema ∧
      filtered schema.table (s.each Clause.filter?) = .ok (base, []) ∧
      (∀ c ∈ s.each Clause.filter?, ∃ t, c.compile = .ok t) ∧
      (∀ doc, query.selector.matches? doc = .ok true ↔
        Dict.get? doc tableField = some (.str schema.table) ∧
        (∀ c ∈ s.each Clause.filter?, ∃ t, c.compile = .ok t ∧ t.matches? doc = .ok true) ∧
        ∀ field ∈ s.each Clause.orderBy?, base.constrains field.field = false →
          (Selector.bound field.field).matches? doc = .ok true) ∧
      ∀ key previous replacement, Warning.keyOverridden key previous replacement ∉ warnings := by
  obtain ⟨schema, base, overridden, htarget, hfiltered, _, rfl, _, hwarnings⟩ := plan_eq_find hplan
  obtain ⟨rfl, hext, hcompiles, hsat⟩ := filtered_spec hfiltered
  refine ⟨schema, base, htarget, hfiltered, hcompiles, ?_, ?_⟩
  · intro doc
    have hbounds := Selector.satisfied_foldl_bindField doc hext (s.each Clause.orderBy?)
    rw [hsat, and_assoc] at hbounds
    exact hbounds
  · intro key previous replacement
    rw [hwarnings, List.nil_append]
    exact keyOverridden_not_mem_limitFor _ _ _ key previous replacement

/-- A statement whose filters ask for documents of another table, with a sort field that the
    filters leave free and one that they constrain. -/
def crossTableSample : Statement := ⟨[
  .target { table := "gadgets", primaryKey := ⟨"id", .text, none⟩ },
  .filter (.or (.equals tableField (.str "gadgets")) (.leaf "size" .different .null)),
  .orderBy ⟨"age", .asc⟩,
  .target { table := "widgets", primaryKey := ⟨"id", .text, none⟩ },
  .filter (.not (.and (.equals "age" .null) (.equals tableField (.str "widgets"))) .null),
  .filter (.equals "color" (.str "red")),
  .orderBy ⟨"color", .desc⟩,
  .offset 2]⟩

theorem plan_find_selects_crossTableSample :
    ∃ query warnings, crossTableSample.plan 250 = .ok (.find query none none, warnings) ∧
      query.selector.matches? [("??table", .str "gadgets"), ("age", .bool true),
        ("color", .str "red"), ("size", .bool true)] ≠ .ok true := by
  have hplan : ∃ query warnings,
      crossTableSample.plan 250 = .ok (.find query none none, warnings) := ⟨_, _, rfl⟩
  obtain ⟨query, warnings, hplan⟩ := hplan
  obtain ⟨schema, _, htarget, _, _, hselects, _⟩ := plan_find_selects hplan
  cases htarget
  refine ⟨query, warnings, hplan, fun hmatches => ?_⟩
  have htable := ((hselects _).mp hmatches).1
  exact absurd htable (by decide)

end Statement

end DocMapper
