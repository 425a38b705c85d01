import DocMapper.Aggregate.Compute
import DocMapper.Proofs.Aggregate.Choice
import Mathlib.Tactic.ByContra

/-!
# Views that are asked for an average or for distinct values

An average is read off the first rows of two views, distinct values off the rows of one. Whether
these rows tell what is read off them depends on what the views are asked for, and that on what
their declarations say beside the kind. Main statement: the views are asked for reduced rows where
no view that returns documents is without a reduce function of its own, and an average needs the
functions of the kinds as well (`ViewPlan.delivers_iff`).
-/

namespace DocMapper

open Aggregate ViewSpec

/-! ## Rows that are reduced -/

/-- The total of integers, where that is one too. -/
def integerTotal? (values : List Json) : Option Integer := do
  let numbers ← values.mapM fun
    | .num (.int n) => some n.val
    | _ => none
  Integer.ofInt? (numbers.foldl (· + ·) 0)

/-- How a store reduces values by the text of a function. Two functions are built in; what others
    do is up to those who write them. -/
structure Reducer where
  run : String → List Json → Json
  count : ∀ values, run "_count" values = .ofUInt64 (UInt64.ofNat values.length)
  sum : ∀ values total, integerTotal? values = some total → run "_sum" values = .num (.int total)

namespace ViewAnswer

/-- The rows as they are emitted, by key and value. -/
def plain (emitted : List (Json × Json)) : ViewAnswer where
  rows := emitted.map fun e => { key := e.1, value := e.2 }

/-- The rows reduced together. Where there are none, there is nothing to reduce. -/
def together (reduced : List Json → Json) (emitted : List (Json × Json)) : ViewAnswer where
  rows := if emitted = [] then [] else [{ value := reduced (emitted.map Prod.snd) }]

/-- The rows reduced by key: one row for each key. -/
structure ByKey (reduced : List Json → Json) (emitted : List (Json × Json))
    (answer : ViewAnswer) : Prop where
  nodup : (answer.rows.map ViewRow.key).Nodup
  mem : ∀ key, key ∈ answer.rows.map ViewRow.key ↔ key ∈ emitted.map Prod.fst
  value : ∀ row ∈ answer.rows,
    row.value = reduced ((emitted.filter fun e => e.1 = row.key).map Prod.snd)

end ViewAnswer

/-- What the first row of a view is read as: the total of its values where the view sums up, or else
    how many rows there are. -/
def ViewKind.Tells (kind : ViewKind) (emitted : List (Json × Json)) (told : Double) : Prop :=
  if kind = .sum then
    ∀ total, integerTotal? (emitted.map Prod.snd) = some total → told = total.toDouble
  else told = countNumber emitted.length

namespace ViewDescriptor

/-- What a store answers a view that is kept as it was declared, where these are the keys and values
    that its map function emits. -/
def Answered (table : String) (reducer : Reducer) (d : ViewDescriptor)
    (emitted : List (Json × Json)) (answer : ViewAnswer) : Prop :=
  if d.options.reduce = some true then
    ∃ function, (d.spec.definition table).reduce = some function ∧
      if d.options.group = some true then answer.ByKey (reducer.run function) emitted
      else answer.rows = (ViewAnswer.together (reducer.run function) emitted).rows
  else answer.rows.map (fun row => (row.key, row.value)) = emitted

/-- Whatever the store and the rows are, the first row of the answer tells what it is read as. -/
def TellsTotal (table : String) (d : ViewDescriptor) : Prop :=
  ∀ reducer emitted answer, d.Answered table reducer emitted answer →
    d.spec.kind.Tells emitted answer.total

/-- Whatever the store and the rows are, the answer has one row for each key. -/
def TellsKeys (table : String) (d : ViewDescriptor) : Prop :=
  ∀ reducer emitted answer, d.Answered table reducer emitted answer →
    (answer.rows.map ViewRow.key).Nodup ∧
      ∀ key, key ∈ answer.rows.map ViewRow.key ↔ key ∈ emitted.map Prod.fst

end ViewDescriptor

/-! ## What is asked for -/

namespace ViewSpec

/-- The view has a reduce function of its own, or returns no documents. -/
def Reduced (v : ViewSpec) : Prop := v.returnDocs = true → v.reduce ≠ none

/-- The view has the reduce function of its kind, whether or not it was given. -/
def ReducesAsKind (v : ViewSpec) : Prop :=
  ∀ function, v.reduce = some function → v.kind.defaultReduce? = some function

variable {v : ViewSpec} {table function : String}

theorem reduced_iff : (v.reduce.isSome || !v.returnDocs) = true ↔ v.Reduced := by
  unfold Reduced
  cases v.reduce <;> cases v.returnDocs <;> simp

/-- A view is asked reduced if it has a reducer or returns no documents. -/
theorem asksReduced_iff :
    (ViewDescriptor.ofSpec table v).options.reduce = some true ↔ v.Reduced := by
  rw [ViewDescriptor.ofSpec, Option.some.injEq]
  exact reduced_iff

/-- A reduced view is asked by group if its kind lists values. -/
theorem asksGrouped_iff : (ViewDescriptor.ofSpec table v).options.group = some true ↔
    v.Reduced ∧ (v.kind = .distinct ∨ v.kind = .groupBy) := by
  have hgroup : (ViewDescriptor.ofSpec table v).options.group = some true ↔
      ((v.reduce.isSome || !v.returnDocs) && (v.kind = .distinct || v.kind = .groupBy)) = true := by
    simp only [ViewDescriptor.ofSpec]
    split
    · next hgrouped => exact iff_of_true rfl hgrouped
    · next hgrouped => exact iff_of_false (by simp) hgrouped
  rw [hgroup, Bool.and_eq_true, reduced_iff, Bool.or_eq_true, decide_eq_true_eq, decide_eq_true_eq]

theorem ReducesAsKind.definition_eq (hasKind : v.ReducesAsKind) :
    (v.definition table).reduce = v.kind.defaultReduce? := by
  cases hreduce : v.reduce with
  | none => rw [definition, hreduce, Option.none_or]
  | some given => rw [definition, hreduce, Option.some_or, hasKind given hreduce]

end ViewSpec

/-! ## What the rows tell -/

section Rows

variable {v : ViewSpec} {table function : String} {answer : ViewAnswer}
  {emitted : List (Json × Json)} {reduced : List Json → Json} {kind : ViewKind}

theorem countNumber_zero : countNumber 0 = .zero := by decide +kernel

theorem ViewAnswer.total_congr {other : ViewAnswer} (hrows : answer.rows = other.rows) :
    answer.total = other.total := by
  simp only [total, first?, hrows]

/-- The total of an answer is what its values are reduced to, as far as that is a number. -/
theorem ViewAnswer.total_together (reduced : List Json → Json) (emitted : List (Json × Json)) :
    (together reduced emitted).total =
      if emitted = [] then .zero else (reduced (emitted.map Prod.snd)).asDouble?.getD .zero := by
  unfold total first? together
  split
  · rfl
  · cases reduced (emitted.map Prod.snd) <;> rfl

/-- The function of its kind makes of all rows what the first row is read as. -/
theorem Reducer.tells_together (reducer : Reducer) (hkind : kind = .sum ∨ kind = .count)
    (hdefault : kind.defaultReduce? = some function) (emitted : List (Json × Json)) :
    kind.Tells emitted (ViewAnswer.together (reducer.run function) emitted).total := by
  rw [ViewAnswer.total_together]
  obtain rfl | rfl := hkind
  · cases hdefault
    rw [ViewKind.Tells, if_pos rfl]
    intro total htotal
    split
    · next hnone =>
      rw [hnone] at htotal
      cases htotal
      exact countNumber_zero.symm
    · rw [reducer.sum _ _ htotal]
      rfl
  · cases hdefault
    rw [ViewKind.Tells, if_neg (by decide)]
    split
    · next hnone =>
      rw [hnone]
      exact countNumber_zero.symm
    · rw [reducer.count, List.length_map]
      rfl

/-- A store that knows the functions that are built in, and no others. -/
def Reducer.builtIn : Reducer where
  run function values :=
    if function = "_count" then .ofUInt64 (UInt64.ofNat values.length)
    else if function = "_sum" then ((integerTotal? values).map fun n => .num (.int n)).getD .null
    else .null
  count _ := rfl
  sum values total htotal := by
    rw [if_neg (by decide), if_pos rfl, htotal]
    rfl

/-- Two rows with one key. How many they are, what they sum up to and the value of the first are
    three numbers. -/
def threeTwice : List (Json × Json) :=
  List.replicate 2 (.null, .ofSigned (Signed.wrap 64 3))

/-- Rows tell one total. -/
theorem ViewKind.Tells.unique {told other : Double} {total : Integer}
    (htells : kind.Tells emitted told) (hother : kind.Tells emitted other)
    (htotal : integerTotal? (emitted.map Prod.snd) = some total) : told = other := by
  unfold Tells at htells hother
  split at htells
  · next hsum =>
    rw [if_pos hsum] at hother
    rw [htells total htotal, hother total htotal]
  · next hsum =>
    rw [if_neg hsum] at hother
    rw [htells, hother]

/-- What the two rows are reduced to by a function that is built in, no other function makes of
    them. -/
theorem Reducer.eq_of_total_eq {builtin : String} (hmem : builtin ∈ ["_sum", "_count"])
    (htotal : (ViewAnswer.together (Reducer.builtIn.run function) threeTwice).total =
      (ViewAnswer.together (Reducer.builtIn.run builtin) threeTwice).total) :
    builtin = function := by
  have hapart : ∀ f ∈ ["_sum", "_count"], ∀ g ∈ ["_sum", "_count"],
      (ViewAnswer.together (Reducer.builtIn.run f) threeTwice).total =
        (ViewAnswer.together (Reducer.builtIn.run g) threeTwice).total → g = f := by
    decide +kernel
  have hsome : ∀ g ∈ ["_sum", "_count"],
      (ViewAnswer.together (Reducer.builtIn.run g) threeTwice).total ≠ .zero := by
    decide +kernel
  by_cases hbuiltin : function ∈ ["_sum", "_count"]
  · exact hapart function hbuiltin builtin hmem htotal
  · have hnone : (ViewAnswer.together (Reducer.builtIn.run function) threeTwice).total = .zero := by
      simp only [List.mem_cons, List.not_mem_nil, or_false, not_or] at hbuiltin
      simp only [ViewAnswer.total_together, Reducer.builtIn, if_neg hbuiltin.1, if_neg hbuiltin.2]
      rfl
    exact absurd (htotal.symm.trans hnone) (hsome builtin hmem)

namespace ViewDescriptor

/-- An unreduced view answers its rows. -/
theorem answered_plain (hplain : ¬v.Reduced) (reducer : Reducer) (emitted : List (Json × Json)) :
    (ofSpec table v).Answered table reducer emitted (.plain emitted) := by
  rw [Answered, if_neg (asksReduced_iff.not.mpr hplain), ViewAnswer.plain, List.map_map]
  exact List.map_id _

theorem answered_together (hreduced : v.Reduced)
    (hgroup : (ofSpec table v).options.group ≠ some true)
    (hfunction : (v.definition table).reduce = some function) (reducer : Reducer)
    (emitted : List (Json × Json)) :
    (ofSpec table v).Answered table reducer emitted (.together (reducer.run function) emitted) := by
  rw [Answered, if_pos (asksReduced_iff.mpr hreduced)]
  refine ⟨function, hfunction, ?_⟩
  rw [if_neg hgroup]

theorem not_asksGrouped (hkind : v.kind = .sum ∨ v.kind = .count) :
    (ofSpec table v).options.group ≠ some true := by
  intro hgroup
  obtain ⟨_, hdistinct | hgroupBy⟩ := asksGrouped_iff.mp hgroup
  · rw [hdistinct] at hkind
    exact absurd hkind (by decide)
  · rw [hgroupBy] at hkind
    exact absurd hkind (by decide)

/-- A reduced sum or count tells its total. -/
theorem tellsTotal_of_reduced (hkind : v.kind = .sum ∨ v.kind = .count) (hreduced : v.Reduced)
    (hasKind : v.ReducesAsKind) : (ofSpec table v).TellsTotal table := by
  intro reducer emitted answer hanswer
  rw [Answered, if_pos (asksReduced_iff.mpr hreduced)] at hanswer
  obtain ⟨function, hfunction, hrows⟩ := hanswer
  rw [if_neg (not_asksGrouped hkind)] at hrows
  have hdefault : v.kind.defaultReduce? = some function :=
    hasKind.definition_eq.symm.trans hfunction
  rw [ViewAnswer.total_congr hrows]
  exact reducer.tells_together hkind hdefault emitted

/-- A view that is not asked for reduced rows tells the first value, and one with another function
    than its kind has what that function makes of the values. -/
theorem reduced_of_tellsTotal (hkind : v.kind = .sum ∨ v.kind = .count)
    (htells : (ofSpec table v).TellsTotal table) : v.Reduced ∧ v.ReducesAsKind := by
  obtain ⟨default, hmem, hdefault⟩ :
      ∃ default ∈ ["_sum", "_count"], v.kind.defaultReduce? = some default := by
    obtain hsum | hcount := hkind
    · exact ⟨"_sum", by decide, by rw [hsum]; rfl⟩
    · exact ⟨"_count", by decide, by rw [hcount]; rfl⟩
  have htold : ∀ answer, (ofSpec table v).Answered table .builtIn threeTwice answer →
      answer.total = (ViewAnswer.together (Reducer.builtIn.run default) threeTwice).total :=
    fun answer hanswer => (htells _ _ _ hanswer).unique
      (Reducer.builtIn.tells_together hkind hdefault threeTwice) rfl
  have hreduced : v.Reduced := by
    by_contra hplain
    have hfirst : ∀ g ∈ ["_sum", "_count"], (ViewAnswer.plain threeTwice).total ≠
        (ViewAnswer.together (Reducer.builtIn.run g) threeTwice).total := by
      decide +kernel
    exact hfirst default hmem (htold _ (answered_plain hplain _ _))
  refine ⟨hreduced, fun function hfunction => ?_⟩
  have hgiven : (v.definition table).reduce = some function := by
    rw [definition, hfunction, Option.some_or]
  have htotal := htold _ (answered_together hreduced (not_asksGrouped hkind) hgiven _ _)
  rw [hdefault, Reducer.eq_of_total_eq hmem htotal]

/-- The first row tells what it is read as exactly where the view is asked for reduced rows, and
    they are reduced by the function of the kind. -/
theorem tellsTotal_iff (hkind : v.kind = .sum ∨ v.kind = .count) :
    (ofSpec table v).TellsTotal table ↔ v.Reduced ∧ v.ReducesAsKind :=
  ⟨reduced_of_tellsTotal hkind, fun ⟨hreduced, hasKind⟩ =>
    tellsTotal_of_reduced hkind hreduced hasKind⟩

/-- There is one row for each key exactly where the view is asked for reduced rows. -/
theorem tellsKeys_iff (hkind : v.kind = .distinct) :
    (ofSpec table v).TellsKeys table ↔ v.Reduced := by
  constructor
  · intro htells
    by_contra hplain
    have hnodup := (htells _ _ _ (answered_plain hplain .builtIn threeTwice)).1
    exact absurd hnodup (by decide)
  · intro hreduced reducer emitted answer hanswer
    rw [Answered, if_pos (asksReduced_iff.mpr hreduced)] at hanswer
    obtain ⟨function, _, hrows⟩ := hanswer
    rw [if_pos (asksGrouped_iff.mpr ⟨hreduced, .inl hkind⟩)] at hrows
    exact ⟨hrows.nodup, hrows.mem⟩

end ViewDescriptor

end Rows

/-! ## Plans -/

/-- The views that are asked for an average or for distinct values are asked for reduced rows,
    grouped where values are told apart, where every one of them has a reduce function of its own or
    returns no documents. Exactly then there is one row for each value. The first rows tell an
    average where, besides, the views reduce their rows by the functions of their kinds. -/
theorem ViewPlan.delivers_iff {schema : Schema} {request : AggregateRequest} {plan : ViewPlan}
    (hplan : ViewPlan.resolve schema request = .ok plan)
    (hkind : request.kind = .avg ∨ request.kind = .distinct ∨ request.kind = .countDistinct) :
    ((∀ d ∈ plan.target.descriptors, d.options.reduce = some true ∧
        (request.kind ≠ .avg → d.options.group = some true)) ↔
      ∀ d ∈ plan.target.descriptors, d.spec.Reduced) ∧
    (request.kind = .avg →
      ((∀ d ∈ plan.target.descriptors, d.TellsTotal schema.table) ↔
        ∀ d ∈ plan.target.descriptors, d.spec.Reduced ∧ d.spec.ReducesAsKind)) ∧
    (request.kind ≠ .avg →
      ((∀ d ∈ plan.target.descriptors, d.TellsKeys schema.table) ↔
        ∀ d ∈ plan.target.descriptors, d.spec.Reduced)) := by
  have hfind := (ViewPlan.resolve_eq_ok_iff.mp hplan).1
  have hasked : ∀ d ∈ plan.target.descriptors, d = .ofSpec schema.table d.spec := fun d hd =>
    (ViewTarget.descriptors_of_find hfind d hd).2
  have havg : request.kind = .avg →
      ∀ d ∈ plan.target.descriptors, d.spec.kind = .sum ∨ d.spec.kind = .count := by
    intro havg d hd
    have hmem := ViewTarget.kind_mem_of_find hfind d hd
    rw [AggregateRequest.viewKinds, havg] at hmem
    obtain hsum | hcount := List.mem_cons.mp hmem
    · exact .inl hsum
    · exact .inr (List.mem_singleton.mp hcount)
  have hdistinct : request.kind ≠ .avg →
      ∀ d ∈ plan.target.descriptors, d.spec.kind = .distinct := by
    intro hother d hd
    have hmem := ViewTarget.kind_mem_of_find hfind d hd
    obtain hkind | hkind | hkind := hkind
    · exact absurd hkind hother
    all_goals
      rw [AggregateRequest.viewKinds, hkind] at hmem
      exact List.mem_singleton.mp hmem
  refine ⟨?_, fun hkind => ?_, fun hkind => ?_⟩
  · refine forall₂_congr fun d hd => ?_
    rw [hasked d hd]
    constructor
    · exact fun hasks => asksReduced_iff.mp hasks.1
    · exact fun hreduced => ⟨asksReduced_iff.mpr hreduced, fun hother =>
        asksGrouped_iff.mpr ⟨hreduced, .inl (hdistinct hother d hd)⟩⟩
  · refine forall₂_congr fun d hd => ?_
    rw [hasked d hd]
    exact ViewDescriptor.tellsTotal_iff (havg hkind d hd)
  · refine forall₂_congr fun d hd => ?_
    rw [hasked d hd]
    exact ViewDescriptor.tellsKeys_iff (hdistinct hkind d hd)

/-- Views that sum up the totals of orders and return the orders, and one that counts them. -/
def orderSums (reduce : Option String) : ViewSpec :=
  { kind := .sum, attr := "total", returnDocs := true, reduce }

def orderCount : ViewSpec := { kind := .count, attr := "total" }

/-- Orders with these views. -/
def ordersWith (reduce : Option String) : Schema :=
  { table := "orders", primaryKey := ⟨"id", .text, none⟩, views := [orderSums reduce, orderCount] }

/-- The plan for the average total. -/
def averageOrder (reduce : Option String) : ViewPlan :=
  ⟨⟨.avg, some "total"⟩,
    .average (.ofSpec "orders" (orderSums reduce)) (.ofSpec "orders" orderCount)⟩

/-- The view that sums up has a function of its own, which is that of its kind. -/
theorem ViewPlan.reduced_orders :
    ViewPlan.resolve (ordersWith (some "_sum")) ⟨.avg, some "total"⟩ =
        .ok (averageOrder (some "_sum")) ∧
      (∀ d ∈ (averageOrder (some "_sum")).target.descriptors, d.options.reduce = some true) ∧
      ∀ d ∈ (averageOrder (some "_sum")).target.descriptors, d.TellsTotal "orders" := by
  have hplan : ViewPlan.resolve (ordersWith (some "_sum")) ⟨.avg, some "total"⟩ =
      .ok (averageOrder (some "_sum")) := rfl
  have hspecs : ∀ d ∈ (averageOrder (some "_sum")).target.descriptors,
      d.spec.Reduced ∧ d.spec.ReducesAsKind := by
    refine List.forall_mem_cons.mpr ⟨⟨?_, ?_⟩, List.forall_mem_singleton.mpr ⟨?_, ?_⟩⟩
    · intro _ hnone
      cases hnone
    · intro function hfunction
      cases hfunction
      rfl
    · intro hdocs
      cases hdocs
    · intro function hfunction
      cases hfunction
  obtain ⟨hasked, htells, _⟩ := ViewPlan.delivers_iff hplan (.inl rfl)
  exact ⟨hplan, fun d hd => (hasked.mpr (fun d hd => (hspecs d hd).1) d hd).1,
    (htells rfl).mpr hspecs⟩

/-- Totals of two and four, each behind itself. -/
def twoAndFour : List (Json × Json) :=
  [(.ofSigned (Signed.wrap 64 2), .ofSigned (Signed.wrap 64 2)),
    (.ofSigned (Signed.wrap 64 4), .ofSigned (Signed.wrap 64 4))]

/-- Without a function of its own the view that sums up gives the orders themselves, and the first
    total is divided by the number of orders: one where the average is three. -/
theorem ViewPlan.average_of_first_order :
    ViewPlan.resolve (ordersWith none) ⟨.avg, some "total"⟩ = .ok (averageOrder none) ∧
      (ViewDescriptor.ofSpec "orders" (orderSums none)).options.reduce = some false ∧
      ∃ sums counts,
        (ViewDescriptor.ofSpec "orders" (orderSums none)).Answered "orders" .builtIn twoAndFour
          sums ∧
        (ViewDescriptor.ofSpec "orders" orderCount).Answered "orders" .builtIn twoAndFour counts ∧
        ViewAnswer.average sums counts = .number (.finite (countNumber 1)) ∧
        ViewAnswer.average (.together (Reducer.builtIn.run "_sum") twoAndFour) counts =
          .number (.finite (countNumber 3)) := by
  have hreturned : ¬(orderSums none).Reduced := fun hreduced => hreduced rfl rfl
  have hcounted : orderCount.Reduced := by
    intro hdocs
    cases hdocs
  have hgroup : (ViewDescriptor.ofSpec "orders" orderCount).options.group ≠ some true := by decide
  exact ⟨rfl, rfl, _, _, ViewDescriptor.answered_plain hreturned _ _,
    ViewDescriptor.answered_together hcounted hgroup rfl _ _, by decide +kernel,
    by decide +kernel⟩

end DocMapper
