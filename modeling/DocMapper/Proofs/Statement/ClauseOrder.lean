import DocMapper.Proofs.Statement.Filter
import DocMapper.Proofs.Statement.Routing
import Mathlib.Data.List.Induction

/-!
# The order of clauses

What clauses say is gathered one clause after another. Two clauses of different kinds are taken in
either order, and a clause of a kind that says one thing takes the place of the one before. Main
statement: a plan depends on its clauses only kind by kind, of most kinds only on the last clause,
and a query has everything that selections, filters and sort fields say, in their order.
-/

namespace DocMapper

open Statement

/-! ## Kinds of clauses -/

/-- The kind of a clause. -/
inductive ClauseKind where
  | target
  | select
  | filter
  | groupBy
  | aggregate
  | orderBy
  | limit
  | offset
deriving DecidableEq

/-- Whether clauses of the kind add up. Of any other kind only one clause can be meant. -/
def ClauseKind.addsUp : ClauseKind → Bool
  | .select | .filter | .orderBy => true
  | _ => false

/-- The kind of the clause. -/
def Clause.kind : Clause → ClauseKind
  | .target _ => .target
  | .select _ => .select
  | .filter _ => .filter
  | .groupBy _ => .groupBy
  | .aggregate _ => .aggregate
  | .orderBy _ => .orderBy
  | .limit _ => .limit
  | .offset _ => .offset

/-! ## Reordering -/

variable {c d : Clause} {before behind xs ys zs : List Clause}

/-- The clauses of each kind are the same, and in the same order. -/
def SameByKind (xs ys : List Clause) : Prop :=
  ∀ k : ClauseKind, xs.filter (·.kind = k) = ys.filter (·.kind = k)

/-- One list comes of the other by exchanging neighbors of different kinds. -/
inductive Exchanges : List Clause → List Clause → Prop
  | refl (xs : List Clause) : Exchanges xs xs
  | cons (c : Clause) {xs ys : List Clause} (hrest : Exchanges xs ys) :
    Exchanges (c :: xs) (c :: ys)
  | swap (c d : Clause) (xs : List Clause) (hkinds : c.kind ≠ d.kind) :
    Exchanges (c :: d :: xs) (d :: c :: xs)
  | trans {xs ys zs : List Clause} (hfront : Exchanges xs ys) (hback : Exchanges ys zs) :
    Exchanges xs zs

theorem Exchanges.sameByKind (hexchanges : Exchanges xs ys) : SameByKind xs ys := by
  intro k
  induction hexchanges with
  | refl xs => rfl
  | cons c _ ih => rw [List.filter_cons, List.filter_cons, ih]
  | swap c d xs hkinds =>
    by_cases hc : c.kind = k
    · have hd : d.kind ≠ k := fun hd => hkinds (hc.trans hd.symm)
      simp [hc, hd]
    · simp [List.filter_cons, hc]
  | trans _ _ ihfront ihback => exact ihfront.trans ihback

/-- A clause can be brought to the front past clauses of other kinds. -/
theorem exchanges_front (behind : List Clause) (hother : ∀ d ∈ before, d.kind ≠ c.kind) :
    Exchanges (before ++ c :: behind) (c :: (before ++ behind)) := by
  induction before with
  | nil => exact .refl _
  | cons d before ih =>
    have hrest : ∀ e ∈ before, e.kind ≠ c.kind := fun e he => hother e (List.mem_cons_of_mem d he)
    exact ((ih hrest).cons d).trans (.swap d c _ (hother d List.mem_cons_self))

/-- Where the first of some clauses stands among the clauses that are the same by kind. -/
theorem SameByKind.exists_split (hsame : SameByKind (c :: xs) ys) : ∃ before behind,
    ys = before ++ c :: behind ∧ (∀ d ∈ before, d.kind ≠ c.kind) ∧
      SameByKind xs (before ++ behind) := by
  have hfirst : ys.filter (·.kind = c.kind) = c :: xs.filter (·.kind = c.kind) := by
    rw [← hsame c.kind]
    simp
  obtain ⟨before, behind, rfl, hbefore, hkind, hbehind⟩ := List.filter_eq_cons_iff.mp hfirst
  have hother : ∀ d ∈ before, d.kind ≠ c.kind := fun d hd => by simpa using hbefore d hd
  refine ⟨before, behind, rfl, hother, fun k => ?_⟩
  have hkinds := hsame k
  by_cases hk : c.kind = k
  · subst hk
    have hnone : before.filter (·.kind = c.kind) = [] := by simpa using hother
    rw [List.filter_append, hnone, List.nil_append, hbehind]
  · simpa [List.filter_cons, hk] using hkinds

/-- Clauses are the same kind by kind where exchanging neighbors of different kinds brings them into
    one order. -/
theorem sameByKind_iff_exchanges : SameByKind xs ys ↔ Exchanges ys xs := by
  refine ⟨fun hsame => ?_, fun hexchanges k => (hexchanges.sameByKind k).symm⟩
  induction xs generalizing ys with
  | nil =>
    cases ys with
    | nil => exact .refl []
    | cons d ys =>
      have hfirst := hsame d.kind
      simp at hfirst
  | cons c xs ih =>
    obtain ⟨before, behind, rfl, hother, hrest⟩ := hsame.exists_split
    exact (exchanges_front behind hother).trans ((ih hrest).cons c)

/-! ## What clauses say together -/

/-- What clauses say together. -/
@[ext] structure Gathered where
  target : Option Schema := none
  names : List String := []
  filters : List Condition := []
  groupBy : Option String := none
  aggregate : Option AggregateRequest := none
  order : List SortField := []
  limit : Option UInt64 := none
  offset : Option UInt64 := none

namespace Gathered

variable {g : Gathered}

/-- What is said with one more clause. -/
def take (g : Gathered) : Clause → Gathered
  | .target schema => { g with target := some schema }
  | .select names => { g with names := g.names ++ names }
  | .filter condition => { g with filters := g.filters ++ [condition] }
  | .groupBy attr => { g with groupBy := some attr }
  | .aggregate request => { g with aggregate := some request }
  | .orderBy field => { g with order := g.order ++ [field] }
  | .limit n => { g with limit := some n }
  | .offset n => { g with offset := some n }

/-- What is said with more clauses, one after another. -/
def takeAll (g : Gathered) (clauses : List Clause) : Gathered := clauses.foldl take g

@[simp] theorem takeAll_nil (g : Gathered) : g.takeAll [] = g := rfl

@[simp] theorem takeAll_cons (g : Gathered) (c : Clause) (xs : List Clause) :
    g.takeAll (c :: xs) = (g.take c).takeAll xs := rfl

theorem takeAll_append (g : Gathered) (xs ys : List Clause) :
    g.takeAll (xs ++ ys) = (g.takeAll xs).takeAll ys := List.foldl_append

/-- Two clauses of different kinds are taken in either order. -/
theorem take_comm (hkinds : c.kind ≠ d.kind) : (g.take c).take d = (g.take d).take c := by
  cases c <;> cases d <;> first | rfl | exact absurd rfl hkinds

/-- A clause of a kind that does not add up takes the place of the one before. -/
theorem take_take (hkinds : c.kind = d.kind) (hsingle : c.kind.addsUp = false) :
    (g.take c).take d = g.take d := by
  cases c <;> cases d <;> simp_all [Clause.kind, ClauseKind.addsUp, take]

theorem takeAll_of_exchanges (hexchanges : Exchanges xs ys) (g : Gathered) :
    g.takeAll xs = g.takeAll ys := by
  induction hexchanges generalizing g with
  | refl xs => rfl
  | cons c _ ih => exact ih (g.take c)
  | swap c d xs hkinds =>
    rw [takeAll_cons, takeAll_cons, take_comm hkinds, takeAll_cons, takeAll_cons]
  | trans _ _ ihfront ihback => exact (ihfront g).trans (ihback g)

/-- A clause makes no difference where a later one of its kind takes its place. -/
theorem takeAll_take_of_mem (hmem : ∃ d ∈ xs, d.kind = c.kind) (hsingle : c.kind.addsUp = false)
    (g : Gathered) : (g.take c).takeAll xs = g.takeAll xs := by
  induction xs generalizing g with
  | nil => simp at hmem
  | cons e xs ih =>
    by_cases hkind : e.kind = c.kind
    · rw [takeAll_cons, takeAll_cons, take_take hkind.symm hsingle]
    · have hlater : ∃ d ∈ xs, d.kind = c.kind := by simpa [hkind] using hmem
      rw [takeAll_cons, takeAll_cons, take_comm (Ne.symm hkind), ih hlater]

end Gathered

namespace Statement

variable {s t : Statement} {queryLimit : UInt64}

/-- What the clauses of the statement say together. -/
def gathered (s : Statement) : Gathered := Gathered.takeAll {} s.clauses

theorem each_append_singleton {α : Type} (part : Clause → Option α) (xs : List Clause)
    (c : Clause) : each ⟨xs ++ [c]⟩ part = each ⟨xs⟩ part ++ (part c).toList := by
  rw [each, List.filterMap_append, each]
  cases hpart : part c <;> simp [hpart]

theorem last?_append_singleton {α : Type} (part : Clause → Option α) (xs : List Clause)
    (c : Clause) : last? ⟨xs ++ [c]⟩ part = (part c).or (last? ⟨xs⟩ part) := by
  rw [last?, each_append_singleton, last?]
  cases part c <;> simp

/-- The clauses of a kind that adds up are all gathered, and of any other kind the last one. -/
theorem gathered_eq (s : Statement) : s.gathered = {
    target := s.last? Clause.target?
    names := (s.each Clause.select?).flatten
    filters := s.each Clause.filter?
    groupBy := s.last? Clause.groupBy?
    aggregate := s.last? Clause.aggregate?
    order := s.each Clause.orderBy?
    limit := s.last? Clause.limit?
    offset := s.last? Clause.offset? } := by
  obtain ⟨clauses⟩ := s
  rw [gathered]
  -- From the right, since what is gathered so far is what the clauses before say.
  induction clauses using List.reverseRecOn with
  | nil => rfl
  | append_singleton xs c ih =>
    rw [Gathered.takeAll_append, ih]
    simp only [each_append_singleton, last?_append_singleton]
    cases c <;> simp [Gathered.take, Clause.target?, Clause.select?, Clause.filter?,
      Clause.groupBy?, Clause.aggregate?, Clause.orderBy?, Clause.limit?, Clause.offset?]

/-- A plan depends on nothing but what the clauses say together. -/
theorem plan_eq_of_gathered_eq (hgathered : s.gathered = t.gathered) :
    s.plan queryLimit = t.plan queryLimit := by
  rw [gathered_eq, gathered_eq, Gathered.mk.injEq] at hgathered
  obtain ⟨htarget, hnames, hfilters, hgroup, haggregate, horder, hlimit, hoffset⟩ := hgathered
  unfold Statement.plan findPlan shapesRows
  rw [htarget, hnames, hfilters, hgroup, haggregate, horder, hlimit, hoffset]

/-! ## Queries -/

/-- What filters and a table ask for together: for the table alone where there is no filter, else
    for the table and for what it compiles to in one conjunction with all the filters, from the
    first to the last. -/
inductive Restricts (table : String) : List Condition → Selector → Prop
  | table : Restricts table [] (.equals tableField (.str table))
  | filters {first : Condition} {rest : List Condition} {added : Selector}
    (hcompile : ((rest.foldl Condition.and first).and
      (.equals tableField (.str table))).compile = .ok added) :
    Restricts table (first :: rest) ((Selector.equals tableField (.str table)).merge added).1

theorem restricts_of_filtered {table : String} {filters : List Condition} {base : Selector}
    {overridden : List Warning} (hfiltered : filtered table filters = .ok (base, overridden)) :
    Restricts table filters base := by
  cases filters with
  | nil =>
    cases hfiltered
    exact .table
  | cons first rest =>
    simp only [filtered, condition?] at hfiltered
    split at hfiltered
    · rename_i added hcompile
      have hbase : ((Selector.equals tableField (.str table)).merge added).1 = base :=
        congrArg Prod.fst (Except.ok.inj hfiltered)
      rw [← hbase]
      exact .filters hcompile
    · cases hfiltered

/-- A plan to find documents that follows what clauses say: all selected names, all filters joined
    and all sort fields, in their order, and of everything else what there is, or the default limit
    for rows. -/
structure Follows [PatternEngine] (queryLimit : UInt64) (g : Gathered) (query : Query)
    (manual : Option AggregateRequest) (groupBy : Option String) (warnings : List Warning) :
    Prop where
  fields : query.fields = if g.names.isEmpty then none else some g.names
  sort : query.sort = g.order
  limit : query.limit = g.limit.or (if g.aggregate.isSome then none else some queryLimit)
  skip : query.skip = g.offset
  manual : manual = g.aggregate
  groupBy : groupBy = g.groupBy
  warnings : warnings =
    if g.limit.isSome || g.aggregate.isSome then [] else [.defaultLimit queryLimit]
  /-- Sort fields are bound, one after another, in a selector that matches exactly the documents of
      the table that all the filters match. -/
  selector : ∃ schema base, g.target = some schema ∧ Restricts schema.table g.filters base ∧
    (∀ doc, base.matches? doc = .ok true ↔
      Dict.get? doc tableField = some (.str schema.table) ∧
        ∀ c ∈ g.filters, ∃ t, c.compile = .ok t ∧ t.matches? doc = .ok true) ∧
    query.selector = g.order.foldl (fun base field => base.bindField field.field) base

theorem follows_of_plan [PatternEngine] {query : Query} {manual : Option AggregateRequest}
    {groupBy : Option String} {warnings : List Warning}
    (hplan : s.plan queryLimit = .ok (.find query manual groupBy, warnings)) :
    Follows queryLimit s.gathered query manual groupBy warnings := by
  obtain ⟨schema, base, overridden, htarget, hfiltered, rfl, rfl, rfl, rfl⟩ := plan_eq_find hplan
  obtain ⟨rfl, _, _, hsatisfied⟩ := filtered_spec hfiltered
  rw [gathered_eq]
  refine ⟨rfl, rfl, ?_, rfl, rfl, rfl, ?_, schema, base, htarget,
    restricts_of_filtered hfiltered, hsatisfied, rfl⟩
  · unfold findQuery
    cases s.last? Clause.limit? <;> cases s.last? Clause.aggregate? <;> rfl
  · cases s.last? Clause.limit? <;> cases s.last? Clause.aggregate? <;> rfl

theorem findPlan_ne_view {table : String} {manual : Option AggregateRequest} {views : ViewPlan}
    {warnings : List Warning} :
    s.findPlan queryLimit table manual ≠ .ok (.view views, warnings) := by
  intro hfind
  unfold findPlan at hfind
  split at hfind <;> cases hfind

/-- Views answer where an aggregate is asked for and nothing is selected, filtered or grouped. They
    are the views of the last target for the last aggregate. -/
theorem gathered_of_plan_view {views : ViewPlan} {warnings : List Warning}
    (hplan : s.plan queryLimit = .ok (.view views, warnings)) :
    (s.gathered.names = [] ∧ s.gathered.filters = [] ∧ s.gathered.groupBy = none) ∧
      ∃ schema request, s.gathered.target = some schema ∧ s.gathered.aggregate = some request ∧
        ViewPlan.resolve schema request = .ok views := by
  rw [gathered_eq]
  cases haggregate : s.last? Clause.aggregate? with
  | none =>
    simp only [Statement.plan, haggregate] at hplan
    split at hplan
    · cases hplan
    · exact absurd hplan findPlan_ne_view
  | some request =>
    obtain ⟨schema, _, htarget, hshapes, hresolve, ⟨hnil, hviews⟩ | ⟨_, _, _, hfind⟩⟩ :=
      plan_eq_ok_of_aggregate haggregate hplan
    · cases hviews
      rw [shapesRows, Bool.or_eq_false_iff, Bool.not_eq_false', List.isEmpty_iff,
        Option.isSome_eq_false_iff, Option.isNone_iff_eq_none] at hshapes
      exact ⟨⟨hshapes.1, hnil, hshapes.2⟩, schema, request, htarget, rfl, hresolve⟩
    · cases hfind

/-- Clauses may come in any order, as long as those of one kind stay in theirs: the outcome is the
    same, be it a plan with warnings or an error. A clause of a kind that does not add up can be
    left out where a later one of its kind follows, whatever the two say. All that the other clauses
    say is in the query that a plan makes, in the order in which they say it; where views answer no
    clause selects or filters. -/
theorem plan_by_kinds [PatternEngine] (s : Statement) (queryLimit : UInt64) :
    (∀ t : Statement, SameByKind s.clauses t.clauses → t.plan queryLimit = s.plan queryLimit) ∧
      (∀ before c behind, s.clauses = before ++ c :: behind → c.kind.addsUp = false →
        (∃ d ∈ behind, d.kind = c.kind) →
          plan ⟨before ++ behind⟩ queryLimit = s.plan queryLimit) ∧
      (∀ query manual groupBy warnings,
        s.plan queryLimit = .ok (.find query manual groupBy, warnings) → Follows queryLimit {
          target := s.last? Clause.target?
          names := (s.each Clause.select?).flatten
          filters := s.each Clause.filter?
          groupBy := s.last? Clause.groupBy?
          aggregate := s.last? Clause.aggregate?
          order := s.each Clause.orderBy?
          limit := s.last? Clause.limit?
          offset := s.last? Clause.offset? } query manual groupBy warnings) ∧
      ∀ views warnings, s.plan queryLimit = .ok (.view views, warnings) →
        ((s.each Clause.select?).flatten = [] ∧ s.each Clause.filter? = [] ∧
          s.last? Clause.groupBy? = none) ∧
        ∃ schema request, s.last? Clause.target? = some schema ∧
          s.last? Clause.aggregate? = some request ∧
          ViewPlan.resolve schema request = .ok views := by
  refine ⟨fun t hsame => ?_, fun before c behind hclauses hsingle hmem => ?_, ?_, ?_⟩
  · exact plan_eq_of_gathered_eq
      (Gathered.takeAll_of_exchanges (sameByKind_iff_exchanges.mp hsame) {})
  · apply plan_eq_of_gathered_eq
    rw [gathered, gathered, hclauses, Gathered.takeAll_append, Gathered.takeAll_append,
      Gathered.takeAll_cons, Gathered.takeAll_take_of_mem hmem hsingle]
  · intro query manual groupBy warnings hplan
    rw [← gathered_eq]
    exact follows_of_plan hplan
  · intro views warnings hplan
    simpa only [gathered_eq] using gathered_of_plan_view hplan

/-- A statement whose clauses come in no particular order, most of them twice. -/
def scatteredCups : Statement := ⟨[
  .limit 9, .orderBy ⟨"age", .asc⟩,
  .target { table := "saucers", primaryKey := ⟨"id", .text, none⟩ }, .select ["color"],
  .filter (.equals "glazed" (.bool true)), .offset 1, .groupBy "size",
  .orderBy ⟨"color", .desc⟩, .select ["age", "color"], .limit 5,
  .target { table := "cups", primaryKey := ⟨"id", .text, none⟩ },
  .filter (.equals "color" (.str "blue")), .groupBy "color", .offset 2]⟩

/-- The same clauses stage by stage. -/
def stagedCups : Statement := ⟨[
  .target { table := "saucers", primaryKey := ⟨"id", .text, none⟩ },
  .target { table := "cups", primaryKey := ⟨"id", .text, none⟩ }, .select ["color"],
  .select ["age", "color"], .filter (.equals "glazed" (.bool true)),
  .filter (.equals "color" (.str "blue")), .groupBy "size", .groupBy "color",
  .orderBy ⟨"age", .asc⟩, .orderBy ⟨"color", .desc⟩, .limit 9, .limit 5, .offset 1, .offset 2]⟩

/-- The scattered clauses make the plan of the staged ones, without the first limit too, and the
    query has both orders, both selections and both filters: a cup is found if it is glazed and
    blue. -/
theorem plan_by_kinds_scatteredCups :
    stagedCups.plan 250 = scatteredCups.plan 250 ∧
      plan ⟨scatteredCups.clauses.tail⟩ 250 = scatteredCups.plan 250 ∧
      ∃ query groupBy,
        scatteredCups.plan 250 = .ok (.find query none groupBy, []) ∧
          query.sort = [⟨"age", .asc⟩, ⟨"color", .desc⟩] ∧
          query.fields = some ["color", "age", "color"] ∧ query.limit = some 5 ∧
          query.skip = some 2 ∧ groupBy = some "color" ∧
          ∃ base, base = Selector.allOf [
              (Selector.equals "glazed" (.bool true)).toJson,
              (Selector.equals "color" (.str "blue")).toJson,
              (Selector.equals tableField (.str "cups")).toJson] ∧
            query.selector = (base.bindField "age").bindField "color" ∧
            ∀ doc, base.matches? doc = .ok true ↔
              Dict.get? doc tableField = some (.str "cups") ∧
                ∀ c ∈ [Condition.equals "glazed" (.bool true), .equals "color" (.str "blue")],
                  ∃ t, c.compile = .ok t ∧ t.matches? doc = .ok true := by
  obtain ⟨hreordered, hearlier, hfollows, _⟩ := plan_by_kinds scatteredCups 250
  have hsame : SameByKind scatteredCups.clauses stagedCups.clauses := by
    intro k
    cases k <;> rfl
  have hlater : ∃ d ∈ scatteredCups.clauses.tail, d.kind = .limit :=
    ⟨.limit 5, by simp [scatteredCups], rfl⟩
  obtain ⟨query, groupBy, hplan⟩ : ∃ query groupBy,
      scatteredCups.plan 250 = .ok (.find query none groupBy, []) := ⟨_, _, rfl⟩
  have hcups := hfollows _ _ _ _ hplan
  obtain ⟨schema, base, htarget, hrestricts, hmatches, hselector⟩ := hcups.selector
  cases htarget
  refine ⟨hreordered _ hsame, hearlier [] (.limit 9) _ rfl rfl hlater, query, groupBy, hplan,
    hcups.sort, hcups.fields, hcups.limit, hcups.skip, hcups.groupBy, base, ?_, hselector,
    hmatches⟩
  cases hrestricts with
  | filters hcompile =>
    cases hcompile
    rfl

end Statement

end DocMapper
