import DocMapper.Proofs.Condition.Answers
import DocMapper.Proofs.Dict.Order
import DocMapper.Proofs.Script.Guards
import DocMapper.Proofs.Selector.Turns
import DocMapper.Proofs.Text.Parts

/-!
# Guards and selectors of one condition

A view picks documents by the JavaScript of a condition, a query by its selector. Conditions that
compare attributes with whole numbers mean the same in both, unless a negation is bound to a value:
then the selector keeps the leaf and excludes the value, while the guard negates the leaf.
-/

namespace DocMapper

open Script Selector

/-! ## Conditions on numbers -/

/-- A whole number. -/
def Json.IsWhole (v : Json) : Prop := ∃ n, v = .num (.int n)

/-- The operand of a comparison is a whole number, that of a range two of them. -/
def Operator.Compares : Operator → Json → Prop
  | .equal, operand | .different, operand | .bigger, operand | .biggerEq, operand
  | .smaller, operand | .smallerEq, operand => operand.IsWhole
  | .between, operand => ∃ low high, operand = .arr [low, high] ∧ low.IsWhole ∧ high.IsWhole
  | .not, _ | .oneOf, _ | .regexp, _ => False

/-- The name of an attribute of the document itself: neither a path nor a logical key. -/
def IsAttribute (attr : String) : Prop := '.' ∉ attr.toList ∧ Text.startsWith "$" attr = false

instance (attr : String) : Decidable (IsAttribute attr) := inferInstanceAs (Decidable (_ ∧ _))

namespace Condition

/-- Every leaf compares an attribute with whole numbers, and every negation is bound to one. -/
def Numeric : Condition → Prop
  | .leaf attr operator operand => IsAttribute attr ∧ operator.Compares operand
  | .not condition comparison => condition.Numeric ∧ comparison.IsWhole
  | .group left _ right => left.Numeric ∧ right.Numeric

/-- The attributes that a condition mentions. -/
def attributes : Condition → List String
  | .leaf attr _ _ => [attr]
  | .not condition _ => condition.attributes
  | .group left _ right => left.attributes ++ right.attributes

/-- The document has a number under every attribute that the condition mentions. -/
def Covers (doc : Document) (c : Condition) : Prop :=
  ∀ attr ∈ c.attributes, ∃ n, Dict.get? doc attr = some (.num n)

/-- No negation has an attribute: each of them negates a group, or negations of one. -/
def Unbound : Condition → Prop
  | .leaf _ _ _ => True
  | .not condition _ => condition.attributeName? = none ∧ condition.Unbound
  | .group left _ right => left.Unbound ∧ right.Unbound

/-- Whether the number of negations over the leaf is odd. -/
def negates : Condition → Bool
  | .leaf _ _ _ | .group _ _ _ => false
  | .not condition _ => !condition.negates

variable {doc : Document}

theorem at?_of_isAttribute {attr : String} (hattr : IsAttribute attr) :
    doc.at? attr = Dict.get? doc attr := by
  rw [Document.at?, Text.split, Text.pieces_of_not_mem hattr.1, List.map_singleton,
    String.ofList_toList]
  rfl

/-- JavaScript compares an attribute with a whole number as the selector does. -/
theorem value?_comparison (document : String) {attr : String} {n : Number}
    (hget : Dict.get? doc attr = some (.num n)) (c : Comparison) (m : Integer) :
    (Expression.comparison c (.member document attr) (.number m.toDouble)).value? document doc =
      some (.truth (c.holds (Json.collate (.num n) (.num (.int m))))) := by
  have hmember : (Expression.member document attr).value? document doc =
      some (.number n.toDouble) := by
    rw [Expression.value?, if_pos rfl, hget]
    rfl
  rw [Expression.value?, hmember]
  rfl

section Meanings

variable [PatternEngine]

/-- Whether the guard of a condition lets a document through: a negation is a negation. -/
def guarded (doc : Document) : Condition → Bool
  | .leaf attr operator operand => operator.holds (doc.at? attr) operand
  | .not condition _ => !condition.guarded doc
  | .group left .and right => left.guarded doc && right.guarded doc
  | .group left .or right => left.guarded doc || right.guarded doc

/-- Whether the leaf under negations holds. A group has none. -/
def leafHolds (doc : Document) : Condition → Bool
  | .leaf attr operator operand => operator.holds (doc.at? attr) operand
  | .not condition _ => condition.leafHolds doc
  | .group _ _ _ => false

/-- Whether the selector of a condition selects a document: where a negation has an attribute, the
    leaf holds and the attribute does not match the comparison. -/
def selected (doc : Document) : Condition → Bool
  | .leaf attr operator operand => operator.holds (doc.at? attr) operand
  | .not condition comparison =>
    match condition.attributeName? with
    | some attr => condition.leafHolds doc && !passes (doc.at? attr) comparison
    | none => !condition.selected doc
  | .group left .and right => left.selected doc && right.selected doc
  | .group left .or right => left.selected doc || right.selected doc

/-! ## Selectors -/

/-- A comparison is answered whatever its operand is. -/
theorem ask_answered (token : String) (value : Option Json) (operand : Json)
    (htoken : token ∈ ["$eq", "$ne", "$gt", "$gte", "$lt", "$lte"]) :
    ∃ b, ask value token operand = .ok b := by
  simp only [List.mem_cons, List.not_mem_nil, or_false] at htoken
  rcases htoken with rfl | rfl | rfl | rfl | rfl | rfl
  all_goals
    rw [ask_comparison (by decide) (by decide)]
    cases value <;> exact ⟨_, rfl⟩

/-- The clause of a leaf that compares numbers is answered, and as the leaf means it. -/
theorem evalClause_of_compares (doc : Document) {attr : String} {operator : Operator}
    {operand : Json} (hattr : IsAttribute attr) (hcompares : operator.Compares operand) :
    ∃ clause, leafClause operator operand = .ok clause ∧
      evalClause doc attr clause = .ok (operator.holds (doc.at? attr) operand) := by
  suffices hanswered : ∃ clause, leafClause operator operand = .ok clause ∧
      ∃ b, test (doc.at? attr) clause = .ok b by
    obtain ⟨clause, hclause, b, htest⟩ := hanswered
    have hanswers : Answers (evalClause doc attr clause) (operator.holds (doc.at? attr) operand) :=
      evalClause_leafClause_answers hattr.2 hclause
    rw [evalClause_attribute (role_eq_attribute hattr.2)] at hanswers
    refine ⟨clause, hclause, ?_⟩
    rw [evalClause_attribute (role_eq_attribute hattr.2), htest, hanswers b htest]
  have hsingle : ∀ token ∈ ["$eq", "$ne", "$gt", "$gte", "$lt", "$lte"],
      ∃ b, test (doc.at? attr) (.obj [(token, operand)]) = .ok b := by
    intro token htoken
    have hdollar : Text.startsWith "$" token = true := by
      have hall : ∀ token ∈ ["$eq", "$ne", "$gt", "$gte", "$lt", "$lte"],
          Text.startsWith "$" token = true := by decide
      exact hall token htoken
    rw [test, if_pos (by rwa [isOperatorObject_singleton]), testAll_singleton]
    exact ask_answered token _ _ htoken
  cases operator with
  | equal => exact ⟨_, rfl, hsingle "$eq" (by decide)⟩
  | different => exact ⟨_, rfl, hsingle "$ne" (by decide)⟩
  | bigger => exact ⟨_, rfl, hsingle "$gt" (by decide)⟩
  | biggerEq => exact ⟨_, rfl, hsingle "$gte" (by decide)⟩
  | smaller => exact ⟨_, rfl, hsingle "$lt" (by decide)⟩
  | smallerEq => exact ⟨_, rfl, hsingle "$lte" (by decide)⟩
  | between =>
    obtain ⟨low, high, rfl, -⟩ := hcompares
    refine ⟨_, rfl, ?_⟩
    rw [test, if_pos (by rw [isOperatorObject_pair]; decide), testAll_cons, testAll_singleton]
    obtain ⟨b, hlow⟩ := ask_answered "$gte" (doc.at? attr) low (by decide)
    obtain ⟨d, hhigh⟩ := ask_answered "$lte" (doc.at? attr) high (by decide)
    rw [hlow, hhigh]
    cases b <;> exact ⟨_, rfl⟩
  | not => exact hcompares.elim
  | oneOf => exact hcompares.elim
  | regexp => exact hcompares.elim

/-- Two clauses that are answered give the conjunction, whichever is asked first. -/
theorem eval_pair {key other : String} {clause second : Json} {b d : Bool}
    (hfirst : evalClause doc key clause = .ok b) (hsecond : evalClause doc other second = .ok d) :
    eval doc [(key, clause), (other, second)] = .ok (b && d) := by
  rw [eval_cons, eval_cons, hfirst, hsecond]
  cases b <;> cases d <;> rfl

/-- The negated comparison beside the clause of a leaf. -/
theorem matches_insert_not {attr : String} {clause comparison : Json} {held : Bool}
    (hattr : IsAttribute attr) (hclause : evalClause doc attr clause = .ok held)
    (hwhole : comparison.IsWhole) :
    ((⟨[(attr, clause)]⟩ : Selector).insert "$not" (.obj [(attr, comparison)])).matches? doc =
      .ok (held && !passes (doc.at? attr) comparison) := by
  have hnegated : evalClause doc "$not" (.obj [(attr, comparison)]) =
      .ok (!passes (doc.at? attr) comparison) := by
    obtain ⟨n, rfl⟩ := hwhole
    have heval : eval doc [(attr, .num (.int n))] =
        .ok (passes (doc.at? attr) (.num (.int n))) := by
      rw [eval_cons, evalClause_attribute (role_eq_attribute hattr.2)]
      exact inTurn_answered _
    rw [evalClause_not, heval]
    rfl
  have hne : attr ≠ "$not" := ne_token hattr.2 (by decide)
  unfold Selector.matches? Selector.insert
  by_cases hlt : "$not" < attr
  · simp only [Dict.insert, if_pos hlt]
    rw [Bool.and_comm]
    exact eval_pair hnegated hclause
  · simp only [Dict.insert, if_neg hlt, if_neg hne]
    exact eval_pair hclause hnegated

/-- Negations of a leaf compile to the clause of the leaf, with at most one comparison beside it:
    every further negation puts its own in the place of the one before. -/
theorem compile_of_attributeName? (doc : Document) {c : Condition} {attr : String}
    (hnumeric : c.Numeric) (hname : c.attributeName? = some attr) : IsAttribute attr ∧
      ∃ clause s, evalClause doc attr clause = .ok (c.leafHolds doc) ∧ c.compile = .ok s ∧
        (s = ⟨[(attr, clause)]⟩ ∨
          ∃ negated, s = (⟨[(attr, clause)]⟩ : Selector).insert "$not" negated) := by
  induction c with
  | leaf own operator operand =>
    cases hname
    obtain ⟨clause, hclause, heval⟩ := evalClause_of_compares doc hnumeric.1 hnumeric.2
    refine ⟨hnumeric.1, clause, _, heval, ?_, .inl rfl⟩
    exact compile_leaf_eq_ok.mpr ⟨clause, hclause, rfl⟩
  | not condition comparison ih =>
    have hinner : condition.attributeName? = some attr := hname
    obtain ⟨hattr, clause, s, heval, hcompile, hs⟩ := ih hnumeric.1 hinner
    refine ⟨hattr, clause, s.insert "$not" (.obj [(attr, comparison)]), heval, ?_, .inr ?_⟩
    · exact (compile_not_of_attribute hinner).mpr ⟨s, hcompile, rfl⟩
    · rcases hs with rfl | ⟨negated, rfl⟩
      · exact ⟨_, rfl⟩
      · refine ⟨.obj [(attr, comparison)], ?_⟩
        rw [Selector.insert, Selector.insert, Selector.insert, Dict.insert_insert_self]
  | group left operator right => cases hname

/-- A group of two selectors that are answered is. -/
theorem matches_group {l r : Selector} {left right : Bool} (hl : l.matches? doc = .ok left)
    (hr : r.matches? doc = .ok right) :
    (Selector.group .and [l, r]).matches? doc = .ok (left && right) ∧
      (Selector.group .or [l, r]).matches? doc = .ok (left || right) := by
  have hand : evalAll doc [l.toJson, r.toJson] = .ok (left && right) := by
    change inTurn (l.matches? doc) (inTurn (r.matches? doc) (.ok true)) = _
    rw [hl, hr]
    cases left <;> cases right <;> rfl
  have hor : evalAny doc [l.toJson, r.toJson] = .ok (left || right) := by
    change (do
      let held ← l.matches? doc
      if held then pure true else do
        let held ← r.matches? doc
        if held then pure true else .ok false) = _
    rw [hl, hr]
    cases left <;> cases right <;> rfl
  exact ⟨(inTurn_answered _).trans hand, (inTurn_answered _).trans hor⟩

/-- A condition that compares numbers compiles, and matching its selector answers. -/
theorem matches_compile (doc : Document) {c : Condition} (hnumeric : c.Numeric) :
    ∃ s, c.compile = .ok s ∧ s.matches? doc = .ok (c.selected doc) := by
  induction c with
  | leaf attr operator operand =>
    obtain ⟨clause, hclause, heval⟩ := evalClause_of_compares doc hnumeric.1 hnumeric.2
    refine ⟨⟨[(attr, clause)]⟩, compile_leaf_eq_ok.mpr ⟨clause, hclause, rfl⟩, ?_⟩
    rw [Selector.matches?, eval_cons, heval]
    exact inTurn_answered _
  | not condition comparison ih =>
    cases hname : condition.attributeName? with
    | some attr =>
      obtain ⟨hattr, clause, s, heval, hcompile, hs⟩ :=
        compile_of_attributeName? doc hnumeric.1 hname
      refine ⟨s.insert "$not" (.obj [(attr, comparison)]), ?_, ?_⟩
      · exact (compile_not_of_attribute hname).mpr ⟨s, hcompile, rfl⟩
      · have hmatches := matches_insert_not hattr heval hnumeric.2
        rw [selected, hname]
        rcases hs with rfl | ⟨negated, rfl⟩
        · exact hmatches
        · rw [Selector.insert, Selector.insert, Dict.insert_insert_self]
          exact hmatches
    | none =>
      obtain ⟨s, hcompile, hmatches⟩ := ih hnumeric.1
      refine ⟨⟨[("$not", s.toJson)]⟩,
        (compile_not_of_no_attribute hname).mpr ⟨s, hcompile, rfl⟩, ?_⟩
      rw [Selector.matches?, eval_cons, Selector.toJson, evalClause_not, selected, hname]
      rw [Selector.matches?] at hmatches
      rw [hmatches]
      exact inTurn_answered _
  | group left operator right ihleft ihright =>
    obtain ⟨l, hl, hleft⟩ := ihleft hnumeric.1
    obtain ⟨r, hr, hright⟩ := ihright hnumeric.2
    refine ⟨_, compile_group_eq_ok.mpr ⟨l, r, hl, hr, rfl⟩, ?_⟩
    cases operator with
    | and => exact (matches_group hleft hright).1
    | or => exact (matches_group hleft hright).2

/-! ## Guards -/

/-- The guard of a leaf that compares numbers is true where the leaf holds. -/
theorem value?_leafGuard {document attr : String} {n : Number} {operator : Operator}
    {operand : Json} (hcompares : operator.Compares operand)
    (hget : Dict.get? doc attr = some (.num n)) :
    ∃ e, (leafGuard attr operand operator).expression? document = some e ∧
      e.value? document doc =
        some (.truth (operator.holds (Dict.get? doc attr) operand)) := by
  have hvalue := value?_comparison document hget
  rw [hget]
  cases operator with
  | between =>
    obtain ⟨_, _, rfl, ⟨low, rfl⟩, ⟨high, rfl⟩⟩ := hcompares
    refine ⟨_, rfl, ?_⟩
    have hmeans : Operator.between.holds (some (.num n))
        (.arr [.num (.int low), .num (.int high)]) =
        (Comparison.atLeast.holds (Json.collate (.num n) (.num (.int low))) &&
          Comparison.atMost.holds (Json.collate (.num n) (.num (.int high)))) := rfl
    rw [Expression.value?, hvalue, hvalue, hmeans]
    cases Comparison.atLeast.holds (Json.collate (.num n) (.num (.int low))) <;> rfl
  | not => exact hcompares.elim
  | oneOf => exact hcompares.elim
  | regexp => exact hcompares.elim
  | _ =>
    obtain ⟨m, rfl⟩ := hcompares
    exact ⟨_, rfl, hvalue _ m⟩

/-- The guard of a condition is an expression that is true or false of a document. -/
theorem value?_guard (document : String) {c : Condition} (hnumeric : c.Numeric)
    (hcovers : c.Covers doc) :
    ∃ e, c.guard.expression? document = some e ∧
      e.value? document doc = some (.truth (c.guarded doc)) := by
  induction c with
  | leaf attr operator operand =>
    obtain ⟨n, hget⟩ := hcovers attr List.mem_cons_self
    rw [guarded, at?_of_isAttribute hnumeric.1]
    exact value?_leafGuard hnumeric.2 hget
  | not condition comparison ih =>
    obtain ⟨e, hexpression, hvalue⟩ := ih hnumeric.1 hcovers
    refine ⟨.negation e, ?_, ?_⟩
    · rw [guard, Guard.expression?, hexpression, Option.map_some]
    · rw [Expression.value?, hvalue]
      rfl
  | group left operator right ihleft ihright =>
    obtain ⟨l, hl, hleft⟩ := ihleft hnumeric.1 fun attr hattr =>
      hcovers attr (List.mem_append_left _ hattr)
    obtain ⟨r, hr, hright⟩ := ihright hnumeric.2 fun attr hattr =>
      hcovers attr (List.mem_append_right _ hattr)
    cases operator with
    | and =>
      refine ⟨.both l r, by rw [guard, Guard.expression?, hl, hr]; rfl, ?_⟩
      rw [Expression.value?, hleft, guarded]
      cases left.guarded doc
      · rfl
      · exact hright
    | or =>
      refine ⟨.either l r, by rw [guard, Guard.expression?, hl, hr]; rfl, ?_⟩
      rw [Expression.value?, hleft, guarded]
      cases left.guarded doc
      · exact hright
      · rfl

/-! ## Agreement -/

theorem guarded_eq_selected {c : Condition} (hunbound : c.Unbound) :
    c.guarded doc = c.selected doc := by
  induction c with
  | leaf attr operator operand => rfl
  | not condition comparison ih => rw [guarded, selected, hunbound.1, ih hunbound.2]
  | group left operator right ihleft ihright =>
    cases operator <;> rw [guarded, selected, ihleft hunbound.1, ihright hunbound.2]

theorem guarded_of_attributeName? {c : Condition} {attr : String}
    (hname : c.attributeName? = some attr) : c.guarded doc = (c.leafHolds doc != c.negates) := by
  induction c with
  | leaf own operator operand => exact (Bool.bne_false _).symm
  | not condition comparison ih =>
    rw [guarded, ih hname, leafHolds, negates]
    cases condition.leafHolds doc <;> cases condition.negates <;> rfl
  | group left operator right => cases hname

/-- A condition that compares numbers compiles, matching answers, and its JavaScript is true or
    false. The two agree if no negation has an attribute. A negation that has one makes them agree
    only on some documents: if the number of negations over the leaf is odd, where the leaf holds
    of the very comparison, and else wherever that is not so. -/
theorem guard_agrees_unless_bound {c : Condition} {document : String}
    (hname : Script.isName document.toList = true) (hnumeric : c.Numeric)
    (hcovers : c.Covers doc) :
    ∃ s selects passed, c.compile = .ok s ∧ s.matches? doc = .ok selects ∧
      Script.holds? document doc (c.script document) = some passed ∧
      (c.Unbound → passed = selects) ∧
      ∀ inner comparison attr, c = .not inner comparison → inner.attributeName? = some attr →
        (passed = selects ↔
          (inner.leafHolds doc && passes (doc.at? attr) comparison) = c.negates) := by
  obtain ⟨s, hcompile, hmatches⟩ := matches_compile doc hnumeric
  obtain ⟨e, hexpression, hvalue⟩ := value?_guard document hnumeric hcovers
  have hholds : Script.holds? document doc (c.script document) = some (c.guarded doc) := by
    rw [Script.holds?, script, Guard.read?_text hname hexpression, Option.bind_some, hvalue]
    rfl
  refine ⟨s, c.selected doc, c.guarded doc, hcompile, hmatches, hholds, guarded_eq_selected, ?_⟩
  rintro inner comparison attr rfl hattr
  have hselected : (Condition.not inner comparison).selected doc =
      (inner.leafHolds doc && !passes (doc.at? attr) comparison) := by
    rw [selected, hattr]
  rw [guarded, guarded_of_attributeName? hattr, hselected, negates]
  cases inner.leafHolds doc <;> cases inner.negates <;>
    cases passes (doc.at? attr) comparison <;> decide

end Meanings

/-- Not both of two comparisons, or another one. -/
def negatedPairSample : Condition :=
  .or (.not (.and (.leaf "age" .biggerEq (.num (.int ⟨10, by decide, by decide⟩)))
      (.leaf "size" .between (.arr [.num (.int ⟨-2, by decide, by decide⟩),
        .num (.int ⟨2, by decide, by decide⟩)]))) (.num (.int ⟨0, by decide, by decide⟩)))
    (.leaf "age" .different (.num (.int ⟨11, by decide, by decide⟩)))

/-- A document with both attributes. -/
def agedDocument : Document :=
  [("age", .num (.int ⟨12, by decide, by decide⟩)),
    ("size", .num (.int ⟨-2, by decide, by decide⟩))]

theorem guard_agrees_negatedPairSample :
    ∃ s selects, negatedPairSample.compile = .ok s ∧ s.matches? agedDocument = .ok selects ∧
      Script.holds? "doc" agedDocument (negatedPairSample.script "doc") = some selects := by
  have hnumeric : negatedPairSample.Numeric :=
    ⟨⟨⟨⟨by decide, _, rfl⟩, by decide, _, _, rfl, ⟨_, rfl⟩, _, rfl⟩, _, rfl⟩, by decide, _, rfl⟩
  have hcovers : negatedPairSample.Covers agedDocument := by
    intro attr hattr
    have hmentioned : attr ∈ ["age", "size", "age"] := hattr
    simp only [List.mem_cons, List.not_mem_nil, or_false] at hmentioned
    rcases hmentioned with rfl | rfl | rfl <;> exact ⟨_, rfl⟩
  obtain ⟨s, selects, passed, hcompile, hmatches, hholds, hagree, -⟩ :=
    guard_agrees_unless_bound (by decide : Script.isName "doc".toList = true) hnumeric hcovers
  rw [hagree ⟨⟨rfl, trivial, trivial⟩, trivial⟩] at hholds
  exact ⟨s, selects, hcompile, hmatches, hholds⟩

/-- Above ten, bound to thirty. -/
def boundNegationSample : Condition :=
  .not (.leaf "age" .bigger (.num (.int ⟨10, by decide, by decide⟩)))
    (.num (.int ⟨30, by decide, by decide⟩))

/-- An age of five is not above ten, so it passes the guard of a negation bound to thirty. The
    selector asks for an age above ten other than thirty. -/
theorem bound_negation_guard_differs :
    ¬∀ (c : Condition) (doc : Document) (s : Selector), c.Numeric → c.Covers doc →
      c.compile = .ok s →
        (Script.holds? "doc" doc (c.script "doc") = some true ↔ s.matches? doc = .ok true) := by
  intro hagree
  have hnumeric : boundNegationSample.Numeric := ⟨⟨by decide, _, rfl⟩, _, rfl⟩
  have hcovers : boundNegationSample.Covers [("age", .num (.int ⟨5, by decide, by decide⟩))] := by
    intro attr hattr
    cases List.mem_singleton.mp hattr
    exact ⟨_, rfl⟩
  obtain ⟨s, hcompile, hmatches⟩ := matches_compile _ hnumeric
  have hselected : boundNegationSample.selected
      [("age", .num (.int ⟨5, by decide, by decide⟩))] = false := by
    decide +kernel
  have hguard : Script.holds? "doc" [("age", .num (.int ⟨5, by decide, by decide⟩))]
      (boundNegationSample.script "doc") = some true := by
    decide +kernel
  have htrue := (hagree _ _ s hnumeric hcovers hcompile).mp hguard
  rw [hmatches, hselected] at htrue
  cases htrue

end Condition

end DocMapper
