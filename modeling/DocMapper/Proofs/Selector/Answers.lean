import DocMapper.Proofs.Condition.Meaning
import DocMapper.Proofs.Selector.Operators

/-!
# Answers of tests

Matching asks questions in turn, stops at the first that decides, and fails where a question
means nothing. Where it answers all the same, the answer is the one that asking everything and
never failing would give.
-/

namespace DocMapper.Selector

/-- Whatever the question answers is this truth value; a failure is no answer. -/
def Answers {ε : Type} (question : Except ε Bool) (truth : Bool) : Prop :=
  ∀ b, question = .ok b → b = truth

section Connectives

variable {ε : Type} {first second : Except ε Bool} {left right : Bool}

theorem answers_ok (b : Bool) : Answers (.ok b : Except ε Bool) b := by
  intro answer hanswer
  cases hanswer
  rfl

theorem answers_error (e : ε) (truth : Bool) : Answers (.error e : Except ε Bool) truth := by
  intro answer hanswer
  cases hanswer

/-- Stopping at the first question that is answered `false` gives the conjunction. -/
theorem answers_and (hfirst : Answers first left) (hsecond : Answers second right) :
    Answers (do let held ← first; if held then second else pure false) (left && right) := by
  cases first with
  | error e => exact answers_error e _
  | ok held =>
    rw [← hfirst held rfl]
    cases held with
    | false => exact answers_ok false
    | true => exact hsecond

/-- Stopping at the first question that is answered `true` gives the disjunction. -/
theorem answers_or (hfirst : Answers first left) (hsecond : Answers second right) :
    Answers (do let held ← first; if held then pure true else second) (left || right) := by
  cases first with
  | error e => exact answers_error e _
  | ok held =>
    rw [← hfirst held rfl]
    cases held with
    | false => exact hsecond
    | true => exact answers_ok true

theorem answers_not (hfirst : Answers first left) : Answers (first.map not) (!left) := by
  cases first with
  | error e => exact answers_error e _
  | ok held =>
    rw [← hfirst held rfl]
    exact answers_ok _

theorem answers_ite {c : Prop} [Decidable c] (hthen : c → Answers first left)
    (helse : ¬c → Answers second right) :
    Answers (if c then first else second) (if c then left else right) := by
  by_cases hc : c
  · rw [if_pos hc, if_pos hc]
    exact hthen hc
  · rw [if_neg hc, if_neg hc]
    exact helse hc

end Connectives

variable [PatternEngine] {value : Option Json} {doc : Document}

/-- A list answers membership, and anything else has no answer. -/
theorem applyOperator_membership_answers {token : String} (v operand : Json)
    (htoken : token = "$in" ∨ token = "$nin") :
    Answers (applyOperator token v operand) (related token v operand) := by
  cases operand with
  | arr items =>
    rcases htoken with rfl | rfl
    · exact answers_ok (items.any v.equivalent)
    · exact answers_ok !items.any v.equivalent
  | _ => rcases htoken with rfl | rfl <;> exact answers_error _ _

/-- A pattern answers whether it occurs, which it does only in texts. -/
theorem applyOperator_regex_answers (v operand : Json) :
    Answers (applyOperator "$regex" v operand) (related "$regex" v operand) := by
  cases operand with
  | str text =>
    cases hsearch : PatternEngine.search text with
    | error reason =>
      have herror : applyOperator "$regex" v (.str text) = .error (.badPattern reason) := by
        simp [applyOperator, hsearch]
      rw [herror]
      exact answers_error _ _
    | ok occursIn =>
      have happly : applyOperator "$regex" v (.str text) =
          .ok (related "$regex" v (.str text)) := by
        cases v <;> simp [applyOperator, related, Operator.relates, hsearch]
      rw [happly]
      exact answers_ok _
  | _ => exact answers_error _ _

/-- An operator that is known and has a fitting operand answers the relation it names. -/
theorem applyOperator_answers (token : String) (v operand : Json) :
    Answers (applyOperator token v operand) (related token v operand) := by
  by_cases hmember : token = "$in" ∨ token = "$nin"
  · exact applyOperator_membership_answers v operand hmember
  by_cases hregex : token = "$regex"
  · subst hregex
    exact applyOperator_regex_answers v operand
  obtain ⟨hin, hnin⟩ := not_or.mp hmember
  unfold applyOperator related
  rw [if_neg hmember, if_neg hregex, if_neg hin, if_neg hnin, if_neg hregex]
  refine answers_ite (fun _ => answers_ok _) fun _ => ?_
  refine answers_ite (fun _ => answers_ok _) fun _ => ?_
  refine answers_ite (fun _ => answers_ok _) fun _ => ?_
  refine answers_ite (fun _ => answers_ok _) fun _ => ?_
  refine answers_ite (fun _ => answers_ok _) fun _ => ?_
  exact answers_ite (fun _ => answers_ok _) fun _ => answers_error _ _

/-- An operator answers what its direct evaluation gives, provided that the test under a negation
    does. -/
theorem ask_answers {operator : String} {operand : Json}
    (hnegated : Answers (test value operand) (passes value operand)) :
    Answers (ask value operator operand) (if operator = "$exists" then
        operand.asBool? == some value.isSome
      else if operator = "$not" then !passes value operand
      else value.any fun v => related operator v operand) := by
  unfold ask
  refine answers_ite (fun _ => ?_) fun _ => answers_ite (fun _ => answers_not hnegated) fun _ => ?_
  · cases operand with
    | bool expected =>
      have hexpected : (Json.asBool? (.bool expected) == some value.isSome) =
          (value.isSome == expected) := by
        cases value <;> cases expected <;> rfl
      rw [hexpected]
      exact answers_ok _
    | _ => exact answers_error _ _
  · cases value with
    | none => exact answers_ok false
    | some v => exact applyOperator_answers operator v operand

/-- A test that is answered at all is answered the way its direct evaluation goes, however deep
    negations nest in it. -/
theorem test_answers (value : Option Json) :
    (∀ operand, Answers (test value operand) (passes value operand)) ∧
      ∀ operators, Answers (testAll value operators) (passesAll value operators) := by
  refine passes.mutual_induct _ _ ?operators ?object ?plain ?nil ?cons
  case operators =>
    intro operators hops ih
    rw [test, passes, if_pos hops, if_pos hops]
    exact ih
  case object =>
    intro operators hops
    rw [test, passes, if_neg hops, if_neg hops]
    exact answers_ok _
  case plain =>
    intro operand hplain
    cases operand with
    | obj operators => exact absurd rfl (hplain operators)
    | _ => exact answers_ok _
  case nil => exact answers_ok true
  case cons =>
    intro operator operand rest hoperand hrest
    rw [testAll_cons, passesAll]
    exact answers_and (ask_answers hoperand) hrest

end DocMapper.Selector
