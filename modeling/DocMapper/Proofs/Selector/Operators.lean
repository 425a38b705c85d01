import DocMapper.Selector.Matching

/-!
# Clauses of attributes

What a clause asks under a key that names an attribute.
-/

namespace DocMapper.Selector

/-- No attribute is named like a token. -/
theorem ne_token {key token : String} (hkey : Text.startsWith "$" key = false)
    (htoken : Text.startsWith "$" token = true) : key ≠ token := by
  rintro rfl
  rw [htoken] at hkey
  cases hkey

/-- A key without a dollar sign in front names an attribute. -/
theorem role_eq_attribute {key : String} (hkey : Text.startsWith "$" key = false) :
    role key = .attribute := by
  have hdollar : ¬Text.startsWith "$" key = true := by simp [hkey]
  rw [role, if_neg (ne_token hkey (by decide)), if_neg (ne_token hkey (by decide)),
    if_neg (ne_token hkey (by decide)), if_neg (ne_token hkey (by decide)), if_neg hdollar]

theorem isOperatorObject_singleton (operator : String) (operand : Json) :
    isOperatorObject (.obj [(operator, operand)]) = Text.startsWith "$" operator := by
  simp [isOperatorObject]

theorem isOperatorObject_pair (first second : String) (low high : Json) :
    isOperatorObject (.obj [(first, low), (second, high)]) =
      (Text.startsWith "$" first && Text.startsWith "$" second) := by
  simp [isOperatorObject]

variable [PatternEngine] {doc : Document} {value : Option Json}

/-- Under the name of an attribute every clause is asked of the value at that path. -/
theorem evalClause_attribute {key : String} (hrole : role key = .attribute) (clause : Json) :
    evalClause doc key clause = test (doc.at? key) clause := by
  cases clause <;> simp only [evalClause, hrole]

/-- What one operator asks of a value that may be missing. -/
def ask (value : Option Json) (operator : String) (operand : Json) : Except SelectorError Bool :=
  if operator = "$exists" then
    match operand with
    | .bool expected => .ok (value.isSome == expected)
    | _ => .error .existsNotBoolean
  else if operator = "$not" then (test value operand).map not
  else
    match value with
    | none => .ok false
    | some v => applyOperator operator v operand

/-- Operators are asked one after another, up to the first that does not hold. -/
theorem testAll_cons (operator : String) (operand : Json) (rest : Fields) :
    testAll value ((operator, operand) :: rest) = (do
      let held ← ask value operator operand
      if held then testAll value rest else pure false) := by
  rw [testAll.eq_def]
  unfold ask
  by_cases hexists : operator = "$exists"
  · simp only [if_pos hexists]
    cases operand <;> rfl
  · simp only [if_neg hexists]
    by_cases hnot : operator = "$not"
    · simp only [if_pos hnot]
      cases test value operand <;> rfl
    · simp only [if_neg hnot]
      cases value <;> rfl

theorem testAll_singleton (operator : String) (operand : Json) :
    testAll value [(operator, operand)] = ask value operator operand := by
  rw [testAll_cons]
  cases ask value operator operand with
  | error e => rfl
  | ok held => cases held <;> rfl

/-- An operator other than the two that are asked of missing values too is asked of a value that
    is there. -/
theorem ask_comparison {operator : String} (hexists : operator ≠ "$exists")
    (hnot : operator ≠ "$not") (operand : Json) :
    ask value operator operand = match value with
      | none => .ok false
      | some v => applyOperator operator v operand := by
  unfold ask
  rw [if_neg hexists, if_neg hnot]

theorem test_eq_testAll {operators : Fields} (hops : isOperatorObject (.obj operators) = true) :
    test value (.obj operators) = testAll value operators := by
  rw [test, if_pos hops]

/-- A comparison of an attribute is asked of its value, and does not hold where there is none. -/
theorem evalClause_comparison {attr operator : String} (hrole : role attr = .attribute)
    (hdollar : Text.startsWith "$" operator = true) (hexists : operator ≠ "$exists")
    (hnot : operator ≠ "$not") (operand : Json) :
    evalClause doc attr (.obj [(operator, operand)]) = match doc.at? attr with
      | none => .ok false
      | some v => applyOperator operator v operand := by
  rw [evalClause_attribute hrole, test_eq_testAll (by rwa [isOperatorObject_singleton]),
    testAll_singleton, ask_comparison hexists hnot]

/-- An attribute equals a value where the two collate equal. -/
theorem matches?_equals {attr : String} (hrole : role attr = .attribute) (wanted : Json)
    (doc : Document) : (equals attr wanted).matches? doc =
      .ok ((doc.at? attr).any fun v => v.collate wanted == .eq) := by
  have hclause : evalClause doc attr (.obj [("$eq", wanted)]) =
      .ok ((doc.at? attr).any fun v => v.collate wanted == .eq) := by
    rw [evalClause_comparison hrole (by decide) (by decide) (by decide)]
    cases doc.at? attr <;> rfl
  rw [matches?, equals, eval, hclause]
  cases (doc.at? attr).any fun v => v.collate wanted == .eq <;> rfl

end DocMapper.Selector
