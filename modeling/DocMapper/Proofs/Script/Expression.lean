import DocMapper.Condition.Guard
import DocMapper.Document.Basic
import DocMapper.Json.Reader

/-!
# JavaScript expressions

What a text means as a JavaScript expression over the document that a variable holds, for texts
of comparisons joined by `!`, `&&`, `||` and brackets. Operands are attributes of the document and
whole numbers. Operators bind as in JavaScript. Any other text has no reading, and operands that
are no numbers are not compared.
-/

namespace DocMapper

/-- Whether operands in this order stand in the relation of a comparison. -/
def Comparison.holds : Comparison → Ordering → Bool
  | .strictEqual, order => order == .eq
  | .strictUnequal, order => order != .eq
  | .above, order => order == .gt
  | .atLeast, order => order != .lt
  | .below, order => order == .lt
  | .atMost, order => order != .gt

namespace Script

/-- What an expression evaluates to. -/
inductive Value where
  | number (x : Double)
  | truth (b : Bool)
deriving DecidableEq

namespace Value

/-- Zero and `false` count as false. -/
def holds : Value → Bool
  | .number x => x.magnitude != 0
  | .truth b => b

/-- The value of an attribute. -/
def ofJson? : Json → Option Value
  | .num n => some (.number n.toDouble)
  | .bool b => some (.truth b)
  | _ => none

/-- Numbers compare by value. -/
def compare? (c : Comparison) : Value → Value → Option Value
  | .number x, .number y => some (.truth (c.holds (x.compare y)))
  | _, _ => none

end Value

/-- An expression: operands, comparisons, and what joins them. -/
inductive Expression where
  | number (x : Double)
  | member (object attr : String)
  | comparison (c : Comparison) (left right : Expression)
  | negation (e : Expression)
  | both (left right : Expression)
  | either (left right : Expression)
deriving DecidableEq

/-- The value of an expression where a variable holds a document. The right side of `&&` and `||`
    is asked only if the left side does not decide. -/
def Expression.value? (document : String) (doc : Document) : Expression → Option Value
  | .number x => some (.number x)
  | .member object attr =>
    if object = document then (Dict.get? doc attr).bind Value.ofJson? else none
  | .comparison c left right => do
    let l ← left.value? document doc
    let r ← right.value? document doc
    Value.compare? c l r
  | .negation e => (e.value? document doc).map fun v => .truth (!v.holds)
  | .both left right => do
    let l ← left.value? document doc
    if l.holds then right.value? document doc else some l
  | .either left right => do
    let l ← left.value? document doc
    if l.holds then some l else right.value? document doc

/-! ## Reading -/

/-- The words that name no variable. -/
def reserved : List String := [
  "arguments", "await", "break", "case", "catch", "class", "const", "continue", "debugger",
  "default", "delete", "do", "else", "enum", "eval", "export", "extends", "false", "finally",
  "for", "function", "if", "implements", "import", "in", "instanceof", "interface", "let", "new",
  "null", "package", "private", "protected", "public", "return", "static", "super", "switch",
  "this", "throw", "true", "try", "typeof", "var", "void", "while", "with", "yield"]

/-- Whether a character can stand in a name. -/
def isNameChar (c : Char) : Bool := c.isAlphanum || c = '_' || c = '$'

/-- Whether a text names a variable: no digit leads. -/
def isName : List Char → Bool
  | [] => false
  | c :: name => !c.isDigit && (c :: name).all isNameChar &&
    !reserved.contains (String.ofList (c :: name))

/-- A whole number of at most 64 bits; no zero leads other digits. -/
def number? (text : List Char) : Option (Double × List Char) :=
  match Reading.digitRun text with
  | ([], _) | (0 :: _ :: _, _) => none
  | (digits, rest) =>
    (Integer.ofInt? (Reading.valueOf digits)).map fun n => (n.toDouble, rest)

/-- A variable with the attribute that its index names. -/
def member? (text : List Char) : Option (Expression × List Char) :=
  let name := text.takeWhile isNameChar
  if isName name then
    match Json.Reader.skipBlanks (text.dropWhile isNameChar) with
    | '[' :: rest =>
      match Json.Reader.skipBlanks rest with
      | '"' :: rest => do
        let (attr, rest) ← Json.Reader.string? (rest.length + 1) [] rest
        match Json.Reader.skipBlanks rest with
        | ']' :: rest => some (.member (String.ofList name) attr, rest)
        | _ => none
      | _ => none
    | _ => none
  else none

/-- The sign of a comparison. -/
def sign? : List Char → Option (Comparison × List Char)
  | '=' :: '=' :: '=' :: rest => some (.strictEqual, rest)
  | '!' :: '=' :: '=' :: rest => some (.strictUnequal, rest)
  | '>' :: '=' :: rest => some (.atLeast, rest)
  | '>' :: rest => some (.above, rest)
  | '<' :: '=' :: rest => some (.atMost, rest)
  | '<' :: rest => some (.below, rest)
  | _ => none

mutual

/-- Conjunctions with `||` between them. -/
def disjunction? : Nat → List Char → Option (Expression × List Char)
  | 0, _ => none
  | fuel + 1, text => do
    let (left, rest) ← conjunction? fuel text
    match Json.Reader.skipBlanks rest with
    | '|' :: '|' :: rest => do
      let (right, rest) ← disjunction? fuel rest
      return (.either left right, rest)
    | _ => return (left, rest)

/-- Comparisons with `&&` between them. -/
def conjunction? : Nat → List Char → Option (Expression × List Char)
  | 0, _ => none
  | fuel + 1, text => do
    let (left, rest) ← comparison? fuel text
    match Json.Reader.skipBlanks rest with
    | '&' :: '&' :: rest => do
      let (right, rest) ← conjunction? fuel rest
      return (.both left right, rest)
    | _ => return (left, rest)

/-- An operand, or two of them with a sign in between. -/
def comparison? : Nat → List Char → Option (Expression × List Char)
  | 0, _ => none
  | fuel + 1, text => do
    let (left, rest) ← operand? fuel text
    match sign? (Json.Reader.skipBlanks rest) with
    | some (c, rest) => do
      let (right, rest) ← operand? fuel rest
      return (.comparison c left right, rest)
    | none => return (left, rest)

/-- An attribute, a number with or without a sign, a negated operand, or an expression in
    brackets. -/
def operand? : Nat → List Char → Option (Expression × List Char)
  | 0, _ => none
  | fuel + 1, text =>
    match Json.Reader.skipBlanks text with
    | '!' :: rest => (operand? fuel rest).map fun (e, rest) => (.negation e, rest)
    | '(' :: rest => do
      let (e, rest) ← disjunction? fuel rest
      match Json.Reader.skipBlanks rest with
      | ')' :: rest => some (e, rest)
      | _ => none
    | '-' :: rest => (number? rest).map fun (x, rest) => (.number x.neg, rest)
    | text =>
      match number? text with
      | some (x, rest) => some (.number x, rest)
      | none => member? text

end

/-- The expression that a text writes. Every bracket takes four steps. -/
def read? (text : String) : Option Expression :=
  match disjunction? (4 * text.length + 4) text.toList with
  | some (e, rest) => if (Json.Reader.skipBlanks rest).isEmpty then some e else none
  | none => none

/-- Whether a text is true as an expression where a variable holds a document. -/
def holds? (document : String) (doc : Document) (text : String) : Option Bool :=
  (read? text).bind fun e => (e.value? document doc).map Value.holds

example : holds? "doc" [("a", .num (.int ⟨3, by decide, by decide⟩))]
    "!(doc[\"a\"] === -3) && doc[\"a\"]<4||doc[\"b\"]" = some true := by decide +kernel

end Script

end DocMapper
