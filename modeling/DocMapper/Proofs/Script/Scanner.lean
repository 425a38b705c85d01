import DocMapper.Proofs.Script.Expression

/-!
# Scanning JavaScript

A text is read character by character, with the brackets that are open and whether a character is
code or belongs to a literal or a comment. So it is told what of a text stands at the top, outside
of all brackets, literals and comments, and where the text falls apart at `||` and at `&&`.
-/

namespace DocMapper.Script

/-- What can be open. A hole is code within a template. -/
inductive Bracket where
  | round
  | square
  | curly
  | hole
deriving DecidableEq, Repr

/-- What the next character belongs to. Code tells whether an operand has just ended. -/
inductive Mode where
  | code (operand : Bool)
  | slash (operand : Bool)
  | lineComment (operand : Bool)
  | blockComment (operand : Bool)
  | commentStar (operand : Bool)
  | quoted (mark : Char)
  | escaped (mark : Char)
  | pattern (inClass : Bool)
  | patternEscaped (inClass : Bool)
  | template
  | templateEscaped
  | templateDollar
deriving DecidableEq, Repr

/-- A place in a text: the mode there, and the open brackets, the innermost first. -/
structure Place where
  mode : Mode
  brackets : List Bracket
deriving DecidableEq, Repr

/-- The place in front of an expression. -/
def start : Place := ⟨.code false, []⟩

/-- The apostrophe. -/
def apostrophe : Char := Char.ofNat 39

/-- The mark of a template. -/
def backquote : Char := Char.ofNat 96

/-- Whether a line ends with the character. -/
def isLineEnd (c : Char) : Bool := c = '\n' || c = '\r' || c.toNat = 0x2028 || c.toNat = 0x2029

/-- Whether an operand can end with the character. -/
def endsOperand (c : Char) : Bool := isNameChar c || c = '.' || 0x80 ≤ c.toNat

/-- Close the innermost bracket, if it is of this kind. -/
def close? (bracket : Bracket) : List Bracket → Option Place
  | [] => none
  | innermost :: outer => if innermost = bracket then some ⟨.code true, outer⟩ else none

/-- Close a brace; that of a hole goes on with its template. -/
def closeBrace? : List Bracket → Option Place
  | .hole :: outer => some ⟨.template, outer⟩
  | brackets => close? .curly brackets

/-- Read a character of code. -/
def codeStep (operand : Bool) (brackets : List Bracket) (c : Char) : Option Place :=
  if c = '(' then some ⟨.code false, .round :: brackets⟩
  else if c = '[' then some ⟨.code false, .square :: brackets⟩
  else if c = '{' then some ⟨.code false, .curly :: brackets⟩
  else if c = ')' then close? .round brackets
  else if c = ']' then close? .square brackets
  else if c = '}' then closeBrace? brackets
  else if c = '"' || c = apostrophe then some ⟨.quoted c, brackets⟩
  else if c = backquote then some ⟨.template, brackets⟩
  else if c = '/' then some ⟨.slash operand, brackets⟩
  else if Text.isBlank c then some ⟨.code operand, brackets⟩
  else some ⟨.code (endsOperand c), brackets⟩

/-- Read a character of a regular expression. -/
def patternStep (inClass : Bool) (brackets : List Bracket) (c : Char) : Option Place :=
  if isLineEnd c then none
  else if c = '\\' then some ⟨.patternEscaped inClass, brackets⟩
  else if c = '[' then some ⟨.pattern true, brackets⟩
  else if c = ']' then some ⟨.pattern false, brackets⟩
  else if c = '/' && !inClass then some ⟨.code true, brackets⟩
  else some ⟨.pattern inClass, brackets⟩

/-- Read a character of a template. -/
def templateStep (brackets : List Bracket) (c : Char) : Place :=
  if c = backquote then ⟨.code true, brackets⟩
  else if c = '\\' then ⟨.templateEscaped, brackets⟩
  else if c = '$' then ⟨.templateDollar, brackets⟩
  else ⟨.template, brackets⟩

namespace Place

/-- Read a character. There is no place behind a bracket that closes none, nor behind the end of a
    line within a literal. A slash behind an operand divides, any other one begins a comment or a
    regular expression. -/
def step (p : Place) (c : Char) : Option Place :=
  match p.mode with
  | .code operand => codeStep operand p.brackets c
  | .slash operand =>
    if c = '/' then some ⟨.lineComment operand, p.brackets⟩
    else if c = '*' then some ⟨.blockComment operand, p.brackets⟩
    else if operand then codeStep false p.brackets c
    else patternStep false p.brackets c
  | .lineComment operand =>
    some ⟨if isLineEnd c then .code operand else .lineComment operand, p.brackets⟩
  | .blockComment operand =>
    some ⟨if c = '*' then .commentStar operand else .blockComment operand, p.brackets⟩
  | .commentStar operand =>
    some ⟨if c = '/' then .code operand
      else if c = '*' then .commentStar operand else .blockComment operand, p.brackets⟩
  | .quoted mark =>
    if c = mark then some ⟨.code true, p.brackets⟩
    else if c = '\\' then some ⟨.escaped mark, p.brackets⟩
    else if c = '\n' || c = '\r' then none
    else some ⟨.quoted mark, p.brackets⟩
  | .escaped mark => some ⟨.quoted mark, p.brackets⟩
  | .pattern inClass => patternStep inClass p.brackets c
  | .patternEscaped inClass =>
    if isLineEnd c then none else some ⟨.pattern inClass, p.brackets⟩
  | .template => some (templateStep p.brackets c)
  | .templateEscaped => some ⟨.template, p.brackets⟩
  | .templateDollar =>
    if c = '{' then some ⟨.code false, .hole :: p.brackets⟩ else some (templateStep p.brackets c)

/-- The place behind a text. -/
def run (p : Place) (text : List Char) : Option Place := text.foldlM step p

/-- Whether a character that comes next is code outside of all brackets. -/
def isTop (p : Place) (c : Char) : Bool :=
  p.brackets.isEmpty &&
    match p.mode with
    | .code _ => true
    | .slash operand => operand && c ≠ '/' && c ≠ '*'
    | _ => false

/-- The characters of a text that are code outside of all brackets. Of a bracket or a literal only
    the mark that begins it is. -/
def topLevel (p : Place) : List Char → List Char
  | [] => []
  | c :: text =>
    match p.step c with
    | none => []
    | some q => if p.isTop c then c :: topLevel q text else topLevel q text

end Place

/-- Put a text in front of the first piece. -/
def glue (front : List Char) : List (List Char) → List (List Char)
  | [] => [front]
  | piece :: pieces => (front ++ piece) :: pieces

/-- The pieces of a text between the places where a mark stands twice at the top. -/
def splitTop (mark : Char) (p : Place) : List Char → List (List Char)
  | [] => [[]]
  | [c] => [[c]]
  | c :: d :: text =>
    if p.isTop c && c = mark && d = mark then [] :: splitTop mark start text
    else match p.step c with
      | none => [c :: d :: text]
      | some q => glue [c] (splitTop mark q (d :: text))

/-- The text is read to its end and leaves nothing open: no bracket, literal or comment. -/
def Closed (text : List Char) : Prop := ∃ operand, start.run text = some ⟨.code operand, []⟩

/-- What stands between the `||` at the top. -/
def alternatives (text : List Char) : List (List Char) := splitTop '|' start text

/-- What stands between the `&&` at the top, without blanks around. -/
def operands (text : List Char) : List (List Char) := (splitTop '&' start text).map Text.trim

/-- At the top stands an operator that binds more loosely than `&&` does: `||`, the conditional
    operator with its colon, or the comma. Behind `&&` the others, such as an assignment or `??`,
    make no expression at all. -/
def Loose (text : List Char) : Prop :=
  alternatives text ≠ [text] ∨ ':' ∈ start.topLevel text ∨ ',' ∈ start.topLevel text

instance (text : List Char) : Decidable (Loose text) := inferInstanceAs (Decidable (_ ∨ _ ∨ _))

/-- The value of a text by those of its operands: some alternative has only true ones. -/
def valueUnder (truth : List Char → Bool) (text : List Char) : Bool :=
  (alternatives text).any fun alternative => (operands alternative).all truth

example : (alternatives "a && (b || /[|/]|\"/.test(c)) || d".toList).map operands =
    [["a".toList, "(b || /[|/]|\"/.test(c))".toList], ["d".toList]] := by decide +kernel

end DocMapper.Script
