import DocMapper.Number.Reading
import DocMapper.Pattern.Basic

/-!
# Reading sets of characters

The grammar of a bracketed set: characters, ranges, escapes, names between colons and
further bracketed sets stand for their union, and operators between such unions apply from
left to right. Every step consumes a character, so the length of the text bounds the
recursion.
-/

namespace DocMapper.Pattern.Reader

/-- What a backslash and the characters behind it stand for. -/
inductive Escape where
  | char (c : Char)
  | set (s : CharSet)
  | anchor (a : Anchor)

/-- A set or an anchor written as a backslash and a letter. -/
def namedEscape? : Char → Option Escape
  | 'd' => some (.set .digit)
  | 'D' => some (.set (.complement .digit))
  | 's' => some (.set .blank)
  | 'S' => some (.set (.complement .blank))
  | 'w' => some (.set .word)
  | 'W' => some (.set (.complement .word))
  | 'A' => some (.anchor .textStart)
  | 'z' => some (.anchor .textEnd)
  | 'b' => some (.anchor .wordEdge)
  | 'B' => some (.anchor .noWordEdge)
  | '<' => some (.anchor .wordStart)
  | '>' => some (.anchor .wordEnd)
  | _ => none

/-- A character written as a backslash and another character: some control characters have a
    letter, and ASCII characters other than letters and digits stand for themselves. -/
def escapedChar? : Char → Option Char
  | 'a' => some '\x07'
  | 'f' => some '\x0c'
  | 't' => some '\t'
  | 'n' => some '\n'
  | 'r' => some '\r'
  | 'v' => some '\x0b'
  | c => if c.toNat < 0x80 && !c.isAlphanum then some c else none

/-- The character with the number that hexadecimal digits write. -/
def numbered? (digits : List Char) : Option Char :=
  if digits.isEmpty then none
  else do
    let n := (← digits.mapM Reading.hexDigit?).foldl (fun n d => 16 * n + d) 0
    if n.isValidChar then some (Char.ofNat n) else none

/-- A character by its number: between braces, or with so many digits. -/
def numberedChar? (width : Nat) : List Char → Option (Char × List Char)
  | '\x7b' :: text =>
    match text.dropWhile (· ≠ '\x7d') with
    | [] => none
    | _ :: rest => (numbered? (text.takeWhile (· ≠ '\x7d'))).map fun c => (c, rest)
  | text =>
    if text.length < width then none
    else (numbered? (text.take width)).map fun c => (c, text.drop width)

/-- The word anchors that have a name. -/
def namedAnchors : List (String × Anchor) := [
  ("start", .wordStart), ("end", .wordEnd), ("start-half", .noWordBefore),
  ("end-half", .noWordBehind)]

/-- A word anchor by its name between braces. Braces that begin with anything but a letter or
    a hyphen hold a number of repetitions. -/
def wordAnchor? : List Char → Option (Anchor × List Char)
  | '\x7b' :: c :: text =>
    if c.isAlpha || c = '-' then
      match (c :: text).dropWhile (· ≠ '\x7d') with
      | [] => none
      | _ :: rest =>
        let name := String.ofList ((c :: text).takeWhile (· ≠ '\x7d'))
        (namedAnchors.find? (·.1 == name)).map fun (_, a) => (a, rest)
    else some (.wordEdge, '\x7b' :: c :: text)
  | ['\x7b'] => none
  | text => some (.wordEdge, text)

/-- What stands behind a backslash. -/
def escape? : List Char → Option (Escape × List Char)
  | [] => none
  | 'x' :: text => (numberedChar? 2 text).map fun (c, rest) => (.char c, rest)
  | 'u' :: text => (numberedChar? 4 text).map fun (c, rest) => (.char c, rest)
  | 'U' :: text => (numberedChar? 8 text).map fun (c, rest) => (.char c, rest)
  | 'b' :: text => (wordAnchor? text).map fun (a, rest) => (.anchor a, rest)
  | c :: text =>
    ((namedEscape? c).or ((escapedChar? c).map .char)).map fun escape => (escape, text)

/-- An item of a bracketed set: a character that may begin a range, or a whole set. -/
inductive SetItem where
  | char (c : Char)
  | set (s : CharSet)

/-- The item at the front of the text. Anchors are no items. -/
def setItem? : List Char → Option (SetItem × List Char)
  | [] => none
  | '\\' :: text =>
    match escape? text with
    | some (.char c, rest) => some (.char c, rest)
    | some (.set s, rest) => some (.set s, rest)
    | _ => none
  | c :: text => some (.char c, text)

/-- The range or the single item at the front of the text. A hyphen before the closing bracket
    or another hyphen makes no range. -/
def setRange? (text : List Char) : Option (CharSet × List Char) := do
  let (first, rest) ← setItem? text
  match first, rest with
  | .set s, '-' :: ']' :: rest => return (s, '-' :: ']' :: rest)
  | .set s, '-' :: '-' :: rest => return (s, '-' :: '-' :: rest)
  | .set _, '-' :: _ => none
  | .set s, rest => return (s, rest)
  | .char c, '-' :: ']' :: rest => return (.single c, '-' :: ']' :: rest)
  | .char c, '-' :: '-' :: rest => return (.single c, '-' :: '-' :: rest)
  | .char low, '-' :: rest =>
    match ← setItem? rest with
    | (.char high, rest) => if low ≤ high then return (.range low high, rest) else none
    | (.set _, _) => none
  | .char c, rest => return (.single c, rest)

/-- A set of ASCII characters by its name between colons, behind the opening bracket. -/
def asciiSet? (ignoreCase : Bool) : List Char → Option (CharSet × List Char)
  | ':' :: text =>
    let (negated, text) := match text with
      | '^' :: text => (true, text)
      | text => (false, text)
    match text.dropWhile (· ≠ ':') with
    | ':' :: ']' :: rest =>
      (CharSet.ofAsciiName? (String.ofList (text.takeWhile (· ≠ ':')))).map fun s =>
        ((s.anyCaseIf ignoreCase).negateIf negated, rest)
    | _ => none
  | _ => none

/-- A union behind an operator waits for the union before it. -/
structure Operand where
  left : CharSet
  operation : CharSet → CharSet → CharSet

/-- What an operator makes of the two unions around it. -/
def Operand.apply (ignoreCase : Bool) (waiting : Option Operand) (right : CharSet) : CharSet :=
  match waiting with
  | none => right
  | some ⟨left, operation⟩ => operation (left.anyCaseIf ignoreCase) (right.anyCaseIf ignoreCase)

/-- The opening of a bracketed set, behind its bracket: whether it is negated, and the hyphens
    or the closing bracket that stand first and mean themselves. -/
def setOpening (text : List Char) : Bool × CharSet × List Char :=
  let (negated, text) := match text with
    | '^' :: text => (true, text)
    | text => (false, text)
  match text with
  | '-' :: text => (negated, .single '-', text.dropWhile (· = '-'))
  | ']' :: text => (negated, .single ']', text)
  | text => (negated, .none, text)

/-- The contents of a bracketed set up to its closing bracket, added to the items read
    before. -/
def setContents? (ignoreCase : Bool) :
    Nat → Option Operand → CharSet → List Char → Option (CharSet × List Char)
  | 0, _, _, _ => none
  | _ + 1, waiting, items, ']' :: text => some (Operand.apply ignoreCase waiting items, text)
  | fuel + 1, waiting, items, '[' :: text =>
    match asciiSet? ignoreCase text with
    | some (s, rest) => setContents? ignoreCase fuel waiting (.union items s) rest
    | none =>
      let (negated, opening, text) := setOpening text
      match setContents? ignoreCase fuel none opening text with
      | some (s, rest) =>
        let inner := (s.anyCaseIf ignoreCase).negateIf negated
        setContents? ignoreCase fuel waiting (.union items inner) rest
      | none => none
  | fuel + 1, waiting, items, '&' :: '&' :: text =>
    let left := Operand.apply ignoreCase waiting items
    setContents? ignoreCase fuel (some ⟨left, .inter⟩) .none text
  | fuel + 1, waiting, items, '-' :: '-' :: text =>
    let left := Operand.apply ignoreCase waiting items
    setContents? ignoreCase fuel (some ⟨left, CharSet.diff⟩) .none text
  | fuel + 1, waiting, items, '~' :: '~' :: text =>
    let left := Operand.apply ignoreCase waiting items
    setContents? ignoreCase fuel (some ⟨left, CharSet.symmDiff⟩) .none text
  | fuel + 1, waiting, items, text =>
    match setRange? text with
    | some (s, rest) => setContents? ignoreCase fuel waiting (.union items s) rest
    | none => none

/-- A bracketed set, behind its opening bracket. -/
def bracketed? (ignoreCase : Bool) (text : List Char) : Option (CharSet × List Char) :=
  let (negated, opening, text) := setOpening text
  (setContents? ignoreCase (text.length + 1) none opening text).map fun (s, rest) =>
    ((s.anyCaseIf ignoreCase).negateIf negated, rest)

end DocMapper.Pattern.Reader
