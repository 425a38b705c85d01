import DocMapper.Pattern.SetReader

/-!
# Reading patterns

The grammar of patterns: alternatives of sequences of repeated atoms. An atom is a
character, an escape, `.`, an anchor, a bracketed set or a group. Every step consumes a
character, so the length of the text bounds the recursion.
-/

namespace DocMapper.Pattern.Reader

/-- The switches that a group can set. -/
structure Flags where
  ignoreCase : Bool := false
  multiLine : Bool := false
  dotAll : Bool := false

/-- A count of repetitions, which blanks may surround. -/
def count? (text : List Char) : Option (Nat × List Char) :=
  match Reading.digitRun (text.dropWhile Text.isBlank) with
  | ([], _) => none
  | (digits, rest) =>
    if Reading.valueOf digits < Nat.pow 2 32 then
      some (Reading.valueOf digits, rest.dropWhile Text.isBlank)
    else none

/-- The least and the greatest number of repetitions, between braces. -/
def bounds? (text : List Char) : Option (Nat × Option Nat × List Char) := do
  let (least, text) ← count? text
  match text with
  | '\x7d' :: text => some (least, some least, text)
  | ',' :: '\x7d' :: text => some (least, none, text)
  | ',' :: text => do
    let (greatest, text) ← count? text
    match text with
    | '\x7d' :: text => if least ≤ greatest then some (least, some greatest, text) else none
    | _ => none
  | _ => none

/-- A mark that makes a repetition prefer fewer rounds does not change what matches. -/
def skipLazy : List Char → List Char
  | '?' :: text => text
  | text => text

/-- The repetitions behind an atom. -/
def repetitions? : Nat → Pattern → List Char → Option (Pattern × List Char)
  | 0, _, _ => none
  | fuel + 1, p, '*' :: text => repetitions? fuel (.repeated p 0 none) (skipLazy text)
  | fuel + 1, p, '+' :: text => repetitions? fuel (.repeated p 1 none) (skipLazy text)
  | fuel + 1, p, '?' :: text => repetitions? fuel (.repeated p 0 (some 1)) (skipLazy text)
  | fuel + 1, p, '\x7b' :: text => do
    let (least, most, text) ← bounds? text
    repetitions? fuel (.repeated p least most) (skipLazy text)
  | _ + 1, p, text => some (p, text)

/-- Turn a switch on or off. Two switches change nothing that a match depends on. -/
def Flags.turn? (value : Bool) (flags : Flags) : Char → Option Flags
  | 'i' => some { flags with ignoreCase := value }
  | 'm' => some { flags with multiLine := value }
  | 's' => some { flags with dotAll := value }
  | 'U' => some flags
  | 'u' => if value then some flags else none
  | _ => none

/-- The switches of a group up to `:` or `)`, and whether contents follow. A minus sign turns
    off the switches behind it, of which there is at least one; no switch is named twice. -/
def switches? (flags : Flags) (text : List Char) : Option (Flags × Bool × List Char) :=
  let letters := text.takeWhile fun c => c ≠ ':' && c ≠ ')'
  let on := letters.takeWhile (· ≠ '-')
  let off := letters.drop (on.length + 1)
  if ¬(on ++ off).Nodup ∨ letters = on ++ ['-'] then none
  else do
    let turned ← off.foldlM (Flags.turn? false) (← on.foldlM (Flags.turn? true) flags)
    match text.drop letters.length with
    | ':' :: rest => return (turned, true, rest)
    | ')' :: rest => if letters.isEmpty then none else return (turned, false, rest)
    | _ => none

/-- The name of a group, and the text behind it. -/
def groupName? (text : List Char) : Option (List Char × List Char) :=
  match text.takeWhile (· ≠ '>'), text.dropWhile (· ≠ '>') with
  | first :: name, _ :: rest =>
    if (first.isAlpha || first = '_') &&
        name.all (fun c => c.isAlphanum || ['_', '.', '[', ']'].contains c) then
      some (first :: name, rest)
    else none
  | _, _ => none

/-- A single character as a pattern. -/
def literal (flags : Flags) (c : Char) : Pattern :=
  .one ((CharSet.single c).anyCaseIf flags.ignoreCase)

/-- A single atom that is no group. -/
def atom? (flags : Flags) : List Char → Option (Pattern × List Char)
  | [] => none
  | '*' :: _ | '+' :: _ | '?' :: _ | '\x7b' :: _ => none
  | '^' :: text => some (.anchor (if flags.multiLine then .lineStart else .textStart), text)
  | '$' :: text => some (.anchor (if flags.multiLine then .lineEnd else .textEnd), text)
  | '.' :: text =>
    some (.one (if flags.dotAll then .all else .complement (.single '\n')), text)
  | '[' :: text => (bracketed? flags.ignoreCase text).map fun (s, rest) => (.one s, rest)
  | '\\' :: text =>
    (escape? text).map fun (escape, rest) =>
      match escape with
      | .char c => (literal flags c, rest)
      | .set s => (.one s, rest)
      | .anchor a => (.anchor a, rest)
  | c :: text => some (literal flags c, text)

mutual

/-- Alternatives up to a closing parenthesis or the end, with the switches set on the way. -/
def alternatives? : Nat → Flags → List Char → Option (Pattern × List Char)
  | 0, _, _ => none
  | fuel + 1, flags, text => do
    let (p, flags, rest) ← sequence? fuel flags .empty text
    match rest with
    | '|' :: rest => do
      let (q, rest) ← alternatives? fuel flags rest
      return (.alt p q, rest)
    | rest => return (p, rest)

/-- Atoms one after another, added to those read before. -/
def sequence? : Nat → Flags → Pattern → List Char → Option (Pattern × Flags × List Char)
  | 0, _, _, _ => none
  | _ + 1, flags, done, [] => some (done, flags, [])
  | _ + 1, flags, done, '|' :: text => some (done, flags, '|' :: text)
  | _ + 1, flags, done, ')' :: text => some (done, flags, ')' :: text)
  | fuel + 1, flags, done, '(' :: '?' :: 'P' :: '<' :: text => do
    let (name, text) ← groupName? text
    contents? fuel flags done (.named name) text
  | fuel + 1, flags, done, '(' :: '?' :: '<' :: text => do
    let (name, text) ← groupName? text
    contents? fuel flags done (.named name) text
  | fuel + 1, flags, done, '(' :: '?' :: text => do
    let (inner, hasContents, text) ← switches? flags text
    if hasContents then
      let (p, rest) ← alternatives? fuel inner text
      group? fuel flags done p rest
    else sequence? fuel inner done text
  | fuel + 1, flags, done, '(' :: text => contents? fuel flags done id text
  | fuel + 1, flags, done, text => do
    let (p, text) ← atom? flags text
    let (p, text) ← repetitions? fuel p text
    sequence? fuel flags (.seq done p) text

/-- A group behind its opening, with what makes a group of its contents. -/
def contents? : Nat → Flags → Pattern → (Pattern → Pattern) → List Char →
    Option (Pattern × Flags × List Char)
  | 0, _, _, _, _ => none
  | fuel + 1, flags, done, group, text => do
    let (p, rest) ← alternatives? fuel flags text
    group? fuel flags done (group p) rest

/-- What follows the contents of a group. -/
def group? : Nat → Flags → Pattern → Pattern → List Char →
    Option (Pattern × Flags × List Char)
  | 0, _, _, _, _ => none
  | fuel + 1, flags, done, p, ')' :: text => do
    let (p, text) ← repetitions? fuel p text
    sequence? fuel flags (.seq done p) text
  | _ + 1, _, _, _, _ => none

end

end Reader

/-- The pattern that a text writes, unless two of its groups have one name or it is longer than
    patterns may be. -/
def ofText? (s : String) : Option Pattern :=
  match Reader.alternatives? (3 * s.length + 3) {} s.toList with
  | some (p, []) => if p.names.Nodup ∧ p.steps ≤ stepLimit then some p else none
  | _ => none

end DocMapper.Pattern
