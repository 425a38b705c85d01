import DocMapper.Json.Text
import DocMapper.Number.Reading
import DocMapper.Number.Scale

/-!
# Reading JSON text

A whole number without fraction or exponent that fits 64 bits is an integer; every other
number, negative zero too, is a double: the digits are read as one whole number, which is
scaled by a power of ten and rounded on the way. Of two members with one key the later stays. Every
step consumes a character, so the length of the text bounds the recursion.
-/

namespace DocMapper.Json.Reader

/-- White space between tokens. -/
def skipBlanks (text : List Char) : List Char :=
  text.dropWhile fun c => c = ' ' || c = '\t' || c = '\n' || c = '\r'

/-- Four hexadecimal digits. -/
def codeUnit? : List Char → Option (Nat × List Char)
  | a :: b :: c :: d :: text => do
    let a ← Reading.hexDigit? a
    let b ← Reading.hexDigit? b
    let c ← Reading.hexDigit? c
    let d ← Reading.hexDigit? d
    return (((a * 16 + b) * 16 + c) * 16 + d, text)
  | _ => none

/-- The character behind a backslash. Beyond the first plane it takes two code units. -/
def escaped? : List Char → Option (Char × List Char)
  | '"' :: text => some ('"', text)
  | '\\' :: text => some ('\\', text)
  | '/' :: text => some ('/', text)
  | 'b' :: text => some (Char.ofNat 8, text)
  | 'f' :: text => some (Char.ofNat 12, text)
  | 'n' :: text => some ('\n', text)
  | 'r' :: text => some ('\r', text)
  | 't' :: text => some ('\t', text)
  | 'u' :: text => do
    let (high, text) ← codeUnit? text
    if 0xD800 ≤ high ∧ high < 0xDC00 then
      match text with
      | '\\' :: 'u' :: text => do
        let (low, text) ← codeUnit? text
        if 0xDC00 ≤ low ∧ low < 0xE000 then
          return (Char.ofNat (0x10000 + (high - 0xD800) * 0x400 + (low - 0xDC00)), text)
        else none
      | _ => none
    else if 0xDC00 ≤ high ∧ high < 0xE000 then none
    else return (Char.ofNat high, text)
  | _ => none

/-- The rest of a string up to its quotation mark; the characters come in reverse. -/
def string? : Nat → List Char → List Char → Option (String × List Char)
  | 0, _, _ => none
  | _ + 1, _, [] => none
  | _ + 1, done, '"' :: text => some (String.ofList done.reverse, text)
  | fuel + 1, done, '\\' :: text => do
    let (c, text) ← escaped? text
    string? fuel (c :: done) text
  | fuel + 1, done, c :: text => if c.toNat < 0x20 then none else string? fuel (c :: done) text

/-- Append digits to a number for as long as 64 bits hold it; with the count of those
    appended. -/
def appendDigits : Nat → List Nat → Nat × Nat
  | n, [] => (n, 0)
  | n, d :: digits =>
    if 10 * n + d < Nat.pow 2 64 then
      let (n, count) := appendDigits (10 * n + d) digits
      (n, count + 1)
    else (n, 0)

/-- A whole number of at most 64 bits as a double. -/
def doubleOf (n : Nat) : Double := (Integer.ofUInt64 (UInt64.ofNat n)).toDouble

/-- The double that `significand · 10 ^ exponent` is read as, unless it is too large. -/
def scaled? (significand : Nat) (exponent : Int) : Option Double :=
  ((doubleOf significand).scale exponent).finite?

/-- The number that digits, a fraction and an exponent write. All digits make one significand
    of at most 64 bits: digits beyond it count as zeros before the point and for nothing behind
    it. Without fraction and exponent the number is an integer where 64 bits hold it, except
    for negative zero. -/
def ofParts? (negative : Bool) (whole : List Nat) (fraction : Option (List Nat))
    (exponent : Option Int) : Option Number :=
  let (n, held) := appendDigits 0 whole
  let isWhole := fraction.isNone && exponent.isNone && held == whole.length
  let integer := if !isWhole || (negative && n == 0) then none
    else Integer.ofInt? (if negative then -(n : Int) else n)
  match integer with
  | some i => some (.int i)
  | none =>
    let (significand, places) := appendDigits n (fraction.getD [])
    let power := (whole.length - held : Nat) - (places : Int) + exponent.getD 0
    (scaled? significand power).map fun x => .float (if negative then x.neg else x)

/-- The number that a token writes: no zero leads other digits, and digits follow the
    point. -/
def number? (token : List Char) : Option Number :=
  let (negative, text) := match token with
    | '-' :: text => (true, text)
    | text => (false, text)
  match Reading.digitRun text with
  | ([], _) | (0 :: _ :: _, _) => none
  | (whole, '.' :: rest) =>
    match Reading.digitRun rest with
    | ([], _) => none
    | (fraction, rest) =>
      (Reading.exponent? rest).bind fun e => ofParts? negative whole (some fraction) (some e)
  | (whole, []) => ofParts? negative whole none none
  | (whole, rest) => (Reading.exponent? rest).bind fun e => ofParts? negative whole none (some e)

/-- Whether a character can stand in a number. -/
def isNumberChar (c : Char) : Bool :=
  c.isDigit || c = '-' || c = '+' || c = '.' || c = 'e' || c = 'E'

mutual

/-- A value and the text behind it. -/
def value? : Nat → List Char → Option (Json × List Char)
  | 0, _ => none
  | fuel + 1, text =>
    match skipBlanks text with
    | 'n' :: 'u' :: 'l' :: 'l' :: rest => some (.null, rest)
    | 't' :: 'r' :: 'u' :: 'e' :: rest => some (.bool true, rest)
    | 'f' :: 'a' :: 'l' :: 's' :: 'e' :: rest => some (.bool false, rest)
    | '"' :: rest => (string? (rest.length + 1) [] rest).map fun (s, rest) => (.str s, rest)
    | '[' :: rest =>
      match skipBlanks rest with
      | ']' :: rest => some (.arr [], rest)
      | rest => (items? fuel [] rest).map fun (items, rest) => (.arr items, rest)
    | '{' :: rest =>
      match skipBlanks rest with
      | '}' :: rest => some (.obj [], rest)
      | rest => (members? fuel [] rest).map fun (fields, rest) => (.obj fields, rest)
    | token => do
      let n ← number? (token.takeWhile isNumberChar)
      return (.num n, token.dropWhile isNumberChar)

/-- The items up to the closing bracket; those read before come in reverse. -/
def items? : Nat → List Json → List Char → Option (List Json × List Char)
  | 0, _, _ => none
  | fuel + 1, done, text => do
    let (x, rest) ← value? fuel text
    match skipBlanks rest with
    | ',' :: rest => items? fuel (x :: done) rest
    | ']' :: rest => some ((x :: done).reverse, rest)
    | _ => none

/-- The members up to the closing brace, added to those read before. -/
def members? : Nat → Fields → List Char → Option (Fields × List Char)
  | 0, _, _ => none
  | fuel + 1, done, text =>
    match skipBlanks text with
    | '"' :: rest => do
      let (key, rest) ← string? (rest.length + 1) [] rest
      match skipBlanks rest with
      | ':' :: rest => do
        let (x, rest) ← value? fuel rest
        match skipBlanks rest with
        | ',' :: rest => members? fuel (done.insert key x) rest
        | '}' :: rest => some (done.insert key x, rest)
        | _ => none
      | _ => none
    | _ => none

end

end Reader

/-- The value that a text writes. -/
def ofText? (s : String) : Option Json :=
  match Reader.value? (s.length + 1) s.toList with
  | some (v, rest) => if (Reader.skipBlanks rest).isEmpty then some v else none
  | none => none

end DocMapper.Json
