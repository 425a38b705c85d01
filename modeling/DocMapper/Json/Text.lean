import DocMapper.Json.Basic
import DocMapper.Number.Decimal

/-!
# JSON text

The compact text of a JSON value: no white space, members in dictionary order, and only the
quotation mark, the backslash and the control characters below `U+0020` escaped in strings.
-/

namespace DocMapper

namespace Json

/-- The small hexadecimal digit of a number below sixteen. -/
def hexDigit (n : Nat) : Char :=
  if n < 10 then Char.ofNat ('0'.toNat + n) else Char.ofNat ('a'.toNat + (n - 10))

/-- A character within a string: five control characters have a letter of their own. -/
def escape (c : Char) : List Char :=
  if c = '"' then ['\\', '"']
  else if c = '\\' then ['\\', '\\']
  else if c.toNat < 0x20 then
    match c.toNat with
    | 8 => ['\\', 'b']
    | 9 => ['\\', 't']
    | 10 => ['\\', 'n']
    | 12 => ['\\', 'f']
    | 13 => ['\\', 'r']
    | n => ['\\', 'u', '0', '0', hexDigit (n / 16), hexDigit (n % 16)]
  else [c]

/-- A string between quotation marks. -/
def quote (s : String) : List Char := '"' :: s.toList.flatMap escape ++ ['"']

end Json

/-- The text of a number. -/
def Number.write : Number → List Char
  | .int n => (if n.val < 0 then ['-'] else []) ++ Decimal.digitChars n.val.natAbs
  | .float x => x.write .json

namespace Json

mutual

/-- The characters of a value. -/
def write : Json → List Char
  | .null => ['n', 'u', 'l', 'l']
  | .bool true => ['t', 'r', 'u', 'e']
  | .bool false => ['f', 'a', 'l', 's', 'e']
  | .num n => n.write
  | .str s => quote s
  | .arr items => '[' :: writeItems items ++ [']']
  | .obj fields => '{' :: writeFields fields ++ ['}']
termination_by structural v => v

/-- Items with a comma between each two. -/
def writeItems : List Json → List Char
  | [] => []
  | [x] => write x
  | x :: rest => write x ++ ',' :: writeItems rest
termination_by structural items => items

/-- Members with a comma between each two. -/
def writeFields : List (String × Json) → List Char
  | [] => []
  | [(k, x)] => quote k ++ ':' :: write x
  | (k, x) :: rest => quote k ++ ':' :: write x ++ ',' :: writeFields rest
termination_by structural fields => fields

end

/-- The compact text of a value. -/
def text (v : Json) : String := String.ofList v.write

end Json

/-- The text of a number. -/
def Number.text (n : Number) : String := String.ofList n.write

example : (Json.obj [("a", .arr [.null, .bool true]), ("b", .str "\n\"")]).text =
    "\x7b\"a\":[null,true],\"b\":\"\\n\\\"\"\x7d" := by decide +kernel

end DocMapper
