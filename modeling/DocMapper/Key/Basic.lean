import DocMapper.Json.Record
import DocMapper.Json.Text
import DocMapper.Number.Reading

/-!
# Primary keys

A primary key is a text, an integer of 64 bits or an integer of 128 bits. It has a text,
which identifies its record, and a JSON form, which models see; integers too large for a
JSON integer have their digits as JSON text.
-/

namespace DocMapper

/-- The kind of a primary key. -/
inductive KeyKind where
  | text
  | number
  | bigInt
deriving DecidableEq, Repr

/-- A primary key. -/
inductive Key where
  | text (s : String)
  | number (n : Signed 64)
  | bigInt (n : Signed 128)
deriving DecidableEq

/-- The decimal text of an integer. -/
def Signed.text {bits : Nat} (n : Signed bits) : String := String.ofList (
  (if n.val < 0 then ['-'] else []) ++ Decimal.digitChars n.val.natAbs)

namespace Key

/-- The kind of a key. -/
def kind : Key → KeyKind
  | .text _ => .text
  | .number _ => .number
  | .bigInt _ => .bigInt

/-- The text of a key. -/
def toText : Key → String
  | .text s => s
  | .number n => n.text
  | .bigInt n => n.text

/-- The key as models see it. -/
def toJson : Key → Json
  | .text s => .str s
  | .number n => .ofSigned n
  | .bigInt n =>
    match Signed.ofInt? 64 n.val with
    | some small => .ofSigned small
    | none => .str n.text

/-- The key of a kind that a text writes. -/
def ofText (kind : KeyKind) (raw : String) : Except IntegerError Key :=
  match kind with
  | .text => .ok (.text raw)
  | .number => (Reading.signed 64 raw).map .number
  | .bigInt => (Reading.signed 128 raw).map .bigInt

/-- A signed integer of 64 bits as one of 128 bits. -/
def widen (n : Signed 64) : Signed 128 :=
  ⟨n.val, Int.le_trans (by decide) n.lower, Int.lt_of_lt_of_le n.upper (by decide)⟩

/-- The key of a kind that an attribute's value gives. Numbers are accepted for texts, and
    texts for numbers. -/
def ofJson? : KeyKind → Json → Option Key
  | .text, .str s => some (.text s)
  | .text, .num n => some (.text n.text)
  | .number, .num n => n.toSigned?.map .number
  | .number, .str s => (Reading.signed 64 s).toOption.map .number
  | .bigInt, .num n => n.toSigned?.map fun n => .bigInt (widen n)
  | .bigInt, .str s => (Reading.signed 128 s).toOption.map .bigInt
  | _, _ => none

end Key

namespace KeyKind

/-- The name a kind is kept under. -/
def name : KeyKind → String
  | .text => "Text"
  | .number => "Number"
  | .bigInt => "BigInt"

/-- The kind as JSON. -/
def encode (k : KeyKind) : Json := .str k.name

/-- The kind that a JSON value names. -/
def decode? (v : Json) : Option KeyKind := (Record.bareName? v).bind
  (Dict.get? [("Text", .text), ("Number", .number), ("BigInt", .bigInt)])

end KeyKind

end DocMapper
