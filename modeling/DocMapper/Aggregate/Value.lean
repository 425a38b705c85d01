import DocMapper.Date.Instant
import DocMapper.Json.Text
import DocMapper.Schema.Basic

/-!
# Values under aggregates

What aggregates see in a value: the number it stands for, the text that tells it from other
values, and the text of the group it belongs to. Dates count as instants where the attribute
is declared as one.
-/

namespace DocMapper.Aggregate

/-- The number a value stands for: numbers, numbers written as text and, for dates, the
    milliseconds of the instant. -/
def numeric (v : Json) (type : Option AttributeType) : Option Double :=
  match v with
  | .num n => some n.toDouble
  | .str s =>
    if type = some .date then
      (((Instant.ofText? s).bind Integer.ofInt?).map Integer.toDouble).or (Reading.finite? s)
    else Reading.finite? s
  | _ => none

/-- The name that messages have for the type of a value. -/
def typeName : Json → String
  | .null => "null"
  | .bool _ => "boolean"
  | .num _ => "number"
  | .str _ => "string"
  | .arr _ | .obj _ => "object"

/-- The text of a number, whichever way it is represented. -/
def numberKey (n : Number) : String := (Quantity.finite n.toDouble).text

/-- The text that tells a value from other values. Numbers are the same in any
    representation, dates in any notation. -/
def valueKey (v : Json) (type : Option AttributeType) : String :=
  match v with
  | .num n => numberKey n
  | .str s =>
    match (if type = some .date then Instant.ofText? s else none) with
    | some millis => "date:" ++ toString millis
    | none => v.text
  | other => other.text

/-- The text of the group that a value belongs to. Texts stand for themselves, dates have
    their timestamp. -/
def groupKey (v : Option Json) (type : Option AttributeType) : String :=
  match v with
  | none => "undefined"
  | some .null => "null"
  | some (.str s) =>
    match (if type = some .date then Instant.ofText? s else none) with
    | some millis => Instant.text millis
    | none => s
  | some (.num n) => numberKey n
  | some other => other.text

end DocMapper.Aggregate
