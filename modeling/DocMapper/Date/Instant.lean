import DocMapper.Date.Calendar
import DocMapper.Number.Reading

/-!
# Instants

Dates in text, as milliseconds since the start of 1970. A text is a date with time and
offset, as internet timestamps write it, or a date alone.
-/

namespace DocMapper.Instant

/-- A number of at least `least` and at most `most` digits at the front of a text. -/
def number? (least most : Nat) (text : List Char) : Option (Nat × List Char) :=
  let digits := (text.take most).takeWhile (·.isDigit)
  if digits.length < least then none
  else some (Reading.valueOf (digits.filterMap Reading.digit?), text.drop digits.length)

/-- The text behind a character. -/
def behind? (c : Char) : List Char → Option (List Char)
  | [] => none
  | d :: text => if c = d then some text else none

/-- The milliseconds of a fraction of a second, rounded down. Digits beyond the third do
    not count. -/
def fraction? (text : List Char) : Option (Nat × List Char) :=
  let digits := text.takeWhile (·.isDigit)
  if digits.isEmpty then none
  else
    let millis := ((digits ++ ['0', '0', '0']).take 3).filterMap Reading.digit?
    some (Reading.valueOf millis, text.drop digits.length)

/-- The offset from universal time in minutes: `Z`, or a sign, hours and minutes. -/
def offset? : List Char → Option (Int × List Char)
  | 'Z' :: text | 'z' :: text => some (0, text)
  | sign :: text => do
    let negative ← if sign = '+' then some false
      else if sign = '-' || sign = '−' then some true
      else none
    let (hours, text) ← number? 2 2 text
    let text ← behind? ':' text
    let (minutes, text) ← number? 2 2 text
    if hours ≤ 23 ∧ minutes ≤ 59 then
      let total : Int := 60 * hours + minutes
      return (if negative then -total else total, text)
    else none
  | [] => none

/-- A date with time and offset. The sixty-first second of a minute counts as the first of
    the next. -/
def ofTimestamp? (text : List Char) : Option Int := do
  let (year, text) ← number? 4 4 text
  let text ← behind? '-' text
  let (month, text) ← number? 2 2 text
  let text ← behind? '-' text
  let (day, text) ← number? 2 2 text
  let text ← match text with
    | 't' :: text | 'T' :: text | ' ' :: text => some text
    | _ => none
  let (hour, text) ← number? 2 2 text
  let text ← behind? ':' text
  let (minute, text) ← number? 2 2 text
  let text ← behind? ':' text
  let (second, text) ← number? 2 2 text
  let (millis, text) ← match text with
    | '.' :: text => fraction? text
    | text => some (0, text)
  let (offset, text) ← offset? text
  let date ← CalendarDay.of? year month day
  if hour ≤ 23 ∧ minute ≤ 59 ∧ second ≤ 60 ∧ text.isEmpty then
    return (((date.toEpochDay * 24 + hour) * 60 + minute - offset) * 60 + second) * 1000 + millis
  else none

/-- A year: four digits at most, or any number of them behind a sign. -/
def year? : List Char → Option (Int × List Char)
  | '-' :: text => (number? 1 text.length text).map fun (n, text) => (-(n : Int), text)
  | '+' :: text => (number? 1 text.length text).map fun (n, text) => ((n : Int), text)
  | text => (number? 1 4 text).map fun (n, text) => ((n : Int), text)

/-- A date alone, its start in universal time. Blanks may stand before each number. -/
def ofDate? (text : List Char) : Option Int := do
  let (year, text) ← year? (text.dropWhile Text.isBlank)
  let text ← behind? '-' text
  let (month, text) ← number? 1 2 (text.dropWhile Text.isBlank)
  let text ← behind? '-' text
  let (day, text) ← number? 1 2 (text.dropWhile Text.isBlank)
  let date ← CalendarDay.of? year month day
  if text.isEmpty then return date.toEpochDay * 86400000 else none

/-- The instant that a text writes. -/
def ofText? (s : String) : Option Int := (ofTimestamp? s.toList).or (ofDate? s.toList)

/-- A number with zeros in front up to a number of digits. -/
def padded (width n : Nat) : String :=
  let digits := toString n
  String.ofList (List.replicate (width - digits.length) '0') ++ digits

/-- A year of four digits; years outside `0 … 9999` have a sign. -/
def yearText (year : Int) : String :=
  if 0 ≤ year ∧ year ≤ 9999 then padded 4 year.toNat
  else (if year < 0 then "-" else "+") ++ padded 4 year.natAbs

/-- The timestamp of an instant in universal time, with milliseconds. -/
def text (millis : Int) : String :=
  let date := CalendarDay.ofEpochDay (millis / 86400000)
  let rest := (millis % 86400000).toNat
  yearText date.year ++ "-" ++ padded 2 date.month ++ "-" ++ padded 2 date.day ++ "T" ++
    padded 2 (rest / 3600000) ++ ":" ++ padded 2 (rest / 60000 % 60) ++ ":" ++
    padded 2 (rest / 1000 % 60) ++ "." ++ padded 3 (rest % 1000) ++ "Z"

end DocMapper.Instant
