import DocMapper.Number.Decimal
import DocMapper.Number.Reading

/-!
# Revisions

A revision is the number of writes that its document has seen, a dash and sixteen
hexadecimal digits. The number alone tells the revisions of one document apart; the digits
only tell apart what was written. A document is meant to see fewer writes than 64 bits can count.
-/

namespace DocMapper.Revision

/-- A hexadecimal digit. -/
def hexDigit (n : Nat) : Char := if n < 10 then Char.ofNat (48 + n) else Char.ofNat (87 + n)

/-- The last sixteen hexadecimal digits of a number. -/
def hexDigits (n : UInt64) : List Char :=
  ((List.range 16).map fun i => hexDigit (n.toNat / Nat.pow 16 i % 16)).reverse

/-- The revision after so many writes, with these digits. -/
def text (generation : Nat) (digits : UInt64) : String :=
  String.ofList (Decimal.digitChars generation ++ '-' :: hexDigits digits)

/-- The number of writes that a revision counts. -/
def generation (revision : String) : Nat :=
  match Reading.digitRun revision.toList with
  | (digits, '-' :: _) => Reading.valueOf digits
  | _ => 0

/-- A number of 64 bits that depends on every byte of a text. -/
def fingerprint (s : String) : UInt64 :=
  s.toUTF8.toList.foldl (fun h b => (h ^^^ b.toUInt64) * 1099511628211) 14695981039346656037

end DocMapper.Revision
