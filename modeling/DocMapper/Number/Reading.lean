import DocMapper.Number.Double
import DocMapper.Number.Signed
import DocMapper.Text.Basic

/-!
# Reading numbers from text

Integers are a sign and digits, nothing else; what goes wrong is told apart. Numbers with a
fraction or an exponent are read exactly and rounded once.
-/

namespace DocMapper

/-- What keeps a text from being an integer. -/
inductive IntegerError where
  | empty
  | invalidDigit
  | tooLarge
  | tooSmall
deriving DecidableEq, Repr

/-- The wording of an integer error. -/
def IntegerError.message : IntegerError → String
  | .empty => "cannot parse integer from empty string"
  | .invalidDigit => "invalid digit found in string"
  | .tooLarge => "number too large to fit in target type"
  | .tooSmall => "number too small to fit in target type"

namespace Reading

/-- The value of a decimal digit. -/
def digit? (c : Char) : Option Nat :=
  if '0' ≤ c ∧ c ≤ '9' then some (c.toNat - '0'.toNat) else none

/-- The value of a hexadecimal digit. -/
def hexDigit? (c : Char) : Option Nat :=
  if '0' ≤ c ∧ c ≤ '9' then some (c.toNat - '0'.toNat)
  else if 'a' ≤ c ∧ c ≤ 'f' then some (c.toNat - 'a'.toNat + 10)
  else if 'A' ≤ c ∧ c ≤ 'F' then some (c.toNat - 'A'.toNat + 10)
  else none

/-- Read digits up to a largest value. The first character that is no digit or carries the
    value past the bound decides the error. -/
def boundedDigits (largest : Nat) (tooFar : IntegerError) :
    Nat → List Char → Except IntegerError Nat
  | value, [] => .ok value
  | value, c :: text =>
    match digit? c with
    | none => .error .invalidDigit
    | some d =>
      if 10 * value + d ≤ largest then boundedDigits largest tooFar (10 * value + d) text
      else .error tooFar

/-- Read a natural number of at most `largest`, with an optional plus sign. -/
def natural (largest : Nat) : List Char → Except IntegerError Nat
  | [] => .error .empty
  | ['+'] => .error .invalidDigit
  | '+' :: text => boundedDigits largest .tooLarge 0 text
  | text => boundedDigits largest .tooLarge 0 text

/-- The value of an unsigned number of 64 bits. -/
def unsigned64? (s : String) : Option UInt64 :=
  match natural (Nat.pow 2 64 - 1) s.toList with
  | .ok n => some (UInt64.ofNat n)
  | .error _ => none

/-- Read an integer between `-(largest + 1)` and `largest`, with an optional sign. -/
def integer (largest : Nat) : List Char → Except IntegerError Int
  | [] => .error .empty
  | ['+'] | ['-'] => .error .invalidDigit
  | '-' :: text => (boundedDigits (largest + 1) .tooSmall 0 text).map fun n => -(n : Int)
  | '+' :: text => (boundedDigits largest .tooLarge 0 text).map fun n => (n : Int)
  | text => (boundedDigits largest .tooLarge 0 text).map fun n => (n : Int)

/-- Read a signed integer of a given width. The digits are bounded by the width, so a value
    that was read is always in range. -/
def signed (bits : Nat) (s : String) : Except IntegerError (Signed bits) :=
  (integer (reach bits - 1) s.toList).map (Signed.wrap bits)

/-- The longest run of digits at the front, and what follows. -/
def digitRun : List Char → List Nat × List Char
  | [] => ([], [])
  | c :: text =>
    match digit? c with
    | none => ([], c :: text)
    | some d => let (ds, rest) := digitRun text; (d :: ds, rest)

/-- The number that a list of digits writes. -/
def valueOf (digits : List Nat) : Nat := digits.foldl (fun value d => 10 * value + d) 0

/-- The exponent part of a number: nothing, or `e`, an optional sign and digits. -/
def exponent? : List Char → Option Int
  | [] => some 0
  | c :: text =>
    if c = 'e' ∨ c = 'E' then
      let (negative, text) := match text with
        | '-' :: text => (true, text)
        | '+' :: text => (false, text)
        | text => (false, text)
      match digitRun text with
      | (d :: ds, []) =>
        some (if negative then -(valueOf (d :: ds) : Int) else valueOf (d :: ds))
      | _ => none
    else none

/-- Read digits with an optional fraction and exponent; one of the two digit runs may be
    empty. -/
def unsignedDecimal? (negative : Bool) (text : List Char) : Option Quantity :=
  let (whole, rest) := digitRun text
  let (fraction, rest) := match rest with
    | '.' :: rest => digitRun rest
    | rest => ([], rest)
  if whole.isEmpty && fraction.isEmpty then none
  else (exponent? rest).map fun e =>
    Quantity.ofDecimal negative (valueOf (whole ++ fraction)) (e - fraction.length)

/-- Read a decimal number with an optional sign. -/
def decimal? : List Char → Option Quantity
  | '-' :: text => unsignedDecimal? true text
  | '+' :: text => unsignedDecimal? false text
  | text => unsignedDecimal? false text

/-- A finite number, with blanks around it allowed. -/
def finite? (s : String) : Option Double := (decimal? (Text.trim s.toList)).bind Quantity.finite?

example : integer 9 ['+', '5'] = .ok 5 := by rfl
example : (signed 64 "9223372036854775808").map Signed.val = .error .tooLarge := by rfl
example : (signed 64 "-9223372036854775809").map Signed.val = .error .tooSmall := by rfl
example : (signed 64 "-").map Signed.val = .error .invalidDigit := by rfl

end Reading

end DocMapper
