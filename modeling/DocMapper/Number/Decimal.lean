import DocMapper.Number.Double

/-!
# Decimal text of numbers

The decimal of a double precision number is the shortest one that reads back as the number,
and of the shortest the nearest. It is found by trying one significant digit, two, and so
on: on each grid only the two neighbours of the number can be nearest to it. A layout then
says which of two decimals at one distance is taken, and how a decimal is written.
-/

namespace DocMapper

/-- The number `digits · 10 ^ exponent`. -/
structure Decimal where
  digits : Nat
  exponent : Int
deriving DecidableEq, Repr

namespace Decimal

/-- The decimal digits of a natural number, most significant first. -/
def digitChars (n : Nat) : List Char := Nat.toDigits 10 n

/-- Move the zeros at the end of the digits into the exponent; at most `fuel` of them. -/
def stripZeros : Nat → Decimal → Decimal
  | 0, d => d
  | fuel + 1, d =>
    if d.digits ≠ 0 && d.digits % 10 == 0 then stripZeros fuel ⟨d.digits / 10, d.exponent + 1⟩
    else d

/-- The power of ten of the leading digit, as in `d.ddd · 10 ^ leading`. -/
def leading (d : Decimal) : Int := d.exponent + ((digitChars d.digits).length - 1 : Nat)

end Decimal

namespace Double

/-- Whether the decimal reads back as a number with this many units. -/
def readsAs (d : Decimal) (magnitude : Nat) : Bool :=
  match Quantity.ofDecimal false d.digits d.exponent with
  | .finite x => x.magnitude == magnitude
  | .infinite _ => false

/-- Whether a number of units is at least `10 ^ exponent`. -/
def atLeastPower (magnitude : Nat) (exponent : Int) : Bool :=
  if 0 ≤ exponent then one * Nat.pow 10 exponent.toNat ≤ magnitude
  else one ≤ magnitude * Nat.pow 10 (-exponent).toNat

/-- The power of ten of the leading digit. The logarithm to base two gives it up to one. -/
def leadingPower (magnitude : Nat) : Int :=
  let guess := ((magnitude.log2 : Int) - 1074) * 30103 / 100000
  if atLeastPower magnitude (guess + 1) then guess + 1
  else if atLeastPower magnitude guess then guess
  else guess - 1

/-- The neighbour of the number on the grid of multiples of `10 ^ exponent` that reads back,
    the nearer one if both do; on a tie the greater one or the even one. -/
def onGrid? (tiesUp : Bool) (magnitude : Nat) (exponent : Int) : Option Decimal :=
  let num := if 0 ≤ exponent then magnitude else magnitude * Nat.pow 10 (-exponent).toNat
  let den := if 0 ≤ exponent then one * Nat.pow 10 exponent.toNat else one
  let below : Decimal := ⟨num / den, exponent⟩
  let above : Decimal := ⟨num / den + 1, exponent⟩
  let twice := 2 * (num % den)
  let (nearer, farther) :=
    if twice < den || (twice == den && !tiesUp && below.digits % 2 == 0) then (below, above)
    else (above, below)
  if readsAs nearer magnitude then some nearer
  else if readsAs farther magnitude then some farther
  else none

/-- The shortest decimal that reads back, trying `tries` grids from the coarse end. The exact
    decimal stands in where no grid has one. -/
def shortestFrom (tiesUp : Bool) (magnitude : Nat) : Nat → Int → Decimal
  | 0, _ => ⟨magnitude * Nat.pow 5 1074, -1074⟩
  | tries + 1, exponent =>
    match onGrid? tiesUp magnitude exponent with
    | some d => d
    | none => shortestFrom tiesUp magnitude tries (exponent - 1)

/-- The shortest decimal that reads back as the absolute value, nearest to it, without
    zeros at the end. Seventeen digits always suffice. -/
def shortest (tiesUp : Bool) (x : Double) : Decimal :=
  if x.magnitude = 0 then ⟨0, 0⟩
  else (shortestFrom tiesUp x.magnitude 17 (leadingPower x.magnitude)).stripZeros 2000

end Double

/-- How a decimal is written. -/
structure DecimalLayout where
  /-- Whether the greater of two decimals at one distance is written, or else the even one. -/
  tiesUp : Bool
  /-- Whether a number with this leading power of ten is written without an exponent. -/
  positional : Int → Bool
  /-- Whether a whole number is written with a fraction `.0`. -/
  wholeFraction : Bool

namespace DecimalLayout

/-- The layout of JSON text: no exponent from `10⁻⁵` up to `10¹⁶`, and always a fraction or
    an exponent, so that a double is told from an integer. -/
def json : DecimalLayout := ⟨false, fun power => -5 ≤ power && power < 16, true⟩

/-- The layout of results: ties go up, never an exponent, and no fraction on whole numbers. -/
def plain : DecimalLayout := ⟨true, fun _ => true, false⟩

/-- Digits with a decimal point where the exponent says. -/
def writePositional (layout : DecimalLayout) (d : Decimal) : List Char :=
  let digits := Decimal.digitChars d.digits
  if 0 ≤ d.exponent then
    digits ++ (if d.digits = 0 then [] else List.replicate d.exponent.toNat '0') ++
      (if layout.wholeFraction then ['.', '0'] else [])
  else
    let places := (-d.exponent).toNat
    let padded := List.replicate (places + 1 - digits.length) '0' ++ digits
    padded.take (padded.length - places) ++ '.' :: padded.drop (padded.length - places)

/-- One digit, the others behind a point, and the exponent with its sign. -/
def writeScientific (d : Decimal) : List Char :=
  let digits := Decimal.digitChars d.digits
  let mantissa := match digits with
    | first :: second :: others => first :: '.' :: second :: others
    | short => short
  let power := d.leading
  mantissa ++ 'e' :: (if power < 0 then '-' else '+') :: Decimal.digitChars power.natAbs

/-- The text of a decimal without its sign. -/
def write (layout : DecimalLayout) (d : Decimal) : List Char :=
  if layout.positional d.leading then layout.writePositional d else writeScientific d

end DecimalLayout

namespace Double

/-- The text of a number, with the sign of a negative zero. -/
def write (layout : DecimalLayout) (x : Double) : List Char :=
  (if x.negative then ['-'] else []) ++ layout.write (x.shortest layout.tiesUp)

end Double

/-- The text of a computed number. -/
def Quantity.text : Quantity → String
  | .finite x => String.ofList (x.write .plain)
  | .infinite negative => if negative then "-inf" else "inf"

end DocMapper
