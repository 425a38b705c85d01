import DocMapper.Number.Double

/-!
# Scaling by powers of ten

A double times or divided by a power of ten. The power is rounded to a double first, and what
comes of it is rounded again, so that a scaled number may be off by the last place.
-/

namespace DocMapper

/-- A quantity divided by `10 ^ n`, where a double can hold that. -/
def Quantity.divPower (q : Quantity) (n : Nat) : Quantity :=
  match Quantity.ofDecimal false 1 n with
  | .finite power => q.div power
  | .infinite _ => .finite Double.zero

namespace Double

/-- The number times `10 ^ n`. -/
def scaleUp (x : Double) (n : Nat) : Quantity :=
  if x.magnitude = 0 then .finite x
  else match Quantity.ofDecimal false 1 n with
    | .finite power => x.mul power
    | .infinite _ => .infinite x.negative

/-- The number divided by `10 ^ n`, step by step where `10³⁰⁸`, the greatest power that a
    double can hold, is not enough. Three such steps leave nothing of any number. -/
def scaleDown (x : Double) (n : Nat) : Quantity :=
  (Nat.repeat (fun q => Quantity.divPower q 308) (min (n / 308) 3) (.finite x)).divPower (n % 308)

/-- The number times `10 ^ exponent`. -/
def scale (x : Double) (exponent : Int) : Quantity :=
  if 0 ≤ exponent then x.scaleUp exponent.toNat else x.scaleDown (-exponent).toNat

end Double

end DocMapper
