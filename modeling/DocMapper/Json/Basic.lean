import DocMapper.Dict
import DocMapper.Number.Double
import DocMapper.Number.Signed

/-!
# JSON values

A JSON number is an integer of at most 64 bits or a double precision number, and the two
are different values even where they are equal as numbers. An object is a dictionary.

Two values are the same (`Json.same`) when they agree in structure and in every number's
value, so the only distinct values that are the same differ in the sign of a zero.
-/

namespace DocMapper

/-- An integer that fits 64 bits, signed or unsigned. -/
structure Integer where
  val : Int
  lower : -9223372036854775808 ≤ val
  upper : val < 18446744073709551616
deriving DecidableEq

namespace Integer

@[ext] theorem ext {m n : Integer} (h : m.val = n.val) : m = n := by
  cases m; cases n; cases h; rfl

/-- The integer with this value, if the value fits. -/
def ofInt? (n : Int) : Option Integer :=
  if h : -9223372036854775808 ≤ n ∧ n < 18446744073709551616 then some ⟨n, h.1, h.2⟩ else none

@[simp] theorem ofInt?_val (n : Integer) : ofInt? n.val = some n := by
  simp [ofInt?, n.lower, n.upper]

/-- A signed integer of 64 bits. -/
def ofSigned (n : Signed 64) : Integer :=
  ⟨n.val, n.lower, Int.lt_of_lt_of_le n.upper (by decide)⟩

/-- An unsigned integer of 64 bits. -/
def ofUInt64 (n : UInt64) : Integer :=
  ⟨n.toNat, by omega, by have := n.toNat_lt; omega⟩

/-- The integer as a signed one of 64 bits, if it is not too large. -/
def toSigned? (n : Integer) : Option (Signed 64) := Signed.ofInt? 64 n.val

/-- The integer as an unsigned one, if it is not negative. -/
def toUInt64? (n : Integer) : Option UInt64 :=
  if 0 ≤ n.val then some (UInt64.ofNat n.val.toNat) else none

/-- The nearest double precision number. -/
def toDouble (n : Integer) : Double :=
  Double.ofInt n.val (by have := n.lower; have := n.upper; omega)

@[simp] theorem toSigned?_ofSigned (n : Signed 64) : (ofSigned n).toSigned? = some n :=
  Signed.ofInt?_val n

@[simp] theorem toUInt64?_ofUInt64 (n : UInt64) : (ofUInt64 n).toUInt64? = some n := by
  simp [toUInt64?, ofUInt64]

end Integer

/-- A JSON number. -/
inductive Number where
  | int (n : Integer)
  | float (x : Double)
deriving DecidableEq

namespace Number

/-- The number in double precision. -/
def toDouble : Number → Double
  | .int n => n.toDouble
  | .float x => x

/-- The number as a signed integer of 64 bits; a double is never one. -/
def toSigned? : Number → Option (Signed 64)
  | .int n => n.toSigned?
  | .float _ => none

/-- The number as an unsigned integer of 64 bits; a double is never one. -/
def toUInt64? : Number → Option UInt64
  | .int n => n.toUInt64?
  | .float _ => none

/-- Integers with integers and doubles with doubles, by value. -/
def same : Number → Number → Bool
  | .int m, .int n => m == n
  | .float x, .float y => x.sameValue y
  | _, _ => false

end Number

/-- A JSON value. -/
inductive Json where
  | null
  | bool (b : Bool)
  | num (n : Number)
  | str (s : String)
  | arr (items : List Json)
  | obj (fields : List (String × Json))
deriving Inhabited

/-- The members of a JSON object. -/
abbrev Fields := Dict Json

namespace Json

mutual

/-- Equality of values is decided member by member. -/
def decEq : (a b : Json) → Decidable (a = b)
  | .null, .null => isTrue rfl
  | .bool a, .bool b => decidable_of_iff (a = b) (by simp)
  | .num a, .num b => decidable_of_iff (a = b) (by simp)
  | .str a, .str b => decidable_of_iff (a = b) (by simp)
  | .arr a, .arr b => match decEqItems a b with
    | isTrue h => isTrue (by rw [h])
    | isFalse h => isFalse (by simpa using h)
  | .obj a, .obj b => match decEqFields a b with
    | isTrue h => isTrue (by rw [h])
    | isFalse h => isFalse (by simpa using h)
  | .null, .bool _ | .null, .num _ | .null, .str _ | .null, .arr _ | .null, .obj _
  | .bool _, .null | .bool _, .num _ | .bool _, .str _ | .bool _, .arr _ | .bool _, .obj _
  | .num _, .null | .num _, .bool _ | .num _, .str _ | .num _, .arr _ | .num _, .obj _
  | .str _, .null | .str _, .bool _ | .str _, .num _ | .str _, .arr _ | .str _, .obj _
  | .arr _, .null | .arr _, .bool _ | .arr _, .num _ | .arr _, .str _ | .arr _, .obj _
  | .obj _, .null | .obj _, .bool _ | .obj _, .num _ | .obj _, .str _ | .obj _, .arr _ =>
    isFalse (by simp)
termination_by structural a => a

def decEqItems : (a b : List Json) → Decidable (a = b)
  | [], [] => isTrue rfl
  | [], _ :: _ | _ :: _, [] => isFalse (by simp)
  | x :: r, y :: s => match decEq x y, decEqItems r s with
    | isTrue h, isTrue h' => isTrue (by rw [h, h'])
    | isFalse h, _ => isFalse (by simp [h])
    | _, isFalse h => isFalse (by simp [h])
termination_by structural a => a

def decEqFields : (a b : List (String × Json)) → Decidable (a = b)
  | [], [] => isTrue rfl
  | [], _ :: _ | _ :: _, [] => isFalse (by simp)
  | (k, x) :: r, (l, y) :: s =>
    if hk : k = l then
      match decEq x y, decEqFields r s with
      | isTrue h, isTrue h' => isTrue (by rw [hk, h, h'])
      | isFalse h, _ => isFalse (by simp [h])
      | _, isFalse h => isFalse (by simp [h])
    else isFalse (by simp [hk])
termination_by structural a => a

end

instance : DecidableEq Json := decEq

mutual

/-- Equality up to the sign of zeros. -/
def same : Json → Json → Bool
  | .null, .null => true
  | .bool a, .bool b => a == b
  | .num a, .num b => a.same b
  | .str a, .str b => a == b
  | .arr a, .arr b => sameItems a b
  | .obj a, .obj b => sameFields a b
  | _, _ => false
termination_by structural a => a

def sameItems : List Json → List Json → Bool
  | [], [] => true
  | x :: r, y :: s => same x y && sameItems r s
  | _, _ => false
termination_by structural a => a

def sameFields : List (String × Json) → List (String × Json) → Bool
  | [], [] => true
  | (k, x) :: r, (l, y) :: s => k == l && same x y && sameFields r s
  | _, _ => false
termination_by structural a => a

end

/-- A whole number of 64 bits. -/
def ofUInt64 (n : UInt64) : Json := .num (.int (.ofUInt64 n))

/-- A signed whole number of 64 bits. -/
def ofSigned (n : Signed 64) : Json := .num (.int (.ofSigned n))

/-- An array of texts. -/
def ofStrings (texts : List String) : Json := .arr (texts.map .str)

/-- The text of a text value. -/
def asString? : Json → Option String
  | .str s => some s
  | _ => none

/-- The truth value of a Boolean. -/
def asBool? : Json → Option Bool
  | .bool b => some b
  | _ => none

/-- The items of an array. -/
def asArray? : Json → Option (List Json)
  | .arr items => some items
  | _ => none

/-- The members of an object. -/
def asObject? : Json → Option Fields
  | .obj fields => some fields
  | _ => none

/-- A number in double precision. -/
def asDouble? : Json → Option Double
  | .num n => some n.toDouble
  | _ => none

/-- Whether the value is `null`. -/
def isNull : Json → Bool
  | .null => true
  | _ => false

/-- Whether the value is an object. -/
def isObject : Json → Bool
  | .obj _ => true
  | _ => false

end Json

end DocMapper
