import DocMapper.Json.Basic

/-!
# Collation

The order of the document database on all JSON values: by kind first (`null`, `false`,
`true`, numbers, texts, arrays, objects), then numbers by value, texts by code points,
arrays and objects member by member and then by length. It forgets how a number is
represented, so values can collate equal without being equal.
-/

namespace DocMapper.Json

/-- The rank of a value's kind. -/
def rank : Json → Nat
  | .null => 0
  | .bool false => 1
  | .bool true => 2
  | .num _ => 3
  | .str _ => 4
  | .arr _ => 5
  | .obj _ => 6

mutual

/-- The order of two values. Values of different kinds never meet in a later comparison. -/
def collate : Json → Json → Ordering
  | .num m, .num n => m.toDouble.compare n.toDouble
  | .str s, .str t => compare s t
  | .arr xs, .arr ys => collateItems xs ys
  | .obj fs, .obj gs => collateFields fs gs
  | a, b => compare a.rank b.rank
termination_by structural a => a

/-- Items in turn; of two lists that agree so far the shorter comes first. -/
def collateItems : List Json → List Json → Ordering
  | [], [] => .eq
  | [], _ :: _ => .lt
  | _ :: _, [] => .gt
  | x :: r, y :: s => (collate x y).then (collateItems r s)
termination_by structural items => items

/-- Members in turn, the key before the value. -/
def collateFields : List (String × Json) → List (String × Json) → Ordering
  | [], [] => .eq
  | [], _ :: _ => .lt
  | _ :: _, [] => .gt
  | (k, x) :: r, (l, y) :: s => ((compare k l).then (collate x y)).then (collateFields r s)
termination_by structural fields => fields

end

/-- Whether two values collate equal. -/
def equivalent (a b : Json) : Bool := a.collate b == .eq

/-- Two values that may be missing: a missing one comes before every value. -/
def collateOptional : Option Json → Option Json → Ordering
  | none, none => .eq
  | none, some _ => .lt
  | some _, none => .gt
  | some a, some b => a.collate b

end DocMapper.Json
