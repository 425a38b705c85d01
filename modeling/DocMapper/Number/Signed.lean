/-!
# Integers of a fixed width

A signed integer of a given number of bits, in two's complement: its value always lies in
the range of its width.
-/

namespace DocMapper

/-- How far the signed integers of a width reach: `2 ^ (bits - 1)`. -/
def reach (bits : Nat) : Nat := Nat.pow 2 (bits - 1)

/-- A signed integer of `bits` bits. -/
structure Signed (bits : Nat) where
  val : Int
  lower : -(reach bits : Int) ≤ val
  upper : val < (reach bits : Int)
deriving DecidableEq

namespace Signed

variable {bits : Nat}

@[ext] theorem ext {m n : Signed bits} (h : m.val = n.val) : m = n := by
  cases m; cases n; cases h; rfl

/-- The integer with this value, if the value is in range. -/
def ofInt? (bits : Nat) (n : Int) : Option (Signed bits) :=
  if h : -(reach bits : Int) ≤ n ∧ n < (reach bits : Int) then some ⟨n, h.1, h.2⟩ else none

@[simp] theorem ofInt?_val (n : Signed bits) : ofInt? bits n.val = some n := by
  simp [ofInt?, n.lower, n.upper]

theorem ofInt?_eq_some_iff {n : Int} {m : Signed bits} : ofInt? bits n = some m ↔ m.val = n := by
  constructor
  · intro h
    unfold ofInt? at h
    split at h
    · cases h; rfl
    · cases h
  · rintro rfl
    exact ofInt?_val m

theorem bmod_mem_range (bits : Nat) (n : Int) :
    -(reach bits : Int) ≤ n.bmod (Nat.pow 2 bits) ∧
      n.bmod (Nat.pow 2 bits) < (reach bits : Int) := by
  cases bits with
  | zero =>
    have hone : n.bmod (Nat.pow 2 0) = 0 := by simp
    rw [hone]
    decide
  | succ b =>
    have hdouble : Nat.pow 2 (b + 1) = 2 * reach (b + 1) := by
      rw [reach, Nat.pow_eq, Nat.pow_eq, Nat.pow_succ, Nat.add_sub_cancel, Nat.mul_comm]
    have hpos : 0 < Nat.pow 2 (b + 1) := Nat.pow_pos (by decide)
    have hlow := Int.le_bmod (x := n) hpos
    have hhigh := Int.bmod_lt (x := n) hpos
    rw [hdouble] at hlow hhigh ⊢
    constructor <;> omega

/-- The value brought into range by adding or subtracting multiples of `2 ^ bits`. -/
def wrap (bits : Nat) (n : Int) : Signed bits :=
  ⟨n.bmod (Nat.pow 2 bits), (bmod_mem_range bits n).1, (bmod_mem_range bits n).2⟩

end Signed

end DocMapper
