import Mathlib.Data.Int.ModEq

/-!
This module contains the conversions between integers of fixed width, as functions on the integers.
-/

namespace Width

def size (x : Int) : Int :=
  x % 2 ^ 64

def int (x : Int) : Int :=
  x.bmod (2 ^ 32)

theorem int_eq_self_iff (x : Int) : int x = x ↔ -2 ^ 31 ≤ x ∧ x < 2 ^ 31 := by
  unfold int
  rw [Int.bmod_def]
  constructor
  . intro h
    split at h
    . omega
    . omega
  . intro h
    split
    . omega
    . omega

theorem int_lt (x : Int) : int x < 2 ^ 31 := by
  unfold int
  rw [Int.bmod_def]
  split
  . omega
  . omega

theorem dvd_sub_int (x : Int) : 2 ^ 32 ∣ x - int x := by
  unfold int
  rw [Int.bmod_def]
  split
  . omega
  . omega

-- The range of an `int` divides that of a `size_t`, so only the true value counts.
@[simp]
theorem int_size (x : Int) : int (size x) = int x := by
  unfold int size
  rw [Int.bmod_def, Int.bmod_def]
  have hmod : x % 2 ^ 64 % (2 ^ 32 : Nat) = x % (2 ^ 32 : Nat) :=
    Int.emod_emod_of_dvd x (by decide)
  rw [hmod]

@[simp]
theorem size_add_left (x y : Int) : size (size x + y) = size (x + y) := by
  unfold size
  exact Int.emod_add_emod x _ y

end Width
