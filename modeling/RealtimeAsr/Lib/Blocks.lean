import Mathlib.Data.List.Basic

/-!
This module contains the division of a list into blocks of a fixed length and a shorter rest.
-/

namespace Blocks

variable {α : Type} (n : Nat)

def full (xs : List α) : List (List α) :=
  (List.range (xs.length / n)).map fun i => (xs.drop (i * n)).take n

def rest (xs : List α) : List α :=
  xs.drop (xs.length / n * n)

variable {n}

theorem full_of_short {xs : List α} (h : xs.length < n) : full n xs = [] := by
  unfold full
  rw [Nat.div_eq_of_lt h]
  rfl

theorem rest_of_short {xs : List α} (h : xs.length < n) : rest n xs = xs := by
  unfold rest
  rw [Nat.div_eq_of_lt h, Nat.zero_mul, List.drop_zero]

theorem count_append (hn : 0 < n) {b : List α} (hb : b.length = n) (xs : List α)
    : (b ++ xs).length / n = xs.length / n + 1 := by
  rw [List.length_append, hb, Nat.add_comm, Nat.add_div_right _ hn]

theorem full_append (hn : 0 < n) {b : List α} (hb : b.length = n) (xs : List α)
    : full n (b ++ xs) = b :: full n xs := by
  unfold full
  rw [count_append hn hb, List.range_succ_eq_map, List.map_cons, List.map_map]
  congr 1
  . rw [Nat.zero_mul, List.drop_zero, ← hb, List.take_left]
  . apply List.map_congr_left
    intro i _
    dsimp only [Function.comp]
    rw [Nat.succ_mul, Nat.add_comm, ← List.drop_drop, ← hb, List.drop_left]

theorem rest_append (hn : 0 < n) {b : List α} (hb : b.length = n) (xs : List α)
    : rest n (b ++ xs) = rest n xs := by
  unfold rest
  rw [count_append hn hb, Nat.succ_mul, Nat.add_comm, ← List.drop_drop]
  congr 1
  rw [← hb, List.drop_left]

/--
What holds of every short list, and of a list behind one more block, holds of every list.
-/
theorem induction (hn : 0 < n) {P : List α → Prop} (short : ∀ xs, xs.length < n → P xs)
    (block : ∀ b xs, b.length = n → P xs → P (b ++ xs)) (xs : List α)
    : P xs := by
  induction hlen : xs.length using Nat.strongRecOn generalizing xs with
  | ind m ih =>
    by_cases hm : m < n
    . apply short
      rwa [hlen]
    . rw [← List.take_append_drop n xs]
      apply block
      . rw [List.length_take, hlen]
        omega
      . apply ih (m - n) (by omega)
        rw [List.length_drop, hlen]

theorem length_rest (xs : List α) : (rest n xs).length = xs.length % n := by
  unfold rest
  rw [List.length_drop, Nat.mod_def, Nat.mul_comm]

theorem length_full (xs : List α) : (full n xs).length = xs.length / n := by
  unfold full
  rw [List.length_map, List.length_range]

end Blocks
