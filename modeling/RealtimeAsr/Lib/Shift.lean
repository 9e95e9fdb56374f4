import Mathlib.Data.List.InsertIdx

/-!
This module contains the loops that move a part of an array by one, to take an element out or to make
room for one.
-/

namespace Shift

variable {α : Type}

/--
`for (j = i; j < i + n; j++) xs[j] = xs[j + 1];`
-/
def down (d : α) (i n : Nat) (xs : List α) : List α :=
  (List.range' i n).foldl (fun xs j => xs.set j (xs.getD (j + 1) d)) xs

/--
`for (i = position + n; i > position; i--) xs[i] = xs[i - 1];`
-/
def up (d : α) (position n : Nat) (xs : List α) : List α :=
  (List.range' (position + 1) n).reverse.foldl (fun xs i => xs.set i (xs.getD (i - 1) d)) xs

theorem getElem?_set_getD (d : α) (xs : List α) {i j : Nat} (hi : i < xs.length)
    (hj : j < xs.length) (k : Nat)
    : (xs.set i (xs.getD j d))[k]? = if k = i then xs[j]? else xs[k]? := by
  rw [List.getElem?_set]
  by_cases h : i = k
  . rw [if_pos h, if_pos (h ▸ hi), if_pos h.symm, List.getD_eq_getElem?_getD,
      List.getElem?_eq_getElem hj, Option.getD_some]
  . rw [if_neg h, if_neg (Ne.symm h)]

theorem length_down (d : α) (i n : Nat) (xs : List α) : (down d i n xs).length = xs.length := by
  unfold down
  induction n with
  | zero => rfl
  | succ n ih => rw [List.range'_concat, List.foldl_append, List.foldl_cons, List.foldl_nil, List.length_set, ih]

theorem getElem?_down (d : α) {i n : Nat} {xs : List α} (h : i + n < xs.length) (k : Nat)
    : (down d i n xs)[k]? = if i ≤ k ∧ k < i + n then xs[k + 1]? else xs[k]? := by
  induction n generalizing k with
  | zero =>
    rw [if_neg (by omega)]
    rfl
  | succ n ih =>
    have hlast : down d i (n + 1) xs
        = (down d i n xs).set (i + n) ((down d i n xs).getD (i + n + 1) d) := by
      unfold down
      rw [List.range'_concat, List.foldl_append, Nat.one_mul]
      rfl
    have hlen := length_down d i n xs
    rw [hlast, getElem?_set_getD d _ (by omega) (by omega), ih (by omega), ih (by omega)]
    by_cases hk : k = i + n
    . rw [if_pos hk, if_neg (by omega), if_pos (by omega), hk]
    . rw [if_neg hk]
      by_cases hin : i ≤ k ∧ k < i + n
      . rw [if_pos hin, if_pos (by omega)]
      . rw [if_neg hin, if_neg (by omega)]

theorem getElem?_up (d : α) {position n : Nat} {xs : List α} (h : position + n < xs.length) (k : Nat)
    : (up d position n xs)[k]?
        =
      if position < k ∧ k ≤ position + n then xs[k - 1]? else xs[k]? := by
  induction n generalizing xs k with
  | zero =>
    rw [if_neg (by omega)]
    rfl
  | succ n ih =>
    have hfirst : up d position (n + 1) xs
        = up d position n (xs.set (position + 1 + n) (xs.getD (position + 1 + n - 1) d)) := by
      unfold up
      rw [List.range'_concat, List.reverse_append, Nat.one_mul]
      rfl
    have hset := getElem?_set_getD d xs (show position + 1 + n < xs.length by omega)
      (show position + 1 + n - 1 < xs.length by omega)
    rw [hfirst, ih (by rw [List.length_set]; omega)]
    by_cases hin : position < k ∧ k ≤ position + n
    . rw [if_pos hin, if_pos (by omega), hset, if_neg (by omega)]
    . rw [if_neg hin, hset]
      by_cases hk : k = position + 1 + n
      . rw [if_pos hk, if_pos (by omega), hk]
      . rw [if_neg hk, if_neg (by omega)]

/--
The last step of the loop reads behind the part, what it finds there is overwritten.
-/
theorem set_down (d v : α) {i n : Nat} {xs rest : List α} (h : xs.length = i + n + 1)
    : (down d i (n + 1) (xs ++ rest)).set (i + n) v = xs.eraseIdx i ++ v :: rest := by
  have hlast : down d i (n + 1) (xs ++ rest)
      = (down d i n (xs ++ rest)).set (i + n) ((down d i n (xs ++ rest)).getD (i + n + 1) d) := by
    unfold down
    rw [List.range'_concat, List.foldl_append, Nat.one_mul]
    rfl
  have hlen : (xs.eraseIdx i).length = i + n := by
    rw [List.length_eraseIdx_of_lt (by omega)]
    omega
  have hall : i + n < (xs ++ rest).length := by
    rw [List.length_append]
    omega
  rw [hlast, List.set_set]
  apply List.ext_getElem?
  intro k
  rw [List.getElem?_set, length_down, getElem?_down d hall]
  rcases Nat.lt_trichotomy k (i + n) with hk | hk | hk
  . have hright : (xs.eraseIdx i ++ v :: rest)[k]? = (xs.eraseIdx i)[k]? :=
      List.getElem?_append_left (by omega)
    rw [if_neg (by omega), hright, List.getElem?_eraseIdx]
    by_cases hik : i ≤ k
    . rw [if_pos ⟨hik, hk⟩, if_neg (by omega), List.getElem?_append_left (by omega)]
    . rw [if_neg (fun hin => hik hin.1), if_pos (by omega), List.getElem?_append_left (by omega)]
  . rw [if_pos hk.symm, if_pos hall, List.getElem?_append_right (by omega), hlen, hk, Nat.sub_self]
    rfl
  . have hright : (xs.eraseIdx i ++ v :: rest)[k]? = rest[k - xs.length]? := by
      rw [List.getElem?_append_right (by omega), hlen, h,
        show k - (i + n) = k - (i + n + 1) + 1 by omega, List.getElem?_cons_succ]
    rw [if_neg (by omega), if_neg (by omega), hright, List.getElem?_append_right (by omega)]

theorem set_up (d v : α) {position n : Nat} {xs rest : List α} (h : xs.length = position + n + 1)
    : (up d position n (xs ++ rest)).set position v
        =
      xs.take position ++ v :: (xs.drop position).take n ++ rest := by
  have hall : position + n < (xs ++ rest).length := by
    rw [List.length_append]
    omega
  have hlen : (up d position n (xs ++ rest)).length = (xs ++ rest).length := by
    apply Nat.le_antisymm
    . rw [← List.getElem?_eq_none_iff, getElem?_up d hall, if_neg (by omega)]
      exact List.getElem?_eq_none_iff.mpr (Nat.le_refl _)
    . by_contra hlt
      have hnone := List.getElem?_eq_none_iff.mpr
        (show (up d position n (xs ++ rest)).length ≤ (xs ++ rest).length - 1 by omega)
      rw [getElem?_up d hall] at hnone
      split at hnone
      . have hle := List.getElem?_eq_none_iff.mp hnone
        omega
      . have hle := List.getElem?_eq_none_iff.mp hnone
        omega
  have htake : (xs.take position).length = position := by
    rw [List.length_take]
    omega
  have hmiddle : ((xs.drop position).take n).length = n := by
    rw [List.length_take, List.length_drop]
    omega
  have hright (k : Nat) : (xs.take position ++ v :: (xs.drop position).take n ++ rest)[k]?
      = if k < position then xs[k]? else if k = position then some v
        else if k ≤ position + n then xs[k - 1]? else rest[k - xs.length]? := by
    rw [List.append_assoc, List.cons_append]
    rcases Nat.lt_trichotomy k position with hk | hk | hk
    . rw [if_pos hk, List.getElem?_append_left (by omega), List.getElem?_take_of_lt hk]
    . rw [if_neg (by omega), if_pos hk, List.getElem?_append_right (by omega), htake, hk, Nat.sub_self]
      rfl
    . rw [if_neg (by omega), if_neg (by omega), List.getElem?_append_right (by omega), htake,
        show k - position = k - 1 - position + 1 by omega, List.getElem?_cons_succ]
      by_cases hm : k ≤ position + n
      . rw [if_pos hm, List.getElem?_append_left (by omega), List.getElem?_take_of_lt (by omega),
          List.getElem?_drop, show position + (k - 1 - position) = k - 1 by omega]
      . rw [if_neg hm, List.getElem?_append_right (by omega), hmiddle, h]
        congr 1
        omega
  apply List.ext_getElem?
  intro k
  rw [List.getElem?_set, hlen, getElem?_up d hall, hright]
  rcases Nat.lt_trichotomy k position with hk | hk | hk
  . rw [if_neg (by omega), if_neg (by omega), if_pos hk, List.getElem?_append_left (by omega)]
  . rw [if_pos hk.symm, if_pos (by omega), if_neg (by omega), if_pos hk]
  . by_cases hm : k ≤ position + n
    . rw [if_neg (by omega), if_pos ⟨hk, hm⟩, if_neg (by omega), if_neg (by omega), if_pos hm,
        List.getElem?_append_left (by omega)]
    . rw [if_neg (by omega), if_neg (fun hin => hm hin.2), if_neg (by omega), if_neg (by omega),
        if_neg hm, List.getElem?_append_right (by omega)]

end Shift
