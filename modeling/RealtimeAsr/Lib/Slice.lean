import Mathlib.Data.List.Basic

/-!
This module contains facts about slices of a list that grows at its end.
-/

namespace List

variable {α : Type}

theorem slice_append (xs ys : List α) {st num : Nat} (h : st + num ≤ xs.length)
    : ((xs ++ ys).drop st).take num = (xs.drop st).take num := by
  rw [List.drop_append_of_le_length (by omega), List.take_append_of_le_length]
  rw [List.length_drop]
  omega

theorem getElem?_concat_eq_some {xs : List α} {x y : α} {i : Nat}
    : (xs ++ [x])[i]? = some y ↔ xs[i]? = some y ∨ (i = xs.length ∧ x = y) := by
  by_cases hi : i < xs.length
  . rw [List.getElem?_append_left hi]
    constructor
    . exact Or.inl
    . intro h
      exact h.resolve_right fun hlast => by omega
  . rw [List.getElem?_append_right (by omega), List.getElem?_eq_none (by omega : xs.length ≤ i)]
    by_cases hlast : i = xs.length
    . simp [hlast]
    . have hover : ([x] : List α).length ≤ i - xs.length := by
        rw [List.length_singleton]
        omega
      rw [List.getElem?_eq_none hover]
      simp [hlast]

end List
