import Mathlib.Data.List.Basic

/-!
This module contains texts that start with a delimited field, and what is left of the field when the
text is cut off.
-/

namespace List

variable {α : Type} {sep : α}

theorem take_delimited_eq_iff {x y : List α} (hx : sep ∉ x) (hy : sep ∉ y) (hne : x ≠ y)
    (s t : List α) (n : Nat)
    : (x ++ sep :: s).take n = (y ++ sep :: t).take n
        ↔
      n ≤ x.length ∧ n ≤ y.length ∧ x.take n = y.take n := by
  induction n generalizing x y with
  | zero => simp
  | succ n ih =>
    cases x with
    | nil =>
      cases y with
      | nil => exact absurd rfl hne
      | cons b y =>
        have hb : sep ≠ b := fun h => hy (by simp [h])
        simp [hb]
    | cons a x =>
      cases y with
      | nil =>
        have ha : a ≠ sep := fun h => hx (by simp [h])
        simp [ha]
      | cons b y =>
        have hx : sep ∉ x := fun h => hx (List.mem_cons_of_mem a h)
        have hy : sep ∉ y := fun h => hy (List.mem_cons_of_mem b h)
        by_cases hab : a = b
        . have hne : x ≠ y := fun h => hne (by rw [hab, h])
          simp [hab, ih hx hy hne]
        . simp [hab]

theorem take_append_left_cancel (stem x y : List α) (n : Nat)
    : (stem ++ x).take n = (stem ++ y).take n
        ↔
      x.take (n - stem.length) = y.take (n - stem.length) := by
  rw [List.take_append, List.take_append, List.append_right_inj]

end List

namespace Nat

theorem toDigits_ten_injective : Function.Injective (Nat.toDigits 10) := by
  intro m n h
  rw [← Nat.ofDigitChars_ten_toDigits (n := m), h, Nat.ofDigitChars_ten_toDigits]

theorem minus_not_mem_toDigits (n : Nat) : '-' ∉ Nat.toDigits 10 n := by
  intro h
  have hdigit := Nat.isDigit_of_mem_toDigits (by decide) (by decide) h
  exact absurd hdigit (by decide)

end Nat
