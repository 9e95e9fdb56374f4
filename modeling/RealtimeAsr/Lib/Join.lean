import Mathlib.Data.List.Basic
import Mathlib.Data.List.Infix

/-!
This module contains facts about joining texts with a separator: a loop that puts the separator after
every text but the last computes `List.intercalate`, and joining more texts only extends the result.
-/

namespace List

variable {α : Type} (sep : List α)

theorem intercalate_concat (xs : List (List α)) (x : List α)
    : sep.intercalate (xs ++ [x]) = xs.flatMap (fun y => y ++ sep) ++ x := by
  induction xs with
  | nil => simp
  | cons y xs ih =>
    rw [List.cons_append, List.intercalate_cons_of_ne_nil (by simp), ih, List.flatMap_cons]
    simp

theorem foldl_append_eq (xs : List (List α)) (acc : List α)
    : xs.foldl (fun rt x => rt ++ (x ++ sep)) acc = acc ++ xs.flatMap (fun x => x ++ sep) := by
  induction xs generalizing acc with
  | nil => simp
  | cons x xs ih =>
    rw [List.foldl_cons, ih, List.flatMap_cons]
    simp

theorem intercalate_prefix {xs ys : List (List α)} (h : xs <+: ys)
    : sep.intercalate xs <+: sep.intercalate ys := by
  obtain ⟨zs, rfl⟩ := h
  cases List.eq_nil_or_concat' xs with
  | inl hx =>
    rw [hx]
    exact List.nil_prefix
  | inr hx =>
    obtain ⟨xs, x, rfl⟩ := hx
    cases List.eq_nil_or_concat' zs with
    | inl hz =>
      rw [hz, List.append_nil]
    | inr hz =>
      obtain ⟨zs, z, rfl⟩ := hz
      rw [← List.append_assoc, intercalate_concat, intercalate_concat, List.append_assoc xs,
        List.flatMap_append, List.append_assoc, List.prefix_append_right_inj,
        List.singleton_append, List.flatMap_cons]
      simp

end List
