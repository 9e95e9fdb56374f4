import Mathlib.Order.Monotone.Basic
import Mathlib.Data.List.Basic

/-!
This module contains tilings of an interval by consecutive intervals, and what they say about the
slices of a list that they cut out.
-/

def Tiles {α : Type} [LT α] (lo : α) : List (α × α) → α → Prop
  | [], hi => lo = hi
  | p :: ps, hi => p.1 = lo ∧ p.1 < p.2 ∧ Tiles p.2 ps hi

namespace Tiles

variable {α : Type} [Preorder α] {lo mid hi : α} {ps : List (α × α)}

theorem nil : Tiles lo [] lo := rfl

theorem concat (h : Tiles lo ps mid) (hlt : mid < hi) : Tiles lo (ps ++ [(mid, hi)]) hi := by
  induction ps generalizing lo with
  | nil =>
    have hlo : lo = mid := h
    subst hlo
    exact ⟨rfl, hlt, rfl⟩
  | cons p ps ih =>
    obtain ⟨hfst, hp, htl⟩ := h
    exact ⟨hfst, hp, ih htl⟩

theorem le (h : Tiles lo ps hi) : lo ≤ hi := by
  induction ps generalizing lo with
  | nil =>
    have hlo : lo = hi := h
    rw [hlo]
  | cons p ps ih =>
    obtain ⟨hfst, hp, htl⟩ := h
    rw [← hfst]
    exact le_trans hp.le (ih htl)

end Tiles

namespace List

variable {β : Type}

theorem extract_join (xs : List β) {a b c : Nat} (hab : a ≤ b) (hbc : b ≤ c)
    : xs.extract a b ++ xs.extract b c = xs.extract a c := by
  simp only [List.extract_eq_take_drop]
  have hsplit : c - a = (b - a) + (c - b) := by omega
  rw [hsplit, List.take_add, List.drop_drop]
  congr 3
  omega

theorem flatten_extract_tiles {α : Type} [Preorder α] (xs : List β) {f : α → Nat} (hf : Monotone f)
    {lo hi : α} {ps : List (α × α)} (h : Tiles lo ps hi)
    : (ps.map fun p => xs.extract (f p.1) (f p.2)).flatten = xs.extract (f lo) (f hi) := by
  induction ps generalizing lo with
  | nil =>
    have hlo : lo = hi := h
    simp [hlo, List.extract_eq_take_drop]
  | cons p ps ih =>
    obtain ⟨hfst, hp, htl⟩ := h
    rw [List.map_cons, List.flatten_cons, ih htl, ← hfst]
    exact extract_join xs (hf hp.le) (hf htl.le)

end List
