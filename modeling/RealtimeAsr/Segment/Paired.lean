import RealtimeAsr.Lib.Slice
import RealtimeAsr.Segment.Acts
import Mathlib.Data.List.GetD
import Mathlib.Data.List.Infix

/-!
This module contains what holds of the segments of an `Acts` for any recorded decisions: starts and
ends are paired and ordered, and recording more decisions only adds to them.
-/

namespace Acts

structure Paired (a : Acts) : Prop where
  length : a.segSts.length = a.segEnds.length ∨ a.segSts.length = a.segEnds.length + 1
  start_lt : ∀ s ∈ a.segSts, s < a.acts.length
  sorted : a.segSts.Pairwise (· < ·)
  end_lt : ∀ e ∈ a.segEnds, e < a.acts.length
  start_lt_end : ∀ i, i < a.segEnds.length → a.segSts.getD i 0 < a.segEnds.getD i 0

structure Extends (a b : Acts) : Prop where
  acts : a.acts <+: b.acts
  segSts : a.segSts <+: b.segSts
  segEnds : a.segEnds <+: b.segEnds

theorem getD_of_prefix {xs ys : List Nat} (h : xs <+: ys) {i : Nat} (hi : i < xs.length)
    : ys.getD i 0 = xs.getD i 0 := by
  obtain ⟨zs, rfl⟩ := h
  rw [List.getD_append _ _ _ _ hi]

theorem getD_concat_length (xs : List Nat) (x : Nat) : (xs ++ [x]).getD xs.length 0 = x := by
  simp

theorem getD_mem {xs : List Nat} {i : Nat} (hi : i < xs.length) : xs.getD i 0 ∈ xs := by
  rw [List.getD_eq_getElem _ _ hi]
  exact List.getElem_mem hi

theorem getLastD_eq_getD {xs : List Nat} {n : Nat} (h : xs.length = n + 1)
    : xs.getLastD 0 = xs.getD n 0 := by
  rw [List.getLastD_eq_getLast?, List.getLast?_eq_getElem?, List.getD_eq_getElem?_getD, h,
    Nat.add_sub_cancel]

namespace Extends

theorem refl (a : Acts) : a.Extends a :=
  ⟨List.prefix_refl _, List.prefix_refl _, List.prefix_refl _⟩

theorem addAct (a : Acts) (act : Int) : a.Extends (a.addAct act) := by
  have hacts : a.acts <+: (a.addAct act).acts := by
    rw [addAct_acts]
    apply List.prefix_append
  obtain ⟨_, hsts, hends⟩ | ⟨_, hsts, hends⟩ | ⟨_, _, hsts, hends⟩ := a.addAct_segs act
  . refine ⟨hacts, ?_, ?_⟩
    . rw [hsts]
      apply List.prefix_append
    . rw [hends]
  . refine ⟨hacts, ?_, ?_⟩
    . rw [hsts]
    . rw [hends]
      apply List.prefix_append
  . refine ⟨hacts, ?_, ?_⟩
    . rw [hsts]
    . rw [hends]

theorem end_ (r : Rounding) (a : Acts) : a.Extends (a.end_ r) := by
  refine ⟨?_, ?_, ?_⟩
  . rw [end_acts]
  . rw [end_segSts]
  . obtain ⟨_, hends⟩ | ⟨_, hends⟩ := a.end_segEnds r
    . rw [hends]
      apply List.prefix_append
    . rw [hends]

theorem actSum_eq {a b : Acts} (h : a.Extends b) {st en : Nat} (hen : en ≤ a.acts.length)
    : actSum b.acts st en = actSum a.acts st en := by
  obtain ⟨ds, hds⟩ := h.acts
  unfold actSum
  rw [← hds]
  by_cases hle : st ≤ en
  . rw [List.slice_append _ _ (by omega)]
  . simp [Nat.sub_eq_zero_of_le (Nat.le_of_not_le hle)]

theorem actPercent_eq {a b : Acts} (h : a.Extends b) (r : Rounding) {st en : Nat}
    (hen : en ≤ a.acts.length)
    : b.actPercent r st en = a.actPercent r st en := by
  unfold actPercent percent
  rw [h.actSum_eq hen]

end Extends

namespace Paired

theorem empty : Paired {} where
  length := Or.inl rfl
  start_lt := by simp
  sorted := List.Pairwise.nil
  end_lt := by simp
  start_lt_end := by simp

section

variable {a b : Acts} (h : a.Paired)

include h

theorem keeps (hlen : a.acts.length ≤ b.acts.length) (hsts : b.segSts = a.segSts)
    (hends : b.segEnds = a.segEnds)
    : b.Paired := by
  constructor
  . rw [hsts, hends]
    exact h.length
  . rw [hsts]
    intro s hs
    exact Nat.lt_of_lt_of_le (h.start_lt s hs) hlen
  . rw [hsts]
    exact h.sorted
  . rw [hends]
    intro e he
    exact Nat.lt_of_lt_of_le (h.end_lt e he) hlen
  . rw [hsts, hends]
    exact h.start_lt_end

theorem opens (hpaired : a.segSts.length = a.segEnds.length)
    (hlen : a.acts.length < b.acts.length) (hsts : b.segSts = a.segSts ++ [a.acts.length])
    (hends : b.segEnds = a.segEnds)
    : b.Paired := by
  constructor
  . rw [hsts, hends, List.length_append, hpaired]
    right
    rfl
  . rw [hsts]
    simp only [List.mem_append, List.mem_singleton]
    rintro s (hs | rfl)
    . exact Nat.lt_trans (h.start_lt s hs) hlen
    . exact hlen
  . rw [hsts, List.pairwise_append]
    refine ⟨h.sorted, List.pairwise_singleton _ _, ?_⟩
    simp only [List.mem_singleton, forall_eq]
    exact h.start_lt
  . rw [hends]
    intro e he
    exact Nat.lt_trans (h.end_lt e he) hlen
  . intro i hi
    rw [hends] at hi ⊢
    rw [hsts, List.getD_append _ _ _ _ (by omega)]
    exact h.start_lt_end i hi

theorem closes {e : Nat} (hone : a.segSts.length = a.segEnds.length + 1)
    (hlen : a.acts.length ≤ b.acts.length) (hsts : b.segSts = a.segSts)
    (hends : b.segEnds = a.segEnds ++ [e]) (hst : a.segSts.getLastD 0 < e) (he : e < b.acts.length)
    : b.Paired := by
  constructor
  . rw [hsts, hends, List.length_append]
    left
    exact hone
  . rw [hsts]
    intro s hs
    exact Nat.lt_of_lt_of_le (h.start_lt s hs) hlen
  . rw [hsts]
    exact h.sorted
  . rw [hends]
    simp only [List.mem_append, List.mem_singleton]
    rintro e' (he' | rfl)
    . exact Nat.lt_of_lt_of_le (h.end_lt e' he') hlen
    . exact he
  . intro i hi
    rw [hends, List.length_append, List.length_singleton] at hi
    rw [hsts, hends]
    by_cases hlt : i < a.segEnds.length
    . rw [List.getD_append _ _ _ _ hlt]
      exact h.start_lt_end i hlt
    . have : i = a.segEnds.length := by omega
      subst this
      rw [getD_concat_length, ← getLastD_eq_getD hone]
      exact hst

end

theorem addAct {a : Acts} (h : a.Paired) (act : Int) : (a.addAct act).Paired := by
  have hlen : (a.addAct act).acts.length = a.acts.length + 1 := by simp
  obtain ⟨hop, hsts, hends⟩ | ⟨hcl, hsts, hends⟩ | ⟨_, _, hsts, hends⟩ := a.addAct_segs act
  . exact h.opens hop.none_open (by omega) hsts hends
  . have hlong := hcl.long
    exact h.closes hcl.one_open (by omega) hsts hends (by omega) (by omega)
  . exact h.keeps (by omega) hsts hends

theorem end_ {a : Acts} (h : a.Paired) (r : Rounding) : (a.end_ r).Paired := by
  have hlen : a.acts.length = (a.end_ r).acts.length := by simp
  have hsts : (a.end_ r).segSts = a.segSts := end_segSts r a
  obtain ⟨hcl, hends⟩ | ⟨_, hends⟩ := a.end_segEnds r
  . have hlong := hcl.long
    exact h.closes hcl.one_open (by omega) hsts hends (by omega) (by omega)
  . exact h.keeps (by omega) hsts hends

theorem feed {a : Acts} (h : a.Paired) (ds : List Int) : (a.feed ds).Paired := by
  induction ds generalizing a with
  | nil => exact h
  | cons d ds ih => exact ih (h.addAct d)

variable {a : Acts} (h : a.Paired)

include h

theorem length_ends_le : a.segEnds.length ≤ a.segSts.length := by
  have := h.length
  omega

theorem end_lt_length {i : Nat} (hi : i < a.segEnds.length)
    : a.segEnds.getD i 0 < a.acts.length := by
  apply h.end_lt
  exact getD_mem hi

theorem start_lt_length {i : Nat} (hi : i < a.segSts.length)
    : a.segSts.getD i 0 < a.acts.length := by
  apply h.start_lt
  exact getD_mem hi

theorem start_lt_start {i j : Nat} (hij : i < j) (hj : j < a.segSts.length)
    : a.segSts.getD i 0 < a.segSts.getD j 0 := by
  rw [List.getD_eq_getElem _ _ (by omega), List.getD_eq_getElem _ _ hj]
  exact List.pairwise_iff_getElem.mp h.sorted i j (by omega) hj hij

end Paired

end Acts
