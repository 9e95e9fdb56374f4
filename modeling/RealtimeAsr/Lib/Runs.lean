import Mathlib.Data.List.Induction

/-!
This module contains the maximal runs of a predicate in a list, and a machine that collects them while
it is fed the list item by item.
-/

namespace Runs

variable {α : Type} (p : α → Prop)

def On (xs : List α) (i : Nat) : Prop :=
  ∃ x, xs[i]? = some x ∧ p x

structure MaximalRun (xs : List α) (a b : Nat) : Prop where
  lt : a < b
  all : ∀ i, a ≤ i → i < b → On p xs i
  before : ∀ i, i + 1 = a → ¬On p xs i
  after : ¬On p xs b

structure MaximalRuns (xs : List α) (rs : List (Nat × Nat)) : Prop where
  mem : ∀ a b, (a, b) ∈ rs ↔ MaximalRun p xs a b
  sorted : rs.Pairwise fun r s => r.2 < s.1

structure RunLength where
  finished : List (Nat × Nat) := []
  pending : Option Nat := none
  length : Nat := 0

namespace RunLength

def runs (r : RunLength) : List (Nat × Nat) :=
  match r.pending with
  | some a => r.finished ++ [(a, r.length)]
  | none => r.finished

def feed (r : RunLength) (active : Prop) [Decidable active] : RunLength :=
  match r.pending with
  | some a =>
    if active then
      { r with length := r.length + 1 }
    else
      { finished := r.finished ++ [(a, r.length)], pending := none, length := r.length + 1 }
  | none =>
    if active then
      { r with pending := some r.length, length := r.length + 1 }
    else
      { r with length := r.length + 1 }

end RunLength

section

variable {p} {xs : List α} {x : α} {a b i : Nat}

theorem On.lt (h : On p xs i) : i < xs.length := by
  obtain ⟨x, hx, _⟩ := h
  exact (List.getElem?_eq_some_iff.mp hx).1

theorem on_concat_of_lt (hi : i < xs.length) : On p (xs ++ [x]) i ↔ On p xs i := by
  unfold On
  rw [List.getElem?_append_left hi]

theorem on_concat_length : On p (xs ++ [x]) xs.length ↔ p x := by
  simp [On]

theorem on_concat_silent (hx : ¬p x) : On p (xs ++ [x]) i ↔ On p xs i := by
  by_cases hi : i < xs.length
  . exact on_concat_of_lt hi
  . constructor
    . intro hon
      have hlt := hon.lt
      rw [List.length_append, List.length_singleton] at hlt
      have hlast : i = xs.length := by omega
      rw [hlast, on_concat_length] at hon
      exact absurd hon hx
    . intro hon
      exact absurd hon.lt hi

theorem MaximalRun.le (h : MaximalRun p xs a b) : b ≤ xs.length := by
  have hlast := (h.all (b - 1) (by have := h.lt; omega) (by have := h.lt; omega)).lt
  omega

theorem MaximalRun.of_on (hon : ∀ i, i ≤ b → (On p xs i ↔ On p ys i)) (h : MaximalRun p xs a b)
    : MaximalRun p ys a b where
  lt := h.lt
  all := by
    intro i ha hb
    exact (hon i (Nat.le_of_lt hb)).mp (h.all i ha hb)
  before := by
    intro i hi
    have hlt := h.lt
    rw [← hon i (by omega)]
    exact h.before i hi
  after := by
    rw [← hon b (Nat.le_refl b)]
    exact h.after

theorem maximalRun_concat_silent (hx : ¬p x)
    : MaximalRun p (xs ++ [x]) a b ↔ MaximalRun p xs a b := by
  constructor
  . exact MaximalRun.of_on fun i _ => on_concat_silent hx
  . exact MaximalRun.of_on fun i _ => (on_concat_silent hx).symm

theorem maximalRun_concat_before (hb : b < xs.length)
    : MaximalRun p (xs ++ [x]) a b ↔ MaximalRun p xs a b := by
  constructor
  . exact MaximalRun.of_on fun i hi => on_concat_of_lt (by omega)
  . exact MaximalRun.of_on fun i hi => (on_concat_of_lt (by omega)).symm

/--
A run that is still going on when an active item comes ends after it.
-/
theorem maximalRun_concat_active (hx : p x)
    : MaximalRun p (xs ++ [x]) a b
        ↔
      (b < xs.length ∧ MaximalRun p xs a b)
        ∨ (b = xs.length + 1
          ∧ a ≤ xs.length
          ∧ (∀ i, a ≤ i → i < xs.length → On p xs i)
          ∧ ∀ i, i + 1 = a → ¬On p xs i) := by
  constructor
  . intro h
    have hle := h.le
    have hlt := h.lt
    rw [List.length_append, List.length_singleton] at hle
    by_cases hb : b < xs.length
    . exact Or.inl ⟨hb, (maximalRun_concat_before hb).mp h⟩
    . have hend : b = xs.length + 1 := by
        by_contra hne
        have hlast : b = xs.length := by omega
        apply h.after
        rw [hlast, on_concat_length]
        exact hx
      refine Or.inr ⟨hend, by omega, ?_, ?_⟩
      . intro i ha hi
        rw [← on_concat_of_lt hi]
        exact h.all i ha (by omega)
      . intro i hi
        rw [← on_concat_of_lt (by omega)]
        exact h.before i hi
  . rintro (⟨hb, h⟩ | ⟨rfl, ha, hall, hbefore⟩)
    . exact (maximalRun_concat_before hb).mpr h
    . refine ⟨by omega, ?_, ?_, ?_⟩
      . intro i hi hlt
        by_cases hlast : i < xs.length
        . rw [on_concat_of_lt hlast]
          exact hall i hi hlast
        . have heq : i = xs.length := by omega
          rw [heq, on_concat_length]
          exact hx
      . intro i hi
        rw [on_concat_of_lt (by omega)]
        exact hbefore i hi
      . intro hon
        have hlt := hon.lt
        simp at hlt

theorem exists_end {i : Nat} (h : On p xs i)
    : ∃ b, i < b ∧ (∀ j, i ≤ j → j < b → On p xs j) ∧ ¬On p xs b := by
  by_cases hnext : On p xs (i + 1)
  . have hlt := hnext.lt
    obtain ⟨b, hib, hall, hend⟩ := exists_end hnext
    refine ⟨b, by omega, ?_, hend⟩
    intro j hij hjb
    by_cases hj : j = i
    . rw [hj]
      exact h
    . exact hall j (by omega) hjb
  . refine ⟨i + 1, by omega, ?_, hnext⟩
    intro j hij hjb
    have hj : j = i := by omega
    rw [hj]
    exact h
termination_by xs.length - i

theorem exists_maximalRun (h : On p xs i) : ∃ a b, a ≤ i ∧ i < b ∧ MaximalRun p xs a b := by
  induction i with
  | zero =>
    obtain ⟨b, hib, hall, hend⟩ := exists_end h
    exact ⟨0, b, Nat.le_refl 0, hib, hib, hall, fun j hj => absurd hj (by omega), hend⟩
  | succ i ih =>
    by_cases hprev : On p xs i
    . obtain ⟨a, b, ha, hb, hrun⟩ := ih hprev
      have hne : b ≠ i + 1 := by
        rintro rfl
        exact hrun.after h
      exact ⟨a, b, by omega, by omega, hrun⟩
    . obtain ⟨b, hib, hall, hend⟩ := exists_end h
      refine ⟨i + 1, b, Nat.le_refl _, hib, hib, hall, ?_, hend⟩
      intro j hj
      have hji : j = i := by omega
      rw [hji]
      exact hprev

theorem MaximalRuns.on_iff {rs : List (Nat × Nat)} (h : MaximalRuns p xs rs)
    : On p xs i ↔ ∃ s ∈ rs, s.1 ≤ i ∧ i < s.2 := by
  constructor
  . intro hon
    obtain ⟨a, b, ha, hb, hrun⟩ := exists_maximalRun hon
    exact ⟨(a, b), (h.mem a b).mpr hrun, ha, hb⟩
  . rintro ⟨s, hs, ha, hb⟩
    exact ((h.mem s.1 s.2).mp hs).all i ha hb

end

/--
The state of the machine after `xs`.
-/
structure RunLength.Of (xs : List α) (r : RunLength) : Prop where
  length : r.length = xs.length
  runs : MaximalRuns p xs r.runs
  idle : r.pending = none → ∀ i, i + 1 = xs.length → ¬On p xs i

namespace RunLength

section

variable {p} {xs : List α} {x : α} {r : RunLength}

theorem runs_of_pending {st : Nat} (h : r.pending = some st)
    : r.runs = r.finished ++ [(st, r.length)] := by
  unfold RunLength.runs
  rw [h]

theorem runs_of_idle (h : r.pending = none) : r.runs = r.finished := by
  unfold RunLength.runs
  rw [h]

theorem Of.finished_lt (h : r.Of p xs) : ∀ s ∈ r.finished, s.2 < xs.length := by
  rintro ⟨a, b⟩ hfin
  cases hpending : r.pending with
  | some st =>
    have hmem := h.runs.mem
    have hsorted := h.runs.sorted
    rw [runs_of_pending hpending] at hmem hsorted
    have hlast := (hmem st r.length).mp (by simp)
    have hbefore := (List.pairwise_append.mp hsorted).2.2 (a, b) hfin (st, r.length) (by simp)
    have hlt := hlast.lt
    rw [h.length] at hlt
    exact Nat.lt_trans hbefore hlt
  | none =>
    have hmem := h.runs.mem a b
    rw [runs_of_idle hpending] at hmem
    have hrun := hmem.mp hfin
    have hle := hrun.le
    have hlt := hrun.lt
    by_contra hend
    dsimp only at hend
    exact h.idle hpending (b - 1) (by omega) (hrun.all (b - 1) (by omega) (by omega))

theorem Of.silent (h : r.Of p xs) (hx : ¬p x) {r' : RunLength} (hruns : r'.runs = r.runs)
    (hlength : r'.length = r.length + 1)
    : r'.Of p (xs ++ [x]) where
  length := by
    rw [hlength, h.length]
    simp
  runs := by
    rw [hruns]
    refine ⟨?_, h.runs.sorted⟩
    intro a b
    rw [maximalRun_concat_silent hx]
    exact h.runs.mem a b
  idle := by
    intro _ i hi
    rw [List.length_append, List.length_singleton] at hi
    have hlast : i = xs.length := by omega
    rw [hlast, on_concat_length]
    exact hx

theorem Of.onset (h : r.Of p xs) (hx : p x) (hpending : r.pending = none)
    : RunLength.Of p (xs ++ [x]) { r with pending := some r.length, length := r.length + 1 } := by
  have hidle := h.idle hpending
  have hmem := h.runs.mem
  have hsorted := h.runs.sorted
  rw [runs_of_idle hpending] at hmem hsorted
  have hends : ∀ a b, MaximalRun p xs a b → b < xs.length := by
    intro a b hrun
    exact h.finished_lt (a, b) ((hmem a b).mpr hrun)
  refine ⟨by simp [h.length], ⟨?_, ?_⟩, by simp⟩
  . intro a b
    show (a, b) ∈ r.finished ++ [(r.length, r.length + 1)] ↔ _
    rw [List.mem_append, List.mem_singleton, hmem, maximalRun_concat_active hx, h.length]
    constructor
    . rintro (hrun | heq)
      . exact Or.inl ⟨hends a b hrun, hrun⟩
      . obtain ⟨rfl, rfl⟩ := Prod.mk.injEq .. ▸ heq
        exact Or.inr ⟨rfl, Nat.le_refl _, fun i hi hlt => absurd hlt (by omega), hidle⟩
    . rintro (⟨_, hrun⟩ | ⟨rfl, ha, hall, _⟩)
      . exact Or.inl hrun
      . right
        have hstart : a = xs.length := by
          by_contra hne
          exact hidle (xs.length - 1) (by omega) (hall _ (by omega) (by omega))
        rw [hstart]
  . show (r.finished ++ [(r.length, r.length + 1)]).Pairwise _
    rw [List.pairwise_append]
    refine ⟨hsorted, List.pairwise_singleton _ _, ?_⟩
    intro t hfin s hs
    rw [List.mem_singleton] at hs
    rw [hs, h.length]
    exact h.finished_lt t hfin

theorem Of.going (h : r.Of p xs) (hx : p x) {st : Nat} (hpending : r.pending = some st)
    : RunLength.Of p (xs ++ [x]) { r with length := r.length + 1 } := by
  have hmem := h.runs.mem
  have hsorted := h.runs.sorted
  rw [runs_of_pending hpending, h.length] at hmem hsorted
  rw [List.pairwise_append] at hsorted
  obtain ⟨hfinished, _, hbefore⟩ := hsorted
  have hlast : MaximalRun p xs st xs.length := by
    rw [← hmem]
    simp
  refine ⟨by simp [h.length], ?_, ?_⟩
  . rw [runs_of_pending (r := { r with length := r.length + 1 }) hpending, h.length]
    constructor
    . intro a b
      rw [List.mem_append, List.mem_singleton, maximalRun_concat_active hx]
      constructor
      . rintro (hfin | heq)
        . have hrun := (hmem a b).mp (List.mem_append_left _ hfin)
          exact Or.inl ⟨h.finished_lt (a, b) hfin, hrun⟩
        . obtain ⟨rfl, rfl⟩ := Prod.mk.injEq .. ▸ heq
          exact Or.inr ⟨rfl, Nat.le_of_lt hlast.lt, hlast.all, hlast.before⟩
      . rintro (⟨hb, hrun⟩ | ⟨rfl, ha, hall, hstart⟩)
        . have hold := (hmem a b).mpr hrun
          rw [List.mem_append, List.mem_singleton] at hold
          refine Or.inl (hold.resolve_right ?_)
          intro heq
          obtain ⟨_, rfl⟩ := Prod.mk.injEq .. ▸ heq
          omega
        . right
          have hlt : a < xs.length := by
            by_contra hne
            have hprev := hlast.lt
            exact hstart (xs.length - 1) (by omega) (hlast.all _ (by omega) (by omega))
          have hrun : MaximalRun p xs a xs.length := by
            refine ⟨hlt, hall, hstart, ?_⟩
            intro hon
            exact absurd hon.lt (by omega)
          have hold := (hmem a xs.length).mpr hrun
          rw [List.mem_append, List.mem_singleton] at hold
          cases hold with
          | inl hfin => exact absurd (h.finished_lt _ hfin) (by dsimp only; omega)
          | inr heq =>
            obtain ⟨rfl, _⟩ := Prod.mk.injEq .. ▸ heq
            rfl
    . rw [List.pairwise_append]
      refine ⟨hfinished, List.pairwise_singleton _ _, ?_⟩
      intro s hs t ht
      rw [List.mem_singleton] at ht
      rw [ht]
      exact hbefore s hs (st, xs.length) (by simp)
  . intro hnone
    have hnone : r.pending = none := hnone
    rw [hpending] at hnone
    contradiction

theorem Of.feed [DecidablePred p] (h : r.Of p xs) (x : α) : (r.feed (p x)).Of p (xs ++ [x]) := by
  unfold RunLength.feed
  split
  . next st hpending =>
    by_cases hx : p x
    . rw [if_pos hx]
      exact h.going hx hpending
    . rw [if_neg hx]
      apply h.silent hx
      . rw [runs_of_pending hpending]
        rfl
      . rfl
  . next hpending =>
    by_cases hx : p x
    . rw [if_pos hx]
      exact h.onset hx hpending
    . rw [if_neg hx]
      apply h.silent hx
      . rw [runs_of_idle hpending, runs_of_idle (r := { r with length := r.length + 1 }) hpending]
      . rfl

theorem of_nil : RunLength.Of p ([] : List α) {} := by
  refine ⟨rfl, ⟨?_, List.Pairwise.nil⟩, ?_⟩
  . intro a b
    constructor
    . intro h
      contradiction
    . intro h
      have hle := h.le
      have hlt := h.lt
      simp at hle
      omega
  . intro _ i hi
    simp at hi

end

def collect [DecidablePred p] (xs : List α) : RunLength :=
  xs.foldl (fun r x => r.feed (p x)) {}

theorem collect_concat [DecidablePred p] (xs : List α) (x : α)
    : collect p (xs ++ [x]) = (collect p xs).feed (p x) := by
  unfold collect
  rw [List.foldl_append]
  rfl

theorem of_collect [DecidablePred p] (xs : List α) : (collect p xs).Of p xs := by
  induction xs using List.reverseRecOn with
  | nil => exact of_nil
  | append_singleton xs x ih =>
    rw [collect_concat]
    exact ih.feed x

end RunLength

end Runs
