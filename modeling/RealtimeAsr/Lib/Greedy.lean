import Mathlib.Order.Bounds.Basic

/-!
This module contains greedy segmentations: along a linear order, a segment starts at the first
admissible point that opens, it ends at the first later point that closes it, and the search goes on
after its end.
-/

variable {τ : Type} [LinearOrder τ]

/--
`Greedy O C A sts ends`: `sts` and `ends` are the starts and ends of the greedy segmentation with
opening points `O`, closing points `C s` of a segment started at `s`, and first start in `A`.
-/
inductive Greedy (O : τ → Prop) (C : τ → τ → Prop) : (τ → Prop) → List τ → List τ → Prop where
  | idle {A} (h : ∀ f, A f → ¬O f) : Greedy O C A [] []
  | opened {A s} (hs : IsLeast {f | A f ∧ O f} s) (h : ∀ e, s < e → ¬C s e) : Greedy O C A [s] []
  | closed {A s e sts ends} (hs : IsLeast {f | A f ∧ O f} s) (he : IsLeast {f | s < f ∧ C s f} e)
      (h : Greedy O C (fun f => e < f) sts ends) : Greedy O C A (s :: sts) (e :: ends)

namespace Greedy

variable {O O' : τ → Prop} {C C' : τ → τ → Prop} {A : τ → Prop} {sts ends : List τ}

theorem length_le (h : Greedy O C A sts ends)
    : ends.length ≤ sts.length ∧ sts.length ≤ ends.length + 1 := by
  induction h with
  | idle => simp
  | opened => simp
  | closed hs he h ih =>
    simp only [List.length_cons]
    omega

theorem unique (h : Greedy O C A sts ends) {sts' ends' : List τ} (h' : Greedy O C A sts' ends')
    : sts' = sts ∧ ends' = ends := by
  induction h generalizing sts' ends' with
  | idle h =>
    cases h' with
    | idle => simp
    | opened hs => exact absurd hs.1.2 (h _ hs.1.1)
    | closed hs => exact absurd hs.1.2 (h _ hs.1.1)
  | opened hs h =>
    cases h' with
    | idle h' => exact absurd hs.1.2 (h' _ hs.1.1)
    | opened hs' => simp [hs.unique hs']
    | closed hs' he' =>
      rw [← hs.unique hs'] at he'
      exact absurd he'.1.2 (h _ he'.1.1)
  | closed hs he _ ih =>
    cases h' with
    | idle h' => exact absurd hs.1.2 (h' _ hs.1.1)
    | opened hs' h' =>
      rw [hs.unique hs'] at he
      exact absurd he.1.2 (h' _ he.1.1)
    | closed hs' he' h' =>
      have hseq := hs.unique hs'
      subst hseq
      have heeq := he.unique he'
      subst heeq
      simp [ih h']

theorem mem_starts (h : Greedy O C A sts ends) : ∀ s ∈ sts, O s := by
  induction h with
  | idle => simp
  | opened hs =>
    intro s hmem
    rw [List.mem_singleton] at hmem
    rw [hmem]
    exact hs.1.2
  | closed hs he h ih =>
    intro s hmem
    cases List.mem_cons.mp hmem with
    | inl heq =>
      rw [heq]
      exact hs.1.2
    | inr hmem => exact ih s hmem

theorem isLeast_end (h : Greedy O C A sts ends)
    : ∀ (i : Nat) (s e : τ), sts[i]? = some s → ends[i]? = some e → IsLeast {f | s < f ∧ C s f} e := by
  induction h with
  | idle => simp
  | opened => simp
  | closed hs he h ih =>
    intro i s e hst hend
    cases i with
    | zero =>
      simp only [List.getElem?_cons_zero, Option.some.injEq] at hst hend
      rw [← hst, ← hend]
      exact he
    | succ i =>
      rw [List.getElem?_cons_succ] at hst hend
      exact ih i s e hst hend

theorem exists_start (h : Greedy O C A sts ends) {e : τ} (he : e ∈ ends)
    : ∃ (i : Nat) (s : τ), sts[i]? = some s ∧ ends[i]? = some e := by
  obtain ⟨i, hi, hget⟩ := List.mem_iff_getElem.mp he
  have hlt : i < sts.length := by
    have := h.length_le
    omega
  refine ⟨i, sts[i], List.getElem?_eq_getElem hlt, ?_⟩
  rw [← hget]
  exact List.getElem?_eq_getElem hi

theorem admissible (h : Greedy O C A sts ends) (hA : ∀ a b, A a → a ≤ b → A b)
    : (∀ s ∈ sts, A s) ∧ ∀ e ∈ ends, A e := by
  induction h with
  | idle => simp
  | opened hs =>
    simp only [List.mem_singleton, forall_eq, List.not_mem_nil, false_imp_iff, implies_true,
      and_true]
    exact hs.1.1
  | closed hs he h ih =>
    have hsa := hs.1.1
    have hea := hA _ _ hsa (le_of_lt he.1.1)
    have ⟨ih1, ih2⟩ := ih (fun a b hab hle => lt_of_lt_of_le hab hle)
    constructor
    . intro s hmem
      cases List.mem_cons.mp hmem with
      | inl heq => rwa [heq]
      | inr hmem => exact hA _ _ hea (le_of_lt (ih1 s hmem))
    . intro e hmem
      cases List.mem_cons.mp hmem with
      | inl heq => rwa [heq]
      | inr hmem => exact hA _ _ hea (le_of_lt (ih2 e hmem))

theorem alternating (h : Greedy O C A sts ends)
    : ∀ (i : Nat) (e s : τ), ends[i]? = some e → sts[i + 1]? = some s → e < s := by
  induction h with
  | idle => simp
  | opened => simp
  | closed hs he h ih =>
    intro i e s hend hst
    rw [List.getElem?_cons_succ] at hst
    cases i with
    | zero =>
      simp only [List.getElem?_cons_zero, Option.some.injEq] at hend
      rw [← hend]
      have := (h.admissible (fun a b hab hle => lt_of_lt_of_le hab hle)).1
      exact this s (List.mem_of_getElem? hst)
    | succ i =>
      rw [List.getElem?_cons_succ] at hend
      exact ih i e s hend hst

theorem covers (h : Greedy O C A sts ends) {f : τ} (hA : A f) (hO : O f)
    : ∃ (i : Nat) (s : τ), sts[i]? = some s ∧ s ≤ f ∧ ∀ e, ends[i]? = some e → f ≤ e := by
  induction h with
  | idle h => exact absurd hO (h f hA)
  | opened hs =>
    refine ⟨0, _, rfl, hs.2 ⟨hA, hO⟩, ?_⟩
    simp
  | @closed A s e sts ends hs he h ih =>
    cases le_or_gt f e with
    | inl hle =>
      refine ⟨0, s, rfl, hs.2 ⟨hA, hO⟩, ?_⟩
      intro e' he'
      simp only [List.getElem?_cons_zero, Option.some.injEq] at he'
      rwa [← he']
    | inr hlt =>
      obtain ⟨i, s', hst, hle, hend⟩ := ih hlt
      exact ⟨i + 1, s', hst, hle, hend⟩

section Frontier

variable {n : τ}

theorem step_open (h : Greedy O C A sts ends) (hO : ∀ f, O' f ↔ O f ∨ f = n)
    (hlt : ∀ f, O f → f < n) (hC : ∀ s e, C s e → e ≤ n) (hA : A n) (hends : ∀ e ∈ ends, e < n)
    : Greedy O' C A (if sts.length = ends.length then sts ++ [n] else sts) ends := by
  -- A start found so far stays the least one, the new point is larger.
  have keep : ∀ {A : τ → Prop} {s : τ}, IsLeast {f | A f ∧ O f} s → IsLeast {f | A f ∧ O' f} s := by
    intro A s hs
    constructor
    . exact ⟨hs.1.1, (hO s).mpr (Or.inl hs.1.2)⟩
    . intro f hf
      cases (hO f).mp hf.2 with
      | inl hOf => exact hs.2 ⟨hf.1, hOf⟩
      | inr heq =>
        rw [heq]
        exact le_of_lt (hlt s hs.1.2)
  induction h with
  | idle h =>
    simp only [List.length_nil, if_true, List.nil_append]
    apply Greedy.opened
    . constructor
      . exact ⟨hA, (hO n).mpr (Or.inr rfl)⟩
      . intro f hf
        cases (hO f).mp hf.2 with
        | inl hOf => exact absurd hOf (h f hf.1)
        | inr heq => exact le_of_eq heq.symm
    . intro e hlt' hCe
      exact absurd (hC n e hCe) (not_le_of_gt hlt')
  | opened hs h =>
    simp only [List.length_singleton, List.length_nil, Nat.one_ne_zero, if_false]
    exact Greedy.opened (keep hs) h
  | closed hs he h ih =>
    have ih := ih (hends _ List.mem_cons_self) (fun e' he' => hends e' (List.mem_cons_of_mem _ he'))
    simp only [List.length_cons, Nat.add_right_cancel_iff] at ih ⊢
    split
    . next heq =>
      rw [if_pos heq] at ih
      exact Greedy.closed (keep hs) he ih
    . next hne =>
      rw [if_neg hne] at ih
      exact Greedy.closed (keep hs) he ih

theorem step_close (h : Greedy O C A sts ends) {q : τ → Prop} [DecidablePred q]
    (hC : ∀ s e, C' s e ↔ C s e ∨ (e = n ∧ q s)) (hO : ∀ f, O f → f ≤ n)
    (hle : ∀ s e, C s e → e ≤ n) (hq : ∀ s, q s → s < n)
    : Greedy O C' A sts
        (if sts.length = ends.length + 1 ∧ ∀ s ∈ sts.getLast?, q s then ends ++ [n] else ends) := by
  -- An end found so far stays the least one, the new point is not smaller.
  have keep : ∀ {s e : τ}, IsLeast {f | s < f ∧ C s f} e → IsLeast {f | s < f ∧ C' s f} e := by
    intro s e he
    constructor
    . exact ⟨he.1.1, (hC s e).mpr (Or.inl he.1.2)⟩
    . intro f hf
      cases (hC s f).mp hf.2 with
      | inl hCf => exact he.2 ⟨hf.1, hCf⟩
      | inr heq =>
        rw [heq.1]
        exact hle s e he.1.2
  induction h with
  | idle h =>
    simp only [List.length_nil, Nat.zero_add, Nat.zero_ne_one, false_and, if_false]
    exact Greedy.idle h
  | @opened A s hs h =>
    simp only [List.length_singleton, List.length_nil, Nat.zero_add, true_and,
      List.getLast?_singleton, Option.mem_def, Option.some.injEq, forall_eq', List.nil_append]
    split
    . next hqs =>
      apply Greedy.closed hs
      . constructor
        . exact ⟨hq s hqs, (hC s n).mpr (Or.inr ⟨rfl, hqs⟩)⟩
        . intro f hf
          cases (hC s f).mp hf.2 with
          | inl hCf => exact absurd hCf (h f hf.1)
          | inr heq => exact le_of_eq heq.1.symm
      . apply Greedy.idle
        intro f hlt hOf
        exact absurd (hO f hOf) (not_le_of_gt hlt)
    . next hqs =>
      apply Greedy.opened hs
      intro e hlt hCe
      cases (hC s e).mp hCe with
      | inl hCe => exact h e hlt hCe
      | inr heq => exact hqs heq.2
  | @closed A s e sts ends hs he h ih =>
    have hlast : sts.length = ends.length + 1 → (s :: sts).getLast? = sts.getLast? := by
      intro hlen
      cases sts with
      | nil => simp at hlen
      | cons s' sts => simp
    simp only [List.length_cons, Nat.add_right_cancel_iff]
    split
    . next hopen =>
      rw [hlast hopen.1] at hopen
      rw [if_pos hopen] at ih
      exact Greedy.closed hs (keep he) ih
    . next hopen =>
      have : ¬(sts.length = ends.length + 1 ∧ ∀ s ∈ sts.getLast?, q s) := by
        intro hopen'
        rw [← hlast hopen'.1] at hopen'
        exact hopen hopen'
      rw [if_neg this] at ih
      exact Greedy.closed hs (keep he) ih

end Frontier

end Greedy
