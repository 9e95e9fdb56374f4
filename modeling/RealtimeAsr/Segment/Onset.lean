import RealtimeAsr.Segment.Paired

/-!
This module contains where the frames of an active window lie: a window that comes while a segment is
open lies in it, of a window that opens a segment only the last frame does.
-/

namespace Acts

def Covers (a : Acts) (f : Nat) : Prop :=
  ∃ i s : Nat, a.segSts[i]? = some s ∧ s ≤ f ∧ ∀ e, a.segEnds[i]? = some e → f ≤ e

theorem covers_addAct {a : Acts} (act : Int) {f : Nat} (hf : f < a.acts.length)
    : (a.addAct act).Covers f ↔ a.Covers f := by
  unfold Covers
  obtain ⟨_, hsts, hends⟩ | ⟨_, hsts, hends⟩ | ⟨_, _, hsts, hends⟩ := a.addAct_segs act
  . rw [hsts, hends]
    constructor
    . rintro ⟨i, s, hst, hsf, hend⟩
      rw [List.getElem?_append] at hst
      split at hst
      . exact ⟨i, s, hst, hsf, hend⟩
      . rw [List.getElem?_singleton] at hst
        split at hst
        . -- The new segment starts behind all frames recorded before.
          rw [Option.some.injEq] at hst
          omega
        . cases hst
    . rintro ⟨i, s, hst, hsf, hend⟩
      have hi := (List.getElem?_eq_some_iff.mp hst).1
      exact ⟨i, s, by rw [List.getElem?_append_left hi]; exact hst, hsf, hend⟩
  . rw [hsts, hends]
    constructor
    . rintro ⟨i, s, hst, hsf, hend⟩
      refine ⟨i, s, hst, hsf, ?_⟩
      intro e he
      have hi := (List.getElem?_eq_some_iff.mp he).1
      exact hend e (by rw [List.getElem?_append_left hi]; exact he)
    . rintro ⟨i, s, hst, hsf, hend⟩
      refine ⟨i, s, hst, hsf, ?_⟩
      intro e he
      rw [List.getElem?_append] at he
      split at he
      . exact hend e he
      . rw [List.getElem?_singleton] at he
        split at he
        . -- The open segment is closed at the frame that is recorded.
          rw [Option.some.injEq] at he
          omega
        . cases he
  . rw [hsts, hends]

theorem covers_feed {a : Acts} (ds : List Int) {f : Nat} (hf : f < a.acts.length)
    : (a.feed ds).Covers f ↔ a.Covers f := by
  induction ds using List.reverseRecOn with
  | nil => rfl
  | append_singleton ds d ih =>
    rw [feed_concat, covers_addAct d, ih]
    rw [feed_acts, List.length_append]
    omega

theorem segs_complete (ds : List Int)
    : (∀ s ∈ (({} : Acts).feed ds).segSts, Completes s)
      ∧ ∀ e ∈ (({} : Acts).feed ds).segEnds, Completes e := by
  induction ds using List.reverseRecOn with
  | nil => simp
  | append_singleton ds d ih =>
    rw [feed_concat]
    have concat : ∀ {xs : List Nat} {n : Nat}, (∀ x ∈ xs, Completes x) → Completes n
        → ∀ x ∈ xs ++ [n], Completes x := by
      intro xs n hxs hn x hx
      rw [List.mem_append, List.mem_singleton] at hx
      cases hx with
      | inl hx => exact hxs x hx
      | inr hx =>
        rw [hx]
        exact hn
    obtain ⟨hop, hsts, hends⟩ | ⟨hcl, hsts, hends⟩ | ⟨_, _, hsts, hends⟩ :=
      (({} : Acts).feed ds).addAct_segs d
    . rw [hsts, hends]
      exact ⟨concat ih.1 hop.completes, ih.2⟩
    . rw [hsts, hends]
      exact ⟨ih.1, concat ih.2 hcl.completes⟩
    . rw [hsts, hends]
      exact ih

section Window

variable {a : Acts} {act : Int} {f : Nat}

theorem covers_of_opens (hends : ∀ e ∈ a.segEnds, e < a.acts.length ∧ Completes e)
    (hop : a.Opens act) (hf : a.acts.length + 1 - window ≤ f) (hlt : f ≤ a.acts.length)
    : (a.addAct act).Covers f ↔ f = a.acts.length := by
  have hcompletes := hop.completes
  unfold Completes window at *
  obtain ⟨_, hsts, hends'⟩ | ⟨hcl, _⟩ | ⟨hno, _⟩ := a.addAct_segs act
  . unfold Covers
    rw [hsts, hends']
    constructor
    . rintro ⟨i, s, hst, hsf, hend⟩
      by_cases hi : i < a.segEnds.length
      . -- A segment that is closed ends with an earlier window.
        have hin := hends _ (List.getElem_mem hi)
        have hle := hend _ (List.getElem?_eq_getElem hi)
        omega
      . rw [List.getElem?_append_right (by have := hop.none_open; omega),
          List.getElem?_singleton] at hst
        split at hst
        . rw [Option.some.injEq] at hst
          omega
        . cases hst
    . intro heq
      refine ⟨a.segSts.length, a.acts.length, by simp, by omega, ?_⟩
      intro e he
      rw [hop.none_open] at he
      simp at he
  . have hnone := hop.none_open
    have hone := hcl.one_open
    omega
  . exact absurd hop hno

theorem covers_of_open (hlast : a.segSts.getLastD 0 < a.acts.length ∧ Completes (a.segSts.getLastD 0))
    (hone : a.segSts.length = a.segEnds.length + 1) (hcompletes : Completes a.acts.length)
    (hactive : minAct ≤ nacts (a.acts ++ [act]) (a.acts.length + 1 - window))
    (hf : a.acts.length + 1 - window ≤ f)
    : (a.addAct act).Covers f := by
  obtain ⟨hlt, hcomplete⟩ := hlast
  rw [getLastD_eq_getD hone] at hlt hcomplete
  have hst : a.segSts[a.segEnds.length]? = some (a.segSts.getD a.segEnds.length 0) := by
    rw [List.getD_eq_getElem _ _ (by omega), List.getElem?_eq_getElem]
  unfold Completes window at *
  obtain ⟨hop, _⟩ | ⟨hcl, _⟩ | ⟨_, _, hsts, hends⟩ := a.addAct_segs act
  . have hnone := hop.none_open
    omega
  . have hsilent := hcl.silent
    unfold minAct window at *
    omega
  . refine ⟨a.segEnds.length, a.segSts.getD a.segEnds.length 0, ?_, by omega, ?_⟩
    . rw [hsts]
      exact hst
    . intro e he
      rw [hends] at he
      simp at he

end Window

theorem feed_append (a : Acts) (ds ds' : List Int) : a.feed (ds ++ ds') = (a.feed ds).feed ds' := by
  unfold feed
  rw [List.foldl_append]

theorem checkWindow_eq_one (a : Acts) (w : Nat)
    : a.checkWindow w = 1 ↔ minAct ≤ nacts a.acts (w * window) := by
  unfold checkWindow
  dsimp only
  split
  . next h => simp [h]
  . next h =>
    split
    . simpa using h
    . simpa using h

/--
The last frame of an active window lies in a segment, or behind the start of the open one. Its other
frames do if and only if a segment is open already when the window completes.
-/
theorem active_window_covered (ds : List Int) (w : Nat) (hcomplete : (w + 1) * window ≤ ds.length)
    (hclass : (({} : Acts).feed ds).checkWindow w = 1) (f : Nat) (hf : w * window ≤ f)
    (hlt : f < (w + 1) * window)
    : let before := ({} : Acts).feed (ds.take (w * window + 14))
      (({} : Acts).feed ds).Covers f
        ↔
      f = w * window + 14 ∨ before.segSts.length = before.segEnds.length + 1 := by
  intro before
  have hwindow : (w + 1) * window = w * window + 15 := Nat.succ_mul w window
  rw [hwindow] at hcomplete hlt
  have hn : w * window + 14 < ds.length := by omega
  have hlen : before.acts.length = w * window + 14 := by
    simp [before]
    omega
  have hsplit : ({} : Acts).feed ds
      = (before.addAct ds[w * window + 14]).feed (ds.drop (w * window + 15)) := by
    rw [← feed_concat, ← feed_append, ← List.take_succ_eq_append_getElem hn, List.take_append_drop]
  have hcompletes : Completes before.acts.length := by
    rw [hlen]
    unfold Completes window
    omega
  have hactive : minAct ≤ nacts (before.acts ++ [ds[w * window + 14]])
      (before.acts.length + 1 - window) := by
    rw [checkWindow_eq_one, hsplit, feed_acts, addAct_acts] at hclass
    have hst : before.acts.length + 1 - window = w * window := by
      rw [hlen]
      unfold window
      omega
    rw [hst]
    unfold nacts at *
    rw [List.slice_append] at hclass
    . exact hclass
    . rw [List.length_append, List.length_singleton, hlen]
      unfold window
      omega
  have hpaired : before.Paired := Paired.empty.feed _
  have hsegs := segs_complete (ds.take (w * window + 14))
  have hst : before.acts.length + 1 - window ≤ f := by
    rw [hlen]
    unfold window at *
    omega
  rw [hsplit, covers_feed _ (by rw [addAct_acts, List.length_append, hlen]; simp; omega)]
  cases hpaired.length with
  | inl hnone =>
    have hends : ∀ e ∈ before.segEnds, e < before.acts.length ∧ Completes e :=
      fun e he => ⟨hpaired.end_lt e he, hsegs.2 e he⟩
    rw [covers_of_opens hends ⟨hcompletes, hactive, hnone⟩ hst (by omega), hlen]
    constructor
    . exact Or.inl
    . rintro (heq | hone)
      . exact heq
      . omega
  | inr hone =>
    have hmem : before.segSts.getLastD 0 ∈ before.segSts := by
      rw [getLastD_eq_getD hone]
      exact getD_mem (by omega)
    have hcovers := covers_of_open ⟨hpaired.start_lt _ hmem, hsegs.1 _ hmem⟩ hone hcompletes hactive hst
    constructor
    . intro _
      exact Or.inr hone
    . intro _
      exact hcovers

theorem active_window_covered_on_data
    : let ds : List Int := List.replicate 15 1
      let before := ({} : Acts).feed (ds.take (0 * window + 14))
      (({} : Acts).feed ds).Covers 14
        ↔
      14 = 0 * window + 14 ∨ before.segSts.length = before.segEnds.length + 1 :=
  active_window_covered (List.replicate 15 1) 0 (by decide) (by decide) 14 (by decide) (by decide)

theorem active_window_not_covered
    : let a := ({} : Acts).feed (List.replicate 15 1)
      15 ≤ a.acts.length ∧ a.checkWindow 0 = 1 ∧ ¬a.Covers 0 := by
  have hsegs : (({} : Acts).feed (List.replicate 15 1)).segSts = [14] := by decide
  refine ⟨by decide, by decide, ?_⟩
  rintro ⟨i, s, hst, hsf, _⟩
  rw [hsegs, List.getElem?_singleton] at hst
  split at hst
  . rw [Option.some.injEq] at hst
    omega
  . cases hst

end Acts
