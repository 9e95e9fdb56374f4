import RealtimeAsr.Vad.Periods

/-!
This module contains what `periods_print` reads and shows in the states that the calls of
`period_add_vad_activity` reach, whatever the allocations do.
-/

open Runs

theorem mapM_isSome {α β : Type} {f : α → Option β} {xs : List α} (h : ∀ x ∈ xs, (f x).isSome)
    : (xs.mapM f).isSome := by
  induction xs with
  | nil => simp
  | cons x xs ih =>
    obtain ⟨y, hy⟩ := Option.isSome_iff_exists.mp (h x (by simp))
    have hrest := ih fun z hz => h z (List.mem_cons_of_mem x hz)
    obtain ⟨ys, hys⟩ := Option.isSome_iff_exists.mp hrest
    simp [hy, hys]

namespace Periods

/--
The size passes the room only after a failed growth.
-/
structure Sound (per : Periods) : Prop where
  nonneg : 0 ≤ per.size
  holds : per.size ≤ per.sizeAllocated →
    per.periodStart.Holds per.sizeAllocated ∧ per.periodEnd.Holds per.sizeAllocated

section

variable {per per' : Periods} {e : PeriodCall} {res : Int}

theorem Sound.grow (h : Sound per) (e : PeriodCall)
    : Sound ({ per with size := per.size + 1 }.grow e).2 := by
  have hnonneg := h.nonneg
  unfold Periods.grow
  split
  . next hfull =>
    dsimp only at hfull ⊢
    split
    . constructor
      . dsimp only
        omega
      . dsimp only
        omega
    . next hstart =>
      split
      . constructor
        . dsimp only
          omega
        . dsimp only
          omega
      . next hstop =>
        constructor
        . dsimp only
          omega
        . intro _
          cases hf : e.reallocStart with
          | none => simp [hf, Block.realloc] at hstart
          | some f =>
            cases hg : e.reallocEnd with
            | none => simp [hg, Block.realloc] at hstop
            | some g => exact ⟨Block.holds_realloc _ _ f, Block.holds_realloc _ _ g⟩
  . next hroom =>
    dsimp only at hroom
    constructor
    . dsimp only
      omega
    . intro _
      exact h.holds (by omega)

theorem Sound.addPeriodStart (h : Sound per) (hcall : per.addPeriodStart e = some (res, per'))
    : Sound per' := by
  have hsound := h.grow e
  unfold Periods.addPeriodStart at hcall
  dsimp only at hcall
  split at hcall
  . obtain ⟨_, rfl⟩ := Prod.mk.inj (Option.some.inj hcall)
    exact hsound
  . simp only [Option.pure_def, Option.bind_eq_bind, Option.bind_eq_some_iff] at hcall
    obtain ⟨start, hstart, stop, hstop, hdone⟩ := hcall
    obtain ⟨_, rfl⟩ := Prod.mk.inj (Option.some.inj hdone)
    refine ⟨hsound.nonneg, ?_⟩
    intro hroom
    obtain ⟨hs, ht⟩ := hsound.holds hroom
    exact ⟨hs.of_store hstart, ht.of_store hstop⟩

theorem Sound.addPeriodEnd (h : Sound per) (hcall : per.addPeriodEnd = some per') : Sound per' := by
  unfold Periods.addPeriodEnd at hcall
  simp only [Option.pure_def, Option.bind_eq_bind, Option.bind_eq_some_iff] at hcall
  obtain ⟨stop, hstop, hdone⟩ := hcall
  rw [← Option.some.inj hdone]
  refine ⟨h.nonneg, ?_⟩
  intro hroom
  obtain ⟨hs, ht⟩ := h.holds hroom
  exact ⟨hs, ht.of_store hstop⟩

theorem Sound.mark (h : Sound per) (isActive : Int)
    : Sound { per with isPerviousActive := isActive }.nextFrame :=
  ⟨h.nonneg, h.holds⟩

theorem Sound.call (h : Sound per) (hcall : per.periodAddVadActivity e = some (res, per'))
    : Sound per' := by
  unfold periodAddVadActivity at hcall
  split at hcall
  . simp only [Option.pure_def, Option.bind_eq_bind, Option.bind_eq_some_iff] at hcall
    obtain ⟨⟨code, started⟩, hstart, hdone⟩ := hcall
    have hsound := h.addPeriodStart hstart
    dsimp only at hdone
    split at hdone
    . obtain ⟨_, rfl⟩ := Prod.mk.inj (Option.some.inj hdone)
      exact hsound
    . obtain ⟨_, rfl⟩ := Prod.mk.inj (Option.some.inj hdone)
      exact hsound.mark e.isActive
  . split at hcall
    . simp only [Option.pure_def, Option.bind_eq_bind, Option.bind_eq_some_iff] at hcall
      obtain ⟨ended, hend, hdone⟩ := hcall
      obtain ⟨_, rfl⟩ := Prod.mk.inj (Option.some.inj hdone)
      exact (h.addPeriodEnd hend).mark e.isActive
    . obtain ⟨_, rfl⟩ := Prod.mk.inj (Option.some.inj hcall)
      exact ⟨h.nonneg, h.holds⟩

end

theorem sound_run (calls : List PeriodCall) {per : Periods} (hrun : collecting.run calls = some per)
    : Sound per := by
  induction calls using List.reverseRecOn generalizing per with
  | nil =>
    obtain ⟨init, hinit, hcollected⟩ := collected_init
    obtain rfl := Option.some.inj (hinit.symm.trans hrun)
    have hstored := hcollected.stored
    exact ⟨hstored.nonneg, fun _ => ⟨hstored.start, hstored.stop⟩⟩
  | append_singleton calls e ih =>
    rw [Machine.run_concat] at hrun
    simp only [collecting, Option.pure_def, Option.bind_eq_bind, Option.bind_eq_some_iff] at hrun
    obtain ⟨before, hbefore, ⟨res, after⟩, hcall, hdone⟩ := hrun
    obtain rfl := Option.some.inj hdone
    exact (ih hbefore).call hcall

def ClosedAt (per : Periods) (i : Nat) : Prop :=
  (i : Int) ≠ per.size - 1 ∨ per.isEndFilled ≠ 0

structure Shows (per : Periods) : Prop where
  reads : ∀ i : Nat, i < per.size → ∀ j ∈ (per.printed i).reads,
    0 ≤ j ∧ j < per.size ∧ j < per.sizeAllocated
  starts : ∀ i : Nat, i < per.size → (per.printed i).start = i
  stops : ∀ i : Nat, i < per.size → per.ClosedAt i → (per.printed i).stop = some (i : Int)
  prints : per.periodsPrint.isSome

theorem printed_closed {per : Periods} {i : Nat} (h : per.ClosedAt i)
    : per.printed i = { start := i, stop := some (i : Int) } := by
  unfold printed
  exact if_pos h

theorem Sound.prints {per : Periods} (h : Sound per) (hroom : per.size ≤ per.sizeAllocated)
    (hclosed : ∀ i : Nat, i < per.size → per.ClosedAt i)
    : per.periodsPrint.isSome := by
  obtain ⟨hstart, hstop⟩ := h.holds hroom
  unfold periodsPrint printItems
  rw [Option.isSome_map]
  apply mapM_isSome
  intro i hi
  rw [List.mem_range] at hi
  obtain ⟨st, hst⟩ := hstart.load (Int.natCast_nonneg i) (by omega)
  obtain ⟨stop, hsp⟩ := hstop.load (Int.natCast_nonneg i) (by omega)
  rw [printed_closed (hclosed i (by omega))]
  simp only [Item.text, hst, hsp, Option.bind_eq_bind, Option.bind_some, Option.pure_def,
    Option.isSome_some]

theorem Sound.shows_iff {per : Periods} (h : Sound per)
    : Shows per
        ↔
      (per.size = 0 ∨ per.isEndFilled ≠ 0) ∧ per.size ≤ per.sizeAllocated := by
  have hnonneg := h.nonneg
  constructor
  . intro hshows
    by_cases hempty : per.size = 0
    . exact ⟨Or.inl hempty, by omega⟩
    . obtain ⟨n, hn⟩ := Int.eq_ofNat_of_zero_le (by omega : 0 ≤ per.size - 1)
      have hin : (n : Int) < per.size := by omega
      have hfirst := hshows.starts n hin
      have hreads := hshows.reads n hin (n : Int) (by simp [Item.reads, hfirst])
      refine ⟨Or.inr ?_, by omega⟩
      intro hopen
      have hlast : (per.printed n).start = per.size := by
        unfold printed
        rw [if_neg]
        rintro (hne | hfilled)
        . exact hne hn.symm
        . exact hfilled hopen
      omega
  . rintro ⟨hclosed, hroom⟩
    have hall : ∀ i : Nat, i < per.size → per.ClosedAt i := by
      intro i hi
      exact Or.inr (hclosed.resolve_left (by omega))
    refine ⟨?_, ?_, ?_, h.prints hroom hall⟩
    . intro i hi j hj
      rw [printed_closed (hall i hi)] at hj
      simp only [Item.reads, Option.toList_some, List.mem_cons, List.not_mem_nil, or_false,
        or_self] at hj
      omega
    . intro i hi
      rw [printed_closed (hall i hi)]
    . intro i hi _
      rw [printed_closed (hall i hi)]

/--
As long as the allocations succeed, the print is right exactly when the last frame fed is silent.
-/
theorem Encodes.shows {acts : List Int} {calls : List PeriodCall} {per : Periods}
    {rs : List (Nat × Nat)} (h : Encodes acts per rs) (hrun : collecting.run calls = some per)
    : Shows per ↔ ∀ s ∈ rs, s.2 ≠ acts.length := by
  have hsize := h.size
  rw [(sound_run calls hrun).shows_iff]
  constructor
  . rintro ⟨hclosed, _⟩ s hs hend
    obtain ⟨i, hi⟩ := List.mem_iff_getElem?.mp hs
    have hlt := (List.getElem?_eq_some_iff.mp hi).1
    have hopen := (h.going i s hi hend).2
    cases hclosed with
    | inl hempty => omega
    | inr hfilled => exact hfilled hopen
  . intro hclosed
    refine ⟨?_, h.capacity⟩
    by_cases hempty : per.size = 0
    . exact Or.inl hempty
    . have hfilled := h.filled hclosed (by omega)
      right
      omega

end Periods
