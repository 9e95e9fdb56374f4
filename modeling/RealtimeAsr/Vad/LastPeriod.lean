import RealtimeAsr.Vad.Periods

/-!
This module contains what the call with `is_last` leaves: it completes the periods exactly when the last
frame is silent.
-/

open Runs

namespace Periods

structure Complete (acts : List Int) (per : Periods) : Prop where
  filled : 0 < per.size → per.isEndFilled = 1
  closed : ∀ i : Nat, i < per.size → per.periodEnd.load i ≠ some uint64Max
  covers : ∀ f < acts.length,
    On (· ≠ 0) acts f
      ↔
    ∃ (i : Nat) (st stop : Nat), i < per.size
      ∧ per.periodStart.load i = some st
      ∧ per.periodEnd.load i = some stop
      ∧ st ≤ 10 * f
      ∧ 10 * f < stop

section

variable {r : RunLength} {acts : List Int} {per : Periods} {e : PeriodCall}

theorem Encodes.complete {rs : List (Nat × Nat)} (h : Encodes acts per rs)
    (hclosed : ∀ s ∈ rs, s.2 ≠ acts.length)
    : Complete acts per := by
  have hends : ∀ (i : Nat) s, rs[i]? = some s → per.periodEnd.load i = some (10 * s.2) := by
    intro i s hs
    have hmem := List.mem_of_getElem? hs
    have hle := ((h.runs.mem s.1 s.2).mp hmem).le
    have hne := hclosed s hmem
    exact h.ends i s hs (by omega)
  refine ⟨h.filled hclosed, ?_, ?_⟩
  . intro i hi
    have hsize := h.size
    obtain ⟨s, hs⟩ : ∃ s, rs[i]? = some s := ⟨_, List.getElem?_eq_getElem (by omega)⟩
    rw [hends i s hs]
    intro heq
    rw [Option.some.injEq] at heq
    unfold uint64Max at heq
    omega
  . intro f _
    rw [h.runs.on_iff]
    constructor
    . rintro ⟨s, hmem, hst, hstop⟩
      obtain ⟨i, hs⟩ := List.mem_iff_getElem?.mp hmem
      have hi := (List.getElem?_eq_some_iff.mp hs).1
      have hsize := h.size
      exact ⟨i, _, _, by omega, h.starts i s hs, hends i s hs, by omega, by omega⟩
    . rintro ⟨i, st, stop, hi, hstart, hend, hst, hstop⟩
      have hsize := h.size
      obtain ⟨s, hs⟩ : ∃ s, rs[i]? = some s := ⟨_, List.getElem?_eq_getElem (by omega)⟩
      have hfrom := Option.some.inj ((h.starts i s hs).symm.trans hstart)
      have hto := Option.some.inj ((hends i s hs).symm.trans hend)
      exact ⟨s, List.mem_of_getElem? hs, by omega, by omega⟩

theorem Collected.complete (h : Collected r per) (hr : r.Of (· ≠ 0) acts) (he : Allocates e)
    (hsilent : e.isActive = 0)
    : ∃ per', per.periodAddVadActivity e = some (0, per')
        ∧ Complete (acts ++ [e.isActive]) per' := by
  obtain ⟨per', hcall, hcollected, _⟩ := h.call he (Or.inr hsilent)
  have hnext := hr.feed e.isActive
  have hidle : (r.feed (e.isActive ≠ 0)).pending = none := by
    unfold RunLength.feed
    split
    . simp [hsilent]
    . next hpending => simp [hsilent, hpending]
  refine ⟨per', hcall, (hcollected.encodes hnext).complete ?_⟩
  intro s hs
  rw [RunLength.runs_of_idle hidle] at hs
  have hlt := hnext.finished_lt s hs
  omega

/--
An active last frame that starts a period leaves the period open, and one that goes on with a period is
not part of it.
-/
theorem Collected.not_complete (h : Collected r per) (hr : r.Of (· ≠ 0) acts) (he : Allocates e)
    (hlast : e.isLast ≠ 0) (hactive : e.isActive ≠ 0)
    : ∃ per', per.periodAddVadActivity e = some (0, per')
        ∧ ¬Complete (acts ++ [e.isActive]) per' := by
  cases hpending : r.pending with
  | none =>
    obtain ⟨per', hcall, hcollected, _⟩ := h.onset he hpending hactive
    refine ⟨per', hcall, ?_⟩
    intro hcomplete
    have hsize := hcollected.size
    apply hcomplete.closed r.finished.length
    . rw [RunLength.runs_of_pending rfl] at hsize
      simp only [List.length_append, List.length_singleton] at hsize
      omega
    . exact hcollected.pending (by simp)
  | some st =>
    obtain ⟨ended, hcall, hended, hsize, hstop⟩ := h.ended hpending (Or.inr hlast)
    refine ⟨_, hcall, ?_⟩
    intro hcomplete
    have hon : On (· ≠ 0) (acts ++ [e.isActive]) acts.length := on_concat_length.mpr hactive
    obtain ⟨i, start, stop, hi, hstart, hend, hst, hlt⟩ :=
      (hcomplete.covers acts.length (by simp)).mp hon
    change (i : Int) < ended.size at hi
    change ended.periodEnd.load i = some stop at hend
    rw [hsize] at hi
    by_cases hlastRun : i = r.finished.length
    . rw [hlastRun, hstop, Option.some.injEq, hr.length] at hend
      omega
    . obtain ⟨s, hs⟩ : ∃ s, r.finished[i]? = some s := ⟨_, List.getElem?_eq_getElem (by omega)⟩
      have hsame := hended.same
      rw [hsame] at hsize
      dsimp only at hsize
      rw [hended.stopKept i (by omega), h.ends i s hs, Option.some.injEq] at hend
      have hearlier := hr.finished_lt s (List.mem_of_getElem? hs)
      omega

end

/--
After the last call the list of periods is complete exactly when the last frame is silent.
-/
theorem complete_iff_silent (calls : List PeriodCall) (e : PeriodCall)
    (hcalls : ∀ d ∈ calls, Allocates d ∧ d.isLast = 0) (he : Allocates e) (hlast : e.isLast ≠ 0)
    : ∃ per, collecting.run (calls ++ [e]) = some per
        ∧ (Complete ((calls ++ [e]).map (·.isActive)) per ↔ e.isActive = 0) := by
  obtain ⟨per, hrun, hcollected⟩ := collected_run calls fun d hd =>
    ⟨(hcalls d hd).1, Or.inl (hcalls d hd).2⟩
  have hr := RunLength.of_collect (· ≠ 0) (calls.map (·.isActive))
  rw [Machine.run_concat, hrun, List.map_append]
  by_cases hsilent : e.isActive = 0
  . obtain ⟨per', hcall, hcomplete⟩ := hcollected.complete hr he hsilent
    exact ⟨per', by simp [collecting, hcall], iff_of_true hcomplete hsilent⟩
  . obtain ⟨per', hcall, hincomplete⟩ := hcollected.not_complete hr he hlast hsilent
    exact ⟨per', by simp [collecting, hcall], iff_of_false hincomplete hsilent⟩

theorem complete_iff_silent_on_data
    : ∃ per, collecting.run ([1].map feeding ++ [{ feeding 0 with isLast := 1 }]) = some per
        ∧ (Complete [1, 0] per ↔ (0 : Int) = 0) :=
  complete_iff_silent ([1].map feeding) { feeding 0 with isLast := 1 } (feeding_mem [1]) ⟨rfl, rfl⟩
    (by decide)

theorem header_example_incomplete
    : ¬∃ per,
        collecting.run ([1, 1, 0, 1, 0, 0, 0, 1].map feeding ++ [{ feeding 1 with isLast := 1 }])
          = some per
        ∧ Complete [1, 1, 0, 1, 0, 0, 0, 1, 1] per := by
  rintro ⟨per', hrun', hcomplete⟩
  obtain ⟨per, hrun, hcollected⟩ := collected_run ([1, 1, 0, 1, 0, 0, 0, 1].map feeding)
    fun d hd => ⟨(feeding_mem _ d hd).1, Or.inl (feeding_mem _ d hd).2⟩
  obtain ⟨other, hcall, hincomplete⟩ := hcollected.not_complete (RunLength.of_collect _ _)
    (e := { feeding 1 with isLast := 1 }) ⟨rfl, rfl⟩ (by decide) (by decide)
  have hsame : some other = some per' := by
    rw [← hrun', Machine.run_concat, hrun]
    simp [collecting, hcall]
  rw [Option.some.inj hsame] at hincomplete
  exact hincomplete hcomplete

end Periods
