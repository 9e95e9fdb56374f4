import RealtimeAsr.Lib.Runs
import RealtimeAsr.Lib.Slice
import RealtimeAsr.Vad.PeriodFormat

/-!
This module shows that the periods of a run of `period_add_vad_activity` are the maximal runs of active
frames, as long as the allocations succeed.
-/

open Runs

@[simp]
theorem calTimeByFrame_nat (n : Nat) : (calTimeByFrame n).toNat = 10 * n := by
  unfold calTimeByFrame multi
  omega

namespace Periods

structure Stored (per : Periods) : Prop where
  nonneg : 0 ≤ per.size
  allocated : 0 < per.sizeAllocated
  capacity : per.size ≤ per.sizeAllocated
  start : per.periodStart.Holds per.sizeAllocated
  stop : per.periodEnd.Holds per.sizeAllocated

theorem Stored.nextFrame {per : Periods} (h : per.Stored) : per.nextFrame.Stored :=
  ⟨h.nonneg, h.allocated, h.capacity, h.start, h.stop⟩

theorem Stored.mark {per : Periods} (h : per.Stored) (isActive : Int)
    : { per with isPerviousActive := isActive }.Stored :=
  ⟨h.nonneg, h.allocated, h.capacity, h.start, h.stop⟩

structure Allocates (e : PeriodCall) : Prop where
  start : e.reallocStart.isSome
  stop : e.reallocEnd.isSome

theorem grow_of_room {per : Periods} (h : per.size ≤ per.sizeAllocated) (e : PeriodCall)
    : per.grow e = (0, per) := by
  unfold grow
  rw [if_neg (by omega)]

theorem grow_of_full {per : Periods} (h : per.size > per.sizeAllocated) {e : PeriodCall}
    {f g : Nat → Nat} (hf : e.reallocStart = some f) (hg : e.reallocEnd = some g)
    : per.grow e
      =
      (0, { per with
        periodStart := per.periodStart.realloc (per.sizeAllocated * 2) (some f)
        periodEnd := per.periodEnd.realloc (per.sizeAllocated * 2) (some g)
        sizeAllocated := per.sizeAllocated * 2 }) := by
  unfold grow
  rw [if_pos h, hf, hg]
  rfl

/--
The room for one more period: the entries before it are the ones from before.
-/
structure Grown (per per' : Periods) : Prop where
  same : per' = { per with
    periodStart := per'.periodStart
    periodEnd := per'.periodEnd
    sizeAllocated := per'.sizeAllocated }
  allocated : 0 < per'.sizeAllocated
  capacity : per.size ≤ per'.sizeAllocated
  start : per'.periodStart.Holds per'.sizeAllocated
  stop : per'.periodEnd.Holds per'.sizeAllocated
  startKept : ∀ i : Nat, i + 1 < per.size → per'.periodStart.load i = per.periodStart.load i
  stopKept : ∀ i : Nat, i + 1 < per.size → per'.periodEnd.load i = per.periodEnd.load i

theorem Stored.grow {per : Periods} (h : per.Stored) {e : PeriodCall} (he : Allocates e)
    : ∃ per', { per with size := per.size + 1 }.grow e = (0, per')
        ∧ Grown { per with size := per.size + 1 } per' := by
  have hallocated := h.allocated
  have hcapacity := h.capacity
  obtain ⟨f, hf⟩ := Option.isSome_iff_exists.mp he.start
  obtain ⟨g, hg⟩ := Option.isSome_iff_exists.mp he.stop
  by_cases hfull : per.size + 1 > per.sizeAllocated
  . refine ⟨_, grow_of_full hfull hf hg, rfl, ?_, ?_, ?_, ?_, ?_, ?_⟩
    . dsimp only
      omega
    . dsimp only
      omega
    . exact Block.holds_realloc _ _ f
    . exact Block.holds_realloc _ _ g
    . intro i hi
      dsimp only at hi
      have hold : i < per.sizeAllocated := by omega
      have hnew : i < per.sizeAllocated * 2 := by omega
      exact Block.load_realloc h.start hold hnew f
    . intro i hi
      dsimp only at hi
      have hold : i < per.sizeAllocated := by omega
      have hnew : i < per.sizeAllocated * 2 := by omega
      exact Block.load_realloc h.stop hold hnew g
  . refine ⟨_, grow_of_room (by dsimp only; omega) e, rfl, hallocated, ?_, h.start, h.stop, ?_, ?_⟩
    . dsimp only
      omega
    . intro i _
      rfl
    . intro i _
      rfl

structure Started (per per' : Periods) : Prop where
  stored : per'.Stored
  size : per'.size = per.size + 1
  frame : per'.currentFrame = per.currentFrame
  filled : per'.isEndFilled = 0
  start : per'.periodStart.load per.size = some (10 * per.currentFrame)
  stop : per'.periodEnd.load per.size = some uint64Max
  startKept : ∀ i : Nat, i < per.size → per'.periodStart.load i = per.periodStart.load i
  stopKept : ∀ i : Nat, i < per.size → per'.periodEnd.load i = per.periodEnd.load i

theorem Stored.addPeriodStart {per : Periods} (h : per.Stored) {e : PeriodCall} (he : Allocates e)
    : ∃ per', per.addPeriodStart e = some (0, per') ∧ Started per per' := by
  obtain ⟨n, hn⟩ := Int.eq_ofNat_of_zero_le h.nonneg
  obtain ⟨grown, hgrow, hgrown⟩ := h.grow he
  have hcapacity : n + 1 ≤ grown.sizeAllocated := by
    have := hgrown.capacity
    dsimp only at this
    omega
  have hsize : grown.size = n + 1 := by
    rw [hgrown.same]
    dsimp only
    rw [hn]
  have hframe : grown.currentFrame = per.currentFrame := by rw [hgrown.same]
  obtain ⟨start, hstart, hstartHolds, hstartNew, hstartKept⟩ := hgrown.start.store
    (by omega : n < grown.sizeAllocated) (10 * per.currentFrame)
  obtain ⟨stop, hstop, hstopHolds, hstopNew, hstopKept⟩ := hgrown.stop.store
    (by omega : n < grown.sizeAllocated) uint64Max
  have hindex : grown.size - 1 = n := by omega
  refine ⟨{ grown with periodStart := start, periodEnd := stop, isEndFilled := 0 }, ?_, ?_⟩
  . unfold Periods.addPeriodStart
    simp [hgrow, hindex, hframe, hstart, hstop]
  . refine ⟨⟨?_, hgrown.allocated, ?_, hstartHolds, hstopHolds⟩, ?_, hframe, rfl, ?_, ?_, ?_, ?_⟩
    . dsimp only
      omega
    . dsimp only
      omega
    . dsimp only
      omega
    . rw [hn]
      exact hstartNew
    . rw [hn]
      exact hstopNew
    . intro i hi
      dsimp only
      rw [hstartKept i (by omega)]
      exact hgrown.startKept i (by dsimp only; omega)
    . intro i hi
      dsimp only
      rw [hstopKept i (by omega)]
      exact hgrown.stopKept i (by dsimp only; omega)

structure Ended (per per' : Periods) : Prop where
  stored : per'.Stored
  same : per' = { per with periodEnd := per'.periodEnd, isEndFilled := 1 }
  stop : per'.periodEnd.load (per.size - 1) = some (10 * per.currentFrame)
  stopKept : ∀ i : Nat, i + 1 < per.size → per'.periodEnd.load i = per.periodEnd.load i

theorem Stored.addPeriodEnd {per : Periods} (h : per.Stored) (hsize : 0 < per.size)
    : ∃ per', per.addPeriodEnd = some per' ∧ Ended per per' := by
  obtain ⟨n, hn⟩ := Int.eq_ofNat_of_zero_le (by omega : 0 ≤ per.size - 1)
  have hcapacity := h.capacity
  obtain ⟨stop, hstop, hholds, hnew, hkept⟩ := h.stop.store (by omega : n < per.sizeAllocated)
    (10 * per.currentFrame)
  refine ⟨{ per with periodEnd := stop, isEndFilled := 1 }, ?_, ?_, rfl, ?_, ?_⟩
  . unfold Periods.addPeriodEnd
    simp [hn, hstop]
  . exact ⟨h.nonneg, h.allocated, h.capacity, h.start, hholds⟩
  . rw [hn]
    exact hnew
  . intro i hi
    exact hkept i (by omega)

/--
The state after frames whose runs were collected as `r`.
-/
structure Collected (r : RunLength) (per : Periods) : Prop where
  stored : per.Stored
  frame : per.currentFrame = r.length
  size : per.size = r.runs.length
  previous : per.isPerviousActive = 0 ↔ r.pending = none
  filled : per.isEndFilled = if r.pending = none ∧ r.finished ≠ [] then 1 else 0
  starts : ∀ (i : Nat) s, r.runs[i]? = some s → per.periodStart.load i = some (10 * s.1)
  ends : ∀ (i : Nat) s, r.finished[i]? = some s → per.periodEnd.load i = some (10 * s.2)
  pending : r.pending ≠ none → per.periodEnd.load r.finished.length = some uint64Max

structure Kept (per per' : Periods) : Prop where
  start : ∀ i : Nat, i < per.size → per'.periodStart.load i = per.periodStart.load i
  stop : per'.sizeAllocated ≠ per.sizeAllocated →
    ∀ i : Nat, i < per.size → per'.periodEnd.load i = per.periodEnd.load i

section

variable {r : RunLength} {per : Periods} {e : PeriodCall}

theorem Collected.onset (h : Collected r per) (he : Allocates e) (hidle : r.pending = none)
    (hactive : e.isActive ≠ 0)
    : ∃ per', per.periodAddVadActivity e = some (0, per')
        ∧ Collected { r with pending := some r.length, length := r.length + 1 } per'
        ∧ Kept per per' := by
  have hprevious := h.previous.mpr hidle
  have hruns := RunLength.runs_of_idle hidle
  have hsize := h.size
  rw [hruns] at hsize
  obtain ⟨started, hcall, hstarted⟩ := h.stored.addPeriodStart he
  have hstart := hstarted.start
  have hstop := hstarted.stop
  rw [hsize] at hstart hstop
  refine ⟨{ started with isPerviousActive := e.isActive }.nextFrame, ?_, ?_, ?_⟩
  . unfold periodAddVadActivity
    rw [if_pos ⟨hprevious, hactive⟩, hcall]
    rfl
  . refine ⟨?_, ?_, ?_, ?_, ?_, ?_, ?_, ?_⟩
    . exact (hstarted.stored.mark e.isActive).nextFrame
    . simp [nextFrame, hstarted.frame, h.frame]
    . simp [nextFrame, hstarted.size, hsize, RunLength.runs]
    . simp [nextFrame, hactive]
    . simp [nextFrame, hstarted.filled]
    . intro i s hs
      change (r.finished ++ [(r.length, r.length + 1)])[i]? = some s at hs
      change started.periodStart.load i = _
      rcases List.getElem?_concat_eq_some.mp hs with hold | ⟨rfl, rfl⟩
      . have hi := (List.getElem?_eq_some_iff.mp hold).1
        rw [hstarted.startKept i (by omega)]
        exact h.starts i s (by rw [hruns, hold])
      . rw [hstart, h.frame]
    . intro i s hs
      have hi := (List.getElem?_eq_some_iff.mp hs).1
      change started.periodEnd.load i = _
      rw [hstarted.stopKept i (by dsimp only at hi; omega)]
      exact h.ends i s hs
    . intro _
      exact hstop
  . exact ⟨hstarted.startKept, fun _ => hstarted.stopKept⟩

theorem Collected.ended (h : Collected r per) {st : Nat} (hpending : r.pending = some st)
    (hend : e.isActive = 0 ∨ e.isLast ≠ 0)
    : ∃ ended, per.periodAddVadActivity e
          = some (0, { ended with isPerviousActive := e.isActive }.nextFrame)
        ∧ Ended per ended
        ∧ ended.size = r.finished.length + 1
        ∧ ended.periodEnd.load r.finished.length = some (10 * r.length) := by
  have hprevious : per.isPerviousActive ≠ 0 := by
    rw [Ne, h.previous, hpending]
    simp
  have hsize := h.size
  rw [RunLength.runs_of_pending hpending, List.length_append, List.length_singleton] at hsize
  obtain ⟨ended, hcall, hended⟩ := h.stored.addPeriodEnd (by omega)
  have hstop := hended.stop
  have hindex : per.size - 1 = r.finished.length := by omega
  rw [hindex, h.frame] at hstop
  refine ⟨ended, ?_, hended, ?_, hstop⟩
  . unfold periodAddVadActivity
    rw [if_neg fun hboth => hprevious hboth.1, if_pos ⟨hprevious, hend⟩, hcall]
    rfl
  . rw [hended.same]
    simpa using hsize

theorem Collected.silence (h : Collected r per) {st : Nat} (hpending : r.pending = some st)
    (hsilent : e.isActive = 0)
    : ∃ per', per.periodAddVadActivity e = some (0, per')
        ∧ Collected
          { finished := r.finished ++ [(st, r.length)], pending := none, length := r.length + 1 } per'
        ∧ Kept per per' := by
  obtain ⟨ended, hcall, hended, hsize, hstop⟩ := h.ended hpending (Or.inl hsilent)
  have hruns := RunLength.runs_of_pending hpending
  have hsame := hended.same
  refine ⟨_, hcall, ?_, ?_⟩
  . refine ⟨?_, ?_, ?_, ?_, ?_, ?_, ?_, ?_⟩
    . exact (hended.stored.mark e.isActive).nextFrame
    . rw [hsame]
      simp [nextFrame, h.frame]
    . simp [nextFrame, hsize, RunLength.runs]
    . simp [nextFrame, hsilent]
    . rw [hsame]
      simp [nextFrame]
    . intro i s hs
      rw [hsame]
      exact h.starts i s (by rw [hruns]; exact hs)
    . intro i s hs
      change ended.periodEnd.load i = _
      rcases List.getElem?_concat_eq_some.mp hs with hold | ⟨rfl, rfl⟩
      . have hi := (List.getElem?_eq_some_iff.mp hold).1
        rw [hsame] at hsize
        dsimp only at hsize
        rw [hended.stopKept i (by omega)]
        exact h.ends i s hold
      . exact hstop
    . intro hnone
      contradiction
  . rw [hsame]
    exact ⟨fun i _ => rfl, fun hgrown => absurd rfl hgrown⟩

theorem Collected.idle (h : Collected r per) (hidle : r.pending = none) (hsilent : e.isActive = 0)
    : ∃ per', per.periodAddVadActivity e = some (0, per')
        ∧ Collected { r with length := r.length + 1 } per'
        ∧ Kept per per' := by
  have hprevious := h.previous.mpr hidle
  refine ⟨per.nextFrame, ?_, ?_, fun i _ => rfl, fun hgrown => absurd rfl hgrown⟩
  . unfold periodAddVadActivity
    rw [if_neg fun hboth => hboth.2 hsilent, if_neg fun hboth => hboth.1 hprevious]
    rfl
  . have hruns := RunLength.runs_of_idle hidle
    have hruns' := RunLength.runs_of_idle (r := { r with length := r.length + 1 }) hidle
    refine ⟨h.stored.nextFrame, ?_, ?_, h.previous, h.filled, ?_, h.ends, h.pending⟩
    . simp [nextFrame, h.frame]
    . rw [hruns', ← hruns]
      exact h.size
    . rw [hruns', ← hruns]
      exact h.starts

theorem Collected.going (h : Collected r per) {st : Nat} (hpending : r.pending = some st)
    (hactive : e.isActive ≠ 0) (hlast : e.isLast = 0)
    : ∃ per', per.periodAddVadActivity e = some (0, per')
        ∧ Collected { r with length := r.length + 1 } per'
        ∧ Kept per per' := by
  have hprevious : per.isPerviousActive ≠ 0 := by
    rw [Ne, h.previous, hpending]
    simp
  refine ⟨per.nextFrame, ?_, ?_, fun i _ => rfl, fun hgrown => absurd rfl hgrown⟩
  . unfold periodAddVadActivity
    rw [if_neg fun hboth => hprevious hboth.1]
    rw [if_neg fun hboth => hboth.2.elim hactive fun hl => hl hlast]
    rfl
  . have hruns := RunLength.runs_of_pending hpending
    have hruns' := RunLength.runs_of_pending (r := { r with length := r.length + 1 }) hpending
    have hsize := h.size
    have hstarts := h.starts
    rw [hruns] at hsize hstarts
    refine ⟨h.stored.nextFrame, ?_, ?_, h.previous, h.filled, ?_, h.ends, h.pending⟩
    . simp [nextFrame, h.frame]
    . rw [hruns']
      simpa [nextFrame] using hsize
    . intro i s hs
      rw [hruns'] at hs
      rcases List.getElem?_concat_eq_some.mp hs with hold | ⟨rfl, rfl⟩
      . exact hstarts i s (List.getElem?_concat_eq_some.mpr (Or.inl hold))
      . exact hstarts _ (st, r.length) (List.getElem?_concat_eq_some.mpr (Or.inr ⟨rfl, rfl⟩))

theorem Collected.call (h : Collected r per) (he : Allocates e)
    (hlast : e.isLast = 0 ∨ e.isActive = 0)
    : ∃ per', per.periodAddVadActivity e = some (0, per')
        ∧ Collected (r.feed (e.isActive ≠ 0)) per'
        ∧ Kept per per' := by
  unfold RunLength.feed
  split
  . next st hpending =>
    by_cases hactive : e.isActive ≠ 0
    . rw [if_pos hactive]
      exact h.going hpending hactive (hlast.resolve_right hactive)
    . rw [if_neg hactive]
      exact h.silence hpending (by simpa using hactive)
  . next hidle =>
    by_cases hactive : e.isActive ≠ 0
    . rw [if_pos hactive]
      exact h.onset he hidle hactive
    . rw [if_neg hactive]
      exact h.idle hidle (by simpa using hactive)

end

structure Encodes (acts : List Int) (per : Periods) (rs : List (Nat × Nat)) : Prop where
  runs : MaximalRuns (· ≠ 0) acts rs
  size : per.size = rs.length
  starts : ∀ (i : Nat) s, rs[i]? = some s → per.periodStart.load i = some (10 * s.1)
  ends : ∀ (i : Nat) s, rs[i]? = some s → s.2 < acts.length →
    per.periodEnd.load i = some (10 * s.2)
  going : ∀ (i : Nat) s, rs[i]? = some s → s.2 = acts.length →
    per.periodEnd.load i = some uint64Max ∧ per.isEndFilled = 0
  filled : (∀ s ∈ rs, s.2 ≠ acts.length) → 0 < per.size → per.isEndFilled = 1
  capacity : per.size ≤ per.sizeAllocated

theorem Collected.encodes {acts : List Int} {r : RunLength} {per : Periods}
    (h : Collected r per) (hr : r.Of (· ≠ 0) acts)
    : Encodes acts per r.runs := by
  have hfinished := hr.finished_lt
  refine ⟨hr.runs, h.size, h.starts, ?_, ?_, ?_, h.stored.capacity⟩
  . intro i s hs hlt
    cases hpending : r.pending with
    | some st =>
      rw [RunLength.runs_of_pending hpending] at hs
      rcases List.getElem?_concat_eq_some.mp hs with hold | ⟨_, rfl⟩
      . exact h.ends i s hold
      . have hlength := hr.length
        dsimp only at hlt
        omega
    | none =>
      rw [RunLength.runs_of_idle hpending] at hs
      exact h.ends i s hs
  . intro i s hs hend
    cases hpending : r.pending with
    | some st =>
      rw [RunLength.runs_of_pending hpending] at hs
      rcases List.getElem?_concat_eq_some.mp hs with hold | ⟨rfl, _⟩
      . have hlt := hfinished s (List.mem_of_getElem? hold)
        omega
      . refine ⟨h.pending (by simp [hpending]), ?_⟩
        simp [h.filled, hpending]
    | none =>
      rw [RunLength.runs_of_idle hpending] at hs
      have hlt := hfinished s (List.mem_of_getElem? hs)
      omega
  . intro hclosed hsize
    cases hpending : r.pending with
    | some st =>
      rw [RunLength.runs_of_pending hpending] at hclosed
      exact absurd hr.length (hclosed (st, r.length) (by simp))
    | none =>
      have hlength := h.size
      rw [RunLength.runs_of_idle hpending] at hlength
      have hsome : r.finished ≠ [] := by
        rintro hnil
        rw [hnil] at hlength
        simp at hlength
        omega
      simp [h.filled, hpending, hsome]

theorem collected_init
    : ∃ per, periodsCreate {} = some per ∧ Collected {} per := by
  refine ⟨_, rfl, ⟨Int.le_refl 0, by decide, by decide, Block.holds_calloc _ _, Block.holds_calloc _ _⟩,
    rfl, rfl, ?_, ?_, ?_, ?_, ?_⟩
  . exact iff_of_true rfl rfl
  . rfl
  . intro i s hs
    simp [RunLength.runs] at hs
  . intro i s hs
    simp at hs
  . intro h
    contradiction

theorem collected_run (calls : List PeriodCall)
    (hcalls : ∀ e ∈ calls, Allocates e ∧ (e.isLast = 0 ∨ e.isActive = 0))
    : ∃ per, collecting.run calls = some per
        ∧ Collected (RunLength.collect (· ≠ 0) (calls.map (·.isActive))) per := by
  induction calls using List.reverseRecOn with
  | nil => exact collected_init
  | append_singleton calls e ih =>
    obtain ⟨per, hrun, hcollected⟩ := ih fun d hd => hcalls d (List.mem_append_left [e] hd)
    obtain ⟨halloc, hlast⟩ := hcalls e (by simp)
    obtain ⟨per', hcall, hcollected', _⟩ := hcollected.call halloc hlast
    refine ⟨per', ?_, ?_⟩
    . rw [Machine.run_concat, hrun]
      simp [collecting, hcall]
    . rw [List.map_append]
      simp only [List.map_cons, List.map_nil]
      rw [RunLength.collect_concat]
      exact hcollected'

/--
After any calls with successful allocations the periods are the maximal runs of active frames, and a
call keeps every entry that was there before the blocks grow.
-/
theorem periods_run_length (calls : List PeriodCall)
    (hcalls : ∀ e ∈ calls, Allocates e ∧ e.isLast = 0)
    : ∃ per rs, collecting.run calls = some per
        ∧ Encodes (calls.map (·.isActive)) per rs
        ∧ ∀ e, Allocates e → e.isLast = 0 →
            ∃ per', per.periodAddVadActivity e = some (0, per') ∧ Kept per per' := by
  obtain ⟨per, hrun, hcollected⟩ := collected_run calls fun e he =>
    ⟨(hcalls e he).1, Or.inl (hcalls e he).2⟩
  refine ⟨per, _, hrun, hcollected.encodes (RunLength.of_collect _ _), ?_⟩
  intro e he hlast
  obtain ⟨per', hcall, _, hkept⟩ := hcollected.call he (Or.inl hlast)
  exact ⟨per', hcall, hkept⟩

def feeding (isActive : Int) : PeriodCall where
  isActive := isActive
  reallocStart := some fun _ => 0
  reallocEnd := some fun _ => 0

theorem feeding_mem (acts : List Int)
    : ∀ d ∈ acts.map feeding, Allocates d ∧ d.isLast = 0 := by
  intro d hd
  rw [List.mem_map] at hd
  obtain ⟨a, _, rfl⟩ := hd
  exact ⟨⟨rfl, rfl⟩, rfl⟩

def flickering : List Int :=
  (List.replicate 101 [1, 0]).flatten

theorem periods_run_length_on_data
    : ∃ per rs, collecting.run (flickering.map feeding) = some per
        ∧ per.size = 101
        ∧ per.sizeAllocated = 200
        ∧ Encodes flickering per rs
        ∧ ∀ e, Allocates e → e.isLast = 0 →
            ∃ per', per.periodAddVadActivity e = some (0, per') ∧ Kept per per' := by
  have hsizes : (collecting.run (flickering.map feeding)).map (fun per => (per.size, per.sizeAllocated))
      = some (101, 200) := by
    decide +kernel
  have hacts : (flickering.map feeding).map (·.isActive) = flickering := by
    rw [List.map_map]
    exact List.map_id _
  obtain ⟨per, rs, hrun, hencodes, hkept⟩ :=
    periods_run_length (flickering.map feeding) (feeding_mem flickering)
  rw [hrun, Option.map_some, Option.some.injEq, Prod.mk.injEq] at hsizes
  rw [hacts] at hencodes
  exact ⟨per, rs, hrun, hsizes.1, hsizes.2, hencodes, hkept⟩

end Periods
