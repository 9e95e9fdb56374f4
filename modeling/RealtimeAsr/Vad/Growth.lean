import RealtimeAsr.Vad.Periods

/-!
This module contains what is left of the periods when an allocation fails during the growth.
-/

namespace Periods

structure FailsToGrow (per : Periods) (e : PeriodCall) : Prop where
  previous : per.isPerviousActive = 0
  active : e.isActive ≠ 0
  full : per.size + 1 > per.sizeAllocated
  fails : e.reallocStart = none ∨ e.reallocEnd = none

def LeavesAsItWas (per : Periods) (e : PeriodCall) : Prop :=
  ∃ res, res ≠ 0 ∧ per.periodAddVadActivity e = some (res, per)

section

variable {per : Periods} {e : PeriodCall}

/--
The size counts a period that is not there, and a pointer is lost.
-/
structure Lost (per per' : Periods) (res : Int) : Prop where
  result : res ≠ 0
  size : per'.size = per.size + 1
  null : per'.periodStart = none ∨ per'.periodEnd = none
  rest : per' = { per with
    size := per'.size
    periodStart := per'.periodStart
    periodEnd := per'.periodEnd }

theorem FailsToGrow.grow (h : FailsToGrow per e)
    : ∃ res per', { per with size := per.size + 1 }.grow e = (res, per') ∧ Lost per per' res := by
  unfold Periods.grow
  rw [if_pos h.full]
  dsimp only
  cases hstart : e.reallocStart with
  | none =>
    refine ⟨1, { per with size := per.size + 1, periodStart := none }, ?_, by decide, rfl,
      Or.inl rfl, rfl⟩
    simp [Block.realloc]
  | some f =>
    have hstop := h.fails.resolve_left (by simp [hstart])
    refine ⟨2, { per with
      size := per.size + 1
      periodStart := per.periodStart.realloc (per.sizeAllocated * 2) (some f)
      periodEnd := none }, ?_, by decide, rfl, Or.inr rfl, rfl⟩
    rw [hstop]
    simp [Block.realloc]

theorem FailsToGrow.lost (h : FailsToGrow per e)
    : ∃ res per', per.periodAddVadActivity e = some (res, per') ∧ Lost per per' res := by
  obtain ⟨res, per', hgrow, hlost⟩ := h.grow
  have hresult := hlost.result
  refine ⟨res, per', ?_, hlost⟩
  unfold periodAddVadActivity addPeriodStart
  rw [if_pos ⟨h.previous, h.active⟩]
  simp [hgrow, hresult]

/--
No call whose growth fails leaves the periods as they were.
-/
theorem FailsToGrow.not_leavesAsItWas (h : FailsToGrow per e) : ¬LeavesAsItWas per e := by
  obtain ⟨res, per', hcall, hlost⟩ := h.lost
  rintro ⟨res', _, hsame⟩
  rw [hcall, Option.some.injEq, Prod.mk.injEq] at hsame
  have hsize := hlost.size
  rw [hsame.2] at hsize
  omega

end

def hundred : List PeriodCall :=
  (List.replicate 100 [1, 0]).flatten.map feeding

theorem hundred_full
    : ∃ per, collecting.run hundred = some per
        ∧ per.isPerviousActive = 0
        ∧ per.size = 100
        ∧ per.sizeAllocated = 100 := by
  have hrun : (collecting.run hundred).map (fun per =>
      (per.isPerviousActive, per.size, per.sizeAllocated)) = some (0, 100, 100) := by
    decide +kernel
  obtain ⟨per, hper, hfields⟩ := Option.map_eq_some_iff.mp hrun
  simp only [Prod.mk.injEq] at hfields
  exact ⟨per, hper, hfields⟩

theorem hundred_not_leavesAsItWas
    : ∃ per, collecting.run hundred = some per
        ∧ ¬LeavesAsItWas per { feeding 1 with reallocEnd := none } := by
  obtain ⟨per, hrun, hprevious, hsize, hallocated⟩ := hundred_full
  refine ⟨per, hrun, FailsToGrow.not_leavesAsItWas ⟨hprevious, by decide, ?_, Or.inr rfl⟩⟩
  omega

theorem hundred_lost
    : ∃ per per', collecting.run hundred = some per
        ∧ per.periodAddVadActivity { feeding 1 with reallocStart := none } = some (1, per')
        ∧ per.size = 100
        ∧ per'.size = 101
        ∧ per'.periodStart = none
        ∧ ¬LeavesAsItWas per { feeding 1 with reallocStart := none } := by
  obtain ⟨per, hrun, hprevious, hsize, hallocated⟩ := hundred_full
  have hcall : per.periodAddVadActivity { feeding 1 with reallocStart := none }
      = some (1, { per with size := per.size + 1, periodStart := none }) := by
    unfold periodAddVadActivity addPeriodStart grow
    simp [hprevious, hsize, hallocated, feeding, Block.realloc]
  refine ⟨per, _, hrun, hcall, hsize, ?_, rfl, ?_⟩
  . simp [hsize]
  . rintro ⟨res, _, hsame⟩
    rw [hcall, Option.some.injEq, Prod.mk.injEq] at hsame
    have hgrown := congrArg Periods.size hsame.2
    dsimp only at hgrown
    omega

end Periods
