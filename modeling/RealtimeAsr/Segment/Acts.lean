import RealtimeAsr.Lib.Rounding
import Mathlib.Data.List.Basic

/-!
This module contains `Acts` of `segment/segment.cc`: it records one VAD decision per frame, classifies
every completed window of frames and derives the starts and ends of the speech segments from that.
-/

structure Acts where
  segSts : List Nat := []
  segEnds : List Nat := []
  acts : List Int := []
  windStats : List Nat := []
  lastSegIdx : Nat := 0
  deriving Repr, DecidableEq

namespace Acts

def window : Nat := 15

def minAct : Nat := 5

def nacts (ds : List Int) (st : Nat) : Nat :=
  ((ds.drop st).take window).count 1

/--
The class of a completed window: 1 with enough active frames, 2 with none, 0 in between.
-/
def checkWindow (a : Acts) (windowIdx : Nat) : Nat :=
  let st := windowIdx * window
  if nacts a.acts st ≥ minAct then
    1
  else if nacts a.acts st = 0 then
    2
  else
    0

def actSum (ds : List Int) (st en : Nat) : Int :=
  ((ds.drop st).take (en - st)).sum

/--
The float `n / size`, each operand converted to `float` before.
-/
def percent (r : Rounding) (ds : List Int) (st en : Nat) : ℚ :=
  let size := r.float ((en : ℚ) - st)
  let n := r.float (actSum ds st en)
  r.float (n / size)

def actPercent (r : Rounding) (a : Acts) (st en : Nat) : ℚ :=
  percent r a.acts st en

def end_ (r : Rounding) (a : Acts) : Acts :=
  if a.segSts.length = a.segEnds.length + 1 then
    let nframes := a.acts.length
    let st := a.segSts.getLastD 0
    let dur := (nframes : Int) - st
    let a :=
      if dur > 100 ∧ a.actPercent r st (nframes - 1) > 1 / 2 then
        { a with segEnds := a.segEnds ++ [nframes - 1] }
      else
        a
    { a with lastSegIdx := nframes - 1 }
  else
    a

def addAct (a : Acts) (act : Int) (last : Bool := false) : Acts :=
  let a := { a with acts := a.acts ++ [act] }
  let nframes := a.acts.length
  if nframes % window = 0 then
    let windowIdx := (nframes - 1) / window
    let status := a.checkWindow windowIdx
    let a := { a with windStats := a.windStats ++ [status] }
    if status = 1 then
      if a.segSts.length = a.segEnds.length then
        { a with segSts := a.segSts ++ [nframes - 1] }
      else
        a
    else if status = 2 then
      let st := a.segSts.getLastD 0
      let dur := (nframes : Int) - 1 - st
      if (a.segSts.length = a.segEnds.length + 1 ∧ dur > 200) ∨ last then
        { a with segEnds := a.segEnds ++ [nframes - 1], lastSegIdx := nframes - 1 }
      else
        a
    else
      a
  else
    a

def reset (_ : Acts) : Acts :=
  { segSts := [], segEnds := [], acts := [], windStats := [], lastSegIdx := 0 }

def feed (a : Acts) (ds : List Int) : Acts :=
  ds.foldl (fun a d => a.addAct d) a

def Completes (f : Nat) : Prop :=
  (f + 1) % window = 0

structure Opens (a : Acts) (act : Int) : Prop where
  completes : Completes a.acts.length
  active : minAct ≤ nacts (a.acts ++ [act]) (a.acts.length + 1 - window)
  none_open : a.segSts.length = a.segEnds.length

structure Closes (a : Acts) (act : Int) : Prop where
  completes : Completes a.acts.length
  silent : nacts (a.acts ++ [act]) (a.acts.length + 1 - window) = 0
  one_open : a.segSts.length = a.segEnds.length + 1
  long : a.segSts.getLastD 0 + 200 < a.acts.length

structure Silences (a : Acts) (act : Int) : Prop where
  completes : Completes a.acts.length
  silent : nacts (a.acts ++ [act]) (a.acts.length + 1 - window) = 0

structure EndCloses (r : Rounding) (a : Acts) : Prop where
  one_open : a.segSts.length = a.segEnds.length + 1
  long : a.segSts.getLastD 0 + 100 < a.acts.length
  active : 1 / 2 < a.actPercent r (a.segSts.getLastD 0) (a.acts.length - 1)

theorem window_start {f : Nat} (h : Completes f) : f / window * window = f + 1 - window := by
  unfold Completes window at *
  omega

theorem checkWindow_completed (a : Acts) {f : Nat} (h : Completes f)
    : a.checkWindow (f / window)
        =
      if minAct ≤ nacts a.acts (f + 1 - window) then
        1
      else if nacts a.acts (f + 1 - window) = 0 then
        2
      else
        0 := by
  unfold checkWindow
  rw [window_start h]

@[simp]
theorem addAct_acts (a : Acts) (act : Int) (last : Bool)
    : (a.addAct act last).acts = a.acts ++ [act] := by
  simp only [addAct]
  split
  . split
    . split
      . rfl
      . rfl
    . split
      . split
        . rfl
        . rfl
      . rfl
  . rfl

theorem addAct_cases (a : Acts) (act : Int) (last : Bool)
    : a.Opens act
          ∧ (a.addAct act last).segSts = a.segSts ++ [a.acts.length]
          ∧ (a.addAct act last).segEnds = a.segEnds
        ∨
      (a.Silences act ∧ (a.Closes act ∨ last = true))
          ∧ (a.addAct act last).segSts = a.segSts
          ∧ (a.addAct act last).segEnds = a.segEnds ++ [a.acts.length]
        ∨
      ¬a.Opens act
          ∧ ¬(a.Silences act ∧ (a.Closes act ∨ last = true))
          ∧ (a.addAct act last).segSts = a.segSts
          ∧ (a.addAct act last).segEnds = a.segEnds := by
  have hlen : (a.acts ++ [act]).length = a.acts.length + 1 := by simp
  simp only [addAct, hlen, Nat.add_sub_cancel]
  by_cases hmod : Completes a.acts.length
  . have hmod' : (a.acts.length + 1) % window = 0 := hmod
    simp only [hmod', if_true, checkWindow_completed _ hmod]
    split
    . next hact =>
      simp only [if_true]
      split
      . next hpaired =>
        left
        exact ⟨⟨hmod, hact, hpaired⟩, rfl, rfl⟩
      . next hpaired =>
        right
        right
        refine ⟨fun h => hpaired h.none_open, fun h => ?_, rfl, rfl⟩
        have := h.1.silent
        unfold minAct at hact
        omega
    . next hact =>
      split
      . next hzero =>
        simp only [Nat.reduceEqDiff, if_false, if_true]
        split
        . next hclose =>
          right
          left
          refine ⟨⟨⟨hmod, hzero⟩, ?_⟩, rfl, rfl⟩
          cases hclose with
          | inl hclose => exact Or.inl ⟨hmod, hzero, hclose.1, by omega⟩
          | inr hlast => exact Or.inr hlast
        . next hclose =>
          right
          right
          refine ⟨fun h => hact h.active, fun h => ?_, rfl, rfl⟩
          apply hclose
          cases h.2 with
          | inl hcl =>
            have := hcl.one_open
            have := hcl.long
            exact Or.inl ⟨hcl.one_open, by omega⟩
          | inr hlast => exact Or.inr hlast
      . next hzero =>
        right
        right
        exact ⟨fun h => hact h.active, fun h => hzero h.1.silent, rfl, rfl⟩
  . have hmod' : ¬(a.acts.length + 1) % window = 0 := hmod
    right
    right
    simp only [hmod', if_false]
    exact ⟨fun h => hmod h.completes, fun h => hmod h.1.completes, trivial, trivial⟩

theorem addAct_segs (a : Acts) (act : Int)
    : a.Opens act
          ∧ (a.addAct act).segSts = a.segSts ++ [a.acts.length]
          ∧ (a.addAct act).segEnds = a.segEnds
        ∨
      a.Closes act
          ∧ (a.addAct act).segSts = a.segSts
          ∧ (a.addAct act).segEnds = a.segEnds ++ [a.acts.length]
        ∨
      ¬a.Opens act
          ∧ ¬a.Closes act
          ∧ (a.addAct act).segSts = a.segSts
          ∧ (a.addAct act).segEnds = a.segEnds := by
  have hcloses : a.Silences act ∧ (a.Closes act ∨ false = true) ↔ a.Closes act := by
    simp only [Bool.false_eq_true, or_false, and_iff_right_iff_imp]
    intro h
    exact ⟨h.completes, h.silent⟩
  have hcases := a.addAct_cases act false
  rw [hcloses] at hcases
  exact hcases

@[simp]
theorem end_acts (r : Rounding) (a : Acts) : (a.end_ r).acts = a.acts := by
  simp only [end_]
  split
  . split
    . rfl
    . rfl
  . rfl

@[simp]
theorem end_segSts (r : Rounding) (a : Acts) : (a.end_ r).segSts = a.segSts := by
  simp only [end_]
  split
  . split
    . rfl
    . rfl
  . rfl

theorem end_segEnds (r : Rounding) (a : Acts)
    : a.EndCloses r ∧ (a.end_ r).segEnds = a.segEnds ++ [a.acts.length - 1]
        ∨
      ¬a.EndCloses r ∧ (a.end_ r).segEnds = a.segEnds := by
  simp only [end_]
  split
  . next hopen =>
    split
    . next hclose =>
      left
      refine ⟨⟨hopen, ?_, hclose.2⟩, rfl⟩
      omega
    . next hclose =>
      right
      refine ⟨fun h => hclose ⟨?_, h.active⟩, rfl⟩
      have := h.long
      omega
  . next hopen =>
    right
    exact ⟨fun h => hopen h.one_open, rfl⟩

@[simp]
theorem feed_nil (a : Acts) : a.feed [] = a := rfl

theorem feed_concat (a : Acts) (ds : List Int) (d : Int)
    : a.feed (ds ++ [d]) = (a.feed ds).addAct d := by
  unfold feed
  rw [List.foldl_append]
  rfl

@[simp]
theorem feed_acts (a : Acts) (ds : List Int) : (a.feed ds).acts = a.acts ++ ds := by
  induction ds generalizing a with
  | nil => simp
  | cons d ds ih =>
    show ((a.addAct d).feed ds).acts = _
    rw [ih]
    simp

end Acts
