import RealtimeAsr.Lib.Greedy
import RealtimeAsr.Lib.Machine
import RealtimeAsr.Lib.Slice
import RealtimeAsr.Segment.Acts
import Mathlib.Tactic.Linarith
import Mathlib.Tactic.FieldSimp

/-!
This module shows that `Acts` computes a greedy segmentation of the decisions it is given, for every
sequence of `add_act` and `end` calls.
-/

namespace Acts

inductive Call where
  | addAct (act : Bool)
  | end_
  deriving Repr, DecidableEq

def decision (act : Bool) : Int :=
  if act then 1 else 0

def calls (r : Rounding) : Machine Acts Call where
  init := {}
  step a
    | .addAct act => a.addAct (decision act)
    | .end_ => a.end_ r

def recorded : List Call → List Bool
  | [] => []
  | .addAct act :: cs => act :: recorded cs
  | .end_ :: cs => recorded cs

def nactive (ds : List Bool) (st en : Nat) : Nat :=
  ((ds.drop st).take (en - st)).count true

structure WindowOpens (ds : List Bool) (f : Nat) : Prop where
  lt_length : f < ds.length
  completes : Completes f
  active : minAct ≤ nactive ds (f + 1 - window) (f + 1)

/--
The call made after `pre` closes a segment that starts at `s`, with end `e`. For an `end` call the
activity test on the decisions `s .. e-1` is `busy`.
-/
def Call.ClosesSeg (busy : List Bool → Nat → Nat → Prop) (pre : List Call) (s : Nat)
    : Call → Nat → Prop
  | .addAct act, e =>
    e = (recorded pre).length
      ∧ Completes e
      ∧ nactive (recorded pre ++ [act]) (e + 1 - window) (e + 1) = 0
      ∧ s + 200 < e
  | .end_, e =>
    e + 1 = (recorded pre).length
      ∧ s + 100 < e + 1
      ∧ busy (recorded pre) s e

def ClosedBy (busy : List Bool → Nat → Nat → Prop) (cs : List Call) (s e : Nat) : Prop :=
  ∃ (pre : List Call) (c : Call), pre ++ [c] <+: cs ∧ c.ClosesSeg busy pre s e

def MostActive (ds : List Bool) (s e : Nat) : Prop :=
  e - s < 2 * nactive ds s e

theorem recorded_append (cs cs' : List Call)
    : recorded (cs ++ cs') = recorded cs ++ recorded cs' := by
  induction cs with
  | nil => rfl
  | cons c cs ih =>
    cases c with
    | addAct act => simp [recorded, ih]
    | end_ => simp [recorded, ih]

theorem recorded_length_le {cs cs' : List Call} (h : cs <+: cs')
    : (recorded cs).length ≤ (recorded cs').length := by
  obtain ⟨cs'', rfl⟩ := h
  rw [recorded_append, List.length_append]
  omega

theorem count_decision (ds : List Bool) : (ds.map decision).count 1 = ds.count true := by
  induction ds with
  | nil => rfl
  | cons d ds ih => cases d <;> simp [decision, ih]

theorem sum_decision (ds : List Bool) : (ds.map decision).sum = ds.count true := by
  induction ds with
  | nil => rfl
  | cons d ds ih => cases d <;> simp [decision, ih, add_comm]

theorem nacts_decision (ds : List Bool) (st : Nat)
    : nacts (ds.map decision) st = nactive ds st (st + window) := by
  unfold nacts nactive
  rw [← List.map_drop, ← List.map_take, count_decision]
  simp

theorem actSum_decision (ds : List Bool) (st en : Nat)
    : actSum (ds.map decision) st en = nactive ds st en := by
  unfold actSum nactive
  rw [← List.map_drop, ← List.map_take, sum_decision]

theorem nactive_append (ds ds' : List Bool) {st en : Nat} (h : en ≤ ds.length)
    : nactive (ds ++ ds') st en = nactive ds st en := by
  unfold nactive
  cases le_or_gt en st with
  | inl hle => simp [Nat.sub_eq_zero_of_le hle]
  | inr hlt =>
    rw [List.slice_append _ _ (by omega)]

theorem windowOpens_concat (ds : List Bool) (d : Bool) (f : Nat)
    : WindowOpens (ds ++ [d]) f
        ↔
      WindowOpens ds f ∨ (f = ds.length ∧ WindowOpens (ds ++ [d]) ds.length) := by
  constructor
  . intro h
    have hlt := h.lt_length
    rw [List.length_append, List.length_singleton] at hlt
    cases Nat.lt_or_eq_of_le (Nat.le_of_lt_succ hlt) with
    | inl hlt' =>
      left
      refine ⟨hlt', h.completes, ?_⟩
      rw [← nactive_append ds [d] (by omega)]
      exact h.active
    | inr heq =>
      right
      rw [heq] at h
      exact ⟨heq, h⟩
  . intro h
    cases h with
    | inl h =>
      have hlt := h.lt_length
      refine ⟨?_, h.completes, ?_⟩
      . rw [List.length_append]
        omega
      . rw [nactive_append ds [d] (by omega)]
        exact h.active
    | inr h =>
      rw [h.1]
      exact h.2

section Calls

variable {busy : List Bool → Nat → Nat → Prop}

theorem closesSeg_end_eq {pre : List Call} {c : Call} {s e : Nat} (h : c.ClosesSeg busy pre s e)
    : e + 1 = (recorded (pre ++ [c])).length := by
  cases c with
  | addAct act =>
    rw [recorded_append, List.length_append, h.1]
    rfl
  | end_ =>
    rw [recorded_append, List.length_append, h.1]
    rfl

theorem closesSeg_lt {pre : List Call} {c : Call} {s e : Nat} (h : c.ClosesSeg busy pre s e)
    : s + 100 ≤ e := by
  cases c with
  | addAct act =>
    have := h.2.2.2
    omega
  | end_ =>
    have := h.2.1
    omega

theorem closedBy_lt {cs : List Call} {s e : Nat} (h : ClosedBy busy cs s e)
    : e < (recorded cs).length := by
  obtain ⟨pre, c, hpre, hc⟩ := h
  have h1 := closesSeg_end_eq hc
  have h2 := recorded_length_le hpre
  omega

theorem closedBy_concat (cs : List Call) (c : Call) (s e : Nat)
    : ClosedBy busy (cs ++ [c]) s e ↔ ClosedBy busy cs s e ∨ c.ClosesSeg busy cs s e := by
  constructor
  . intro h
    obtain ⟨pre, c', hpre, hc⟩ := h
    rw [List.prefix_concat_iff] at hpre
    cases hpre with
    | inl heq =>
      right
      obtain ⟨rfl, hlast⟩ := List.append_inj' heq rfl
      rw [List.singleton_inj] at hlast
      rw [← hlast]
      exact hc
    | inr hpre =>
      left
      exact ⟨pre, c', hpre, hc⟩
  . intro h
    cases h with
    | inl h =>
      obtain ⟨pre, c', hpre, hc⟩ := h
      exact ⟨pre, c', hpre.trans (List.prefix_append _ _), hc⟩
    | inr h => exact ⟨cs, c, List.prefix_refl _, h⟩

theorem firstClose_of_isLeast {cs : List Call} {s e : Nat}
    (h : IsLeast {f | s < f ∧ ClosedBy busy cs s f} e)
    : ∃ (pre : List Call) (c : Call),
        pre ++ [c] <+: cs
          ∧ c.ClosesSeg busy pre s e
          ∧ ∀ pre' c' e', pre' ++ [c'] <+: pre → ¬c'.ClosesSeg busy pre' s e' := by
  obtain ⟨pre, c, hpre, hc⟩ := h.1.2
  -- Among the calls that give this end, the one with the shortest history is the first to close.
  induction hn : pre.length using Nat.strong_induction_on generalizing pre c with
  | _ n ih =>
    by_cases hfirst : ∃ pre' c' e', pre' ++ [c'] <+: pre ∧ c'.ClosesSeg busy pre' s e'
    . obtain ⟨pre', c', e', hpre', hc'⟩ := hfirst
      have hin : pre' ++ [c'] <+: cs := hpre'.trans ((List.prefix_append _ _).trans hpre)
      have hle : e ≤ e' := by
        apply h.2
        have := closesSeg_lt hc'
        exact ⟨by omega, pre', c', hin, hc'⟩
      have hge : e' ≤ e := by
        have h1 := closesSeg_end_eq hc'
        have h2 := closesSeg_end_eq hc
        have h3 := recorded_length_le (hpre'.trans (List.prefix_append pre [c]))
        omega
      have heq : e' = e := Nat.le_antisymm hge hle
      rw [heq] at hc'
      have hlen := hpre'.length_le
      rw [List.length_append, List.length_singleton] at hlen
      exact ih pre'.length (by omega) pre' c' hin hc' rfl
    . refine ⟨pre, c, hpre, hc, ?_⟩
      intro pre' c' e' hpre' hc'
      exact hfirst ⟨pre', c', e', hpre', hc'⟩

theorem run_acts (r : Rounding) (cs : List Call)
    : ((calls r).run cs).acts = (recorded cs).map decision := by
  induction cs using List.reverseRecOn with
  | nil => rfl
  | append_singleton cs c ih =>
    rw [Machine.run_concat, recorded_append, List.map_append, ← ih]
    cases c with
    | addAct act => simp [calls, recorded]
    | end_ => simp [calls, recorded]

theorem nacts_window {ds : List Bool} {n : Nat} (h : Completes n)
    : nacts (ds.map decision) (n + 1 - window) = nactive ds (n + 1 - window) (n + 1) := by
  have : n + 1 - window + window = n + 1 := by
    unfold Completes window at *
    omega
  rw [nacts_decision, this]

theorem forall_getLast?_iff {sts : List Nat} {q : Nat → Prop} (h : sts ≠ [])
    : (∀ s ∈ sts.getLast?, q s) ↔ q (sts.getLastD 0) := by
  simp [List.getLastD_eq_getLast?, List.getLast?_eq_some_getLast h]

theorem recorded_concat (cs : List Call) (act : Bool)
    : recorded (cs ++ [.addAct act]) = recorded cs ++ [act] := by
  rw [recorded_append]
  rfl

theorem ends_lt {cs : List Call} {sts ends : List Nat}
    (h : Greedy (WindowOpens (recorded cs)) (ClosedBy busy cs) (fun _ => True) sts ends)
    : ∀ e ∈ ends, e < (recorded cs).length := by
  intro e he
  obtain ⟨i, s, hst, hend⟩ := h.exists_start he
  exact closedBy_lt (h.isLeast_end i s e hst hend).1.2

theorem ne_nil_of_open {a : Acts} (h : a.segSts.length = a.segEnds.length + 1) : a.segSts ≠ [] := by
  intro heq
  rw [heq] at h
  simp at h

section AddAct

variable {cs : List Call} {a : Acts} {act : Bool}

theorem nacts_concat (hacts : a.acts = (recorded cs).map decision)
    (hcomp : Completes (recorded cs).length)
    : nacts (a.acts ++ [decision act]) ((recorded cs).length + 1 - window)
      =
      nactive (recorded cs ++ [act]) ((recorded cs).length + 1 - window) ((recorded cs).length + 1) := by
  rw [← nacts_window hcomp, hacts]
  simp

theorem closedBy_of_opens (hopens : WindowOpens (recorded cs ++ [act]) (recorded cs).length)
    : ClosedBy busy (cs ++ [.addAct act]) = ClosedBy busy cs := by
  funext s e
  rw [closedBy_concat, eq_iff_iff, or_iff_left_iff_imp]
  intro hcl
  have hsilent := hcl.2.2.1
  have hact := hopens.active
  rw [hcl.1] at hsilent
  unfold minAct at hact
  omega

theorem opens_iff (hacts : a.acts = (recorded cs).map decision)
    : a.Opens (decision act)
      ↔
      WindowOpens (recorded cs ++ [act]) (recorded cs).length
        ∧ a.segSts.length = a.segEnds.length := by
  have hlen : a.acts.length = (recorded cs).length := by simp [hacts]
  constructor
  . intro hop
    have hcomp := hop.completes
    have hact := hop.active
    rw [hlen] at hcomp hact
    rw [nacts_concat hacts hcomp] at hact
    exact ⟨⟨by simp, hcomp, hact⟩, hop.none_open⟩
  . rintro ⟨hopens, hpaired⟩
    refine ⟨by rw [hlen]; exact hopens.completes, ?_, hpaired⟩
    rw [hlen, nacts_concat hacts hopens.completes]
    exact hopens.active

structure SilentFrom (cs : List Call) (act : Bool) (s : Nat) : Prop where
  completes : Completes (recorded cs).length
  silent : nactive (recorded cs ++ [act]) ((recorded cs).length + 1 - window)
    ((recorded cs).length + 1) = 0
  long : s + 200 < (recorded cs).length

theorem closesSeg_addAct_iff (s e : Nat)
    : (Call.addAct act).ClosesSeg busy cs s e
      ↔
      e = (recorded cs).length ∧ SilentFrom cs act s := by
  constructor
  . rintro ⟨rfl, hcomp, hsilent, hlong⟩
    exact ⟨rfl, hcomp, hsilent, hlong⟩
  . rintro ⟨rfl, hcomp, hsilent, hlong⟩
    exact ⟨rfl, hcomp, hsilent, hlong⟩

theorem closes_iff (hacts : a.acts = (recorded cs).map decision)
    : a.Closes (decision act)
      ↔
      a.segSts.length = a.segEnds.length + 1 ∧ ∀ s ∈ a.segSts.getLast?, SilentFrom cs act s := by
  have hlen : a.acts.length = (recorded cs).length := by simp [hacts]
  constructor
  . intro hcl
    have hcomp := hcl.completes
    have hsilent := hcl.silent
    have hlong := hcl.long
    rw [hlen] at hcomp hsilent hlong
    rw [nacts_concat hacts hcomp] at hsilent
    refine ⟨hcl.one_open, ?_⟩
    rw [forall_getLast?_iff (ne_nil_of_open hcl.one_open)]
    exact ⟨hcomp, hsilent, hlong⟩
  . rintro ⟨hone, hlast⟩
    have hsilent := (forall_getLast?_iff (ne_nil_of_open hone)).mp hlast
    refine ⟨by rw [hlen]; exact hsilent.completes, ?_, hone, by rw [hlen]; exact hsilent.long⟩
    rw [hlen, nacts_concat hacts hsilent.completes]
    exact hsilent.silent

theorem greedy_addAct_open (hacts : a.acts = (recorded cs).map decision)
    (h : Greedy (WindowOpens (recorded cs)) (ClosedBy busy cs) (fun _ => True) a.segSts a.segEnds)
    (hopens : WindowOpens (recorded cs ++ [act]) (recorded cs).length)
    : Greedy (WindowOpens (recorded cs ++ [act])) (ClosedBy busy cs) (fun _ => True)
        (a.addAct (decision act)).segSts (a.addAct (decision act)).segEnds := by
  have hlen : a.acts.length = (recorded cs).length := by simp [hacts]
  have hnew : ∀ f, WindowOpens (recorded cs ++ [act]) f
      ↔ WindowOpens (recorded cs) f ∨ f = (recorded cs).length := by
    intro f
    rw [windowOpens_concat]
    simp [hopens]
  have hstep := h.step_open hnew (fun f hf => hf.lt_length)
    (fun s e hC => Nat.le_of_lt (closedBy_lt hC)) trivial (ends_lt h)
  obtain ⟨hop, hsts, hends⟩ | ⟨hcl, _⟩ | ⟨hno, _, hsts, hends⟩ := a.addAct_segs (decision act)
  . rw [if_pos hop.none_open] at hstep
    rw [hsts, hends, hlen]
    exact hstep
  . have hsilent := hcl.silent
    have hact := hopens.active
    rw [hlen, nacts_concat hacts hopens.completes] at hsilent
    unfold minAct at hact
    omega
  . have hpaired : ¬a.segSts.length = a.segEnds.length := by
      intro hpaired
      exact hno ((opens_iff hacts).mpr ⟨hopens, hpaired⟩)
    rw [if_neg hpaired] at hstep
    rw [hsts, hends]
    exact hstep

theorem greedy_addAct_shut (hacts : a.acts = (recorded cs).map decision)
    (h : Greedy (WindowOpens (recorded cs)) (ClosedBy busy cs) (fun _ => True) a.segSts a.segEnds)
    (hopens : ¬WindowOpens (recorded cs ++ [act]) (recorded cs).length)
    : Greedy (WindowOpens (recorded cs)) (ClosedBy busy (cs ++ [.addAct act])) (fun _ => True)
        (a.addAct (decision act)).segSts (a.addAct (decision act)).segEnds := by
  have hlen : a.acts.length = (recorded cs).length := by simp [hacts]
  have hnew : ∀ s e, ClosedBy busy (cs ++ [.addAct act]) s e
      ↔ ClosedBy busy cs s e ∨ (e = (recorded cs).length ∧ SilentFrom cs act s) := by
    intro s e
    rw [closedBy_concat, closesSeg_addAct_iff]
  -- The last start decides whether the open segment is closed.
  have : DecidablePred (SilentFrom cs act) := Classical.decPred _
  have hstep := h.step_close hnew (fun f hf => Nat.le_of_lt hf.lt_length)
    (fun s e hC => Nat.le_of_lt (closedBy_lt hC))
    (by
      intro s hsilent
      have := hsilent.long
      omega)
  obtain ⟨hop, _⟩ | ⟨hcl, hsts, hends⟩ | ⟨_, hncl, hsts, hends⟩ := a.addAct_segs (decision act)
  . exact absurd ((opens_iff hacts).mp hop).1 hopens
  . rw [if_pos ((closes_iff hacts).mp hcl)] at hstep
    rw [hsts, hends, hlen]
    exact hstep
  . rw [if_neg fun hcl => hncl ((closes_iff hacts).mpr hcl)] at hstep
    rw [hsts, hends]
    exact hstep

theorem greedy_addAct (act : Bool) (hacts : a.acts = (recorded cs).map decision)
    (h : Greedy (WindowOpens (recorded cs)) (ClosedBy busy cs) (fun _ => True) a.segSts a.segEnds)
    : Greedy (WindowOpens (recorded (cs ++ [.addAct act]))) (ClosedBy busy (cs ++ [.addAct act]))
        (fun _ => True) (a.addAct (decision act)).segSts (a.addAct (decision act)).segEnds := by
  rw [recorded_concat]
  -- A window with enough active frames to open a segment is not silent, so the call does only one of both.
  by_cases hopens : WindowOpens (recorded cs ++ [act]) (recorded cs).length
  . rw [closedBy_of_opens hopens]
    exact greedy_addAct_open hacts h hopens
  . have hsame : WindowOpens (recorded cs ++ [act]) = WindowOpens (recorded cs) := by
      funext f
      rw [windowOpens_concat, eq_iff_iff]
      simp [hopens]
    rw [hsame]
    exact greedy_addAct_shut hacts h hopens

end AddAct

variable {r : Rounding}

structure BusyFrom (busy : List Bool → Nat → Nat → Prop) (cs : List Call) (s : Nat) : Prop where
  long : s + 100 < (recorded cs).length
  active : busy (recorded cs) s ((recorded cs).length - 1)

theorem closesSeg_end_iff {cs : List Call} (s e : Nat)
    : Call.end_.ClosesSeg busy cs s e
      ↔
      e = (recorded cs).length - 1 ∧ BusyFrom busy cs s := by
  constructor
  . rintro ⟨heq, hlong, hactive⟩
    have he : e = (recorded cs).length - 1 := by omega
    rw [he] at hactive
    exact ⟨he, by omega, hactive⟩
  . rintro ⟨rfl, hlong, hactive⟩
    exact ⟨by omega, by omega, hactive⟩

theorem endCloses_iff {cs : List Call} {a : Acts}
    (hbusy : ∀ ds s e, s < e → (busy ds s e ↔ 1 / 2 < percent r (ds.map decision) s e))
    (hacts : a.acts = (recorded cs).map decision)
    : a.EndCloses r
      ↔
      a.segSts.length = a.segEnds.length + 1 ∧ ∀ s ∈ a.segSts.getLast?, BusyFrom busy cs s := by
  have hlen : a.acts.length = (recorded cs).length := by simp [hacts]
  have hpercent : ∀ s, s + 100 < (recorded cs).length →
      (busy (recorded cs) s ((recorded cs).length - 1)
        ↔ 1 / 2 < a.actPercent r s (a.acts.length - 1)) := by
    intro s hs
    unfold actPercent
    rw [hbusy _ _ _ (by omega), hlen, hacts]
  constructor
  . intro hcl
    have hlong := hcl.long
    rw [hlen] at hlong
    refine ⟨hcl.one_open, ?_⟩
    rw [forall_getLast?_iff (ne_nil_of_open hcl.one_open)]
    exact ⟨hlong, (hpercent _ hlong).mpr hcl.active⟩
  . rintro ⟨hone, hlast⟩
    have hfrom := (forall_getLast?_iff (ne_nil_of_open hone)).mp hlast
    exact ⟨hone, by rw [hlen]; exact hfrom.long, (hpercent _ hfrom.long).mp hfrom.active⟩

theorem greedy_end {cs : List Call} {a : Acts}
    (hbusy : ∀ ds s e, s < e → (busy ds s e ↔ 1 / 2 < percent r (ds.map decision) s e))
    (hacts : a.acts = (recorded cs).map decision)
    (h : Greedy (WindowOpens (recorded cs)) (ClosedBy busy cs) (fun _ => True) a.segSts a.segEnds)
    : Greedy (WindowOpens (recorded (cs ++ [.end_]))) (ClosedBy busy (cs ++ [.end_]))
        (fun _ => True) (a.end_ r).segSts (a.end_ r).segEnds := by
  have hlen : a.acts.length = (recorded cs).length := by simp [hacts]
  have hrec : recorded (cs ++ [.end_]) = recorded cs := by
    rw [recorded_append]
    simp [recorded]
  have hnew : ∀ s e, ClosedBy busy (cs ++ [.end_]) s e
      ↔ ClosedBy busy cs s e ∨ (e = (recorded cs).length - 1 ∧ BusyFrom busy cs s) := by
    intro s e
    rw [closedBy_concat, closesSeg_end_iff]
  have : DecidablePred (BusyFrom busy cs) := Classical.decPred _
  have hstep := h.step_close hnew (fun f hf => Nat.le_sub_one_of_lt hf.lt_length)
    (fun s e hC => Nat.le_sub_one_of_lt (closedBy_lt hC))
    (by
      intro s hfrom
      have := hfrom.long
      omega)
  rw [hrec, end_segSts]
  obtain ⟨hcl, hends⟩ | ⟨hncl, hends⟩ := a.end_segEnds r
  . rw [if_pos ((endCloses_iff hbusy hacts).mp hcl)] at hstep
    rw [hends, hlen]
    exact hstep
  . rw [if_neg fun hcl => hncl ((endCloses_iff hbusy hacts).mpr hcl)] at hstep
    rw [hends]
    exact hstep

theorem run_greedy
    (hbusy : ∀ ds s e, s < e → (busy ds s e ↔ 1 / 2 < percent r (ds.map decision) s e))
    (cs : List Call)
    : Greedy (WindowOpens (recorded cs)) (ClosedBy busy cs) (fun _ => True)
        ((calls r).run cs).segSts ((calls r).run cs).segEnds := by
  induction cs using List.reverseRecOn with
  | nil =>
    apply Greedy.idle
    intro f _ hf
    have := hf.lt_length
    simp [recorded] at this
  | append_singleton cs c ih =>
    rw [Machine.run_concat]
    cases c with
    | addAct act => exact greedy_addAct act (run_acts r cs) ih
    | end_ => exact greedy_end hbusy (run_acts r cs) ih

end Calls

theorem mostActive_iff (ds : List Bool) (s e : Nat) (h : s < e)
    : MostActive ds s e ↔ 1 / 2 < percent .exact (ds.map decision) s e := by
  have hpos : (0 : ℚ) < (e : ℚ) - s := by
    have : (s : ℚ) < e := by exact_mod_cast h
    linarith
  have hcast : ((e - s : Nat) : ℚ) = (e : ℚ) - s := by
    push_cast [Nat.le_of_lt h]
    rfl
  unfold MostActive percent
  simp only [Rounding.exact_float]
  rw [actSum_decision, lt_div_iff₀ hpos, ← hcast]
  constructor
  . intro hlt
    have : ((e - s : Nat) : ℚ) < 2 * nactive ds s e := by exact_mod_cast hlt
    push_cast
    linarith
  . intro hlt
    push_cast at hlt
    have : ((e - s : Nat) : ℚ) < 2 * nactive ds s e := by linarith
    exact_mod_cast this

theorem segments_eq_greedy (cs : List Call)
    : let a := (calls .exact).run cs
      let ds := recorded cs
      a.acts = ds.map decision
        ∧ (∀ sts ends,
            Greedy (WindowOpens ds) (ClosedBy MostActive cs) (fun _ => True) sts ends
              ↔
            sts = a.segSts ∧ ends = a.segEnds)
        ∧ (∀ i s e : Nat, a.segSts[i]? = some s → a.segEnds[i]? = some e →
            s + 100 ≤ e
              ∧ ∃ (pre : List Call) (c : Call),
                  pre ++ [c] <+: cs
                    ∧ c.ClosesSeg MostActive pre s e
                    ∧ ∀ pre' c' e', pre' ++ [c'] <+: pre → ¬c'.ClosesSeg MostActive pre' s e')
        ∧ (∀ i e s : Nat, a.segEnds[i]? = some e → a.segSts[i + 1]? = some s → e < s)
        ∧ (a.segSts.length = a.segEnds.length ∨ a.segSts.length = a.segEnds.length + 1)
        ∧ (∀ s ∈ a.segSts, s < ds.length)
        ∧ (∀ e ∈ a.segEnds, e < ds.length) := by
  intro a ds
  have h : Greedy (WindowOpens ds) (ClosedBy MostActive cs) (fun _ => True) a.segSts a.segEnds :=
    run_greedy mostActive_iff cs
  refine ⟨run_acts .exact cs, ?_, ?_, h.alternating, ?_, ?_, ?_⟩
  . intro sts ends
    constructor
    . intro h'
      exact h.unique h'
    . rintro ⟨rfl, rfl⟩
      exact h
  . intro i s e hst hend
    have hleast := h.isLeast_end i s e hst hend
    obtain ⟨pre, c, hpre, hc, hfirst⟩ := firstClose_of_isLeast hleast
    exact ⟨closesSeg_lt hc, pre, c, hpre, hc, hfirst⟩
  . have := h.length_le
    omega
  . intro s hs
    exact (h.mem_starts s hs).lt_length
  . intro e he
    obtain ⟨i, s, hst, hend⟩ := h.exists_start he
    exact closedBy_lt (h.isLeast_end i s e hst hend).1.2

end Acts
