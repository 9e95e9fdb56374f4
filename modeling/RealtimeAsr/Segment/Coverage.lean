import RealtimeAsr.Segment.Greedy
import RealtimeAsr.Segment.Paired

/-!
This module shows that a long block of active frames lies in a segment, up to the frames before the
first window that the block fills.
-/

namespace Acts

structure Block (ds : List Int) (st en : Nat) : Prop where
  le : st ≤ en
  active : ∀ f, st ≤ f → f ≤ en → ds[f]? = some 1

theorem Block.lt_length {ds : List Int} {st en : Nat} (h : Block ds st en) : en < ds.length := by
  have hlast := h.active en h.le (le_refl en)
  rw [List.getElem?_eq_some_iff] at hlast
  exact hlast.1

theorem map_decision_eq_one {ds : List Int} (h : ∀ d ∈ ds, d = 0 ∨ d = 1)
    : (ds.map (· == 1)).map decision = ds := by
  rw [List.map_map]
  conv =>
    rhs
    rw [← List.map_id ds]
  apply List.map_congr_left
  intro d hd
  cases h d hd with
  | inl h0 =>
    rw [h0]
    rfl
  | inr h1 =>
    rw [h1]
    rfl

def fed (ds : List Bool) : List Call :=
  ds.map .addAct

theorem recorded_fed (ds : List Bool) : recorded (fed ds) = ds := by
  induction ds with
  | nil => rfl
  | cons d ds ih =>
    show d :: recorded (fed ds) = d :: ds
    rw [ih]

theorem run_fed (r : Rounding) (ds : List Bool)
    : (calls r).run (fed ds) = ({} : Acts).feed (ds.map decision) := by
  induction ds using List.reverseRecOn with
  | nil => rfl
  | append_singleton ds d ih =>
    have hfed : fed (ds ++ [d]) = fed ds ++ [.addAct d] := by simp [fed]
    have hmap : (ds ++ [d]).map decision = ds.map decision ++ [decision d] := by simp
    rw [hfed, hmap, Machine.run_concat, feed_concat, ← ih]
    rfl

theorem run_fed_end (r : Rounding) (ds : List Bool)
    : (calls r).run (fed ds ++ [.end_]) = (({} : Acts).feed (ds.map decision)).end_ r := by
  rw [Machine.run_concat, run_fed]
  rfl

theorem recorded_fed_end (ds : List Bool) : recorded (fed ds ++ [.end_]) = ds := by
  rw [recorded_append, recorded_fed]
  simp [recorded]

theorem nactive_pos {ds : List Bool} {st en f : Nat} (hst : st ≤ f) (hen : f < en)
    (hf : ds[f]? = some true)
    : 0 < nactive ds st en := by
  unfold nactive
  rw [List.count_pos_iff, List.mem_iff_getElem?]
  refine ⟨f - st, ?_⟩
  rw [List.getElem?_take_of_lt (by omega), List.getElem?_drop, Nat.add_sub_of_le hst]
  exact hf

theorem nactive_full {ds : List Bool} {st en : Nat}
    (hactive : ∀ f, st ≤ f → f < en → ds[f]? = some true)
    : nactive ds st en = en - st := by
  have hall : ∀ d ∈ (ds.drop st).take (en - st), true = d := by
    intro d hd
    obtain ⟨i, hi⟩ := List.mem_iff_getElem?.mp hd
    have hlt : i < en - st := by
      have := (List.getElem?_eq_some_iff.mp hi).1
      rw [List.length_take] at this
      omega
    rw [List.getElem?_take_of_lt hlt, List.getElem?_drop,
      hactive (st + i) (by omega) (by omega)] at hi
    exact Option.some.inj hi
  have hlen : en - st ≤ (ds.drop st).length := by
    by_cases hlt : st < en
    . have := (List.getElem?_eq_some_iff.mp (hactive (en - 1) (by omega) (by omega))).1
      rw [List.length_drop]
      omega
    . omega
  unfold nactive
  rw [List.count_eq_length.mpr hall, List.length_take, Nat.min_eq_left hlen]

theorem block_opens {ds : List Bool} {st en : Nat} (hlong : st + 30 ≤ en)
    (hactive : ∀ f, st ≤ f → f ≤ en → ds[f]? = some true)
    : ∃ f, st ≤ f ∧ f ≤ st + 28 ∧ WindowOpens ds f := by
  have hwindow : (st + 14) / window * window = st + 14 - (st + 14) % window := by
    have := Nat.div_add_mod (st + 14) window
    rw [Nat.mul_comm] at this
    omega
  have hmod : (st + 14) % window < 15 := Nat.mod_lt _ (by decide)
  refine ⟨(st + 14) / window * window + 14, by omega, by omega, ?_, ?_, ?_⟩
  . have := (List.getElem?_eq_some_iff.mp (hactive en (by omega) (le_refl en))).1
    omega
  . show ((st + 14) / window * window + 15) % window = 0
    unfold window
    omega
  . rw [nactive_full (fun f hf hlt => hactive f (by unfold window at *; omega) (by omega))]
    unfold minAct window
    omega

theorem closes_behind {busy : List Bool → Nat → Nat → Prop} {ds : List Bool} {st en f s e : Nat}
    (hen : en < ds.length) (hf : st ≤ f)
    (hactive : ∀ f, st ≤ f → f ≤ en → ds[f]? = some true) (hfe : f ≤ e)
    (hclosed : ClosedBy busy (fed ds ++ [.end_]) s e)
    : en ≤ e := by
  obtain ⟨pre, c, hpre, hc⟩ := hclosed
  cases c with
  | addAct act =>
    obtain ⟨he, _, hsilent, _⟩ := hc
    by_contra hin
    -- The window that closes the segment ends with frame `e`, which is active.
    have hprefix : recorded pre ++ [act] <+: ds := by
      obtain ⟨rest, hrest⟩ := hpre
      have hrecorded := recorded_fed_end ds
      rw [← hrest, recorded_append, recorded_append] at hrecorded
      exact ⟨recorded rest, hrecorded⟩
    have hlt : e < (recorded pre ++ [act]).length := by simp [he]
    have hframe : (recorded pre ++ [act])[e]? = some true := by
      have hds := hactive e (by omega) (by omega)
      obtain ⟨rest, hrest⟩ := hprefix
      rw [← hrest, List.getElem?_append_left hlt] at hds
      exact hds
    have hpos : 0 < nactive (recorded pre ++ [act]) (e + 1 - window) (e + 1) :=
      nactive_pos (by unfold window; omega) (by omega) hframe
    omega
  | end_ =>
    obtain ⟨he, _⟩ := hc
    rw [List.prefix_concat_iff] at hpre
    cases hpre with
    | inl heq =>
      obtain ⟨rfl, _⟩ := List.append_inj' heq rfl
      rw [recorded_fed] at he
      omega
    | inr hin =>
      -- There is no other call of `end`.
      have hmem : Call.end_ ∈ fed ds := hin.mem (by simp)
      simp [fed] at hmem

theorem block_covered (r : Rounding) {ds : List Int} (hds : ∀ d ∈ ds, d = 0 ∨ d = 1) {st en : Nat}
    (h : Block ds st en) (hlong : st + 30 ≤ en)
    : let a := (({} : Acts).feed ds).end_ r
      ∃ i s : Nat,
        a.segSts[i]? = some s
          ∧ s ≤ st + 28
          ∧ ∀ e, a.segEnds[i]? = some e → en ≤ e := by
  intro a
  have hflags := map_decision_eq_one hds
  generalize hbs : ds.map (· == 1) = bs at hflags
  have hactive : ∀ f, st ≤ f → f ≤ en → bs[f]? = some true := by
    intro f hst hen
    rw [← hbs, List.getElem?_map, h.active f hst hen]
    rfl
  have hen : en < bs.length := by
    rw [← hbs, List.length_map]
    exact h.lt_length
  have hgreedy := run_greedy (fun ds s e _ => Iff.refl (1 / 2 < percent r (ds.map decision) s e))
    (fed bs ++ [.end_])
  rw [run_fed_end, hflags, recorded_fed_end] at hgreedy
  obtain ⟨f, hst, hf, hopens⟩ := block_opens hlong hactive
  obtain ⟨i, s, hseg, hsf, hends⟩ := hgreedy.covers trivial hopens
  refine ⟨i, s, hseg, by omega, ?_⟩
  intro e he
  have hleast := hgreedy.isLeast_end i s e hseg he
  exact closes_behind hen hst hactive (hends e he) hleast.1.2

end Acts
