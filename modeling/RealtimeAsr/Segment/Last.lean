import RealtimeAsr.Segment.Paired

/-!
This module contains what the flag `last` of `add_act` does: it ends a segment with a silent window,
whether one is open or not, and it ends no segment with any other frame.
-/

namespace Acts

structure Matched (a : Acts) : Prop where
  length : a.segSts.length = a.segEnds.length
  start_lt_end : ∀ i s e : Nat, a.segSts[i]? = some s → a.segEnds[i]? = some e → s < e

theorem Paired.matched {a : Acts} (h : a.Paired) (hlength : a.segSts.length = a.segEnds.length)
    : a.Matched := by
  refine ⟨hlength, ?_⟩
  intro i s e hst hend
  have hlt := h.start_lt_end i (List.getElem?_eq_some_iff.mp hend).1
  rw [List.getD_eq_getElem?_getD, hst, List.getD_eq_getElem?_getD, hend] at hlt
  exact hlt

theorem Paired.matched_addAct_last {a : Acts} (h : a.Paired) (act : Int)
    : (a.addAct act true).Matched
        ↔
      if a.segSts.length = a.segEnds.length + 1 then
        a.Silences act
      else
        ¬a.Silences act ∧ ¬a.Opens act := by
  have hlen : (a.addAct act true).acts.length = a.acts.length + 1 := by simp
  obtain ⟨hop, hsts, hends⟩ | ⟨⟨hsil, _⟩, hsts, hends⟩ | ⟨hnop, hnone, hsts, hends⟩ :=
    a.addAct_cases act true
  . have hnone := hop.none_open
    rw [if_neg (by omega)]
    constructor
    . intro hmatched
      have hlength := hmatched.length
      rw [hsts, hends, List.length_append, List.length_singleton] at hlength
      omega
    . rintro ⟨_, hnop⟩
      exact absurd hop hnop
  . split
    . next hone =>
      have hlt : a.segSts.getLastD 0 < a.acts.length := by
        rw [getLastD_eq_getD hone]
        exact h.start_lt_length (by omega)
      have hpaired : (a.addAct act true).Paired :=
        h.closes hone (by omega) hsts hends hlt (by omega)
      constructor
      . intro _
        exact hsil
      . intro _
        apply hpaired.matched
        rw [hsts, hends, List.length_append, List.length_singleton]
        exact hone
    . next hnone =>
      constructor
      . intro hmatched
        have hlength := hmatched.length
        have hpaired := h.length
        rw [hsts, hends, List.length_append, List.length_singleton] at hlength
        omega
      . rintro ⟨hnsil, _⟩
        exact absurd hsil hnsil
  . have hpaired : (a.addAct act true).Paired := h.keeps (by omega) hsts hends
    have hnsil : ¬a.Silences act := fun hsil => hnone ⟨hsil, Or.inr rfl⟩
    split
    . next hone =>
      constructor
      . intro hmatched
        have hlength := hmatched.length
        rw [hsts, hends] at hlength
        omega
      . intro hsil
        exact absurd hsil hnsil
    . next hnone =>
      constructor
      . intro _
        exact ⟨hnsil, hnop⟩
      . intro _
        apply hpaired.matched
        have hlength := h.length
        rw [hsts, hends]
        omega

/--
A final `add_act` with `last` matches the ends with the starts if and only if it completes a silent
window while a segment is open, or completes neither a silent nor an active window while none is.
-/
theorem matched_last_iff (ds : List Int) (act : Int)
    : let a : Acts := ({} : Acts).feed ds
      (a.addAct act true).Matched
        ↔
      if a.segSts.length = a.segEnds.length + 1 then
        a.Silences act
      else
        ¬a.Silences act
          ∧ ¬(Completes a.acts.length ∧ minAct ≤ nacts (a.acts ++ [act]) (a.acts.length + 1 - window)) := by
  intro a
  have hpaired : a.Paired := Paired.empty.feed ds
  rw [hpaired.matched_addAct_last act]
  split
  . rfl
  . next hnone =>
    have hopens : a.Opens act
        ↔ Completes a.acts.length ∧ minAct ≤ nacts (a.acts ++ [act]) (a.acts.length + 1 - window) := by
      constructor
      . intro hop
        exact ⟨hop.completes, hop.active⟩
      . rintro ⟨hcompletes, hactive⟩
        have hlength := hpaired.length
        exact ⟨hcompletes, hactive, by omega⟩
    rw [hopens]

theorem last_not_matched
    : let a := ({} : Acts).feed (List.replicate 14 0)
      let b := ({} : Acts).feed (List.replicate 15 1)
      ¬(a.addAct 0 true).Matched ∧ ¬(b.addAct 0 true).Matched := by
  intro a b
  constructor
  . intro h
    have hlength := h.length
    revert hlength
    decide
  . intro h
    have hlength := h.length
    revert hlength
    decide

end Acts
