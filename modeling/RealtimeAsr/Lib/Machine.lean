import Mathlib.Data.List.Induction

/-!
This module contains runs of deterministic machines that are driven by a list of events, and the
induction principles for what holds after every run.
-/

structure Machine (σ ε : Type) where
  init : σ
  step : σ → ε → σ

namespace Machine

variable {σ ε : Type} (m : Machine σ ε)

def runFrom (s : σ) (es : List ε) : σ :=
  es.foldl m.step s

def run (es : List ε) : σ :=
  m.runFrom m.init es

@[simp]
theorem runFrom_nil (s : σ) : m.runFrom s [] = s := rfl

@[simp]
theorem runFrom_cons (s : σ) (e : ε) (es : List ε)
    : m.runFrom s (e :: es) = m.runFrom (m.step s e) es := rfl

theorem runFrom_append (s : σ) (es fs : List ε)
    : m.runFrom s (es ++ fs) = m.runFrom (m.runFrom s es) fs := by
  unfold runFrom
  rw [List.foldl_append]

@[simp]
theorem run_nil : m.run [] = m.init := rfl

theorem run_append (es fs : List ε) : m.run (es ++ fs) = m.runFrom (m.run es) fs := by
  apply runFrom_append

@[simp]
theorem run_concat (es : List ε) (e : ε) : m.run (es ++ [e]) = m.step (m.run es) e := by
  rw [run_append]
  rfl

theorem runFrom_invariant {I : σ → Prop} (hstep : ∀ s e, I s → I (m.step s e)) (s : σ) (hs : I s)
    (es : List ε)
    : I (m.runFrom s es) := by
  induction es generalizing s with
  | nil => exact hs
  | cons e es ih =>
    rw [runFrom_cons]
    apply ih
    apply hstep
    exact hs

theorem run_invariant {I : σ → Prop} (hinit : I m.init) (hstep : ∀ s e, I s → I (m.step s e))
    (es : List ε)
    : I (m.run es) :=
  m.runFrom_invariant hstep m.init hinit es

end Machine
