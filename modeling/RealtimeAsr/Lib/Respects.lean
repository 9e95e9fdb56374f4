import RealtimeAsr.Lib.Commutes

/-!
This module contains programs that respect a relation between states: from related states they return
the same or throw both, and leave related states behind.
-/

namespace Prog

variable {σ α β : Type}

def Respects (R : σ → σ → Prop) (x : Prog σ α) : Prop :=
  ∀ s t, R s t → (x s).1 = (x t).1 ∧ R (x s).2 (x t).2

theorem commutes_of_respects {g : σ → σ} {x : Prog σ α} (h : Respects (fun s t => t = g s) x)
    : Commutes g x := by
  intro s
  obtain ⟨hres, hstate⟩ := h s (g s) rfl
  rw [hres, ← hstate]

theorem keeps_of_respects {I : σ → Prop} {x : Prog σ α} (h : Respects (fun s t => s = t ∧ I s) x)
    : Keeps I x := by
  intro s hs
  have hstate := (h s s ⟨rfl, hs⟩).2.2
  revert hstate
  generalize x s = r
  obtain ⟨_ | _, s'⟩ := r
  . exact id
  . exact id

namespace Respects

variable {R : σ → σ → Prop}

theorem pure (a : α) : Respects R (Pure.pure a) :=
  fun _ _ h => ⟨rfl, h⟩

theorem throw : Respects R (Prog.throw : Prog σ α) :=
  fun _ _ h => ⟨rfl, h⟩

theorem modify {f : σ → σ} (hf : ∀ s t, R s t → R (f s) (f t)) : Respects R (Prog.modify f) :=
  fun s t h => ⟨rfl, hf s t h⟩

theorem bind {x : Prog σ α} {f : α → Prog σ β} (hx : Respects R x) (hf : ∀ a, Respects R (f a))
    : Respects R (x >>= f) := by
  intro s t h
  obtain ⟨hres, hstate⟩ := hx s t h
  rw [bind_apply, bind_apply]
  revert hres hstate
  generalize x s = rs
  generalize x t = rt
  obtain ⟨r, s'⟩ := rs
  obtain ⟨r', t'⟩ := rt
  rintro rfl hstate
  cases r with
  | some a => exact hf a s' t' hstate
  | none => exact ⟨rfl, hstate⟩

theorem get_bind {f : σ → Prog σ β} (hsame : ∀ s t, R s t → f s = f t) (hf : ∀ s, Respects R (f s))
    : Respects R (Prog.get >>= f) := by
  intro s t h
  rw [get_bind_apply, get_bind_apply, ← hsame s t h]
  exact hf s s t h

theorem ite {c : Prop} [Decidable c] {x y : Prog σ α} (hx : Respects R x) (hy : Respects R y)
    : Respects R (if c then x else y) := by
  split
  . exact hx
  . exact hy

theorem forRange {lo hi : Nat} {body : Nat → Prog σ Unit} (h : ∀ i, Respects R (body i))
    : Respects R (Prog.forRange lo hi body) := by
  unfold Prog.forRange
  generalize hi - lo = n
  induction n generalizing lo with
  | zero => exact pure ()
  | succ n ih => exact bind (h lo) fun _ => ih

end Respects

end Prog
