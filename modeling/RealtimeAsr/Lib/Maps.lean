import RealtimeAsr.Lib.Prog

/-!
This module contains pairs of programs over two types of states that do the same under a map between the
states.
-/

namespace Prog

variable {σ τ α β : Type}

/--
From the image of a state, `y` returns what `x` returns or throws as it does, and leaves the image of the
state that `x` leaves.
-/
def Maps (g : σ → τ) (x : Prog σ α) (y : Prog τ α) : Prop :=
  ∀ s, y (g s) = ((x s).1, g (x s).2)

namespace Maps

variable {g : σ → τ}

theorem pure (a : α) : Maps g (Pure.pure a) (Pure.pure a) := by
  intro s
  rfl

theorem throw : Maps g (Prog.throw : Prog σ α) Prog.throw := by
  intro s
  rfl

theorem modify {f : σ → σ} {f' : τ → τ} (h : ∀ s, f' (g s) = g (f s))
    : Maps g (Prog.modify f) (Prog.modify f') := by
  intro s
  rw [modify_apply, modify_apply, h]

theorem bind {x : Prog σ α} {y : Prog τ α} {f : α → Prog σ β} {f' : α → Prog τ β} (hx : Maps g x y)
    (hf : ∀ a, Maps g (f a) (f' a))
    : Maps g (x >>= f) (y >>= f') := by
  intro s
  rw [bind_apply, bind_apply, hx s]
  cases x s with
  | mk res s' =>
    cases res with
    | some a => exact hf a s'
    | none => rfl

theorem get_bind {f : σ → Prog σ β} {f' : τ → Prog τ β} (h : ∀ s, Maps g (f s) (f' (g s)))
    : Maps g (Prog.get >>= f) (Prog.get >>= f') := by
  intro s
  rw [get_bind_apply, get_bind_apply]
  exact h s s

theorem ite {c : Prop} [Decidable c] {x x' : Prog σ α} {y y' : Prog τ α} (hx : Maps g x y)
    (hx' : Maps g x' y')
    : Maps g (if c then x else x') (if c then y else y') := by
  split
  . exact hx
  . exact hx'

theorem forRange {lo hi : Nat} {body : Nat → Prog σ Unit} {body' : Nat → Prog τ Unit}
    (h : ∀ i, Maps g (body i) (body' i))
    : Maps g (Prog.forRange lo hi body) (Prog.forRange lo hi body') := by
  unfold Prog.forRange
  generalize hi - lo = n
  induction n generalizing lo with
  | zero => exact pure ()
  | succ n ih => exact bind (h lo) fun _ => ih

end Maps

end Prog
