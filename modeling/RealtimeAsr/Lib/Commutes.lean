import RealtimeAsr.Lib.Prog

/-!
This module contains programs that commute with a change of the state: what they return and whether
they throw does not depend on the part of the state that the change is about, and they keep that part.
-/

namespace Prog

variable {σ α β : Type}

def Commutes (g : σ → σ) (x : Prog σ α) : Prop :=
  ∀ s, x (g s) = ((x s).1, g (x s).2)

namespace Commutes

variable {g : σ → σ}

theorem pure (a : α) : Commutes g (Pure.pure a) := by
  intro s
  rfl

theorem throw : Commutes g (Prog.throw : Prog σ α) := by
  intro s
  rfl

theorem modify {f : σ → σ} (h : ∀ s, f (g s) = g (f s)) : Commutes g (Prog.modify f) := by
  intro s
  rw [modify_apply, modify_apply, h]

theorem bind {x : Prog σ α} {f : α → Prog σ β} (hx : Commutes g x) (hf : ∀ a, Commutes g (f a))
    : Commutes g (x >>= f) := by
  intro s
  rw [bind_apply, bind_apply, hx s]
  cases x s with
  | mk res s' =>
    cases res with
    | some a => exact hf a s'
    | none => rfl

theorem get_bind {f : σ → Prog σ β} (hsame : ∀ s, f (g s) = f s) (hf : ∀ s, Commutes g (f s))
    : Commutes g (Prog.get >>= f) := by
  intro s
  rw [get_bind_apply, get_bind_apply, hsame]
  exact hf s s

theorem ite {c : Prop} [Decidable c] {x y : Prog σ α} (hx : Commutes g x) (hy : Commutes g y)
    : Commutes g (if c then x else y) := by
  split
  . exact hx
  . exact hy

end Commutes

theorem forRange_empty {lo hi : Nat} (h : hi ≤ lo) (body : Nat → Prog σ Unit)
    : forRange lo hi body = pure () := by
  unfold forRange
  rw [Nat.sub_eq_zero_of_le h]
  rfl

end Prog
