import Mathlib.Order.Basic

/-!
This module contains a small program logic for imperative code that works on a state and may throw.
A throwing program keeps the state changes it made before the exception, as C++ code does.
-/

/--
A program over the state `σ`: it returns a value or throws (`none`), and leaves a state either way.
-/
def Prog (σ α : Type) : Type :=
  σ → Option α × σ

namespace Prog

variable {σ α β : Type}

instance : Monad (Prog σ) where
  pure a := fun s => (some a, s)
  bind x f := fun s =>
    match x s with
    | (some a, s') => f a s'
    | (none, s') => (none, s')

def get : Prog σ σ := fun s => (some s, s)

def modify (f : σ → σ) : Prog σ Unit := fun s => (some (), f s)

def throw : Prog σ α := fun s => (none, s)

/--
The loop `for (int i = lo; i < hi; i++) body(i)`.
-/
def forRange (lo hi : Nat) (body : Nat → Prog σ Unit) : Prog σ Unit :=
  go (hi - lo) lo
where
  go : Nat → Nat → Prog σ Unit
    | 0, _ => pure ()
    | n + 1, i => do
      body i
      go n (i + 1)

section Apply

variable (s : σ)

@[simp]
theorem modify_apply (f : σ → σ) : modify f s = (some (), f s) := rfl

theorem bind_apply (x : Prog σ α) (f : α → Prog σ β)
    : (x >>= f) s
        =
      match x s with
      | (some a, s') => f a s'
      | (none, s') => (none, s') := rfl

@[simp]
theorem get_bind_apply (f : σ → Prog σ β) : (get >>= f) s = f s s := rfl

@[simp]
theorem modify_bind_apply (g : σ → σ) (f : Unit → Prog σ β)
    : (modify g >>= f) s = f () (g s) := rfl

theorem ite_apply (c : Prop) [Decidable c] (x y : Prog σ α)
    : (if c then x else y) s = if c then x s else y s := by
  split
  . rfl
  . rfl

end Apply

/--
Run from a state in `P`, the program `x` returns in `Q` or throws in `E`.
-/
def Triple (P : σ → Prop) (x : Prog σ α) (Q : α → σ → Prop) (E : σ → Prop) : Prop :=
  ∀ s, P s →
    match x s with
    | (some a, s') => Q a s'
    | (none, s') => E s'

abbrev Keeps (I : σ → Prop) (x : Prog σ α) : Prop :=
  Triple I x (fun _ => I) I

namespace Triple

variable {P P' : σ → Prop} {Q Q' : α → σ → Prop} {R : β → σ → Prop} {E E' : σ → Prop}

theorem pure {a : α} (h : ∀ s, P s → Q a s) : Triple P (Pure.pure a) Q E := by
  intro s hs
  exact h s hs

theorem throw (h : ∀ s, P s → E s) : Triple P (Prog.throw : Prog σ α) Q E := by
  intro s hs
  exact h s hs

theorem modify {f : σ → σ} {Q : Unit → σ → Prop} (h : ∀ s, P s → Q () (f s))
    : Triple P (Prog.modify f) Q E := by
  intro s hs
  exact h s hs

theorem bind {x : Prog σ α} {f : α → Prog σ β} (hx : Triple P x Q E)
    (hf : ∀ a, Triple (Q a) (f a) R E)
    : Triple P (x >>= f) R E := by
  intro s hs
  have hx := hx s hs
  show match (match x s with
    | (some a, s') => f a s'
    | (none, s') => (none, s')) with
    | (some b, s') => R b s'
    | (none, s') => E s'
  split at hx
  . next a s' heq => exact hf a s' hx
  . next s' heq => exact hx

theorem get_bind {f : σ → Prog σ β} (hf : ∀ s₀, P s₀ → Triple (fun s => s = s₀) (f s₀) R E)
    : Triple P (Prog.get >>= f) R E := by
  intro s hs
  exact hf s hs s rfl

theorem ite {c : Prop} [Decidable c] {x y : Prog σ α}
    (hx : c → Triple P x Q E) (hy : ¬c → Triple P y Q E)
    : Triple P (if c then x else y) Q E := by
  split
  . next h => exact hx h
  . next h => exact hy h

theorem conseq {x : Prog σ α} (h : Triple P x Q E) (hP : ∀ s, P' s → P s)
    (hQ : ∀ a s, Q a s → Q' a s) (hE : ∀ s, E s → E' s)
    : Triple P' x Q' E' := by
  intro s hs
  have h := h s (hP s hs)
  split at h
  . next heq => exact hQ _ _ h
  . next heq => exact hE _ h

theorem pre {x : Prog σ α} (h : Triple P x Q E) (hP : ∀ s, P' s → P s) : Triple P' x Q E :=
  h.conseq hP (fun _ _ hs => hs) (fun _ hs => hs)

theorem post {x : Prog σ α} (h : Triple P x Q E) (hQ : ∀ a s, Q a s → Q' a s) : Triple P x Q' E :=
  h.conseq (fun _ hs => hs) hQ (fun _ hs => hs)

theorem throws {x : Prog σ α} (h : Triple P x Q E) (hE : ∀ s, E s → E' s) : Triple P x Q E' :=
  h.conseq (fun _ hs => hs) (fun _ _ hs => hs) hE

-- Whether the program returns or throws, this is the state it leaves.
theorem leaves {x : Prog σ α} {I : σ → Prop} (h : Triple P x (fun _ => I) I) {s : σ} (hs : P s)
    : I (x s).2 := by
  have h := h s hs
  split at h
  . next heq =>
    rw [heq]
    exact h
  . next heq =>
    rw [heq]
    exact h

theorem and {x : Prog σ α} (h : Triple P x Q E) (h' : Triple P' x Q' E')
    : Triple (fun s => P s ∧ P' s) x (fun a s => Q a s ∧ Q' a s) (fun s => E s ∧ E' s) := by
  rintro s ⟨hs, hs'⟩
  have h := h s hs
  have h' := h' s hs'
  split at h
  . next heq =>
    rw [heq] at h'
    exact ⟨h, h'⟩
  . next heq =>
    rw [heq] at h'
    exact ⟨h, h'⟩

theorem forRange.go {I : Nat → σ → Prop} {body : Nat → Prog σ Unit} (n i : Nat)
    (h : ∀ k, i ≤ k → k < i + n → Triple (I k) (body k) (fun _ => I (k + 1)) E)
    : Triple (I i) (Prog.forRange.go body n i) (fun _ => I (i + n)) E := by
  induction n generalizing i with
  | zero =>
    apply Triple.pure
    intro s hs
    exact hs
  | succ n ih =>
    apply Triple.bind
    . apply h
      . omega
      . omega
    . intro _
      have : i + (n + 1) = (i + 1) + n := by omega
      rw [this]
      apply ih
      intro k hk1 hk2
      apply h
      . omega
      . omega

theorem forRange {I : Nat → σ → Prop} {body : Nat → Prog σ Unit} {lo hi : Nat} (hle : lo ≤ hi)
    (h : ∀ k, lo ≤ k → k < hi → Triple (I k) (body k) (fun _ => I (k + 1)) E)
    : Triple (I lo) (Prog.forRange lo hi body) (fun _ => I hi) E := by
  have hhi : hi = lo + (hi - lo) := by omega
  have hgo : Triple (I lo) (Prog.forRange.go body (hi - lo) lo) (fun _ => I (lo + (hi - lo))) E := by
    apply forRange.go
    intro k hk1 hk2
    apply h k hk1
    omega
  rw [← hhi] at hgo
  exact hgo

theorem loop {body : Nat → Prog σ Unit} {lo hi : Nat}
    (h : ∀ k, lo ≤ k → k < hi → Triple P (body k) (fun _ => P) E)
    : Triple P (Prog.forRange lo hi body) (fun _ => P) E := by
  by_cases hle : lo ≤ hi
  . exact forRange (I := fun _ => P) hle h
  . unfold Prog.forRange
    rw [Nat.sub_eq_zero_of_le (Nat.le_of_not_le hle)]
    exact Triple.pure fun _ hs => hs

end Triple

end Prog
