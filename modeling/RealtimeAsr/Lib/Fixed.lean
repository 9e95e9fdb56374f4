import Mathlib.Algebra.Ring.Nat

/-!
This module contains arrays of a fixed size whose indices are in range by their type, such that no proof of
that is a part of what is read or written.
-/

namespace Fixed

-- A literal in one of these types contains the proof that the type is not empty.
instance nonzeroTwo : NeZero 2 := ⟨Nat.succ_ne_zero 1⟩

instance nonzeroThree : NeZero 3 := ⟨Nat.succ_ne_zero 2⟩

instance nonzeroFour : NeZero 4 := ⟨Nat.succ_ne_zero 3⟩

instance nonzeroFive : NeZero 5 := ⟨Nat.succ_ne_zero 4⟩

instance nonzeroSix : NeZero 6 := ⟨Nat.succ_ne_zero 5⟩

instance nonzeroTwelve : NeZero 12 := ⟨Nat.succ_ne_zero 11⟩

end Fixed

namespace Vector

variable {α : Type} {n : Nat}

instance getElemFin : GetElem (Vector α n) (Fin n) α fun _ _ => True where
  getElem xs i _ := xs.get i

def store (xs : Vector α n) (i : Fin n) (x : α) : Vector α n :=
  xs.set i x

theorem getElem_store (xs : Vector α n) (i j : Fin n) (x : α)
    : (xs.store i x)[j] = if i = j then x else xs[j] := by
  show (xs.set i x)[j.val] = if i = j then x else xs[j.val]
  rw [Vector.getElem_set]
  simp only [Fin.ext_iff]

theorem ofFn_at (f : Fin n → α) (i : Fin n) : (Vector.ofFn f)[i] = f i :=
  Vector.getElem_ofFn i.isLt

theorem replicate_get (x : α) (i : Fin n) : (Vector.replicate n x).get i = x :=
  Vector.getElem_replicate i.isLt

end Vector
