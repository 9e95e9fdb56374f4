import Mathlib.Data.List.Basic

/-!
This module contains allocated blocks of items behind a pointer that may be `NULL`. A load or a store
outside of the block is undefined and gives `none`.
-/

abbrev Block (α : Type) : Type := Option (List α)

namespace Block

variable {α : Type}

def load (p : Block α) (i : Int) : Option α :=
  match p with
  | some xs => if 0 ≤ i then xs[i.toNat]? else none
  | none => none

def store (p : Block α) (i : Int) (x : α) : Option (Block α) :=
  match p with
  | some xs => if 0 ≤ i ∧ i < xs.length then some (some (xs.set i.toNat x)) else none
  | none => none

def calloc (n : Nat) (zero : α) : Block α :=
  some (List.replicate n zero)

/--
An outcome is `none` when the allocation fails, and else what the part that is new contains.
-/
def realloc (p : Block α) (n : Nat) (outcome : Option (Nat → α)) : Block α :=
  outcome.map fun fresh => (List.range n).map fun (i : Nat) => (p.load i).getD (fresh i)

def Holds (p : Block α) (n : Nat) : Prop :=
  ∃ xs, p = some xs ∧ n ≤ xs.length

theorem holds_calloc (n : Nat) (zero : α) : (calloc n zero).Holds n :=
  ⟨_, rfl, by simp⟩

theorem Holds.load {p : Block α} {n : Nat} (h : p.Holds n) {i : Int} (hnonneg : 0 ≤ i) (hi : i < n)
    : ∃ x, p.load i = some x := by
  obtain ⟨xs, rfl, hn⟩ := h
  simp only [Block.load, if_pos hnonneg]
  exact ⟨xs[i.toNat], List.getElem?_eq_getElem (by omega)⟩

theorem Holds.store {p : Block α} {n : Nat} (h : p.Holds n) {i : Nat} (hi : i < n) (x : α)
    : ∃ p', p.store i x = some p'
        ∧ p'.Holds n
        ∧ p'.load i = some x
        ∧ ∀ j : Nat, j ≠ i → p'.load j = p.load j := by
  obtain ⟨xs, rfl, hn⟩ := h
  have hin : (0 : Int) ≤ i ∧ (i : Int) < xs.length := by omega
  refine ⟨some (xs.set i x), ?_, ⟨_, rfl, by simpa using hn⟩, ?_, ?_⟩
  . simp only [Block.store]
    rw [if_pos hin, Int.toNat_natCast]
  . simp only [Block.load, Int.natCast_nonneg, if_true, Int.toNat_natCast]
    rw [List.getElem?_set_self (by omega)]
  . intro j hj
    simp only [Block.load, Int.natCast_nonneg, if_true, Int.toNat_natCast]
    rw [List.getElem?_set_ne (by omega)]

theorem Holds.of_store {p p' : Block α} {n : Nat} (h : p.Holds n) {i : Int} {x : α}
    (hstore : p.store i x = some p')
    : p'.Holds n := by
  obtain ⟨xs, rfl, hn⟩ := h
  simp only [Block.store] at hstore
  split at hstore
  . rw [← Option.some.inj hstore]
    exact ⟨_, rfl, by simpa using hn⟩
  . contradiction

theorem holds_realloc (p : Block α) (n : Nat) (fresh : Nat → α)
    : (p.realloc n (some fresh)).Holds n :=
  ⟨_, rfl, by simp⟩

theorem load_realloc {p : Block α} {m n i : Nat} (h : p.Holds m) (hm : i < m) (hn : i < n)
    (fresh : Nat → α)
    : (p.realloc n (some fresh)).load i = p.load i := by
  obtain ⟨x, hx⟩ := h.load (Int.natCast_nonneg i) (by omega)
  have hentry : (p.realloc n (some fresh)).load i = some ((p.load i).getD (fresh i)) := by
    simp [realloc, Block.load, List.getElem?_range hn]
  rw [hentry, hx, Option.getD_some]

end Block
