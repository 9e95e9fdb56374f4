import Mathlib.Data.List.Induction

/-!
This module contains detectors with a hangover: what is detected is held for a while, and for a longer
while where it was detected many times in a row.
-/

namespace Hangover

/--
One item of the input: whether something is detected there, and how long it is held.
-/
structure Item where
  active : Bool
  short : Nat
  long : Nat
  deriving Repr, DecidableEq

/--
How often the detection is still held, and how many times in a row it was made, up to the limit.
-/
structure State where
  left : Nat := 0
  streak : Nat := 0
  deriving Repr, DecidableEq

def step (limit : Nat) (s : State) (x : Item) : Bool × State :=
  if x.active then
    if s.streak + 1 > limit then
      (true, { left := x.long, streak := limit })
    else
      (true, { left := x.short, streak := s.streak + 1 })
  else
    (decide (0 < s.left), { left := s.left - 1, streak := 0 })

def outputs (limit : Nat) : State → List Item → List Bool
  | _, [] => []
  | s, x :: xs => (step limit s x).1 :: outputs limit (step limit s x).2 xs

def activeAt (xs : List Item) (i : Nat) : Bool :=
  match xs[i]? with
  | some x => x.active
  | none => false

/--
How long the detection at `m` is held: longer behind more than `limit` in a row.
-/
def holdAt (limit : Nat) (xs : List Item) (m : Nat) : Nat :=
  match xs[m]? with
  | some x =>
    if limit ≤ m ∧ ∀ i ≤ m, m ≤ i + limit → activeAt xs i = true then x.long else x.short
  | none => 0

/--
The last detection at or before `n` is held until there.
-/
def Held (limit : Nat) (xs : List Item) (n : Nat) : Prop :=
  ∃ m ≤ n, activeAt xs m = true
    ∧ (∀ i, m < i → i ≤ n → activeAt xs i = false)
    ∧ n - m ≤ holdAt limit xs m

variable {limit : Nat} {xs : List Item} {x : Item} {s : State}

theorem activeAt_append_of_lt (ys : List Item) {i : Nat} (h : i < xs.length)
    : activeAt (xs ++ ys) i = activeAt xs i := by
  unfold activeAt
  rw [List.getElem?_append_left h]

theorem activeAt_concat : activeAt (xs ++ [x]) xs.length = x.active := by
  unfold activeAt
  rw [List.getElem?_concat_length]

theorem holdAt_append_of_lt (ys : List Item) {m : Nat} (h : m < xs.length)
    : holdAt limit (xs ++ ys) m = holdAt limit xs m := by
  have hsame : (∀ i ≤ m, m ≤ i + limit → activeAt (xs ++ ys) i = true)
      ↔ ∀ i ≤ m, m ≤ i + limit → activeAt xs i = true := by
    refine forall_congr' fun i => imp_congr_right fun hi => ?_
    rw [activeAt_append_of_lt ys (Nat.lt_of_le_of_lt hi h)]
  unfold holdAt
  rw [List.getElem?_append_left h]
  simp only [hsame]

structure Knows (limit : Nat) (xs : List Item) (s : State) : Prop where
  bounded : s.streak ≤ limit
  streak : ∀ n, n ≤ limit →
    (n ≤ s.streak ↔ n ≤ xs.length ∧ ∀ i < xs.length, xs.length ≤ i + n → activeAt xs i = true)
  left : ∀ d, 0 < d →
    (d ≤ s.left ↔ ∃ m < xs.length, activeAt xs m = true
      ∧ (∀ i, m < i → i < xs.length → activeAt xs i = false)
      ∧ xs.length - 1 - m + d ≤ holdAt limit xs m)

theorem all_none (xs : List Item)
    : 0 ≤ xs.length ∧ ∀ i < xs.length, xs.length ≤ i + 0 → activeAt xs i = true :=
  ⟨Nat.zero_le _, fun _ hi hn => absurd hi (Nat.not_lt.mpr hn)⟩

theorem knows_nil : Knows limit [] {} where
  bounded := Nat.zero_le _
  streak n hn := by
    constructor
    . intro h
      exact ⟨h, fun i hi => absurd hi (Nat.not_lt_zero i)⟩
    . intro h
      exact h.1
  left d hd := by
    constructor
    . intro h
      exact absurd (Nat.lt_of_lt_of_le hd h) (Nat.lt_irrefl 0)
    . rintro ⟨m, hm, _⟩
      exact absurd hm (Nat.not_lt_zero m)

theorem forall_concat {n : Nat}
    : (∀ i < (xs ++ [x]).length, (xs ++ [x]).length ≤ i + (n + 1) → activeAt (xs ++ [x]) i = true)
        ↔
      x.active = true ∧ ∀ i < xs.length, xs.length ≤ i + n → activeAt xs i = true := by
  rw [List.length_append, List.length_singleton]
  constructor
  . intro hall
    constructor
    . have hlast := hall xs.length (by omega) (by omega)
      rw [activeAt_concat] at hlast
      exact hlast
    . intro i hi hn
      rw [← activeAt_append_of_lt [x] hi]
      exact hall i (by omega) (by omega)
  . rintro ⟨hx, hall⟩ i hi hn
    by_cases hlast : i = xs.length
    . rw [hlast, activeAt_concat, hx]
    . rw [activeAt_append_of_lt [x] (by omega)]
      exact hall i (by omega) (by omega)

theorem holdAt_concat (h : Knows limit xs s) (hx : x.active = true)
    : holdAt limit (xs ++ [x]) xs.length = if limit ≤ s.streak then x.long else x.short := by
  have hiff : _ ↔ x.active = true ∧ ∀ i < xs.length, xs.length ≤ i + limit → activeAt xs i = true :=
    forall_concat
  rw [List.length_append, List.length_singleton] at hiff
  have hall : (∀ i ≤ xs.length, xs.length ≤ i + limit → activeAt (xs ++ [x]) i = true)
      ↔ ∀ i < xs.length, xs.length ≤ i + limit → activeAt xs i = true := by
    constructor
    . intro h
      exact (hiff.mp fun i hi hn => h i (by omega) (by omega)).2
    . intro h i hi hn
      exact hiff.mpr ⟨hx, h⟩ i (by omega) (by omega)
  unfold holdAt
  rw [List.getElem?_concat_length]
  simp only [hall, h.streak limit (Nat.le_refl _)]

theorem Knows.active (h : Knows limit xs s) (hx : x.active = true)
    : Knows limit (xs ++ [x]) (step limit s x).2 := by
  have hstep : (step limit s x).2
      = { left := if limit ≤ s.streak then x.long else x.short,
          streak := min limit (s.streak + 1) } := by
    have hbounded := h.bounded
    unfold step
    rw [if_pos hx]
    by_cases hfull : limit ≤ s.streak
    . rw [if_pos (by omega), if_pos hfull, Nat.min_eq_left (by omega)]
    . rw [if_neg (by omega), if_neg hfull, Nat.min_eq_right (by omega)]
  rw [hstep]
  constructor
  . exact Nat.min_le_left _ _
  . intro n hn
    show n ≤ min limit (s.streak + 1) ↔ _
    cases n with
    | zero => exact iff_of_true (Nat.zero_le _) (all_none _)
    | succ n =>
      rw [forall_concat, List.length_append, List.length_singleton]
      have hprev := h.streak n (by omega)
      constructor
      . intro hle
        obtain ⟨hlen, hall⟩ := hprev.mp (by omega)
        exact ⟨by omega, hx, hall⟩
      . rintro ⟨hlen, _, hall⟩
        have hle := hprev.mpr ⟨by omega, hall⟩
        omega
  . intro d hd
    dsimp only
    rw [List.length_append, List.length_singleton, ← holdAt_concat h hx]
    constructor
    . intro hle
      refine ⟨xs.length, by omega, ?_, fun i hlt hi => absurd hlt (by omega), by omega⟩
      rw [activeAt_concat, hx]
    . rintro ⟨m, hm, _, hlast, hle⟩
      have heq : m = xs.length := by
        by_contra hne
        have hfalse := hlast xs.length (by omega) (by omega)
        rw [activeAt_concat, hx] at hfalse
        cases hfalse
      rw [heq] at hle
      omega

theorem Knows.idle (h : Knows limit xs s) (hx : x.active = false)
    : Knows limit (xs ++ [x]) (step limit s x).2 := by
  have hstep : (step limit s x).2 = { left := s.left - 1, streak := 0 } := by
    unfold step
    rw [hx]
    rfl
  rw [hstep]
  constructor
  . exact Nat.zero_le _
  . intro n hn
    cases n with
    | zero => exact iff_of_true (Nat.zero_le _) (all_none _)
    | succ n =>
      rw [forall_concat, hx]
      constructor
      . intro hle
        exact absurd hle (Nat.not_succ_le_zero n)
      . rintro ⟨_, hfalse, _⟩
        cases hfalse
  . intro d hd
    dsimp only
    have hprev := h.left (d + 1) (Nat.succ_pos d)
    rw [List.length_append, List.length_singleton]
    constructor
    . intro hle
      obtain ⟨m, hm, hactive, hlast, hhold⟩ := hprev.mp (by omega)
      refine ⟨m, by omega, ?_, fun i hlt hi => ?_, ?_⟩
      . rw [activeAt_append_of_lt [x] hm, hactive]
      . by_cases heq : i = xs.length
        . rw [heq, activeAt_concat, hx]
        . rw [activeAt_append_of_lt [x] (by omega)]
          exact hlast i hlt (by omega)
      . rw [holdAt_append_of_lt [x] hm]
        omega
    . rintro ⟨m, hm, hactive, hlast, hhold⟩
      have hlt : m < xs.length := by
        by_contra hge
        have heq : m = xs.length := by omega
        rw [heq, activeAt_concat, hx] at hactive
        cases hactive
      rw [activeAt_append_of_lt [x] hlt] at hactive
      rw [holdAt_append_of_lt [x] hlt] at hhold
      have hle := hprev.mpr ⟨m, hlt, hactive, fun i hi hi' => ?_, by omega⟩
      . omega
      . rw [← activeAt_append_of_lt [x] hi']
        exact hlast i hi (by omega)

theorem Knows.step (h : Knows limit xs s) (x : Item)
    : Knows limit (xs ++ [x]) (step limit s x).2 := by
  cases hx : x.active with
  | true => exact h.active hx
  | false => exact h.idle hx

theorem Knows.output (h : Knows limit xs s) (x : Item) (ys : List Item)
    : (Hangover.step limit s x).1 = true ↔ Held limit (xs ++ x :: ys) xs.length := by
  have hx : activeAt (xs ++ x :: ys) xs.length = x.active := by
    unfold activeAt
    rw [List.getElem?_append_right (Nat.le_refl _), Nat.sub_self]
    rfl
  cases hactive : x.active with
  | true =>
    have hout : (Hangover.step limit s x).1 = true := by
      unfold Hangover.step
      rw [if_pos hactive]
      split
      . rfl
      . rfl
    rw [hout]
    refine iff_of_true rfl ⟨xs.length, Nat.le_refl _, by rw [hx, hactive], ?_, by omega⟩
    intro i hlt hi
    omega
  | false =>
    have hout : (Hangover.step limit s x).1 = true ↔ 1 ≤ s.left := by
      unfold Hangover.step
      rw [hactive]
      simp [Nat.succ_le_iff]
    rw [hout, h.left 1 (Nat.le_refl 1)]
    constructor
    . rintro ⟨m, hm, hmactive, hlast, hhold⟩
      refine ⟨m, by omega, ?_, fun i hlt hi => ?_, ?_⟩
      . rw [activeAt_append_of_lt _ hm, hmactive]
      . by_cases heq : i = xs.length
        . rw [heq, hx, hactive]
        . rw [activeAt_append_of_lt _ (by omega)]
          exact hlast i hlt (by omega)
      . rw [holdAt_append_of_lt _ hm]
        omega
    . rintro ⟨m, hm, hmactive, hlast, hhold⟩
      have hlt : m < xs.length := by
        by_contra hge
        have heq : m = xs.length := by omega
        rw [heq, hx, hactive] at hmactive
        cases hmactive
      rw [activeAt_append_of_lt _ hlt] at hmactive
      rw [holdAt_append_of_lt _ hlt] at hhold
      refine ⟨m, hlt, hmactive, fun i hi hi' => ?_, by omega⟩
      rw [← activeAt_append_of_lt (x :: ys) hi']
      exact hlast i hi (by omega)

theorem Knows.outputs (h : Knows limit xs s) (ys : List Item) {n : Nat} (hn : n < ys.length)
    : (Hangover.outputs limit s ys)[n]? = some true ↔ Held limit (xs ++ ys) (xs.length + n) := by
  induction ys generalizing xs s n with
  | nil => exact absurd hn (Nat.not_lt_zero n)
  | cons y ys ih =>
    unfold Hangover.outputs
    cases n with
    | zero =>
      rw [List.getElem?_cons_zero, Option.some_inj, Nat.add_zero]
      exact h.output y ys
    | succ n =>
      rw [List.getElem?_cons_succ, ih (h.step y) (Nat.lt_of_succ_lt_succ hn), List.append_cons xs y ys,
        List.length_append, List.length_singleton, Nat.add_assoc, Nat.add_comm 1 n]

/--
The detector gives what it detects, held for its time.
-/
theorem outputs_iff_held (limit : Nat) (xs : List Item) {n : Nat} (hn : n < xs.length)
    : (outputs limit {} xs)[n]? = some true ↔ Held limit xs n := by
  have hnil : Knows limit [] {} := knows_nil
  have h := hnil.outputs xs hn
  rwa [List.nil_append, List.length_nil, Nat.zero_add] at h

theorem length_outputs (limit : Nat) (s : State) (xs : List Item)
    : (outputs limit s xs).length = xs.length := by
  induction xs generalizing s with
  | nil => rfl
  | cons x xs ih =>
    unfold outputs
    rw [List.length_cons, List.length_cons, ih]

end Hangover
