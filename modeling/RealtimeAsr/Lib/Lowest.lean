import Mathlib.Data.List.Infix
import Mathlib.Data.List.Nodup
import Mathlib.Data.List.Perm.Subperm
import Mathlib.Data.List.TakeWhile
import Mathlib.Order.Lattice

/-!
This module contains the lowest among the last values of a sequence, in a list of limited length that is
kept up to date with one value at a time. A value is taken out when its age has reached a limit, but taking
one out stops the age of the next one for once. The module shows how old a value can get in spite of that,
and which values are in the list for certain.
-/

namespace Lowest

/--
A value with its age as it is counted, and the number of values that came since.
-/
structure Entry (α : Type) where
  value : α
  age : Nat
  since : Nat

variable {α : Type}

namespace Entry

def fresh (x : α) : Entry α where
  value := x
  age := 1
  since := 0

def older (e : Entry α) : Entry α :=
  { e with age := e.age + 1, since := e.since + 1 }

def passedOver (e : Entry α) : Entry α :=
  { e with since := e.since + 1 }

end Entry

def expire (limit : Nat) : List (Entry α) → List (Entry α)
  | [] => []
  | [e] => if e.age = limit then [] else [e.older]
  | e :: f :: es =>
    if e.age = limit then
      f.passedOver :: expire limit es
    else
      e.older :: expire limit (f :: es)

theorem expire_sublist (limit : Nat) (es : List (Entry α))
    : ((expire limit es).map fun e => (e.value, e.since)).Sublist
        (es.map fun e => (e.value, e.since + 1)) := by
  fun_induction expire limit es with
  | case1 => exact List.Sublist.slnil
  | case2 e h => exact List.nil_sublist _
  | case3 e h => exact List.Sublist.refl _
  | case4 e f es h ih => exact (ih.cons_cons _).cons _
  | case5 e f es h ih => exact ih.cons_cons _

theorem mem_expire {limit : Nat} {es : List (Entry α)} {e : Entry α} (he : e ∈ expire limit es)
    : ∃ f ∈ es, e.value = f.value ∧ e.since = f.since + 1 := by
  have hmem := (expire_sublist limit es).subset (List.mem_map_of_mem he)
  obtain ⟨f, hf, heq⟩ := List.mem_map.mp hmem
  rw [Prod.mk.injEq] at heq
  exact ⟨f, hf, heq.1.symm, heq.2.symm⟩

theorem exists_mem_expire {limit : Nat} {es : List (Entry α)} {e : Entry α} (he : e ∈ es)
    (hage : e.age ≠ limit)
    : ∃ f ∈ expire limit es, f.value = e.value ∧ f.since = e.since + 1 := by
  fun_induction expire limit es with
  | case1 => cases he
  | case2 f h =>
    rw [List.mem_singleton] at he
    exact absurd (he ▸ h) hage
  | case3 f h =>
    rw [List.mem_singleton] at he
    rw [he]
    exact ⟨_, List.mem_singleton_self _, rfl, rfl⟩
  | case4 f g es h ih =>
    rcases List.mem_cons.mp he with rfl | he
    . exact absurd h hage
    . rcases List.mem_cons.mp he with rfl | he
      . exact ⟨_, List.mem_cons_self, rfl, rfl⟩
      . obtain ⟨f', hf', hsame⟩ := ih he
        exact ⟨f', List.mem_cons_of_mem _ hf', hsame⟩
  | case5 f g es h ih =>
    rcases List.mem_cons.mp he with rfl | he
    . exact ⟨_, List.mem_cons_self, rfl, rfl⟩
    . obtain ⟨f', hf', hsame⟩ := ih he
      exact ⟨f', List.mem_cons_of_mem _ hf', hsame⟩

section Lag

variable (limit capacity : Nat)

/--
How far the age of `e` may lie behind, with `pre` in front of it. While only older values were taken out in
front of `e`, each delay has cost one of them. Those that came later are not taken out before as many
values as the limit came, and then each delay costs one of those.
-/
structure Lag (pre : List (Entry α)) (e : Entry α) : Prop where
  pos : 1 ≤ e.age
  ageLe : e.age ≤ limit
  ageLeSince : e.age ≤ e.since + 1
  behind : e.since + pre.countP (fun p => e.since < p.since) + 2 ≤ e.age + capacity
    ∨ limit ≤ e.since
      ∧ e.since + pre.countP (fun p => e.since < p.since + limit) + 3 ≤ e.age + 2 * capacity

def Lags (pre : List (Entry α)) : List (Entry α) → Prop
  | [] => True
  | e :: es => Lag limit capacity pre e ∧ Lags (e :: pre) es

variable {limit capacity}

theorem Lag.since_lt {pre : List (Entry α)} {e : Entry α} (h : Lag limit capacity pre e)
    (hcapacity : 1 ≤ capacity)
    : e.since < limit + 2 * capacity - 2 := by
  have hage := h.ageLe
  rcases h.behind with hfew | ⟨-, hmany⟩
  . omega
  . omega

theorem countP_behind {pre' pre : List (Entry α)}
    (hpre : (pre'.map Entry.since).Sublist (pre.map fun e => e.since + 1)) (n m : Nat)
    : pre'.countP (fun p => n + 1 < p.since + m) ≤ pre.countP (fun p => n < p.since + m) := by
  have hle := hpre.countP_le (p := fun since => n + 1 < since + m)
  rw [List.countP_map, List.countP_map] at hle
  refine hle.trans (List.countP_mono_left fun p _ hp => ?_)
  simp only [Function.comp_apply, decide_eq_true_eq] at hp ⊢
  omega

theorem Lag.older {pre' pre : List (Entry α)} {e : Entry α} (h : Lag limit capacity pre e)
    (hage : e.age ≠ limit)
    (hpre : (pre'.map Entry.since).Sublist (pre.map fun e => e.since + 1))
    : Lag limit capacity pre' e.older where
  pos := Nat.le_add_left _ _
  ageLe := by
    have hle := h.ageLe
    show e.age + 1 ≤ limit
    omega
  ageLeSince := Nat.add_le_add_right h.ageLeSince 1
  behind := by
    show e.since + 1 + pre'.countP (fun p => e.since + 1 < p.since) + 2 ≤ e.age + 1 + capacity
      ∨ limit ≤ e.since + 1
        ∧ e.since + 1 + pre'.countP (fun p => e.since + 1 < p.since + limit) + 3
          ≤ e.age + 1 + 2 * capacity
    have hfewer := countP_behind hpre e.since 0
    have hmore := countP_behind hpre e.since limit
    simp only [Nat.add_zero] at hfewer
    rcases h.behind with hfew | ⟨hlimit, hmany⟩
    . left
      omega
    . right
      omega

theorem Lag.passedOver {pre' pre : List (Entry α)} {p e : Entry α}
    (h : Lag limit capacity (p :: pre) e) (hp : p.age = limit) (hsince : p.age ≤ p.since + 1)
    (hpre : (pre'.map Entry.since).Sublist (pre.map fun e => e.since + 1))
    (hlen : pre.length + 2 ≤ capacity) (hcapacity : 2 * capacity ≤ limit + 1)
    : Lag limit capacity pre' e.passedOver where
  pos := h.pos
  ageLe := h.ageLe
  ageLeSince := Nat.le_succ_of_le h.ageLeSince
  behind := by
    show e.since + 1 + pre'.countP (fun p => e.since + 1 < p.since) + 2 ≤ e.age + capacity
      ∨ limit ≤ e.since + 1
        ∧ e.since + 1 + pre'.countP (fun p => e.since + 1 < p.since + limit) + 3
          ≤ e.age + 2 * capacity
    have hage := h.ageLe
    have hfewer := countP_behind hpre e.since 0
    have hmore := countP_behind hpre e.since limit
    have hall : pre'.countP (fun p => e.since + 1 < p.since + limit) ≤ pre.length :=
      hmore.trans List.countP_le_length
    simp only [Nat.add_zero] at hfewer
    rcases h.behind with hfew | ⟨hlimit, hmany⟩
    . by_cases holder : e.since < p.since
      . rw [List.countP_cons_of_pos (by simpa using holder)] at hfew
        left
        omega
      . rw [List.countP_cons_of_neg (by simpa using holder)] at hfew
        right
        omega
    . rw [List.countP_cons_of_pos (by simp only [decide_eq_true_eq]; omega)] at hmany
      right
      omega

theorem Lags.expire {pre' pre es : List (Entry α)} (h : Lags limit capacity pre es)
    (hpre : (pre'.map Entry.since).Sublist (pre.map fun e => e.since + 1))
    (hlen : pre.length + es.length ≤ capacity) (hcapacity : 2 * capacity ≤ limit + 1)
    : Lags limit capacity pre' (expire limit es) := by
  fun_induction Lowest.expire limit es generalizing pre' pre with
  | case1 => trivial
  | case2 e hage => trivial
  | case3 e hage => exact ⟨h.1.older hage hpre, trivial⟩
  | case4 e f es hage ih =>
    obtain ⟨he, hf, hrest⟩ := h
    simp only [List.length_cons] at hlen
    refine ⟨hf.passedOver hage he.ageLeSince hpre (by omega) hcapacity, ih hrest ?_ ?_⟩
    . exact (hpre.cons _).cons_cons _
    . simp only [List.length_cons]
      omega
  | case5 e f es hage ih =>
    obtain ⟨he, hrest⟩ := h
    simp only [List.length_cons] at hlen
    refine ⟨he.older hage hpre, ih hrest ?_ ?_⟩
    . exact hpre.cons_cons _
    . simp only [List.length_cons]
      omega

theorem Lags.append {pre es fs : List (Entry α)}
    : Lags limit capacity pre (es ++ fs)
        ↔ Lags limit capacity pre es ∧ Lags limit capacity (es.reverse ++ pre) fs := by
  induction es generalizing pre with
  | nil => simp [Lags]
  | cons e es ih => simp [Lags, ih, and_assoc]

theorem Lags.take {pre es : List (Entry α)} (h : Lags limit capacity pre es) (n : Nat)
    : Lags limit capacity pre (es.take n) := by
  rw [← List.take_append_drop n es, Lags.append] at h
  exact h.1

theorem Lags.behind_fresh {q pre es : List (Entry α)} (h : Lags limit capacity (q ++ pre) es) (x : α)
    : Lags limit capacity (q ++ .fresh x :: pre) es := by
  induction es generalizing q with
  | nil => trivial
  | cons e es ih =>
    refine ⟨⟨h.1.pos, h.1.ageLe, h.1.ageLeSince, ?_⟩, ih (q := e :: q) h.2⟩
    have hbehind := h.1.behind
    rw [List.countP_append, List.countP_append] at hbehind ⊢
    rcases hbehind with hfew | ⟨hlimit, hmany⟩
    . left
      rw [List.countP_cons_of_neg (by simp [Entry.fresh])]
      exact hfew
    . right
      rw [List.countP_cons_of_neg (by simpa [Entry.fresh] using hlimit)]
      exact ⟨hlimit, hmany⟩

theorem Lags.of_mem {pre es : List (Entry α)} (h : Lags limit capacity pre es) {e : Entry α}
    (he : e ∈ es)
    : ∃ pre, Lag limit capacity pre e := by
  induction es generalizing pre with
  | nil => cases he
  | cons f es ih =>
    rcases List.mem_cons.mp he with rfl | he
    . exact ⟨pre, h.1⟩
    . exact ih h.2 he

end Lag

theorem length_le_countP {xs : List α} {is : List Nat} (hnodup : is.Nodup) {p : α → Bool}
    (h : ∀ i ∈ is, ∃ x, xs[i]? = some x ∧ p x)
    : is.length ≤ xs.countP p := by
  have hcount : xs.countP p = ((xs.zipIdx.filter fun a => p a.1).map Prod.snd).length := by
    have hvalues := List.zipIdx_map_fst 0 xs
    rw [List.length_map, ← List.countP_eq_length_filter]
    conv_lhs => rw [← hvalues, List.countP_map]
    rfl
  rw [hcount]
  refine (hnodup.subperm fun i hi => ?_).length_le
  obtain ⟨x, hx, hp⟩ := h i hi
  refine List.mem_map.mpr ⟨(x, i), List.mem_filter.mpr ⟨?_, hp⟩, rfl⟩
  exact List.mk_mem_zipIdx_iff_getElem?.mpr hx

variable [LinearOrder α]

def insert (x : α) (es : List (Entry α)) : List (Entry α) :=
  es.takeWhile (fun e => e.value ≤ x) ++ .fresh x :: es.dropWhile (fun e => e.value ≤ x)

theorem insert_eq (x : α) {es : List (Entry α)} (h : es.Pairwise fun e f => e.value ≤ f.value)
    : ∃ low high, es = low ++ high ∧ insert x es = low ++ .fresh x :: high
        ∧ (∀ e ∈ low, e.value ≤ x) ∧ ∀ e ∈ high, x < e.value := by
  refine ⟨_, _, List.takeWhile_append_dropWhile.symm, rfl, fun e he => ?_, fun e he => ?_⟩
  . simpa using List.mem_takeWhile_imp he
  . induction es with
    | nil => cases he
    | cons f es ih =>
      obtain ⟨hfirst, hrest⟩ := List.pairwise_cons.mp h
      by_cases hle : f.value ≤ x
      . rw [List.dropWhile_cons_of_pos (by simpa using hle)] at he
        exact ih hrest he
      . rw [List.dropWhile_cons_of_neg (by simpa using hle)] at he
        rcases List.mem_cons.mp he with rfl | he
        . exact lt_of_not_ge hle
        . exact (lt_of_not_ge hle).trans_le (hfirst e he)

def observe (limit capacity : Nat) (es : List (Entry α)) (x : α) : List (Entry α) :=
  (insert x (expire limit es)).take capacity

/--
The list after some values, the last one first.
-/
def lowest (limit capacity : Nat) : List α → List (Entry α)
  | [] => []
  | x :: xs => observe limit capacity (lowest limit capacity xs) x

theorem expire_sorted (limit : Nat) {es : List (Entry α)}
    (h : es.Pairwise fun e f => e.value ≤ f.value)
    : (expire limit es).Pairwise fun e f => e.value ≤ f.value := by
  have hvalues : (es.map fun e => (e.value, e.since + 1)).Pairwise fun a b => a.1 ≤ b.1 :=
    List.pairwise_map.mpr h
  have hexpire := hvalues.sublist (expire_sublist limit es)
  rw [List.pairwise_map] at hexpire
  exact hexpire

theorem insert_perm (x : α) (es : List (Entry α)) : (insert x es).Perm (.fresh x :: es) := by
  have hsplit := List.takeWhile_append_dropWhile (p := fun e : Entry α => e.value ≤ x) (l := es)
  unfold insert
  refine List.perm_middle.trans (List.Perm.cons _ ?_)
  rw [hsplit]

theorem insert_sorted (x : α) {es : List (Entry α)}
    (h : es.Pairwise fun e f => e.value ≤ f.value)
    : (insert x es).Pairwise fun e f => e.value ≤ f.value := by
  unfold insert
  induction es with
  | nil => exact List.pairwise_singleton _ _
  | cons e es ih =>
    obtain ⟨hfirst, hrest⟩ := List.pairwise_cons.mp h
    by_cases hle : e.value ≤ x
    . rw [List.takeWhile_cons_of_pos (by simpa using hle),
        List.dropWhile_cons_of_pos (by simpa using hle), List.cons_append, List.pairwise_cons]
      refine ⟨fun f hf => ?_, ih hrest⟩
      rcases List.mem_cons.mp ((insert_perm x es).mem_iff.mp hf) with rfl | hf
      . exact hle
      . exact hfirst f hf
    . rw [List.takeWhile_cons_of_neg (by simpa using hle),
        List.dropWhile_cons_of_neg (by simpa using hle), List.nil_append, List.pairwise_cons]
      refine ⟨fun f hf => ?_, h⟩
      have hlt : x ≤ e.value := le_of_not_ge hle
      rcases List.mem_cons.mp hf with rfl | hf
      . exact hlt
      . exact hlt.trans (hfirst f hf)

variable {limit capacity : Nat}

theorem observe_sorted (limit capacity : Nat) {es : List (Entry α)}
    (h : es.Pairwise fun e f => e.value ≤ f.value) (x : α)
    : (observe limit capacity es x).Pairwise fun e f => e.value ≤ f.value :=
  (insert_sorted x (expire_sorted limit h)).sublist (List.take_sublist _ _)

theorem Lags.insert {es : List (Entry α)} (h : Lags limit capacity [] es) (hlimit : 1 ≤ limit)
    (x : α)
    : Lags limit capacity [] ((insert x es).take capacity) := by
  rw [← List.takeWhile_append_dropWhile (p := fun e : Entry α => e.value ≤ x) (l := es),
    Lags.append] at h
  unfold Lowest.insert
  generalize es.takeWhile (fun e => e.value ≤ x) = low at h
  generalize es.dropWhile (fun e => e.value ≤ x) = high at h
  by_cases hlen : low.length < capacity
  . apply Lags.take
    rw [Lags.append]
    refine ⟨h.1, ⟨Nat.le_refl 1, hlimit, Nat.le_refl 1, Or.inl ?_⟩, h.2.behind_fresh (q := []) x⟩
    have hle : (low.reverse ++ []).countP (fun p : Entry α => (Entry.fresh x).since < p.since)
        ≤ (low.reverse ++ []).length :=
      List.countP_le_length
    simp only [List.append_nil, List.length_reverse] at hle ⊢
    show 0 + _ + 2 ≤ 1 + capacity
    omega
  . rw [List.take_append_of_le_length (by omega)]
    exact h.1.take capacity

structure Inv (xs : List α) (es : List (Entry α)) : Prop where
  sorted : es.Pairwise fun e f => e.value ≤ f.value
  seen : ∀ e ∈ es, xs[e.since]? = some e.value
  nodup : (es.map Entry.since).Nodup

theorem Inv.insert {xs : List α} {es : List (Entry α)} (h : Inv xs es) (limit : Nat) (x : α)
    : Inv (x :: xs) (insert x (expire limit es)) where
  sorted := insert_sorted x (expire_sorted limit h.sorted)
  seen e he := by
    rcases List.mem_cons.mp ((insert_perm x _).mem_iff.mp he) with rfl | he
    . rfl
    . obtain ⟨f, hf, hvalue, hsince⟩ := mem_expire he
      rw [hsince, hvalue, List.getElem?_cons_succ]
      exact h.seen f hf
  nodup := by
    have hsince : ((expire limit es).map Entry.since).Sublist (es.map fun e => e.since + 1) := by
      have hsub := (expire_sublist limit es).map Prod.snd
      rw [List.map_map, List.map_map] at hsub
      exact hsub
    have hnodup : (es.map fun e => e.since + 1).Nodup := by
      have hmap := h.nodup.map Nat.succ_injective
      rw [List.map_map] at hmap
      exact hmap
    rw [((insert_perm x _).map Entry.since).nodup_iff, List.map_cons, List.nodup_cons]
    refine ⟨fun hmem => ?_, List.Nodup.sublist hsince hnodup⟩
    obtain ⟨e, he, hzero⟩ := List.mem_map.mp hmem
    obtain ⟨f, -, -, hsucc⟩ := mem_expire he
    rw [hsucc] at hzero
    exact absurd hzero (Nat.succ_ne_zero _)

theorem Inv.sublist {xs : List α} {es fs : List (Entry α)} (h : Inv xs es)
    (hsub : fs.Sublist es)
    : Inv xs fs where
  sorted := h.sorted.sublist hsub
  seen e he := h.seen e (hsub.subset he)
  nodup := List.Nodup.sublist (hsub.map _) h.nodup

theorem lowest_inv (limit capacity : Nat) (xs : List α)
    : Inv xs (lowest limit capacity xs) := by
  induction xs with
  | nil => exact ⟨List.Pairwise.nil, fun e he => absurd he List.not_mem_nil, List.nodup_nil⟩
  | cons x xs ih => exact (ih.insert limit x).sublist (List.take_sublist _ _)

theorem length_lowest_le (limit capacity : Nat) (xs : List α)
    : (lowest limit capacity xs).length ≤ capacity := by
  cases xs with
  | nil => exact Nat.zero_le _
  | cons x xs => exact List.length_take_le _ _

theorem lowest_lags (hlimit : 1 ≤ limit) (hcapacity : 2 * capacity ≤ limit + 1) (xs : List α)
    : Lags limit capacity [] (lowest limit capacity xs) := by
  induction xs with
  | nil => trivial
  | cons x xs ih =>
    refine Lags.insert (ih.expire (List.Sublist.refl _) ?_ hcapacity) hlimit x
    rw [List.length_nil, Nat.zero_add]
    exact length_lowest_le limit capacity xs

/--
Every value in the list is one of the last values. The list keeps its order.
-/
theorem lowest_recent (hlimit : 1 ≤ limit) (hcapacity : 2 * capacity ≤ limit + 1) (xs : List α)
    {e : Entry α} (he : e ∈ lowest limit capacity xs)
    : e.since < limit + 2 * capacity - 2 ∧ xs[e.since]? = some e.value := by
  obtain ⟨pre, hlag⟩ := (lowest_lags hlimit hcapacity xs).of_mem he
  refine ⟨hlag.since_lt ?_, (lowest_inv limit capacity xs).seen e he⟩
  exact (List.length_pos_of_mem he).trans_le (length_lowest_le limit capacity xs)

-- The 5 is as old as the limit and still there, since the 1 was taken out in front of it.
example : ((lowest 3 2 [9, 9, 9, 5, 1]).map fun e => (e.value, e.since)) = [(5, 3), (9, 1)] := by
  decide

theorem Inv.crowded {xs : List α} {es : List (Entry α)} (h : Inv xs es)
    {bound : Nat} (hbound : ∀ f ∈ es.take capacity, f.since < bound) {e : Entry α} (he : e ∈ es)
    (hout : e ∉ es.take capacity) (hsince : e.since < bound)
    : capacity < (xs.take bound).countP (· ≤ e.value) := by
  have hsplit := List.take_append_drop capacity es
  have hdrop : e ∈ es.drop capacity := by
    rw [← hsplit, List.mem_append] at he
    exact he.resolve_left hout
  have hlen : (es.take capacity).length = capacity := by
    have hpos := List.length_pos_of_mem hdrop
    rw [List.length_drop] at hpos
    rw [List.length_take]
    omega
  have hsorted := h.sorted
  rw [← hsplit, List.pairwise_append] at hsorted
  have hnodup : ((es.take capacity ++ [e]).map Entry.since).Nodup := by
    have hsub := (List.singleton_sublist.mpr hdrop).append_left (es.take capacity)
    rw [hsplit] at hsub
    exact List.Nodup.sublist (hsub.map Entry.since) h.nodup
  have hcount : _ ≤ (xs.take bound).countP (· ≤ e.value) := length_le_countP hnodup fun i hi => by
    obtain ⟨f, hf, rfl⟩ := List.mem_map.mp hi
    rcases List.mem_append.mp hf with hf | hf
    . refine ⟨f.value, ?_, decide_eq_true (hsorted.2.2 f hf e hdrop)⟩
      rw [List.getElem?_take_of_lt (hbound f hf)]
      exact h.seen f (List.mem_of_mem_take hf)
    . rw [List.mem_singleton] at hf
      refine ⟨e.value, ?_, decide_eq_true le_rfl⟩
      rw [hf, List.getElem?_take_of_lt hsince]
      exact h.seen e he
  rw [List.length_map, List.length_append, hlen, List.length_singleton] at hcount
  exact hcount

/--
A value that came within the limit is in the list, unless too many of the values around it are as low.
-/
theorem lowest_kept (hlimit : 1 ≤ limit) (hcapacity : 2 * capacity ≤ limit + 1)
    (hpos : 1 ≤ capacity) {xs : List α} {n : Nat} {x : α} (hx : xs[n]? = some x) (hn : n < limit)
    : (∃ e ∈ lowest limit capacity xs, e.since = n ∧ e.value = x)
        ∨ capacity < (xs.take (n + limit + 2 * capacity - 2)).countP (· ≤ x) := by
  induction n generalizing xs with
  | zero =>
    cases xs with
    | nil => cases hx
    | cons y xs =>
      have hxy : y = x := Option.some.inj hx
      have hinv := (lowest_inv limit capacity xs).insert limit y
      have hmem : Entry.fresh y ∈ insert y (expire limit (lowest limit capacity xs)) :=
        (insert_perm y _).mem_iff.mpr List.mem_cons_self
      by_cases hin : Entry.fresh y ∈ lowest limit capacity (y :: xs)
      . exact Or.inl ⟨_, hin, rfl, hxy⟩
      . right
        have hcrowded := hinv.crowded
          (fun f hf => (lowest_recent hlimit hcapacity (y :: xs) hf).1) hmem hin
          (show 0 < _ by omega)
        rw [Nat.zero_add, ← hxy]
        exact hcrowded
  | succ n ih =>
    cases xs with
    | nil => cases hx
    | cons y xs =>
      rw [List.getElem?_cons_succ] at hx
      have hwindow : n + 1 + limit + 2 * capacity - 2 = n + limit + 2 * capacity - 2 + 1 := by omega
      rw [hwindow, List.take_succ_cons]
      rcases ih hx (by omega) with ⟨e, he, hsince, hvalue⟩ | hcrowd
      . obtain ⟨pre, hlag⟩ := (lowest_lags hlimit hcapacity xs).of_mem he
        have hage := hlag.ageLeSince
        obtain ⟨f, hf, hvalue', hsince'⟩ := exists_mem_expire he (show e.age ≠ limit by omega)
        have hmem : f ∈ insert y (expire limit (lowest limit capacity xs)) :=
          (insert_perm y _).mem_iff.mpr (List.mem_cons_of_mem _ hf)
        by_cases hin : f ∈ lowest limit capacity (y :: xs)
        . exact Or.inl ⟨f, hin, by omega, hvalue'.trans hvalue⟩
        . right
          have hinv := (lowest_inv limit capacity xs).insert limit y
          have hbound (g : Entry α) (hg : g ∈ lowest limit capacity (y :: xs))
              : g.since < n + limit + 2 * capacity - 2 + 1 := by
            have hlt := (lowest_recent hlimit hcapacity (y :: xs) hg).1
            omega
          have hcrowded := hinv.crowded hbound hmem hin (by omega)
          rw [hvalue', hvalue] at hcrowded
          exact hcrowded
      . right
        exact hcrowd.trans_le (List.sublist_cons_self y _).countP_le

end Lowest
