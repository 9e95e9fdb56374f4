import Mathlib.Tactic.IntervalCases
import RealtimeAsr.Lib.Lowest
import RealtimeAsr.Lib.Shift
import RealtimeAsr.Lib.Word16
import RealtimeAsr.Webrtc.Sp

/-!
This module shows that the arrays of `WebRtcVad_FindMinimum` hold the lowest of the last features of a
channel, in their order.
-/

namespace WebRtc

namespace Smallest

open Lowest (Entry)

section Arrays

variable {s : Smallest} {vs as values age : List Int16} (hage : s.age = as ++ age)

include hage

theorem getD_age {i : Nat} (hi : i < as.length) : s.age.getD i 0 = as[i] := by
  rw [hage, List.getD_eq_getElem?_getD, List.getElem?_append_left hi, List.getElem?_eq_getElem hi,
    Option.getD_some]

theorem growOlder_of_ne {i : Nat} (hi : i < as.length) (hne : as[i] ≠ 100)
    : s.growOlder i = { s with age := as.set i (as[i] + 1) ++ age } := by
  unfold growOlder
  dsimp only
  rw [getD_age hage hi, if_pos hne, hage, List.set_append_left _ _ hi]

theorem growOlder_of_eq (hvalues : s.values = vs ++ values) (hvs : vs.length = 16)
    (has : as.length = 16) {i : Nat} (hi : i < as.length) (heq : as[i] = 100)
    : s.growOlder i
        =
      { values := vs.eraseIdx i ++ 10000 :: values, age := as.eraseIdx i ++ 101 :: age } := by
  have hshift (v : Int16) {xs rest : List Int16} (hxs : xs.length = 16)
      : (shiftDown i (xs ++ rest)).set 15 v = xs.eraseIdx i ++ v :: rest := by
    have hdown : ((Shift.down 0 i (15 - i + 1) (xs ++ rest)).set (i + (15 - i)) v)
        = xs.eraseIdx i ++ v :: rest :=
      Shift.set_down 0 v (by omega)
    rw [show 15 - i + 1 = 16 - i by omega, show i + (15 - i) = 15 by omega] at hdown
    exact hdown
  unfold growOlder
  dsimp only
  rw [getD_age hage hi, if_neg (not_not_intro heq), hage, hvalues, hshift _ hvs, hshift _ has]

end Arrays

/--
The first sixteen values are those of the entries, and 10000 from there on. Behind them, other arrays
follow.
-/
structure Holds (s : Smallest) (es : List (Entry Int16)) (values age : List Int16) : Prop where
  length : es.length ≤ 16
  values : s.values = es.map Entry.value ++ List.replicate (16 - es.length) 10000 ++ values
  age : ∃ filler : List Int16, filler.length = 16 - es.length
    ∧ s.age = es.map (fun e => Int16.ofNat e.age) ++ filler ++ age
  ageLe : ∀ e ∈ es, e.age ≤ 100
  low : ∀ e ∈ es, e.value < 10000

variable {s : Smallest} {es : List (Entry Int16)} {values age : List Int16}

theorem length_part {β : Type} (h : es.length ≤ 16) (f : Entry Int16 → β) {filler : List β}
    (hfiller : filler.length = 16 - es.length)
    : (es.map f ++ filler).length = 16 := by
  rw [List.length_append, List.length_map, hfiller]
  omega

theorem Holds.of_take {t : Smallest} (h : t.Holds es values age)
    (hvalues : s.values.take 16 = t.values.take 16) (hage : s.age.take 16 = t.age.take 16)
    : s.Holds es (s.values.drop 16) (s.age.drop 16) := by
  obtain ⟨filler, hfiller, htage⟩ := h.age
  refine ⟨h.length, ?_, ⟨filler, hfiller, ?_⟩, h.ageLe, h.low⟩
  . rw [h.values, List.take_left' (length_part h.length _ List.length_replicate)] at hvalues
    rw [← hvalues, List.take_append_drop]
  . rw [htage, List.take_left' (length_part h.length _ hfiller)] at hage
    rw [← hage, List.take_append_drop]

theorem ofNat_age {n : Nat} (h : n ≤ 100) : Int16.ofNat n = 100 ↔ n = 100 := by
  constructor
  . intro heq
    have hint := congrArg Int16.toInt heq
    rw [Int16.toInt_ofNat_of_lt (by omega)] at hint
    exact Int.ofNat_inj.mp hint
  . rintro rfl
    rfl

theorem Holds.growOlder_filler (h : s.Holds es values age) {i : Nat} (hi : i < 16)
    (hlen : es.length ≤ i)
    : (s.growOlder i).Holds es values age := by
  obtain ⟨filler, hfiller, hage⟩ := h.age
  have hles := h.length
  have has := length_part hles (fun e => Int16.ofNat e.age) hfiller
  have hvs := length_part hles Entry.value (List.length_replicate (a := (10000 : Int16)))
  have hi' : i < (es.map (fun e => Int16.ofNat e.age) ++ filler).length := by omega
  by_cases hold : (es.map (fun e => Int16.ofNat e.age) ++ filler)[i] = 100
  . rw [growOlder_of_eq hage h.values hvs has hi' hold]
    refine ⟨h.length, ?_, ⟨filler.eraseIdx (i - es.length) ++ [101], ?_, ?_⟩, h.ageLe, h.low⟩
    . dsimp only
      rw [List.eraseIdx_append_of_length_le (by simpa using hlen), List.length_map,
        List.eraseIdx_replicate, if_pos (by omega), List.append_assoc, List.append_assoc,
        List.append_cons, ← List.replicate_succ', show 16 - es.length - 1 + 1 = 16 - es.length by omega]
    . rw [List.length_append, List.length_eraseIdx_of_lt (by omega), List.length_singleton]
      omega
    . dsimp only
      rw [List.eraseIdx_append_of_length_le (by simpa using hlen), List.length_map]
      simp only [List.append_assoc, List.cons_append, List.nil_append]
  . rw [growOlder_of_ne hage hi' hold]
    generalize (es.map (fun e => Int16.ofNat e.age) ++ filler)[i] + 1 = older
    refine ⟨h.length, h.values, ⟨filler.set (i - es.length) older, ?_, ?_⟩, h.ageLe, h.low⟩
    . rw [List.length_set, hfiller]
    . dsimp only
      rw [List.set_append_right _ _ (by simpa using hlen), List.length_map]

theorem eraseIdx_middle {β : Type} (f : Entry Int16 → β) (front back : List (Entry Int16))
    (e : Entry Int16) (filler : List β)
    : ((front ++ e :: back).map f ++ filler).eraseIdx front.length
        =
      (front ++ back).map f ++ filler := by
  rw [List.eraseIdx_append_of_lt_length (by simp), List.map_append, List.map_cons,
    List.eraseIdx_append_of_length_le (by simp), List.length_map, Nat.sub_self, List.map_append]
  rfl

theorem set_middle {β : Type} (f : Entry Int16 → β) (front back : List (Entry Int16))
    (e : Entry Int16) (filler : List β) (x : β)
    : ((front ++ e :: back).map f ++ filler).set front.length x
        =
      front.map f ++ x :: back.map f ++ filler := by
  rw [List.set_append_left _ _ (by simp), List.map_append, List.map_cons,
    List.set_append_right _ _ (by simp), List.length_map, Nat.sub_self]
  rfl

theorem Holds.growOlder_entry {front back : List (Entry Int16)} {e : Entry Int16}
    (h : s.Holds (front ++ e :: back) values age)
    : (s.growOlder front.length).Holds
        (front ++ if e.age = 100 then back else e.older :: back) values age := by
  obtain ⟨filler, hfiller, hage⟩ := h.age
  have hles := h.length
  have hmem : e ∈ front ++ e :: back := List.mem_append_right _ List.mem_cons_self
  have hageLe := h.ageLe e hmem
  have has := length_part hles (fun e => Int16.ofNat e.age) hfiller
  have hvs := length_part hles Entry.value (List.length_replicate (a := (10000 : Int16)))
  have hlen : (front ++ e :: back).length = front.length + back.length + 1 := by
    rw [List.length_append, List.length_cons, Nat.add_assoc]
  rw [hlen] at hles hfiller
  have hi : front.length < ((front ++ e :: back).map (fun e => Int16.ofNat e.age) ++ filler).length := by
    omega
  have hget : ((front ++ e :: back).map (fun e => Int16.ofNat e.age) ++ filler)[front.length]
      = Int16.ofNat e.age := by
    simp
  have hrest (f : Entry Int16) (hf : f ∈ front ++ back) : f ∈ front ++ e :: back := by
    rw [List.mem_append] at hf ⊢
    exact hf.imp_right (List.mem_cons_of_mem e)
  by_cases hold : e.age = 100
  . rw [growOlder_of_eq hage h.values hvs has hi (by rw [hget, ofNat_age hageLe, hold]), if_pos hold]
    refine ⟨?_, ?_, ⟨filler ++ [101], ?_, ?_⟩, fun f hf => h.ageLe f (hrest f hf),
      fun f hf => h.low f (hrest f hf)⟩
    . rw [List.length_append]
      omega
    . dsimp only
      rw [eraseIdx_middle, List.append_assoc, List.append_assoc, List.append_cons,
        ← List.replicate_succ', hlen, List.length_append,
        show 16 - (front.length + back.length + 1) + 1 = 16 - (front.length + back.length) by omega]
    . rw [List.length_append, List.length_append, List.length_singleton, hfiller]
      omega
    . dsimp only
      rw [eraseIdx_middle]
      simp only [List.append_assoc, List.cons_append, List.nil_append]
  . have hsame (f : Entry Int16) (hf : f ∈ front ++ e.older :: back)
        : f = e.older ∨ f ∈ front ++ e :: back := by
      rw [List.mem_append, List.mem_cons] at hf
      rcases hf with hf | hf | hf
      . exact Or.inr (List.mem_append_left _ hf)
      . exact Or.inl hf
      . exact Or.inr (List.mem_append_right _ (List.mem_cons_of_mem _ hf))
    rw [growOlder_of_ne hage hi (by rw [hget, Ne, ofNat_age hageLe]; exact hold), if_neg hold, hget]
    refine ⟨?_, ?_, ⟨filler, ?_, ?_⟩, fun f hf => ?_, fun f hf => ?_⟩
    . rw [List.length_append, List.length_cons]
      omega
    . have hvalues := h.values
      simpa [Entry.older] using hvalues
    . rw [List.length_append, List.length_cons]
      omega
    . have hnext : Int16.ofNat e.age + 1 = Int16.ofNat (e.age + 1) := (Int16.ofNat_add _ _).symm
      dsimp only
      rw [set_middle, hnext, List.map_append, List.map_cons]
      rfl
    . rcases hsame f hf with rfl | hf
      . show e.age + 1 ≤ 100
        omega
      . exact h.ageLe f hf
    . rcases hsame f hf with rfl | hf
      . exact h.low e hmem
      . exact h.low f hf

theorem Holds.congr {fs : List (Entry Int16)} (h : s.Holds es values age)
    (hsame : (fs.map fun e => (e.value, e.age)) = es.map fun e => (e.value, e.age))
    : s.Holds fs values age := by
  have hlen : fs.length = es.length := by
    have hlen := congrArg List.length hsame
    rw [List.length_map, List.length_map] at hlen
    exact hlen
  have hmap {β : Type} (f : Int16 × Nat → β)
      : (fs.map fun e => f (e.value, e.age)) = es.map fun e => f (e.value, e.age) := by
    have hmap := congrArg (List.map f) hsame
    rw [List.map_map, List.map_map] at hmap
    exact hmap
  have hmem (f : Entry Int16) (hf : f ∈ fs) : ∃ e ∈ es, e.value = f.value ∧ e.age = f.age := by
    have hin : (f.value, f.age) ∈ es.map fun e => (e.value, e.age) :=
      hsame ▸ List.mem_map_of_mem hf
    obtain ⟨e, he, heq⟩ := List.mem_map.mp hin
    exact ⟨e, he, congrArg Prod.fst heq, congrArg Prod.snd heq⟩
  obtain ⟨filler, hfiller, hage⟩ := h.age
  refine ⟨hlen ▸ h.length, ?_, ⟨filler, hlen ▸ hfiller, ?_⟩, fun f hf => ?_, fun f hf => ?_⟩
  . rw [h.values, hlen]
    exact congrArg (· ++ _ ++ values) (hmap Prod.fst).symm
  . rw [hage]
    exact congrArg (· ++ filler ++ age) (hmap fun a => Int16.ofNat a.2).symm
  . obtain ⟨e, he, -, hage⟩ := hmem f hf
    exact hage ▸ h.ageLe e he
  . obtain ⟨e, he, hvalue, -⟩ := hmem f hf
    exact hvalue ▸ h.low e he

/--
The loop after some of its steps: `front` is done, and `back` is still to be looked at.
-/
theorem Holds.growOlder {front back : List (Entry Int16)} (h : s.Holds (front ++ back) values age)
    {i : Nat} (hi : i < 16) (hfront : front.length = i ∨ back = [] ∧ front.length ≤ i)
    : ∃ front' back', (s.growOlder i).Holds (front' ++ back') values age
        ∧ (front'.length = i + 1 ∨ back' = [] ∧ front'.length ≤ i + 1)
        ∧ front' ++ Lowest.expire 100 back' = front ++ Lowest.expire 100 back := by
  cases back with
  | nil =>
    have hle : front.length ≤ i := by
      rcases hfront with heq | ⟨-, hle⟩
      . exact Nat.le_of_eq heq
      . exact hle
    refine ⟨front, [], ?_, Or.inr ⟨rfl, Nat.le_succ_of_le hle⟩, rfl⟩
    rw [List.append_nil] at h ⊢
    exact h.growOlder_filler hi hle
  | cons e back =>
    have heq : front.length = i := hfront.resolve_right fun hnil => absurd hnil.1 (by simp)
    have hnext := h.growOlder_entry
    rw [heq] at hnext
    by_cases hold : e.age = 100
    . rw [if_pos hold] at hnext
      cases back with
      | nil =>
        refine ⟨front, [], hnext, Or.inr ⟨rfl, by omega⟩, ?_⟩
        rw [Lowest.expire, Lowest.expire, if_pos hold]
      | cons f back =>
        refine ⟨front ++ [f.passedOver], back, ?_, Or.inl ?_, ?_⟩
        . apply hnext.congr
          simp [Entry.passedOver]
        . rw [List.length_append, List.length_singleton, heq]
        . rw [Lowest.expire, if_pos hold, List.append_assoc]
          rfl
    . rw [if_neg hold] at hnext
      refine ⟨front ++ [e.older], back, ?_, Or.inl ?_, ?_⟩
      . rw [List.append_assoc]
        exact hnext
      . rw [List.length_append, List.length_singleton, heq]
      . rw [List.append_assoc]
        cases back with
        | nil => rw [Lowest.expire, Lowest.expire, if_neg hold, List.append_nil]
        | cons f back => rw [Lowest.expire, if_neg hold, List.singleton_append]

theorem Holds.removeOld (h : s.Holds es values age)
    : s.removeOld.Holds (Lowest.expire 100 es) values age := by
  have hloop (n : Nat) (hn : n ≤ 16)
      : ∃ front back, ((List.range n).foldl Smallest.growOlder s).Holds (front ++ back) values age
        ∧ (front.length = n ∨ back = [] ∧ front.length ≤ n)
        ∧ front ++ Lowest.expire 100 back = Lowest.expire 100 es := by
    induction n with
    | zero => exact ⟨[], es, h, Or.inl rfl, rfl⟩
    | succ n ih =>
      obtain ⟨front, back, hholds, hfront, hsame⟩ := ih (by omega)
      obtain ⟨front', back', hholds', hfront', hsame'⟩ := hholds.growOlder (by omega) hfront
      rw [List.range_succ, List.foldl_append]
      exact ⟨front', back', hholds', hfront', hsame'.trans hsame⟩
  obtain ⟨front, back, hholds, hfront, hsame⟩ := hloop 16 (Nat.le_refl 16)
  have hback : back = [] := by
    rcases hfront with hlen | ⟨hnil, -⟩
    . have hle := hholds.length
      rw [List.length_append, hlen] at hle
      exact List.eq_nil_of_length_eq_zero (by omega)
    . exact hnil
  rw [← hsame, hback]
  rw [hback] at hholds
  exact hholds

theorem position_eq {featureValue : Int16} {p : Nat} (hp : p ≤ 16)
    (h : ∀ i < 16, featureValue < s.values.getD i 0 ↔ p ≤ i)
    : s.position featureValue = if p < 16 then some p else none := by
  unfold position
  dsimp only
  simp (disch := decide) only [h]
  clear h
  interval_cases p <;> rfl

theorem Holds.getD_values (h : s.Holds es values age) {i : Nat} (hi : i < 16)
    : s.values.getD i 0 = (es.map Entry.value).getD i 10000 := by
  have hles := h.length
  rw [h.values, List.getD_eq_getElem?_getD, List.getD_eq_getElem?_getD,
    List.getElem?_append_left (by simp; omega)]
  by_cases hlen : i < es.length
  . rw [List.getElem?_append_left (by simpa using hlen), List.getElem?_eq_getElem (by simpa using hlen)]
    rfl
  . rw [List.getElem?_append_right (by simpa using hlen), List.length_map, List.getElem?_replicate,
      if_pos (by omega), List.getElem?_eq_none (by simpa using hlen)]
    rfl

theorem Holds.position_append {low high : List (Entry Int16)} (h : s.Holds (low ++ high) values age)
    {featureValue : Int16} (hfiller : featureValue < 10000)
    (hlow : ∀ e ∈ low, e.value ≤ featureValue) (hhigh : ∀ e ∈ high, featureValue < e.value)
    : s.position featureValue = if low.length < 16 then some low.length else none := by
  have hles := h.length
  rw [List.length_append] at hles
  apply position_eq (by omega)
  intro i hi
  rw [h.getD_values hi, List.map_append, List.getD_eq_getElem?_getD]
  by_cases hlen : i < low.length
  . rw [List.getElem?_append_left (by simpa using hlen), List.getElem?_eq_getElem (by simpa using hlen),
      Option.getD_some, List.getElem_map]
    have hle := hlow low[i] (List.getElem_mem hlen)
    exact iff_of_false (not_lt_of_ge hle) (by omega)
  . rw [List.getElem?_append_right (by simpa using hlen), List.length_map]
    refine iff_of_true ?_ (by omega)
    by_cases hlen' : i - low.length < high.length
    . rw [List.getElem?_eq_getElem (by simpa using hlen'), Option.getD_some, List.getElem_map]
      exact hhigh _ (List.getElem_mem hlen')
    . rw [List.getElem?_eq_none (by simpa using hlen')]
      exact hfiller

/--
One of the arrays when a value is put in behind `low`, and what exceeds its sixteen places falls out.
-/
theorem set_shiftUp {low high : List (Entry Int16)} (f : Entry Int16 → Int16) {filler : List Int16}
    (rest : List Int16) (hlow : low.length < 16) (hhigh : low.length + high.length ≤ 16)
    (hfiller : filler.length = 16 - (low.length + high.length)) (e : Entry Int16)
    : (shiftUp low.length ((low ++ high).map f ++ filler ++ rest)).set low.length (f e)
        =
      ((low ++ e :: high).take 16).map f ++ filler.take (15 - low.length - high.length) ++ rest := by
  have hup : (Shift.up 0 low.length (15 - low.length) ((low ++ high).map f ++ filler ++ rest)).set
      low.length (f e) = _ :=
    Shift.set_up 0 (f e) (by simp; omega)
  have hshift : shiftUp low.length ((low ++ high).map f ++ filler ++ rest)
      = Shift.up 0 low.length (15 - low.length) ((low ++ high).map f ++ filler ++ rest) := rfl
  have htake : (low ++ e :: high).take 16 = low ++ e :: high.take (15 - low.length) := by
    rw [List.take_append, List.take_of_length_le (Nat.le_of_lt hlow),
      show 16 - low.length = 15 - low.length + 1 by omega, List.take_succ_cons]
  rw [hshift, hup, htake, List.map_append, List.map_append, List.map_cons, List.map_take,
    List.append_assoc (low.map f), List.take_append_of_le_length (by simp),
    List.take_of_length_le (by simp), List.drop_append, List.drop_of_length_le (by simp),
    List.length_map, Nat.sub_self, List.drop_zero, List.nil_append, List.take_append, List.length_map]
  simp only [List.append_assoc, List.cons_append]

theorem insert_of_some {featureValue : Int16} {p : Nat} (h : s.position featureValue = some p)
    : s.insert featureValue
        =
      { values := (shiftUp p s.values).set p featureValue, age := (shiftUp p s.age).set p 1 } := by
  unfold Smallest.insert
  rw [h]

theorem insert_of_none {featureValue : Int16} (h : s.position featureValue = none)
    : s.insert featureValue = s := by
  unfold Smallest.insert
  rw [h]

theorem Holds.insert_append {low high : List (Entry Int16)} (h : s.Holds (low ++ high) values age)
    {featureValue : Int16} (hfiller : featureValue < 10000)
    (hlow : ∀ e ∈ low, e.value ≤ featureValue) (hhigh : ∀ e ∈ high, featureValue < e.value)
    : (s.insert featureValue).Holds ((low ++ .fresh featureValue :: high).take 16) values age := by
  have hles := h.length
  have hposition := h.position_append hfiller hlow hhigh
  rw [List.length_append] at hles
  by_cases hfull : low.length < 16
  . rw [if_pos hfull] at hposition
    obtain ⟨filler, hlen, hage⟩ := h.age
    rw [List.length_append] at hlen
    have hvalues := h.values
    have hlength : ((low ++ .fresh featureValue :: high).take 16).length
        = min 16 (low.length + high.length + 1) := by
      rw [List.length_take, List.length_append, List.length_cons, Nat.add_assoc]
    have hmem (e : Entry Int16) (he : e ∈ (low ++ .fresh featureValue :: high).take 16)
        : e = .fresh featureValue ∨ e ∈ low ++ high := by
      have he := List.mem_of_mem_take he
      rw [List.mem_append, List.mem_cons] at he
      rw [List.mem_append]
      tauto
    rw [insert_of_some hposition]
    refine ⟨List.length_take_le _ _, ?_, ⟨filler.take (15 - low.length - high.length), ?_, ?_⟩,
      fun e he => ?_, fun e he => ?_⟩
    . dsimp only
      rw [hvalues, List.length_append, hlength]
      apply (set_shiftUp Entry.value values hfull hles List.length_replicate (.fresh featureValue)).trans
      rw [List.take_replicate]
      congr 3
      omega
    . rw [List.length_take, hlength, hlen]
      omega
    . dsimp only
      rw [hage]
      exact set_shiftUp (fun e => Int16.ofNat e.age) age hfull hles hlen (.fresh featureValue)
    . rcases hmem e he with rfl | he
      . show 1 ≤ 100
        decide
      . exact h.ageLe e he
    . rcases hmem e he with rfl | he
      . exact hfiller
      . exact h.low e he
  . rw [if_neg hfull] at hposition
    have hnil : high = [] := List.eq_nil_of_length_eq_zero (by omega)
    rw [insert_of_none hposition, List.take_append_of_le_length (by omega),
      List.take_of_length_le (by omega)]
    rw [hnil, List.append_nil] at h
    exact h

theorem Holds.observe (h : s.Holds es values age)
    (hsorted : es.Pairwise fun e f => e.value ≤ f.value) {featureValue : Int16}
    (hfiller : featureValue < 10000)
    : (s.observe featureValue).Holds (Lowest.observe 100 16 es featureValue) values age := by
  obtain ⟨low, high, hsplit, hinsert, hlow, hhigh⟩ :=
    Lowest.insert_eq featureValue (Lowest.expire_sorted 100 hsorted)
  have hold := h.removeOld
  rw [hsplit] at hold
  unfold Smallest.observe Lowest.observe
  rw [hinsert]
  exact hold.insert_append hfiller hlow hhigh

end Smallest

end WebRtc
