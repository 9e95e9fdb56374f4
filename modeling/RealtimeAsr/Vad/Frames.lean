import Mathlib.Logic.Function.Iterate
import RealtimeAsr.Vad.SimpleVad

/-!
This module shows that repeated calls of `read_int16_bytes` read a file frame by frame, each sample once,
and then report the end.
-/

namespace SimpleVad

variable (int16 : UInt8 → UInt8 → Int16)

theorem length_items (bytes : List UInt8) : (items int16 bytes).length = bytes.length / 2 := by
  fun_induction items int16 bytes with
  | case1 a b rest ih =>
    simp only [List.length_cons, ih]
    omega
  | case2 bytes hshort =>
    cases bytes with
    | nil => rfl
    | cons a rest =>
      cases rest with
      | nil => simp
      | cons b rest => exact absurd rfl (hshort a b rest)

theorem items_drop (bytes : List UInt8) (n : Nat)
    : items int16 (bytes.drop (2 * n)) = (items int16 bytes).drop n := by
  induction n generalizing bytes with
  | zero => rfl
  | succ n ih =>
    cases bytes with
    | nil => simp [items]
    | cons a rest =>
      cases rest with
      | nil => simp [items, Nat.mul_succ]
      | cons b rest =>
        simp only [items, Nat.mul_succ, List.drop_succ_cons]
        exact ih rest

theorem items_take (bytes : List UInt8) (n : Nat)
    : items int16 (bytes.take (2 * n)) = (items int16 bytes).take n := by
  induction n generalizing bytes with
  | zero => rfl
  | succ n ih =>
    cases bytes with
    | nil => simp [items]
    | cons a rest =>
      cases rest with
      | nil => simp [items, Nat.mul_succ]
      | cons b rest =>
        simp only [items, Nat.mul_succ, List.take_succ_cons]
        rw [ih rest]

def next (s : ByteFile × List Int16) : ByteFile × List Int16 :=
  (readInt16Bytes int16 s.1 s.2).2

def after (s : ByteFile × List Int16) (k : Nat) : ByteFile × List Int16 :=
  (next int16)^[k] s

def code (s : ByteFile × List Int16) (k : Nat) : Int :=
  (readInt16Bytes int16 (after int16 s k).1 (after int16 s k).2).1

def frame (s : ByteFile × List Int16) (k : Nat) : List Int16 :=
  (after int16 s (k + 1)).2

@[simp]
theorem after_succ (s : ByteFile × List Int16) (k : Nat)
    : after int16 s (k + 1) = next int16 (after int16 s k) := by
  unfold after
  rw [Function.iterate_succ_apply']

theorem after_next (s : ByteFile × List Int16) (k : Nat)
    : after int16 (next int16 s) k = after int16 s (k + 1) := by
  unfold after
  rw [Function.iterate_succ_apply]

theorem readFrames_of_code {n : Nat} {s : ByteFile × List Int16}
    (hreads : ∀ k < n, code int16 s k = 0) (hend : code int16 s n ≠ 0)
    : readFrames int16 (n + 1) s.1 s.2
      =
      some ((List.range n).map (frame int16 s), code int16 s n) := by
  induction n generalizing s with
  | zero =>
    have hend : (readInt16Bytes int16 s.1 s.2).1 ≠ 0 := hend
    unfold readFrames
    dsimp only
    rw [if_neg hend]
    rfl
  | succ n ih =>
    have hfirst : (readInt16Bytes int16 s.1 s.2).1 = 0 := hreads 0 (by omega)
    have hcode : ∀ k, code int16 (next int16 s) k = code int16 s (k + 1) := by
      intro k
      unfold code
      rw [after_next]
    have hframe : ∀ k, frame int16 (next int16 s) k = frame int16 s (k + 1) := by
      intro k
      unfold frame
      rw [after_next]
    have hrest := ih (s := next int16 s)
      (fun k hk => by rw [hcode]; exact hreads (k + 1) (by omega)) (by rw [hcode]; exact hend)
    unfold readFrames
    dsimp only
    rw [if_pos hfirst]
    change (readFrames int16 (n + 1) (next int16 s).1 (next int16 s).2).map _ = _
    rw [hrest, hcode, List.range_succ_eq_map]
    simp [hframe, Function.comp_def]
    rfl

theorem readFrames_none {n : Nat} {s : ByteFile × List Int16}
    (hreads : ∀ k < n, code int16 s k = 0)
    : readFrames int16 n s.1 s.2 = none := by
  induction n generalizing s with
  | zero => rfl
  | succ n ih =>
    have hfirst : (readInt16Bytes int16 s.1 s.2).1 = 0 := hreads 0 (by omega)
    have hrest := ih (s := next int16 s) fun k hk => by
      unfold code
      rw [after_next]
      exact hreads (k + 1) (by omega)
    unfold readFrames
    dsimp only
    rw [if_pos hfirst]
    change (readFrames int16 n (next int16 s).1 (next int16 s).2).map _ = _
    rw [hrest]
    rfl

def frameTotal (samples : List Int16) : Nat :=
  (samples.length + 159) / 160

def padded (samples : List Int16) : List Int16 :=
  samples ++ List.replicate (160 * frameTotal samples - samples.length) 0

theorem padded_frame (samples : List Int16) {k : Nat} (hk : k < frameTotal samples)
    : ((padded samples).drop (160 * k)).take 160
      =
      let read := (samples.drop (160 * k)).take 160
      read ++ List.replicate (160 - read.length) 0 := by
  unfold frameTotal at hk
  unfold padded frameTotal
  dsimp only
  rw [List.drop_append_of_le_length (by omega), List.take_append]
  congr 1
  simp only [List.length_drop, List.length_take, List.take_replicate]
  congr 1
  omega

structure Reading (bytes : List UInt8) (k : Nat) (s : ByteFile × List Int16) : Prop where
  file : s.1.bytes = bytes
  failsAt : s.1.failsAt = none
  pos : s.1.pos = min (320 * k) bytes.length
  eof : s.1.eof = true ↔ bytes.length < 320 * k
  output : s.2.length = 160

section

variable {bytes : List UInt8} {k : Nat} {s : ByteFile × List Int16}

theorem Reading.fread (h : Reading bytes k s) (hk : 320 * k ≤ bytes.length)
    : s.1.fread int16 frameSize.toNat
      =
      (((items int16 bytes).drop (160 * k)).take 160,
        { s.1 with
          pos := min (320 * (k + 1)) bytes.length
          eof := decide (bytes.length < 320 * (k + 1)) }) := by
  have heof : s.1.eof = false := by
    rw [Bool.eq_false_iff, Ne, h.eof]
    omega
  have hframe : frameSize.toNat = 160 := by decide
  have hread : items int16 ((bytes.drop (320 * k)).take (min (2 * 160) (bytes.length - 320 * k)))
      = ((items int16 bytes).drop (160 * k)).take 160 := by
    have htake : (bytes.drop (320 * k)).take (min (2 * 160) (bytes.length - 320 * k))
        = (bytes.drop (2 * (160 * k))).take (2 * 160) := by
      have hsame : 320 * k = 2 * (160 * k) := by omega
      rw [hsame, List.take_eq_take_iff, List.length_drop]
      omega
    rw [htake, items_take, items_drop]
  unfold ByteFile.fread
  simp only [h.file, h.failsAt, h.pos, hframe, Option.getD_none, Nat.min_self, Option.isSome_none]
  rw [Nat.min_eq_left hk, hread]
  by_cases hfull : 320 * (k + 1) ≤ bytes.length
  . have hgot : min (2 * 160) (bytes.length - 320 * k) = 2 * 160 := by omega
    have hpos : min (320 * (k + 1)) bytes.length = 320 * k + 2 * 160 := by omega
    have hmore : decide (bytes.length < 320 * (k + 1)) = false := by
      rw [decide_eq_false_iff_not]
      omega
    rw [if_pos hgot, hgot, hpos, hmore, ← heof]
  . have hgot : min (2 * 160) (bytes.length - 320 * k) ≠ 2 * 160 := by omega
    have hpos : min (320 * (k + 1)) bytes.length
        = 320 * k + min (2 * 160) (bytes.length - 320 * k) := by
      omega
    have hend : decide (bytes.length < 320 * (k + 1)) = true := by
      rw [decide_eq_true_iff]
      omega
    rw [if_neg hgot, hpos, hend]
    rfl

theorem Reading.read (h : Reading bytes k s) (hk : k < frameTotal (items int16 bytes))
    : (readInt16Bytes int16 s.1 s.2).1 = 0
      ∧ Reading bytes (k + 1) (next int16 s)
      ∧ (next int16 s).2 = ((padded (items int16 bytes)).drop (160 * k)).take 160 := by
  have hlength := length_items int16 bytes
  have hmore : 160 * k < (items int16 bytes).length := by
    unfold frameTotal at hk
    omega
  have hfread := h.fread int16 (by omega)
  have heof : ¬s.1.eof = true := by
    rw [h.eof]
    omega
  have hframe : frameSize.toNat = 160 := by decide
  rw [padded_frame _ hk]
  have hread : (((items int16 bytes).drop (160 * k)).take 160).length
      = min 160 ((items int16 bytes).length - 160 * k) := by
    simp
  generalize ((items int16 bytes).drop (160 * k)).take 160 = read at hfread hread ⊢
  have hsome : ¬read.length ≤ 0 := by omega
  have hcall : readInt16Bytes int16 s.1 s.2
      = (0, { s.1 with
          pos := min (320 * (k + 1)) bytes.length
          eof := decide (bytes.length < 320 * (k + 1)) },
        read ++ List.replicate (160 - read.length) 0) := by
    unfold readInt16Bytes
    rw [if_neg heof, hfread]
    dsimp only
    rw [if_neg hsome, hframe]
    by_cases hshort : read.length < 160
    . rw [if_pos hshort, List.take_left]
    . have hfull : read.length = 160 := by omega
      have hdrop : s.2.drop 160 = [] := List.drop_eq_nil_of_le (Nat.le_of_eq h.output)
      rw [if_neg hshort, hfull, hdrop]
      rfl
  unfold next
  rw [hcall]
  refine ⟨rfl, ⟨h.file, h.failsAt, rfl, ?_, ?_⟩, rfl⟩
  . exact decide_eq_true_iff
  . simp only [List.length_append, List.length_replicate]
    omega

theorem Reading.stop (h : Reading bytes k s) (hk : k = frameTotal (items int16 bytes))
    : (readInt16Bytes int16 s.1 s.2).1 = 1 ∧ (next int16 s).1.eof = true := by
  have hlength := length_items int16 bytes
  have hdone : (items int16 bytes).length ≤ 160 * k := by
    unfold frameTotal at hk
    omega
  by_cases heof : s.1.eof = true
  . have hcall : readInt16Bytes int16 s.1 s.2 = (1, s.1, s.2) := by
      unfold readInt16Bytes
      exact if_pos heof
    unfold next
    rw [hcall]
    exact ⟨rfl, heof⟩
  . have hbytes := heof
    rw [h.eof] at hbytes
    have hfread := h.fread int16 (by omega)
    have hnone : ((items int16 bytes).drop (160 * k)).take 160 = [] := by
      rw [List.drop_eq_nil_of_le hdone]
      rfl
    have hend : decide (bytes.length < 320 * (k + 1)) = true := by
      rw [decide_eq_true_iff]
      omega
    rw [hnone, hend] at hfread
    unfold next readInt16Bytes
    rw [if_neg heof, hfread]
    exact ⟨rfl, rfl⟩

theorem code_of_eof (heof : s.1.eof = true) (j : Nat) : code int16 s j = 1 := by
  have hcall : readInt16Bytes int16 s.1 s.2 = (1, s.1, s.2) := by
    unfold readInt16Bytes
    exact if_pos heof
  have hnext : next int16 s = s := by
    unfold next
    rw [hcall]
  have hafter : after int16 s j = s := Function.iterate_fixed hnext j
  unfold code
  rw [hafter, hcall]

theorem Reading.after (h : Reading bytes 0 s) (hk : k ≤ frameTotal (items int16 bytes))
    : Reading bytes k (after int16 s k) := by
  induction k with
  | zero => exact h
  | succ k ih =>
    rw [after_succ]
    exact ((ih (by omega)).read int16 (by omega)).2.1

theorem Reading.code_eq (h : Reading bytes 0 s) (j : Nat)
    : code int16 s j = if j < frameTotal (items int16 bytes) then 0 else 1 := by
  split
  . next hj => exact ((h.after int16 (Nat.le_of_lt hj)).read int16 hj).1
  . next hj =>
    obtain ⟨hstop, heof⟩ := (h.after int16 (Nat.le_refl _)).stop int16 rfl
    obtain ⟨m, rfl⟩ := Nat.exists_eq_add_of_le (Nat.le_of_not_lt hj)
    cases m with
    | zero => exact hstop
    | succ m =>
      have hlate : SimpleVad.after int16 s (frameTotal (items int16 bytes) + (m + 1))
          = SimpleVad.after int16
            (next int16 (SimpleVad.after int16 s (frameTotal (items int16 bytes)))) m := by
        rw [after_next]
        unfold SimpleVad.after
        rw [← Function.iterate_add_apply, Nat.add_comm]
      have hcode := code_of_eof int16 heof m
      unfold code at hcode ⊢
      rw [hlate]
      exact hcode

theorem Reading.frames (h : Reading bytes 0 s) (hk : k ≤ frameTotal (items int16 bytes))
    : ((List.range k).map (frame int16 s)).flatten
      =
      (padded (items int16 bytes)).take (160 * k) := by
  induction k with
  | zero => rfl
  | succ k ih =>
    have hbefore : Reading bytes k (SimpleVad.after int16 s k) := h.after int16 (by omega)
    have hframe := (hbefore.read int16 hk).2.2
    rw [List.range_succ, List.map_append, List.flatten_append, ih (by omega), Nat.mul_succ,
      List.take_add]
    simp [frame, hframe]

end

/--
The calls return `0` once for each frame and `1` from then on, the frames are the samples with zeros
behind them, and the loop of the driver ends after one call more than there are frames.
-/
theorem frames_cover_file (bytes : List UInt8) (data : Fin 160 → Int16)
    : let s : ByteFile × List Int16 := ({ bytes := bytes }, List.ofFn data)
      let samples := items int16 bytes
      let total := frameTotal samples
      samples.length = bytes.length / 2
        ∧ (∀ k, code int16 s k = if k < total then 0 else 1)
        ∧ ((List.range total).map (frame int16 s)).flatten
          = samples ++ List.replicate (160 * total - samples.length) 0
        ∧ readFrames int16 (total + 1) s.1 s.2 = some ((List.range total).map (frame int16 s), 1)
        ∧ ∀ fuel ≤ total, readFrames int16 fuel s.1 s.2 = none := by
  intro s samples total
  have hreading : Reading bytes 0 s := by
    refine ⟨rfl, rfl, ?_, ?_, List.length_ofFn⟩
    . simp [s]
    . simp [s]
  have hcode := hreading.code_eq int16
  have hend : code int16 s total = 1 := by
    rw [hcode, if_neg (Nat.lt_irrefl total)]
  have hreads : ∀ k < total, code int16 s k = 0 := by
    intro k hk
    rw [hcode, if_pos hk]
  refine ⟨length_items int16 bytes, hcode, ?_, ?_, ?_⟩
  . rw [hreading.frames int16 (Nat.le_refl _), List.take_of_length_le]
    . rfl
    . unfold padded frameTotal
      simp only [List.length_append, List.length_replicate]
      omega
  . rw [readFrames_of_code int16 hreads (by rw [hend]; decide), hend]
  . intro fuel hfuel
    exact readFrames_none int16 fun k hk => hreads k (Nat.lt_of_lt_of_le hk hfuel)

end SimpleVad
