import RealtimeAsr.Lib.Blocks
import RealtimeAsr.Cppcodec.StreamCodec
import Mathlib.Data.List.GetD

/-!
This module contains the texts a codec accepts, without the array and the pointers of `decode`, and
shows that `decode` does with every text what they say.
-/

namespace Cppcodec

open CodecVariant StreamCodec

section

variable (v : CodecVariant)

/--
The indexes of the symbols in front of the first character that is none and is not ignored.
-/
def CodecVariant.body : Bytes → List Nat
  | [] => []
  | c :: src =>
    if v.shouldIgnore c then
      body src
    else if isStopCharacter (v.lookup c) then
      []
    else
      v.lookup c :: body src

def CodecVariant.behind : Bytes → Bytes
  | [] => []
  | c :: src =>
    if v.shouldIgnore c then
      behind src
    else if isStopCharacter (v.lookup c) then
      c :: src
    else
      behind src

/--
The text is `n` characters of padding, and ends there or is cut off there.
-/
def CodecVariant.paddingRun : Nat → Bytes → Bool
  | 0, [] => true
  | 0, c :: _ => isEof (v.lookup c)
  | _ + 1, [] => false
  | n + 1, c :: src => isPadding (v.lookup c) && paddingRun n src

end

variable (k : Codec) (v : CodecVariant)

def Codec.decodeBlocks (idx : List Nat) : Bytes :=
  (Blocks.full k.encodedBlockSize idx).flatMap k.decodeBlock

/--
What comes of the symbols of the last block, with `padded` if they have to fill it with padding.
-/
def Codec.decodeEnd (idx : List Nat) (padded : Bool) (fills : Bool) : Except ParseError Bytes :=
  if padded ∧ !fills then
    .error .paddingError
  else
    k.decodeTail idx idx.length

def grammarRest (idx : List Nat) : Bytes → Except ParseError Bytes
  | [] => if idx = [] then .ok [] else k.decodeEnd idx v.requiresPadding false
  | c :: src =>
    if isEof (v.lookup c) then
      if idx = [] then .ok [] else k.decodeEnd idx v.requiresPadding false
    else if isInvalid (v.lookup c) then
      .error (.symbolError c)
    else if idx = [] then
      .error .paddingError
    else
      k.decodeEnd idx true (v.paddingRun (k.encodedBlockSize - (idx.length + 1)) src)

def grammar (src : Bytes) : Decoded :=
  let idx := v.body src
  let put := k.decodeBlocks idx
  match grammarRest k v (Blocks.rest k.encodedBlockSize idx) (v.behind src) with
  | .ok tail => { put := put ++ tail, error := none }
  | .error e => { put, error := some e }

theorem isStopCharacter_of_lt {idx : Nat} (h : idx < 256) : isStopCharacter idx = false := by
  unfold isStopCharacter
  rw [Nat.shiftRight_eq_div_pow, Nat.div_eq_of_lt h]
  rfl

theorem lt_of_not_stop {idx : Nat} (h : isStopCharacter idx = false) : idx < 256 := by
  unfold isStopCharacter at h
  rw [Nat.shiftRight_eq_div_pow] at h
  simp only [bne_eq_false_iff_eq] at h
  omega

def Plain (idx : Nat) : Prop :=
  idx < 256 ∨ idx = eofIdx

theorem Plain.not_invalid {idx : Nat} (h : Plain idx) : isInvalid idx = false := by
  have hne : idx ≠ 512 := by
    cases h with
    | inl h => omega
    | inr h =>
      rw [h]
      decide
  simpa [isInvalid, invalidIdx] using hne

theorem Plain.not_padding {idx : Nat} (h : Plain idx) : isPadding idx = false := by
  have hne : idx ≠ 256 := by
    cases h with
    | inl h => omega
    | inr h =>
      rw [h]
      decide
  simpa [isPadding, paddingIdx] using hne

/--
The array and the pointer in the first loop: `pending` are the symbols of a block that is not whole.
-/
structure Holds (s : DecodeState) (pending : List Nat) : Prop where
  ptr : s.alphabetIndexPtr = pending.length
  room : pending.length < k.encodedBlockSize
  taken : s.alphabetIndexes.take pending.length = pending
  size : s.alphabetIndexes.length = k.encodedBlockSize
  plain : ∀ idx ∈ s.alphabetIndexes, Plain idx

section Loop

variable {k v} {s : DecodeState} {pending : List Nat}

theorem Holds.current_plain (h : Holds k s pending) : Plain s.current := by
  unfold DecodeState.current
  rw [h.ptr, List.getD_eq_getElem _ _ (by rw [h.size]; exact h.room)]
  apply h.plain
  apply List.getElem_mem

theorem Holds.current_set (h : Holds k s pending) (idx : Nat)
    : { s with alphabetIndexes := s.alphabetIndexes.set s.alphabetIndexPtr idx }.current = idx := by
  have hlt : s.alphabetIndexPtr < s.alphabetIndexes.length := by
    rw [h.ptr, h.size]
    exact h.room
  unfold DecodeState.current
  rw [List.getD_eq_getElem _ _ (by rw [List.length_set]; exact hlt)]
  apply List.getElem_set_self

theorem Holds.taken_set (h : Holds k s pending) (idx : Nat)
    : (s.alphabetIndexes.set s.alphabetIndexPtr idx).take (pending.length + 1)
        =
      pending ++ [idx] := by
  have hlt : pending.length < (s.alphabetIndexes.set pending.length idx).length := by
    rw [List.length_set, h.size]
    exact h.room
  rw [h.ptr, List.take_succ_eq_append_getElem hlt, List.getElem_set_self,
    List.take_set_of_le (Nat.le_refl _), h.taken]

theorem plain_set (h : Holds k s pending) {idx : Nat} (hidx : idx < 256)
    : ∀ x ∈ s.alphabetIndexes.set s.alphabetIndexPtr idx, Plain x := by
  intro x hx
  cases List.mem_or_eq_of_mem_set hx with
  | inl hmem => exact h.plain x hmem
  | inr heq =>
    left
    rw [heq]
    exact hidx

/--
Where the first loop stops: behind the whole blocks, with the symbols of the last one in the array.
-/
structure Stopped (k : Codec) (v : CodecVariant) (s : DecodeState) (idx : List Nat) (src : Bytes)
    : Prop where
  ptr : s.alphabetIndexPtr = (Blocks.rest k.encodedBlockSize idx).length
  taken : s.alphabetIndexes.take s.alphabetIndexPtr = Blocks.rest k.encodedBlockSize idx
  plain : src = [] → Plain s.current
  current : ∀ c ∈ src.head?, s.current = v.lookup c

theorem Holds.stopped (h : Holds k s pending) : Stopped k v s pending [] where
  ptr := by
    rw [Blocks.rest_of_short h.room, h.ptr]
  taken := by
    rw [Blocks.rest_of_short h.room, h.ptr, h.taken]
  plain _ := h.current_plain
  current c hc := by cases hc

theorem Holds.stopped_set (h : Holds k s pending) (c : UInt8) (src : Bytes)
    : Stopped k v { s with alphabetIndexes := s.alphabetIndexes.set s.alphabetIndexPtr (v.lookup c) }
        pending (c :: src) where
  ptr := by
    rw [Blocks.rest_of_short h.room, ← h.ptr]
  taken := by
    show (s.alphabetIndexes.set s.alphabetIndexPtr (v.lookup c)).take s.alphabetIndexPtr = _
    rw [Blocks.rest_of_short h.room, List.take_set_of_le (Nat.le_refl _), h.ptr, h.taken]
  plain hnil := by cases hnil
  current d hd := by
    cases hd
    exact h.current_set _

theorem decodeLoop_spec (src : Bytes) (h : Holds k s pending)
    : (decodeLoop k v src s).2 = v.behind src
        ∧ Stopped k v (decodeLoop k v src s).1 (pending ++ v.body src) (v.behind src)
        ∧ (decodeLoop k v src s).1.binaryResult
            = s.binaryResult ++ k.decodeBlocks (pending ++ v.body src) := by
  induction src generalizing s pending with
  | nil =>
    refine ⟨rfl, ?_, ?_⟩
    . show Stopped k v s (pending ++ []) []
      rw [List.append_nil]
      exact h.stopped
    . show s.binaryResult = _
      rw [CodecVariant.body, List.append_nil, Codec.decodeBlocks, Blocks.full_of_short h.room]
      simp
  | cons c src ih =>
    unfold decodeLoop CodecVariant.body CodecVariant.behind
    by_cases hignore : v.shouldIgnore c
    . simp only [if_pos hignore]
      exact ih h
    . simp only [if_neg hignore, h.current_set]
      by_cases hstop : isStopCharacter (v.lookup c)
      . simp only [if_pos hstop, List.append_nil]
        refine ⟨trivial, h.stopped_set c src, ?_⟩
        rw [Codec.decodeBlocks, Blocks.full_of_short h.room]
        simp
      . simp only [if_neg hstop]
        have hplain := plain_set h (lt_of_not_stop (Bool.eq_false_iff.mpr hstop))
        have htaken := h.taken_set (v.lookup c)
        have hlen : (s.alphabetIndexes.set s.alphabetIndexPtr (v.lookup c)).length
            = k.encodedBlockSize := by
          rw [List.length_set, h.size]
        rw [List.append_cons]
        split
        . -- The block is whole: what was pending is decoded, and nothing is pending any more.
          next hfull =>
          rw [h.ptr] at hfull
          have hpos : 0 < k.encodedBlockSize := by
            rw [← hfull]
            exact Nat.succ_pos _
          have hblock : s.alphabetIndexes.set s.alphabetIndexPtr (v.lookup c)
              = pending ++ [v.lookup c] := by
            rw [← htaken, hfull, ← hlen, List.take_length]
          have hsize : (pending ++ [v.lookup c]).length = k.encodedBlockSize := by
            rw [← hblock, hlen]
          have hnone : Holds k {
              s with
              alphabetIndexes := s.alphabetIndexes.set s.alphabetIndexPtr (v.lookup c)
              binaryResult := s.binaryResult
                ++ k.decodeBlock (s.alphabetIndexes.set s.alphabetIndexPtr (v.lookup c))
              alphabetIndexPtr := 0 } [] :=
            ⟨rfl, hpos, rfl, hlen, hplain⟩
          obtain ⟨hsrc, hstopped, hput⟩ := ih hnone
          rw [List.nil_append] at hstopped hput
          refine ⟨hsrc, ?_, ?_⟩
          . constructor
            . rw [Blocks.rest_append hpos hsize]
              exact hstopped.ptr
            . rw [Blocks.rest_append hpos hsize]
              exact hstopped.taken
            . exact hstopped.plain
            . exact hstopped.current
          . rw [hput, Codec.decodeBlocks, Codec.decodeBlocks, Blocks.full_append hpos hsize,
              List.flatMap_cons, ← hblock, List.append_assoc]
        . next hpart =>
          rw [h.ptr] at hpart
          have hroom := h.room
          apply ih
          constructor
          . rw [h.ptr, List.length_append]
            rfl
          . rw [List.length_append]
            show pending.length + 1 < _
            omega
          . rw [List.length_append]
            exact htaken
          . exact hlen
          . exact hplain

end Loop

theorem holds_init (hpos : 0 < k.encodedBlockSize) : Holds k (decodeInit k) [] where
  ptr := rfl
  room := hpos
  taken := rfl
  size := by
    unfold decodeInit
    rw [List.length_set, List.length_replicate]
  plain idx hidx := by
    cases List.mem_or_eq_of_mem_set hidx with
    | inl hmem =>
      rw [List.eq_of_mem_replicate hmem]
      left
      decide
    | inr heq =>
      right
      exact heq

theorem paddingLoop_spec (src : Bytes) {last : Nat} (hlast : last ≤ k.encodedBlockSize)
    (hpos : 0 < last) (s : DecodeState)
    : (paddingLoop k v src last >>= fun lastIndexPtr => decodeLast k v s lastIndexPtr true)
        =
      if v.paddingRun (k.encodedBlockSize - last) src then
        k.decodeTail s.alphabetIndexes s.alphabetIndexPtr
      else
        .error .paddingError := by
  have hend : decodeLast k v s last true
      = if k.encodedBlockSize - last = 0 then k.decodeTail s.alphabetIndexes s.alphabetIndexPtr
        else .error .paddingError := by
    unfold decodeLast
    rw [if_pos (Nat.ne_of_gt hpos)]
    by_cases heq : last = k.encodedBlockSize
    . rw [if_neg (fun h => h.2 heq), if_pos (by omega)]
    . rw [if_pos ⟨Or.inr rfl, heq⟩, if_neg (by omega)]
  induction src generalizing last with
  | nil =>
    show decodeLast k v s last true = _
    rw [hend]
    cases k.encodedBlockSize - last with
    | zero => rfl
    | succ n => rfl
  | cons c src ih =>
    unfold paddingLoop
    dsimp only
    split
    . next heof =>
      show decodeLast k v s last true = _
      rw [hend]
      cases k.encodedBlockSize - last with
      | zero => rw [if_pos rfl, CodecVariant.paddingRun, if_pos heof]
      | succ n =>
        have hpad : isPadding (v.lookup c) = false := by
          unfold isEof at heof
          rw [eq_of_beq heof]
          rfl
        rw [if_neg (Nat.succ_ne_zero n), CodecVariant.paddingRun, hpad]
        rfl
    . next heof =>
      split
      . next hpad =>
        rw [Bool.not_eq_true'] at hpad
        cases k.encodedBlockSize - last with
        | zero =>
          rw [CodecVariant.paddingRun, if_neg heof]
          rfl
        | succ n =>
          rw [CodecVariant.paddingRun, hpad]
          rfl
      . next hpad =>
        rw [Bool.not_eq_true, Bool.not_eq_false'] at hpad
        split
        . next hfull =>
          have hn : k.encodedBlockSize - last = 0 := by omega
          rw [hn, CodecVariant.paddingRun, if_neg heof]
          rfl
        . next hroom =>
          have hn : k.encodedBlockSize - last = k.encodedBlockSize - (last + 1) + 1 := by omega
          rw [hn, CodecVariant.paddingRun, hpad, Bool.true_and]
          apply ih (by omega) (Nat.succ_pos last)
          unfold decodeLast
          rw [if_pos (Nat.succ_ne_zero last)]
          by_cases heq : last + 1 = k.encodedBlockSize
          . rw [if_neg (fun h => h.2 heq), if_pos (by omega)]
          . rw [if_pos ⟨Or.inr rfl, heq⟩, if_neg (by omega)]

/--
What the decoding rests on: a tail is decoded by its own symbols, and an index of the alphabet is no
index with a meaning of its own.
-/
structure Readable : Prop where
  encodedPos : 0 < k.encodedBlockSize
  tailTake : ∀ idx n, 0 < n → n < k.encodedBlockSize →
    k.decodeTail idx n = k.decodeTail (idx.take n) n
  alphabet : v.alphabet.length ≤ 256

section Rest

variable {k v} {s : DecodeState} {idx : List Nat} {src : Bytes}

theorem Stopped.rest_eq_nil_iff (h : Stopped k v s idx src)
    : Blocks.rest k.encodedBlockSize idx = [] ↔ s.alphabetIndexPtr = 0 := by
  rw [h.ptr, List.length_eq_zero_iff]

theorem Stopped.ptr_lt (h : Stopped k v s idx src) (hread : Readable k v)
    : s.alphabetIndexPtr < k.encodedBlockSize := by
  rw [h.ptr, Blocks.length_rest]
  exact Nat.mod_lt _ hread.encodedPos

theorem Stopped.tail (h : Stopped k v s idx src) (hread : Readable k v)
    (hpos : s.alphabetIndexPtr ≠ 0)
    : k.decodeTail s.alphabetIndexes s.alphabetIndexPtr
        =
      k.decodeTail (Blocks.rest k.encodedBlockSize idx)
        (Blocks.rest k.encodedBlockSize idx).length := by
  rw [hread.tailTake _ _ (Nat.pos_of_ne_zero hpos) (h.ptr_lt hread), h.taken, h.ptr]

theorem Stopped.decodeRest_end (h : Stopped k v s idx src) (hread : Readable k v)
    (hinvalid : isInvalid s.current = false) (hpadding : isPadding s.current = false)
    : decodeRest k v s src
        =
      if Blocks.rest k.encodedBlockSize idx = [] then
        .ok []
      else
        k.decodeEnd (Blocks.rest k.encodedBlockSize idx) v.requiresPadding false := by
  simp only [h.rest_eq_nil_iff]
  unfold decodeRest decodeLast Codec.decodeEnd
  rw [hinvalid, hpadding]
  by_cases hzero : s.alphabetIndexPtr = 0
  . simp [hzero]
  . rw [← h.tail hread hzero]
    have hne := Nat.ne_of_lt (h.ptr_lt hread)
    simp [hzero, hne]

theorem Stopped.decodeRest_padding {c : UInt8} (h : Stopped k v s idx (c :: src))
    (hread : Readable k v) (hinvalid : isInvalid s.current = false)
    (hpadding : isPadding s.current = true)
    : decodeRest k v s (c :: src)
        =
      if Blocks.rest k.encodedBlockSize idx = [] then
        .error .paddingError
      else
        k.decodeEnd (Blocks.rest k.encodedBlockSize idx) true
          (v.paddingRun
            (k.encodedBlockSize - ((Blocks.rest k.encodedBlockSize idx).length + 1)) src) := by
  simp only [h.rest_eq_nil_iff]
  unfold decodeRest Codec.decodeEnd
  rw [hinvalid, hpadding]
  by_cases hzero : s.alphabetIndexPtr = 0
  . simp [hzero]
  . rw [← h.tail hread hzero, ← h.ptr]
    have hloop := paddingLoop_spec k v src (h.ptr_lt hread) (Nat.succ_pos _) s
    simp only [Bool.false_eq_true, if_false, if_true, if_neg hzero, List.tail_cons, hloop]
    cases v.paddingRun (k.encodedBlockSize - (s.alphabetIndexPtr + 1)) src with
    | false => rfl
    | true => rfl

end Rest

theorem behind_stop {src rest : Bytes} {c : UInt8} (h : v.behind src = c :: rest)
    : isStopCharacter (v.lookup c) = true := by
  induction src with
  | nil => cases h
  | cons d src ih =>
    unfold CodecVariant.behind at h
    split at h
    . exact ih h
    . split at h
      . next hstop =>
        cases h
        exact hstop
      . exact ih h

theorem lookup_cases (hread : Readable k v) {c : UInt8} (h : isStopCharacter (v.lookup c) = true)
    : v.lookup c = eofIdx ∨ v.lookup c = paddingIdx ∨ v.lookup c = invalidIdx := by
  unfold CodecVariant.lookup CodecVariant.indexOf at *
  split at h
  . next idx hidx =>
    have hlt : idx < v.alphabet.length := by
      rw [List.idxOf?_eq_some_iff] at hidx
      exact hidx.1
    rw [isStopCharacter_of_lt (Nat.lt_of_lt_of_le hlt hread.alphabet)] at h
    cases h
  . split
    . exact Or.inl rfl
    . split
      . exact Or.inr (Or.inl rfl)
      . exact Or.inr (Or.inr rfl)

/--
`decode` with its array and its pointers does what the grammar says: it puts the same bytes and throws
the same exception.
-/
theorem decodeInto_eq_grammar (hread : Readable k v) (src : Bytes)
    : decodeInto k v src = grammar k v src := by
  obtain ⟨hsrc, hstopped, hput⟩ := decodeLoop_spec (v := v) src (holds_init k hread.encodedPos)
  rw [List.nil_append] at hstopped hput
  have hrest : decodeRest k v (decodeLoop k v src (decodeInit k)).1 (v.behind src)
      = grammarRest k v (Blocks.rest k.encodedBlockSize (v.body src)) (v.behind src) := by
    generalize (decodeLoop k v src (decodeInit k)).1 = s at hstopped hput
    unfold grammarRest
    cases hbehind : v.behind src with
    | nil =>
      rw [hbehind] at hstopped
      have hplain := hstopped.plain rfl
      exact hstopped.decodeRest_end hread hplain.not_invalid hplain.not_padding
    | cons c rest =>
      rw [hbehind] at hstopped
      have hcurrent := hstopped.current c rfl
      dsimp only
      have hstop := behind_stop v hbehind
      obtain heof | hpadding | hinvalid := lookup_cases k v hread hstop
      . rw [heof] at hcurrent ⊢
        rw [if_pos (by decide)]
        apply hstopped.decodeRest_end hread
        . rw [hcurrent]
          rfl
        . rw [hcurrent]
          rfl
      . rw [hpadding] at hcurrent ⊢
        rw [if_neg (by decide), if_neg (by decide)]
        apply hstopped.decodeRest_padding hread
        . rw [hcurrent]
          rfl
        . rw [hcurrent]
          rfl
      . rw [hinvalid] at hcurrent ⊢
        rw [if_neg (by decide), if_pos (by decide)]
        unfold decodeRest
        rw [hcurrent]
        rfl
  unfold decodeInto grammar
  dsimp only
  rw [hsrc, hrest, hput]
  rfl

end Cppcodec
