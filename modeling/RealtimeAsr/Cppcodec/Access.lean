import RealtimeAsr.Cppcodec.Laws

/-!
This module contains the unchecked writes of `cppcodec/data/access.hpp` and shows that the sizes that
`cppcodec/detail/codec.hpp` reserves for them are large enough.
-/

namespace Cppcodec

open StreamCodec CodecVariant

/--
`direct_data_access_result_state` with the memory behind `m_buffer`.
-/
structure DirectAccess where
  buffer : Bytes
  offset : Nat := 0
  deriving Repr, DecidableEq

namespace DirectAccess

def init (capacity : Nat) : DirectAccess where
  buffer := List.replicate capacity 0

/--
A write behind the end of the buffer is undefined.
-/
def put (a : DirectAccess) (c : UInt8) : Option DirectAccess :=
  if a.offset < a.buffer.length then
    some { buffer := a.buffer.set a.offset c, offset := a.offset + 1 }
  else
    none

def finish (a : DirectAccess) : Bytes :=
  a.buffer.take a.offset

def putAll (a : DirectAccess) (cs : Bytes) : Option DirectAccess :=
  cs.foldlM put a

theorem putAll_spec {a : DirectAccess} {cs : Bytes} (h : a.offset + cs.length ≤ a.buffer.length)
    : ∃ a', a.putAll cs = some a'
        ∧ a'.offset = a.offset + cs.length
        ∧ a'.buffer.length = a.buffer.length
        ∧ a'.finish = a.finish ++ cs := by
  induction cs generalizing a with
  | nil => exact ⟨a, rfl, rfl, rfl, (List.append_nil _).symm⟩
  | cons c cs ih =>
    rw [List.length_cons] at h
    have hroom : a.offset < a.buffer.length := by omega
    obtain ⟨a', hput, hoffset, hlen, hfinish⟩ :=
      ih (a := { buffer := a.buffer.set a.offset c, offset := a.offset + 1 }) (by
        show a.offset + 1 + cs.length ≤ (a.buffer.set a.offset c).length
        rw [List.length_set]
        omega)
    refine ⟨a', ?_, ?_, ?_, ?_⟩
    . unfold putAll
      rw [List.foldlM_cons, put, if_pos hroom]
      exact hput
    . rw [hoffset, List.length_cons]
      show a.offset + 1 + cs.length = _
      omega
    . rw [hlen, List.length_set]
    . have hbound : a.offset < (a.buffer.set a.offset c).length := by
        rw [List.length_set]
        exact hroom
      rw [hfinish]
      unfold finish
      rw [List.take_succ_eq_append_getElem hbound, List.getElem_set_self,
        List.take_set_of_le (Nat.le_refl _), List.append_assoc]
      rfl

end DirectAccess

section Encode

variable {k : Codec} {v : CodecVariant}

theorem length_mapM {α β : Type} {f : α → Option β} {xs : List α} {ys : List β}
    (h : xs.mapM f = some ys)
    : ys.length = xs.length := by
  induction xs generalizing ys with
  | nil =>
    cases h
    rfl
  | cons x xs ih =>
    rw [List.mapM_cons] at h
    cases hx : f x with
    | none =>
      rw [hx] at h
      cases h
    | some y =>
      rw [hx] at h
      cases hrest : xs.mapM f with
      | none =>
        rw [hrest] at h
        cases h
      | some zs =>
        rw [hrest] at h
        cases h
        rw [List.length_cons, List.length_cons, ih hrest]

theorem length_encTail {src text : Bytes} {numSymbols i : Nat}
    (h : encTail k v src numSymbols i = some text) (hi : i ≤ k.encodedBlockSize)
    (hnum : k.encodedBlockSize - i < numSymbols)
    : text.length = numSymbols - (k.encodedBlockSize - i) := by
  induction i generalizing text with
  | zero => cases h
  | succ i ih =>
    unfold encTail at h
    dsimp only at h
    split at h
    . next hlast =>
      cases hidx : k.indexLast (k.encodedBlockSize - (i + 1)) src with
      | none =>
        rw [hidx] at h
        cases h
      | some idx =>
        rw [hidx] at h
        cases h
        rw [List.length_singleton]
        omega
    . next hmore =>
      cases hidx : k.index (k.encodedBlockSize - (i + 1)) src with
      | none =>
        rw [hidx] at h
        cases h
      | some idx =>
        rw [hidx] at h
        cases hrest : encTail k v src numSymbols i with
        | none =>
          rw [hrest] at h
          cases h
        | some rest =>
          rw [hrest] at h
          cases h
          rw [List.length_cons, ih hrest (by omega) (by omega)]
          omega

end Encode

/--
How many characters and bytes the blocks and tails of a codec stand for.
-/
structure Codec.Sized (k : Codec) : Prop where
  tailSymbols : ∀ r n, 0 < r → r < k.binaryBlockSize → k.numEncodedTailSymbols r = some n →
    n = r * k.encodedBlockSize / k.binaryBlockSize
      + (if r * k.encodedBlockSize % k.binaryBlockSize ≠ 0 then 1 else 0)
  tailFits : ∀ r n, 0 < r → r < k.binaryBlockSize → k.numEncodedTailSymbols r = some n →
    0 < n ∧ n ≤ k.encodedBlockSize
  block : ∀ idx, (k.decodeBlock idx).length = k.binaryBlockSize
  tail : ∀ idx n bytes, 0 < n → n < k.encodedBlockSize → k.decodeTail idx n = .ok bytes →
    bytes.length ≤ n * k.binaryBlockSize / k.encodedBlockSize

section Sizes

variable {k : Codec} {v : CodecVariant}

theorem encodedSize_block (h : Lawful k v) (n : Nat)
    : encodedSize k v (k.binaryBlockSize + n) = k.encodedBlockSize + encodedSize k v n := by
  have hpos := h.binaryPos
  unfold encodedSize
  dsimp only
  split
  . rw [Nat.add_assoc, Nat.add_mod_left, Nat.add_sub_assoc (Nat.mod_le _ _), Nat.add_mul,
      Nat.mul_add_div hpos]
  . rw [Nat.add_mul, Nat.mul_add_div hpos, Nat.mul_add_mod, Nat.add_assoc]

theorem encodedSize_zero (h : Lawful k v) : encodedSize k v 0 = 0 := by
  have hpos := h.binaryPos
  unfold encodedSize
  dsimp only
  split
  . rw [Nat.zero_add, Nat.mod_eq_of_lt (by omega), Nat.sub_self, Nat.zero_mul, Nat.zero_div]
  . rw [Nat.zero_mul, Nat.zero_div, Nat.zero_mod]
    rfl

theorem encodedSize_short {n : Nat} (hpos : 0 < n) (hn : n < k.binaryBlockSize)
    (hgenerates : v.generatesPadding = true)
    : encodedSize k v n = k.encodedBlockSize := by
  have hmod : (n + (k.binaryBlockSize - 1)) % k.binaryBlockSize = n - 1 := by
    have heq : n + (k.binaryBlockSize - 1) = n - 1 + k.binaryBlockSize := by omega
    rw [heq, Nat.add_mod_right, Nat.mod_eq_of_lt (by omega)]
  have hsub : n + (k.binaryBlockSize - 1) - (n - 1) = k.binaryBlockSize := by omega
  unfold encodedSize
  dsimp only
  rw [if_pos hgenerates, hmod, hsub, Nat.mul_div_cancel_left _ (by omega)]

theorem length_encodeRest (h : Lawful k v) (hsized : k.Sized) {b text : Bytes}
    (hb : b.length < k.binaryBlockSize) (hencode : encodeRest k v b = some text)
    : text.length = encodedSize k v b.length := by
  unfold encodeRest at hencode
  by_cases hpos : b.length > 0
  . rw [if_pos hpos, if_neg (by omega)] at hencode
    cases hnum : k.numEncodedTailSymbols b.length with
    | none =>
      rw [hnum] at hencode
      cases hencode
    | some n =>
      rw [hnum] at hencode
      obtain ⟨hnpos, hfits⟩ := hsized.tailFits _ _ hpos hb hnum
      cases htail : encTail k v b n k.encodedBlockSize with
      | none =>
        simp [htail] at hencode
      | some symbols =>
        have hlen := length_encTail htail (Nat.le_refl _) (by omega)
        simp [htail] at hencode
        rw [← hencode, List.length_append, hlen]
        unfold pad
        split
        . next hgenerates =>
          rw [List.length_replicate, encodedSize_short hpos hb hgenerates]
          omega
        . next hgenerates =>
          rw [hsized.tailSymbols _ _ hpos hb hnum] at *
          unfold encodedSize
          dsimp only
          rw [if_neg hgenerates]
          simp
  . rw [if_neg hpos] at hencode
    cases hencode
    have hzero : b.length = 0 := by omega
    rw [hzero, encodedSize_zero h]
    rfl

theorem length_encode (h : Lawful k v) (hsized : k.Sized) {src text : Bytes}
    (hencode : encode k v src = some text)
    : text.length = encodedSize k v src.length := by
  unfold encode at hencode
  induction src using Blocks.induction h.binaryPos generalizing text with
  | short src hsrc =>
    rw [Nat.div_eq_of_lt hsrc] at hencode
    exact length_encodeRest h hsized hsrc hencode
  | block b src hb ih =>
    rw [Blocks.count_append h.binaryPos hb, encodeFrom, ← hb, List.drop_left, hb] at hencode
    cases hblock : encBlock k v (b ++ src) with
    | none =>
      rw [hblock] at hencode
      cases hencode
    | some block =>
      rw [hblock] at hencode
      cases hrest : encodeFrom k v (src.length / k.binaryBlockSize) src with
      | none =>
        simp [hrest] at hencode
      | some rest =>
        simp [hrest] at hencode
        unfold encBlock at hblock
        rw [← hencode, List.length_append, ih hrest, length_mapM hblock, List.length_range,
          List.length_append, hb, encodedSize_block h]

theorem decodedMaxSize_mono (h : Lawful k v) {m n : Nat} (hmn : m ≤ n)
    : decodedMaxSize k v m ≤ decodedMaxSize k v n := by
  have hpos := h.encodedPos
  have hdiv := Nat.div_le_div_right (c := k.encodedBlockSize) hmn
  unfold decodedMaxSize
  dsimp only
  split
  . exact Nat.mul_le_mul_right _ hdiv
  . have heq (x : Nat) : x / k.encodedBlockSize * k.binaryBlockSize
        + x % k.encodedBlockSize * k.binaryBlockSize / k.encodedBlockSize
          = x * k.binaryBlockSize / k.encodedBlockSize := by
      calc _ = (k.encodedBlockSize * (x / k.encodedBlockSize * k.binaryBlockSize)
            + x % k.encodedBlockSize * k.binaryBlockSize) / k.encodedBlockSize := by
            rw [Nat.mul_add_div hpos]
        _ = _ := by
            rw [← Nat.mul_assoc, ← Nat.add_mul, Nat.div_add_mod]
    rw [heq, heq]
    exact Nat.div_le_div_right (Nat.mul_le_mul_right _ hmn)

theorem length_body_behind (src : Bytes) : (v.body src).length + (v.behind src).length ≤ src.length := by
  induction src with
  | nil => exact Nat.le_refl 0
  | cons c src ih =>
    unfold CodecVariant.body CodecVariant.behind
    split
    . rw [List.length_cons]
      omega
    . split
      . rw [List.length_nil, Nat.zero_add]
      . rw [List.length_cons, List.length_cons]
        omega

theorem length_paddingRun {n : Nat} {src : Bytes} (h : v.paddingRun n src = true)
    : n ≤ src.length := by
  induction n generalizing src with
  | zero => exact Nat.zero_le _
  | succ n ih =>
    cases src with
    | nil => cases h
    | cons c src =>
      rw [CodecVariant.paddingRun, Bool.and_eq_true] at h
      rw [List.length_cons]
      exact Nat.succ_le_succ (ih h.2)

theorem length_decodeBlocks (hsized : k.Sized) (idx : List Nat)
    : (k.decodeBlocks idx).length = idx.length / k.encodedBlockSize * k.binaryBlockSize := by
  unfold Codec.decodeBlocks
  rw [List.length_flatMap, ← Blocks.length_full (n := k.encodedBlockSize) idx]
  induction Blocks.full k.encodedBlockSize idx with
  | nil => simp
  | cons b bs ih =>
    rw [List.map_cons, List.sum_cons, ih, hsized.block, List.length_cons, Nat.succ_mul, Nat.add_comm]

theorem decodeEnd_ok {idx : List Nat} {padded fills : Bool} {tail : Bytes}
    (h : k.decodeEnd idx padded fills = .ok tail)
    : k.decodeTail idx idx.length = .ok tail ∧ (padded = true → fills = true) := by
  unfold Codec.decodeEnd at h
  split at h
  . cases h
  . next hfills =>
    refine ⟨h, fun hpadded => ?_⟩
    by_contra hnot
    exact hfills ⟨hpadded, by simpa using hnot⟩

theorem grammarRest_ok {idx : List Nat} {behind tail : Bytes}
    (h : grammarRest k v idx behind = .ok tail)
    : tail = []
        ∨ idx ≠ [] ∧ k.decodeTail idx idx.length = .ok tail
          ∧ (v.requiresPadding = true → k.encodedBlockSize ≤ idx.length + behind.length) := by
  have hend (hnil : ¬idx = []) (hok : k.decodeEnd idx v.requiresPadding false = .ok tail)
      : tail = []
          ∨ idx ≠ [] ∧ k.decodeTail idx idx.length = .ok tail
            ∧ (v.requiresPadding = true → k.encodedBlockSize ≤ idx.length + behind.length) := by
    obtain ⟨htail, hfills⟩ := decodeEnd_ok hok
    right
    refine ⟨hnil, htail, fun hrequires => ?_⟩
    cases hfills hrequires
  by_cases hnil : idx = []
  . left
    cases behind with
    | nil =>
      rw [grammarRest, if_pos hnil] at h
      cases h
      rfl
    | cons c src =>
      unfold grammarRest at h
      simp only [if_pos hnil] at h
      split at h
      . cases h
        rfl
      . split at h
        . cases h
        . cases h
  . cases behind with
    | nil =>
      rw [grammarRest, if_neg hnil] at h
      exact hend hnil h
    | cons c src =>
      unfold grammarRest at h
      simp only [if_neg hnil] at h
      split at h
      . exact hend hnil h
      . split at h
        . cases h
        . obtain ⟨htail, hfills⟩ := decodeEnd_ok h
          have hrun := length_paddingRun (hfills rfl)
          right
          refine ⟨hnil, htail, fun _ => ?_⟩
          rw [List.length_cons]
          omega

theorem length_decodeInto (h : Lawful k v) (hsized : k.Sized) (src : Bytes)
    : (decodeInto k v src).put.length ≤ decodedMaxSize k v src.length := by
  have hlen := length_body_behind (v := v) src
  have hblocks := length_decodeBlocks hsized (v.body src)
  have hrest := Blocks.length_rest (n := k.encodedBlockSize) (v.body src)
  have hmod := Nat.mod_lt (v.body src).length h.encodedPos
  have hdiv := Nat.div_add_mod (v.body src).length k.encodedBlockSize
  have hsymbols : (v.body src).length / k.encodedBlockSize * k.binaryBlockSize
      ≤ decodedMaxSize k v (v.body src).length := by
    unfold decodedMaxSize
    dsimp only
    split
    . exact Nat.le_refl _
    . exact Nat.le_add_right _ _
  have hmono := decodedMaxSize_mono h (Nat.le_trans (Nat.le_add_right _ _) hlen)
  rw [decodeInto_eq_grammar k v h.toReadable]
  unfold grammar
  dsimp only
  split
  . next tail htail =>
    rw [List.length_append, hblocks]
    obtain hnil | ⟨hne, hdecode, hpadding⟩ := grammarRest_ok htail
    . rw [hnil, List.length_nil]
      omega
    . have hpos := List.length_pos_iff.mpr hne
      have hfits := hsized.tail _ _ _ hpos (by omega) hdecode
      by_cases hrequires : v.requiresPadding = true
      . -- The padding fills the last block, so that a whole block is reserved for it.
        have hfull := decodedMaxSize_mono h (v := v)
          (m := k.encodedBlockSize * ((v.body src).length / k.encodedBlockSize + 1))
          (n := src.length) (by
            have hroom := hpadding hrequires
            rw [Nat.mul_succ]
            omega)
        have hblock : (Blocks.rest k.encodedBlockSize (v.body src)).length * k.binaryBlockSize
            / k.encodedBlockSize ≤ k.binaryBlockSize := by
          apply Nat.div_le_of_le_mul
          apply Nat.mul_le_mul_right
          omega
        rw [decodedMaxSize, if_pos hrequires, Nat.mul_div_cancel_left _ h.encodedPos, Nat.succ_mul] at hfull
        omega
      . apply Nat.le_trans _ hmono
        unfold decodedMaxSize
        dsimp only
        rw [if_neg hrequires, ← hrest]
        omega
  . rw [hblocks]
    exact Nat.le_trans hsymbols hmono

end Sizes

namespace Name

theorem sized (name : Name) : name.codec.Sized where
  tailSymbols r n hpos hr hn := by
    cases name with
    | base64Rfc4648 | base64Url | base64UrlUnpadded =>
      match r, hpos, hr with
      | 1, _, _ | 2, _, _ => cases hn; rfl
    | base32Rfc4648 | base32Hex | base32Crockford =>
      match r, hpos, hr with
      | 1, _, _ | 2, _, _ | 3, _, _ | 4, _, _ => cases hn; rfl
    | hexUpper | hexLower => exact absurd hr (Nat.not_lt.mpr hpos)
  tailFits r n hpos hr hn := by
    cases name with
    | base64Rfc4648 | base64Url | base64UrlUnpadded =>
      match r, hpos, hr with
      | 1, _, _ | 2, _, _ => cases hn; decide
    | base32Rfc4648 | base32Hex | base32Crockford =>
      match r, hpos, hr with
      | 1, _, _ | 2, _, _ | 3, _, _ | 4, _, _ => cases hn; decide
    | hexUpper | hexLower => exact absurd hr (Nat.not_lt.mpr hpos)
  block idx := by
    cases name with
    | _ => rfl
  tail idx n bytes hpos hn h := by
    cases name with
    | base64Rfc4648 | base64Url | base64UrlUnpadded =>
      match n, hpos, hn with
      | 1, _, _ => cases h
      | 2, _, _ | 3, _, _ => cases h; exact Nat.le_of_ble_eq_true rfl
    | base32Rfc4648 | base32Hex | base32Crockford =>
      match n, hpos, hn with
      | 1, _, _ | 3, _, _ | 6, _, _ => cases h
      | 2, _, _ | 4, _, _ | 5, _, _ | 7, _, _ => cases h; exact Nat.le_of_ble_eq_true rfl
    | hexUpper | hexLower => cases h

end Name

/--
`codec<CodecImpl>::encode` and `decode` of `detail/codec.hpp`. They give `none` where a write misses the
buffer.
-/
def Interface.encode (k : Codec) (v : CodecVariant) (binary : Bytes) : Option Bytes := do
  let text ← StreamCodec.encode k v binary
  let state ← (DirectAccess.init (encodedSize k v binary.length)).putAll text
  return state.finish

def Interface.decode (k : Codec) (v : CodecVariant) (encoded : Bytes)
    : Option (Except ParseError Bytes) := do
  let decoded := decodeInto k v encoded
  let state ← (DirectAccess.init (decodedMaxSize k v encoded.length)).putAll decoded.put
  match decoded.error with
  | some e => return .error e
  | none => return .ok state.finish

theorem DirectAccess.putAll_init {capacity : Nat} {cs : Bytes} (h : cs.length ≤ capacity)
    : ∃ a, (DirectAccess.init capacity).putAll cs = some a ∧ a.finish = cs := by
  obtain ⟨a, hput, -, -, hfinish⟩ := DirectAccess.putAll_spec (a := DirectAccess.init capacity) (by
    show 0 + cs.length ≤ (List.replicate capacity 0).length
    rw [Nat.zero_add, List.length_replicate]
    exact h)
  refine ⟨a, hput, ?_⟩
  rw [hfinish]
  rfl

section Interface

variable {k : Codec} {v : CodecVariant}

theorem interface_decode (h : Lawful k v) (hsized : k.Sized) (encoded : Bytes)
    : Interface.decode k v encoded = some (StreamCodec.decode k v encoded) := by
  obtain ⟨a, hput, hfinish⟩ := DirectAccess.putAll_init (length_decodeInto h hsized encoded)
  unfold Interface.decode StreamCodec.decode
  dsimp only
  rw [hput]
  show (match (decodeInto k v encoded).error with
    | some e => some (Except.error e)
    | none => some (Except.ok a.finish)) = _
  rw [hfinish]
  rcases decodeInto k v encoded with ⟨put, _ | e⟩
  . rfl
  . rfl

theorem interface_encode (h : Lawful k v) (hsized : k.Sized) {binary text : Bytes}
    (hencode : StreamCodec.encode k v binary = some text)
    : Interface.encode k v binary = some text := by
  have hlen := length_encode h hsized hencode
  obtain ⟨a, hput, hfinish⟩ := DirectAccess.putAll_init (Nat.le_of_eq hlen)
  unfold Interface.encode
  rw [hencode]
  show ((DirectAccess.init _).putAll text).bind _ = _
  rw [hput, ← hfinish]
  rfl

theorem interface_round_trip (h : Lawful k v) (hsized : k.Sized) (binary : Bytes)
    : ∃ text, Interface.encode k v binary = some text
        ∧ text.length = encodedSize k v binary.length
        ∧ Interface.decode k v text = some (.ok binary) := by
  obtain ⟨text, hencode, hdecode⟩ := decode_encode_of_lawful h binary
  refine ⟨text, interface_encode h hsized hencode, length_encode h hsized hencode, ?_⟩
  rw [interface_decode h hsized, hdecode]

end Interface

theorem Name.isSome_encode (name : Name) (binary : Bytes)
    : (Interface.encode name.codec name.variant binary).isSome = true := by
  obtain ⟨text, hencode, -⟩ := interface_round_trip name.lawful name.sized binary
  rw [hencode]
  rfl

def Name.encode (name : Name) (binary : Bytes) : Bytes :=
  (Interface.encode name.codec name.variant binary).get (name.isSome_encode binary)

theorem Name.encode_eq (name : Name) (binary : Bytes)
    : StreamCodec.encode name.codec name.variant binary = some (name.encode binary) := by
  obtain ⟨text, hencode, -⟩ := decode_encode_of_lawful name.lawful binary
  have htext : some (name.encode binary) = some text :=
    (Option.some_get _).trans (interface_encode name.lawful name.sized hencode)
  rw [hencode, htext]

example : Name.base64Rfc4648.encode (utf8 "abcde") = utf8 "YWJjZGU=" := by decide +kernel

theorem Name.decode_of_encode (name : Name) (binary : Bytes)
    : name.decode (name.encode binary) = .ok binary := by
  obtain ⟨text, hencode, hdecode⟩ := decode_encode_of_lawful name.lawful binary
  have htext : text = name.encode binary := Option.some_inj.mp (hencode.symm.trans (name.encode_eq binary))
  rw [← htext]
  exact hdecode

/--
All of the codecs decode by their grammar: `decode`, with its array of indexes and its pointers, puts the
bytes of the texts that are in it, and throws for the others what the grammar says.
-/
theorem Name.decode_by_grammar (name : Name) (encoded : Bytes)
    : decodeInto name.codec name.variant encoded = grammar name.codec name.variant encoded :=
  decodeInto_eq_grammar name.codec name.variant name.lawful.toReadable encoded

/--
Decoding writes inside the buffer it reserves, whatever it is given.
-/
theorem Name.decode_in_bounds (name : Name) (encoded : Bytes)
    : Interface.decode name.codec name.variant encoded = some (name.decode encoded) :=
  interface_decode name.lawful name.sized encoded

/--
Encoding fills the buffer it reserves, and decoding what is in it gives back the binary.
-/
theorem Name.decode_encode (name : Name) (binary : Bytes)
    : ∃ text, Interface.encode name.codec name.variant binary = some text
        ∧ text.length = encodedSize name.codec name.variant binary.length
        ∧ Interface.decode name.codec name.variant text = some (.ok binary) :=
  interface_round_trip name.lawful name.sized binary

end Cppcodec
