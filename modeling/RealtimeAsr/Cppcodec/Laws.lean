import RealtimeAsr.Lib.Bits
import RealtimeAsr.Cppcodec.Codecs
import RealtimeAsr.Cppcodec.RoundTrip

/-!
This module shows that the codecs and their variants keep the laws of encoding and decoding.
-/

namespace Cppcodec

open StreamCodec CodecVariant

theorem getD_take (idx : List Nat) {i n : Nat} (h : i < n) : (idx.take n).getD i 0 = idx.getD i 0 := by
  rw [List.getD_eq_getElem?_getD, List.getElem?_take_of_lt h, ← List.getD_eq_getElem?_getD]

namespace Base64

theorem decodeTail_take (idx : List Nat) {n : Nat} (hpos : 0 < n) (hn : n < 4)
    : decodeTail idx n = decodeTail (idx.take n) n := by
  match n, hpos, hn with
  | 1, _, _ => rfl
  | 2, _, _ =>
    unfold decodeTail
    rw [getD_take idx (by decide), getD_take idx (by decide), if_neg (by decide), if_pos rfl,
      if_neg (by decide), if_pos rfl]
  | 3, _, _ =>
    unfold decodeTail
    rw [getD_take idx (by decide), getD_take idx (by decide), getD_take idx (by decide)]

theorem decodeBlock_eq {w x y z : Nat} (hx : x < 64) (hy : y < 64) (hz : z < 64)
    : decodeBlock [w, x, y, z]
        =
      let dec := w * 262144 + x * 4096 + y * 64 + z
      [.ofNat (dec / 65536), .ofNat (dec / 256 % 256), .ofNat (dec % 256)] := by
  have hdec : (w <<< 18) ||| (x <<< 12) ||| (y <<< 6) ||| z
      = w * 262144 + x * 4096 + y * 64 + z := by
    simp only [Nat.shiftLeft_eq, Nat.reducePow]
    rw [Bits.or_eq_add (b := x * 4096) 18 (by omega) (by omega),
      Bits.or_eq_add (b := y * 64) 12 (by omega) (by omega),
      Bits.or_eq_add (b := z) 6 (by omega) (by omega)]
  have hmask (n : Nat) : n &&& 0xFF = n % 256 := Nat.and_two_pow_sub_one_eq_mod n 8
  simp only [decodeBlock, List.getD_cons_zero, List.getD_cons_succ, hdec, hmask,
    Nat.shiftRight_eq_div_pow, Nat.reducePow]

theorem decodeTail_two {w x : Nat} (hx : x < 64)
    : decodeTail [w, x] 2 = .ok [.ofNat (w * 4 + x / 16)] := by
  have hmask : (x &&& 0x30) >>> 4 = x / 16 := by
    revert x
    decide
  simp [decodeTail, hmask, Nat.shiftLeft_eq]

theorem decodeTail_three {w x y : Nat} (hx : x < 64) (hy : y < 64)
    : decodeTail [w, x, y] 3 = .ok [.ofNat (w * 4 + x / 16), .ofNat (x % 16 * 16 + y / 4)] := by
  have hmask : (x &&& 0x30) >>> 4 = x / 16 := by
    revert x
    decide
  have hlow : (x &&& 0xF) <<< 4 = x % 16 * 16 := by
    revert x
    decide
  have hhigh : (y &&& 0x3C) >>> 2 = y / 4 := by
    revert y
    decide
  simp [decodeTail, hmask, hlow, hhigh, Nat.shiftLeft_eq]

theorem block (b src : Bytes) (hb : b.length = 3)
    : ∃ idx : List UInt8, (List.range 4).mapM (fun i => index i (b ++ src)) = some idx
        ∧ idx.length = 4
        ∧ (∀ i ∈ idx, i.toNat < 64)
        ∧ decodeBlock (idx.map UInt8.toNat) = b := by
  obtain ⟨b0, b1, b2, rfl⟩ := List.length_eq_three.mp hb
  have h0 := b0.toNat_lt
  have h1 := b1.toNat_lt
  have h2 := b2.toNat_lt
  refine ⟨[b0 >>> 2, ((b0 &&& 0x3) <<< 4) ||| (b1 >>> 4), ((b1 &&& 0xF) <<< 2) ||| (b2 >>> 6),
    b2 &&& 0x3F], rfl, rfl, ?_⟩
  simp (disch := decide) only [List.forall_mem_cons, List.not_mem_nil, false_implies, implies_true,
    and_true, List.map_cons, List.map_nil, Bits.toNat_and_shiftLeft_or, Bits.toNat_shiftRight,
    Bits.toNat_and, UInt8.reduceToNat, Nat.reduceAdd, Nat.reducePow]
  refine ⟨by omega, ?_⟩
  rw [decodeBlock_eq (by omega) (by omega) (by omega)]
  dsimp only
  rw [Bits.ofNat_eq (b := b0) (by omega), Bits.ofNat_eq (b := b1) (by omega),
    Bits.ofNat_eq (b := b2) (by omega)]

theorem tail (b : Bytes) (hpos : 0 < b.length) (hb : b.length < 3)
    : ∃ (idx : List UInt8) (last : UInt8), numEncodedTailSymbols b.length = some (idx.length + 1)
        ∧ idx.length + 1 < 4
        ∧ (∀ i, (hi : i < idx.length) → index i b = some idx[i])
        ∧ indexLast idx.length b = some last
        ∧ (∀ i ∈ idx ++ [last], i.toNat < 64)
        ∧ decodeTail ((idx ++ [last]).map UInt8.toNat) (idx.length + 1) = .ok b := by
  match b, hpos, hb with
  | [b0], _, _ =>
    have h0 := b0.toNat_lt
    refine ⟨[b0 >>> 2], (b0 &&& 0x3) <<< 4, rfl, by simp, ?_, rfl, ?_⟩
    . intro i hi
      match i, hi with
      | 0, _ => rfl
    . simp (disch := decide) only [List.cons_append, List.nil_append, List.forall_mem_cons,
        List.not_mem_nil, false_implies, implies_true, and_true, List.map_cons, List.map_nil,
        Bits.toNat_shiftRight, Bits.toNat_shiftLeft, Bits.toNat_and, UInt8.reduceToNat,
        Nat.reduceAdd, Nat.reducePow]
      refine ⟨by omega, ?_⟩
      rw [List.length_singleton, decodeTail_two (by omega), Bits.ofNat_eq (b := b0) (by omega)]
  | [b0, b1], _, _ =>
    have h0 := b0.toNat_lt
    have h1 := b1.toNat_lt
    refine ⟨[b0 >>> 2, ((b0 &&& 0x3) <<< 4) ||| (b1 >>> 4)], (b1 &&& 0xF) <<< 2, rfl, by simp, ?_, rfl,
      ?_⟩
    . intro i hi
      match i, hi with
      | 0, _ => rfl
      | 1, _ => rfl
    . simp (disch := decide) only [List.cons_append, List.nil_append, List.forall_mem_cons,
        List.not_mem_nil, false_implies, implies_true, and_true, List.map_cons, List.map_nil,
        Bits.toNat_and_shiftLeft_or, Bits.toNat_shiftRight, Bits.toNat_shiftLeft, Bits.toNat_and,
        UInt8.reduceToNat, Nat.reduceAdd, Nat.reducePow]
      refine ⟨by omega, ?_⟩
      show decodeTail _ 3 = _
      rw [decodeTail_three (by omega) (by omega), Bits.ofNat_eq (b := b0) (by omega),
        Bits.ofNat_eq (b := b1) (by omega)]

end Base64

namespace Base32

theorem decoded_take (idx : List Nat) {i n : Nat} (h : i = 0 ∧ 2 ≤ n ∨ i = 1 ∧ 4 ≤ n
      ∨ i = 2 ∧ 5 ≤ n ∨ i = 3 ∧ 7 ≤ n)
    : decoded (idx.take n) i = decoded idx i := by
  obtain ⟨rfl, h⟩ | ⟨rfl, h⟩ | ⟨rfl, h⟩ | ⟨rfl, h⟩ := h
  . simp only [decoded, getD_take idx (show 0 < n by omega), getD_take idx (show 1 < n by omega)]
  . simp only [decoded, getD_take idx (show 1 < n by omega), getD_take idx (show 2 < n by omega),
      getD_take idx (show 3 < n by omega)]
  . simp only [decoded, getD_take idx (show 3 < n by omega), getD_take idx (show 4 < n by omega)]
  . simp only [decoded, getD_take idx (show 4 < n by omega), getD_take idx (show 5 < n by omega),
      getD_take idx (show 6 < n by omega)]

theorem decodeTail_take (idx : List Nat) {n : Nat} (hpos : 0 < n) (hn : n < 8)
    : decodeTail idx n = decodeTail (idx.take n) n := by
  match n, hpos, hn with
  | 1, _, _ => rfl
  | 2, _, _ => simp [decodeTail, decoded_take]
  | 3, _, _ => rfl
  | 4, _, _ => simp [decodeTail, decoded_take]
  | 5, _, _ => simp [decodeTail, decoded_take]
  | 6, _, _ => rfl
  | 7, _, _ => simp [decodeTail, decoded_take]

section Decoded

variable {idx : List Nat} {w x y : Nat}

theorem decoded_zero (hw : idx[0]? = some w) (hx : idx[1]? = some x) (hw' : w < 32) (hx' : x < 32)
    : decoded idx 0 = .ofNat (w * 8 + x / 4) := by
  have hhigh : (w <<< 3) &&& 0xF8 = w * 8 := by
    clear hw
    revert w
    decide
  have hlow : (x >>> 2) &&& 0x7 = x / 4 := by
    clear hx
    revert x
    decide
  simp only [decoded, List.getD_eq_getElem?_getD, Option.getD_some, hw, hx, hhigh, hlow]
  rw [Bits.or_eq_add 3 (by omega) (by omega)]

theorem decoded_one (hw : idx[1]? = some w) (hx : idx[2]? = some x) (hy : idx[3]? = some y)
    (hw' : w < 32) (hx' : x < 32) (hy' : y < 32)
    : decoded idx 1 = .ofNat (w % 4 * 64 + x * 2 + y / 16) := by
  have hhigh : (w <<< 6) &&& 0xC0 = w % 4 * 64 := by
    clear hw
    revert w
    decide
  have hmiddle : (x <<< 1) &&& 0x3E = x * 2 := by
    clear hx
    revert x
    decide
  have hlow : (y >>> 4) &&& 0x1 = y / 16 := by
    clear hy
    revert y
    decide
  simp only [decoded, List.getD_eq_getElem?_getD, Option.getD_some, hw, hx, hy, hhigh, hmiddle,
    hlow]
  rw [Bits.or_eq_add (b := x * 2) 6 (by omega) (by omega),
    Bits.or_eq_add 1 (by omega) (by omega)]

theorem decoded_two (hw : idx[3]? = some w) (hx : idx[4]? = some x) (hw' : w < 32) (hx' : x < 32)
    : decoded idx 2 = .ofNat (w % 16 * 16 + x / 2) := by
  have hhigh : (w <<< 4) &&& 0xF0 = w % 16 * 16 := by
    clear hw
    revert w
    decide
  have hlow : (x >>> 1) &&& 0xF = x / 2 := by
    clear hx
    revert x
    decide
  simp only [decoded, List.getD_eq_getElem?_getD, Option.getD_some, hw, hx, hhigh, hlow]
  rw [Bits.or_eq_add 4 (by omega) (by omega)]

theorem decoded_three (hw : idx[4]? = some w) (hx : idx[5]? = some x) (hy : idx[6]? = some y)
    (hw' : w < 32) (hx' : x < 32) (hy' : y < 32)
    : decoded idx 3 = .ofNat (w % 2 * 128 + x * 4 + y / 8) := by
  have hhigh : (w <<< 7) &&& 0x80 = w % 2 * 128 := by
    clear hw
    revert w
    decide
  have hmiddle : (x <<< 2) &&& 0x7C = x * 4 := by
    clear hx
    revert x
    decide
  have hlow : (y >>> 3) &&& 0x3 = y / 8 := by
    clear hy
    revert y
    decide
  simp only [decoded, List.getD_eq_getElem?_getD, Option.getD_some, hw, hx, hy, hhigh, hmiddle,
    hlow]
  rw [Bits.or_eq_add (b := x * 4) 7 (by omega) (by omega),
    Bits.or_eq_add 2 (by omega) (by omega)]

theorem decoded_four (hw : idx[6]? = some w) (hx : idx[7]? = some x) (hw' : w < 32) (hx' : x < 32)
    : decoded idx 4 = .ofNat (w % 8 * 32 + x) := by
  have hhigh : (w <<< 5) &&& 0xE0 = w % 8 * 32 := by
    clear hw
    revert w
    decide
  have hlow : x &&& 0x1F = x := by
    clear hx
    revert x
    decide
  simp only [decoded, List.getD_eq_getElem?_getD, Option.getD_some, hw, hx, hhigh, hlow]
  rw [Bits.or_eq_add 5 (by omega) (by omega)]

end Decoded

theorem block (b src : Bytes) (hb : b.length = 5)
    : ∃ idx : List UInt8, (List.range 8).mapM (fun i => index i (b ++ src)) = some idx
        ∧ idx.length = 8
        ∧ (∀ i ∈ idx, i.toNat < 32)
        ∧ decodeBlock (idx.map UInt8.toNat) = b := by
  match b, hb with
  | [b0, b1, b2, b3, b4], _ =>
    have h0 := b0.toNat_lt
    have h1 := b1.toNat_lt
    have h2 := b2.toNat_lt
    have h3 := b3.toNat_lt
    have h4 := b4.toNat_lt
    refine ⟨_, rfl, rfl, ?_⟩
    simp (disch := decide) only [List.reverse_cons, List.reverse_nil, List.nil_append,
      List.cons_append, List.forall_mem_cons, List.not_mem_nil, false_implies, implies_true,
      and_true, List.map_cons, List.map_nil, decodeBlock, Bits.toNat_shiftLeft_and_or,
      Bits.toNat_shiftRight, Bits.toNat_and, UInt8.reduceToNat, Nat.reduceAdd, Nat.reducePow]
    refine ⟨by omega, ?_⟩
    rw [decoded_zero rfl rfl (by omega) (by omega),
      decoded_one rfl rfl rfl (by omega) (by omega) (by omega),
      decoded_two rfl rfl (by omega) (by omega),
      decoded_three rfl rfl rfl (by omega) (by omega) (by omega),
      decoded_four rfl rfl (by omega) (by omega), Bits.ofNat_eq (b := b0) (by omega),
      Bits.ofNat_eq (b := b1) (by omega), Bits.ofNat_eq (b := b2) (by omega),
      Bits.ofNat_eq (b := b3) (by omega), Bits.ofNat_eq (b := b4) (by omega)]

theorem tail (b : Bytes) (hpos : 0 < b.length) (hb : b.length < 5)
    : ∃ (idx : List UInt8) (last : UInt8), numEncodedTailSymbols b.length = some (idx.length + 1)
        ∧ idx.length + 1 < 8
        ∧ (∀ i, (hi : i < idx.length) → index i b = some idx[i])
        ∧ indexLast idx.length b = some last
        ∧ (∀ i ∈ idx ++ [last], i.toNat < 32)
        ∧ decodeTail ((idx ++ [last]).map UInt8.toNat) (idx.length + 1) = .ok b := by
  match b, hpos, hb with
  | [b0], _, _ =>
    have h0 := b0.toNat_lt
    refine ⟨[(b0 >>> 3) &&& 0x1F], (b0 <<< 2) &&& 0x1C, rfl, by simp, ?_, rfl, ?_⟩
    . intro i hi
      match i, hi with
      | 0, _ => rfl
    . simp (disch := decide) only [List.cons_append, List.nil_append, List.forall_mem_cons,
        List.not_mem_nil, false_implies, implies_true, and_true, List.map_cons, List.map_nil,
        Bits.toNat_shiftRight, Bits.toNat_shiftLeft_and, Bits.toNat_and, UInt8.reduceToNat,
        Nat.reduceAdd, Nat.reducePow]
      refine ⟨by omega, ?_⟩
      show Except.ok [decoded _ 0] = _
      rw [decoded_zero rfl rfl (by omega) (by omega),
        Bits.ofNat_eq (b := b0) (by omega)]
  | [b0, b1], _, _ =>
    have h0 := b0.toNat_lt
    have h1 := b1.toNat_lt
    refine ⟨[
      (b0 >>> 3) &&& 0x1F,
      ((b0 <<< 2) &&& (0x1C : UInt8)) ||| ((b1 >>> 6) &&& (0x3 : UInt8)),
      (b1 >>> 1) &&& 0x1F],
      (b1 <<< 4) &&& 0x10, rfl, by simp, ?_, rfl, ?_⟩
    . intro i hi
      match i, hi with
      | 0, _ => rfl
      | 1, _ => rfl
      | 2, _ => rfl
    . simp (disch := decide) only [List.cons_append, List.nil_append, List.forall_mem_cons,
        List.not_mem_nil, false_implies, implies_true, and_true, List.map_cons, List.map_nil,
        Bits.toNat_shiftLeft_and_or, Bits.toNat_shiftRight, Bits.toNat_shiftLeft_and,
        Bits.toNat_and, UInt8.reduceToNat, Nat.reduceAdd, Nat.reducePow]
      refine ⟨by omega, ?_⟩
      show Except.ok [decoded _ 0, decoded _ 1] = _
      rw [decoded_zero rfl rfl (by omega) (by omega),
        decoded_one rfl rfl rfl (by omega) (by omega) (by omega),
        Bits.ofNat_eq (b := b0) (by omega),
        Bits.ofNat_eq (b := b1) (by omega)]
  | [b0, b1, b2], _, _ =>
    have h0 := b0.toNat_lt
    have h1 := b1.toNat_lt
    have h2 := b2.toNat_lt
    refine ⟨[
      (b0 >>> 3) &&& 0x1F,
      ((b0 <<< 2) &&& (0x1C : UInt8)) ||| ((b1 >>> 6) &&& (0x3 : UInt8)),
      (b1 >>> 1) &&& 0x1F,
      ((b1 <<< 4) &&& (0x10 : UInt8)) ||| ((b2 >>> 4) &&& (0xF : UInt8))],
      (b2 <<< 1) &&& 0x1E, rfl, by simp, ?_, rfl, ?_⟩
    . intro i hi
      match i, hi with
      | 0, _ => rfl
      | 1, _ => rfl
      | 2, _ => rfl
      | 3, _ => rfl
    . simp (disch := decide) only [List.cons_append, List.nil_append, List.forall_mem_cons,
        List.not_mem_nil, false_implies, implies_true, and_true, List.map_cons, List.map_nil,
        Bits.toNat_shiftLeft_and_or, Bits.toNat_shiftRight, Bits.toNat_shiftLeft_and,
        Bits.toNat_and, UInt8.reduceToNat, Nat.reduceAdd, Nat.reducePow]
      refine ⟨by omega, ?_⟩
      show Except.ok [decoded _ 0, decoded _ 1, decoded _ 2] = _
      rw [decoded_zero rfl rfl (by omega) (by omega),
        decoded_one rfl rfl rfl (by omega) (by omega) (by omega),
        decoded_two rfl rfl (by omega) (by omega),
        Bits.ofNat_eq (b := b0) (by omega),
        Bits.ofNat_eq (b := b1) (by omega),
        Bits.ofNat_eq (b := b2) (by omega)]
  | [b0, b1, b2, b3], _, _ =>
    have h0 := b0.toNat_lt
    have h1 := b1.toNat_lt
    have h2 := b2.toNat_lt
    have h3 := b3.toNat_lt
    refine ⟨[
      (b0 >>> 3) &&& 0x1F,
      ((b0 <<< 2) &&& (0x1C : UInt8)) ||| ((b1 >>> 6) &&& (0x3 : UInt8)),
      (b1 >>> 1) &&& 0x1F,
      ((b1 <<< 4) &&& (0x10 : UInt8)) ||| ((b2 >>> 4) &&& (0xF : UInt8)),
      ((b2 <<< 1) &&& (0x1E : UInt8)) ||| ((b3 >>> 7) &&& (0x1 : UInt8)),
      (b3 >>> 2) &&& 0x1F],
      (b3 <<< 3) &&& 0x18, rfl, by simp, ?_, rfl, ?_⟩
    . intro i hi
      match i, hi with
      | 0, _ => rfl
      | 1, _ => rfl
      | 2, _ => rfl
      | 3, _ => rfl
      | 4, _ => rfl
      | 5, _ => rfl
    . simp (disch := decide) only [List.cons_append, List.nil_append, List.forall_mem_cons,
        List.not_mem_nil, false_implies, implies_true, and_true, List.map_cons, List.map_nil,
        Bits.toNat_shiftLeft_and_or, Bits.toNat_shiftRight, Bits.toNat_shiftLeft_and,
        Bits.toNat_and, UInt8.reduceToNat, Nat.reduceAdd, Nat.reducePow]
      refine ⟨by omega, ?_⟩
      show Except.ok [decoded _ 0, decoded _ 1, decoded _ 2, decoded _ 3] = _
      rw [decoded_zero rfl rfl (by omega) (by omega),
        decoded_one rfl rfl rfl (by omega) (by omega) (by omega),
        decoded_two rfl rfl (by omega) (by omega),
        decoded_three rfl rfl rfl (by omega) (by omega) (by omega),
        Bits.ofNat_eq (b := b0) (by omega),
        Bits.ofNat_eq (b := b1) (by omega),
        Bits.ofNat_eq (b := b2) (by omega),
        Bits.ofNat_eq (b := b3) (by omega)]

end Base32

namespace Hex

theorem block (b src : Bytes) (hb : b.length = 1)
    : ∃ idx : List UInt8, (List.range 2).mapM (fun i => index i (b ++ src)) = some idx
        ∧ idx.length = 2
        ∧ (∀ i ∈ idx, i.toNat < 16)
        ∧ hex.decodeBlock (idx.map UInt8.toNat) = b := by
  match b, hb with
  | [b0], _ =>
    have h0 := b0.toNat_lt
    refine ⟨[b0 >>> 4, b0 &&& 0xF], rfl, rfl, ?_⟩
    simp (disch := decide) only [List.forall_mem_cons, List.not_mem_nil, false_implies,
      implies_true, and_true, hex, List.map_cons, List.map_nil, List.getD_cons_zero,
      List.getD_cons_succ, Nat.shiftLeft_eq, Bits.toNat_shiftRight, Bits.toNat_and,
      UInt8.reduceToNat, Nat.reduceAdd, Nat.reducePow]
    refine ⟨by omega, ?_⟩
    rw [Bits.or_eq_add 4 (by omega) (by omega), Bits.ofNat_eq (b := b0) (by omega)]

end Hex

/--
What can be evaluated of the laws: the characters of the alphabet and of the padding are read as what
they are.
-/
def CodecVariant.Distinct (v : CodecVariant) (size : Nat) : Prop :=
  v.alphabet.length = size
    ∧ (∀ idx < size, v.shouldIgnore (v.symbol idx) = false ∧ v.lookup (v.symbol idx) = idx)
    ∧ (v.generatesPadding = true →
        v.shouldIgnore v.paddingSymbol = false ∧ v.lookup v.paddingSymbol = paddingIdx)
    ∧ (v.requiresPadding = true → v.generatesPadding = true)

instance (v : CodecVariant) (size : Nat) : Decidable (v.Distinct size) := by
  unfold CodecVariant.Distinct
  infer_instance

namespace Name

def alphabetSize : Name → Nat
  | .base64Rfc4648 | .base64Url | .base64UrlUnpadded => 64
  | .base32Rfc4648 | .base32Hex | .base32Crockford => 32
  | .hexUpper | .hexLower => 16

theorem distinct (name : Name) : name.variant.Distinct name.alphabetSize := by
  cases name with
  | _ => decide +kernel

theorem readable (name : Name) : Readable name.codec name.variant where
  encodedPos := by
    cases name with
    | _ => exact Nat.succ_pos _
  tailTake idx n hpos hn := by
    cases name with
    | base64Rfc4648 | base64Url | base64UrlUnpadded => exact Base64.decodeTail_take idx hpos hn
    | base32Rfc4648 | base32Hex | base32Crockford => exact Base32.decodeTail_take idx hpos hn
    | hexUpper | hexLower => rfl
  alphabet := by
    rw [name.distinct.1]
    cases name with
    | _ => decide

theorem lawful (name : Name) : Lawful name.codec name.variant where
  toReadable := name.readable
  binaryPos := by
    cases name with
    | _ => exact Nat.succ_pos _
  symbols := by
    rw [name.distinct.1]
    exact name.distinct.2.1
  padding := name.distinct.2.2.1
  generates := name.distinct.2.2.2
  block := by
    rw [name.distinct.1]
    cases name with
    | base64Rfc4648 | base64Url | base64UrlUnpadded => exact Base64.block
    | base32Rfc4648 | base32Hex | base32Crockford => exact Base32.block
    | hexUpper | hexLower => exact Hex.block
  tail := by
    rw [name.distinct.1]
    cases name with
    | base64Rfc4648 | base64Url | base64UrlUnpadded => exact Base64.tail
    | base32Rfc4648 | base32Hex | base32Crockford => exact Base32.tail
    | hexUpper | hexLower =>
      intro b hpos hb
      exact absurd hb (Nat.not_lt.mpr hpos)

end Name

end Cppcodec
