import RealtimeAsr.Cppcodec.Grammar

/-!
This module shows that decoding undoes encoding, for every codec whose blocks and tails do so.
-/

namespace Cppcodec

open CodecVariant StreamCodec

/--
What the blocks of a codec and the characters of a variant have to keep.
-/
structure Lawful (k : Codec) (v : CodecVariant) : Prop extends Readable k v where
  binaryPos : 0 < k.binaryBlockSize
  symbols : ∀ idx < v.alphabet.length,
    v.shouldIgnore (v.symbol idx) = false ∧ v.lookup (v.symbol idx) = idx
  padding : v.generatesPadding = true →
    v.shouldIgnore v.paddingSymbol = false ∧ v.lookup v.paddingSymbol = paddingIdx
  generates : v.requiresPadding = true → v.generatesPadding = true
  block : ∀ b src, b.length = k.binaryBlockSize →
    ∃ idx : List UInt8, (List.range k.encodedBlockSize).mapM (fun i => k.index i (b ++ src)) = some idx
      ∧ idx.length = k.encodedBlockSize
      ∧ (∀ i ∈ idx, i.toNat < v.alphabet.length)
      ∧ k.decodeBlock (idx.map UInt8.toNat) = b
  tail : ∀ b, 0 < b.length → b.length < k.binaryBlockSize →
    ∃ (idx : List UInt8) (last : UInt8), k.numEncodedTailSymbols b.length = some (idx.length + 1)
      ∧ idx.length + 1 < k.encodedBlockSize
      ∧ (∀ i, (hi : i < idx.length) → k.index i b = some idx[i])
      ∧ k.indexLast idx.length b = some last
      ∧ (∀ i ∈ idx ++ [last], i.toNat < v.alphabet.length)
      ∧ k.decodeTail ((idx ++ [last]).map UInt8.toNat) (idx.length + 1) = .ok b

variable {k : Codec} {v : CodecVariant}

/--
A text that is symbols and then the padding that fills the last block of them, and what it stands for.
-/
structure StandsFor (k : Codec) (v : CodecVariant) (text : Bytes) (idx : List Nat) (b : Bytes)
    : Prop where
  text : text = idx.map v.symbol
    ++ pad v ((k.encodedBlockSize - idx.length % k.encodedBlockSize) % k.encodedBlockSize)
  alphabet : ∀ i ∈ idx, i < v.alphabet.length
  whole : Blocks.rest k.encodedBlockSize idx = [] → k.decodeBlocks idx = b
  part : Blocks.rest k.encodedBlockSize idx ≠ [] →
    ∃ tail, k.decodeTail (Blocks.rest k.encodedBlockSize idx)
        (Blocks.rest k.encodedBlockSize idx).length = .ok tail
      ∧ k.decodeBlocks idx ++ tail = b

theorem pad_zero : pad v 0 = [] := by
  unfold pad
  split
  . rfl
  . rfl

theorem encBlock_eq {src : Bytes} {idx : List UInt8}
    (h : (List.range k.encodedBlockSize).mapM (fun i => k.index i src) = some idx)
    : encBlock k v src = some ((idx.map UInt8.toNat).map v.symbol) := by
  unfold encBlock
  generalize List.range k.encodedBlockSize = is at h
  induction is generalizing idx with
  | nil =>
    cases h
    rfl
  | cons i is ih =>
    rw [List.mapM_cons] at h ⊢
    cases hi : k.index i src with
    | none =>
      rw [hi] at h
      cases h
    | some x =>
      rw [hi] at h
      cases hrest : is.mapM fun i => k.index i src with
      | none =>
        rw [hrest] at h
        cases h
      | some xs =>
        rw [hrest] at h
        cases h
        rw [ih hrest]
        rfl

theorem encTail_eq {src : Bytes} {idx : List UInt8} {last : UInt8}
    (hroom : idx.length + 1 < k.encodedBlockSize)
    (hindex : ∀ i, (hi : i < idx.length) → k.index i src = some idx[i])
    (hlast : k.indexLast idx.length src = some last) {j : Nat} (hj : j ≤ idx.length)
    : encTail k v src (idx.length + 1) (k.encodedBlockSize - j)
        =
      some (((idx.drop j ++ [last]).map UInt8.toNat).map v.symbol) := by
  induction hn : idx.length - j generalizing j with
  | zero =>
    have heq : j = idx.length := by omega
    obtain ⟨n, hn⟩ : ∃ n, k.encodedBlockSize - j = n + 1 := ⟨k.encodedBlockSize - j - 1, by omega⟩
    have hsymbol : k.encodedBlockSize - (n + 1) = idx.length := by omega
    rw [hn, encTail, hsymbol, if_pos rfl, hlast, heq, List.drop_length]
    rfl
  | succ m ih =>
    have hlt : j < idx.length := by omega
    obtain ⟨n, hn⟩ : ∃ n, k.encodedBlockSize - j = n + 1 := ⟨k.encodedBlockSize - j - 1, by omega⟩
    have hsymbol : k.encodedBlockSize - (n + 1) = j := by omega
    have hnext : n = k.encodedBlockSize - (j + 1) := by omega
    rw [hn, encTail, hsymbol, if_neg (by omega), hindex j hlt, hnext, ih hlt (by omega),
      List.drop_eq_getElem_cons hlt]
    rfl

theorem encodeRest_eq (h : Lawful k v) {b : Bytes} (hb : b.length < k.binaryBlockSize)
    : ∃ text idx, encodeRest k v b = some text ∧ StandsFor k v text idx b := by
  unfold encodeRest
  by_cases hpos : b.length > 0
  . obtain ⟨idx, last, hnum, hroom, hindex, hlast, halphabet, htail⟩ := h.tail b hpos hb
    have hlen : ((idx ++ [last]).map UInt8.toNat).length = idx.length + 1 := by simp
    have hrest : Blocks.rest k.encodedBlockSize ((idx ++ [last]).map UInt8.toNat)
        = (idx ++ [last]).map UInt8.toNat := by
      apply Blocks.rest_of_short
      rw [hlen]
      exact hroom
    refine ⟨_, (idx ++ [last]).map UInt8.toNat, ?_, rfl, ?_, ?_, ?_⟩
    . rw [if_pos hpos, if_neg (by omega), hnum]
      show (encTail k v b (idx.length + 1) k.encodedBlockSize).bind _ = _
      have henc := encTail_eq (v := v) hroom hindex hlast (Nat.zero_le _)
      rw [Nat.sub_zero, List.drop_zero] at henc
      rw [henc, hlen, Nat.mod_eq_of_lt hroom, Nat.mod_eq_of_lt (by omega)]
      rfl
    . intro i hi
      rw [List.mem_map] at hi
      obtain ⟨x, hx, rfl⟩ := hi
      exact halphabet x hx
    . intro hnil
      rw [hrest] at hnil
      simp at hnil
    . intro _
      refine ⟨b, ?_, ?_⟩
      . rw [hrest, hlen, htail]
      . rw [Codec.decodeBlocks, Blocks.full_of_short (by rw [hlen]; exact hroom)]
        rfl
  . have hnil : b = [] := by
      rw [← List.length_eq_zero_iff]
      omega
    refine ⟨[], [], ?_, ?_, ?_, ?_, ?_⟩
    . rw [if_neg hpos]
    . show [] = [] ++ pad v ((k.encodedBlockSize - 0 % k.encodedBlockSize) % k.encodedBlockSize)
      rw [Nat.zero_mod, Nat.sub_zero, Nat.mod_self, pad_zero]
      rfl
    . intro i hi
      cases hi
    . intro _
      rw [hnil, Codec.decodeBlocks, Blocks.full_of_short h.encodedPos]
      rfl
    . intro hne
      exact absurd (Blocks.rest_of_short h.encodedPos) hne

theorem StandsFor.append (h : Lawful k v) {text b : Bytes} {idx : List Nat}
    (hs : StandsFor k v text idx b) {block : List Nat} (hblock : block.length = k.encodedBlockSize)
    (halphabet : ∀ i ∈ block, i < v.alphabet.length)
    : StandsFor k v (block.map v.symbol ++ text) (block ++ idx) (k.decodeBlock block ++ b) where
  text := by
    rw [List.length_append, hblock, Nat.add_mod_left, List.map_append, List.append_assoc, ← hs.text]
  alphabet i hi := by
    cases List.mem_append.mp hi with
    | inl hi => exact halphabet i hi
    | inr hi => exact hs.alphabet i hi
  whole hnil := by
    rw [Blocks.rest_append h.encodedPos hblock] at hnil
    rw [Codec.decodeBlocks, Blocks.full_append h.encodedPos hblock, List.flatMap_cons, ← hs.whole hnil]
    rfl
  part hne := by
    rw [Blocks.rest_append h.encodedPos hblock] at hne ⊢
    obtain ⟨tail, htail, hput⟩ := hs.part hne
    refine ⟨tail, htail, ?_⟩
    rw [Codec.decodeBlocks, Blocks.full_append h.encodedPos hblock, List.flatMap_cons, ← hput,
      List.append_assoc]
    rfl

theorem encode_standsFor (h : Lawful k v) (src : Bytes)
    : ∃ text idx, encode k v src = some text ∧ StandsFor k v text idx src := by
  unfold encode
  induction src using Blocks.induction h.binaryPos with
  | short src hsrc =>
    rw [Nat.div_eq_of_lt hsrc]
    exact encodeRest_eq h hsrc
  | block b src hb ih =>
    obtain ⟨text, idx, hencode, hs⟩ := ih
    obtain ⟨block, hmap, hlen, halphabet, hdecode⟩ := h.block b src hb
    refine ⟨(block.map UInt8.toNat).map v.symbol ++ text, block.map UInt8.toNat ++ idx, ?_, ?_⟩
    . rw [Blocks.count_append h.binaryPos hb, encodeFrom, encBlock_eq hmap, ← hb, List.drop_left, hb,
        hencode]
      rfl
    . rw [← hdecode]
      apply hs.append h
      . rw [List.length_map, hlen]
      . intro i hi
        rw [List.mem_map] at hi
        obtain ⟨x, hx, rfl⟩ := hi
        exact halphabet x hx

section Decode

variable (h : Lawful k v)

include h

theorem body_symbols {idx : List Nat} (hidx : ∀ i ∈ idx, i < v.alphabet.length) (src : Bytes)
    : v.body (idx.map v.symbol ++ src) = idx ++ v.body src
        ∧ v.behind (idx.map v.symbol ++ src) = v.behind src := by
  induction idx with
  | nil => exact ⟨rfl, rfl⟩
  | cons i idx ih =>
    have hi := hidx i (List.mem_cons_self ..)
    obtain ⟨hignore, hlookup⟩ := h.symbols i hi
    have hstop := isStopCharacter_of_lt (Nat.lt_of_lt_of_le hi h.alphabet)
    obtain ⟨hbody, hbehind⟩ := ih fun j hj => hidx j (List.mem_cons_of_mem i hj)
    rw [List.map_cons, List.cons_append, CodecVariant.body, CodecVariant.behind, hignore, hlookup,
      hstop]
    constructor
    . show i :: v.body _ = _
      rw [hbody]
      rfl
    . exact hbehind

theorem paddingRun_replicate (hgenerates : v.generatesPadding = true) (n : Nat)
    : v.paddingRun n (List.replicate n v.paddingSymbol) = true := by
  induction n with
  | zero => rfl
  | succ n ih =>
    rw [List.replicate_succ, CodecVariant.paddingRun, (h.padding hgenerates).2, ih]
    rfl

theorem body_padding (n : Nat) (hgenerates : v.generatesPadding = true)
    : v.body (List.replicate n v.paddingSymbol) = []
        ∧ v.behind (List.replicate n v.paddingSymbol) = List.replicate n v.paddingSymbol := by
  cases n with
  | zero => exact ⟨rfl, rfl⟩
  | succ n =>
    obtain ⟨hignore, hlookup⟩ := h.padding hgenerates
    rw [List.replicate_succ, CodecVariant.body, CodecVariant.behind, hignore, hlookup]
    exact ⟨rfl, rfl⟩

theorem StandsFor.body {text b : Bytes} {idx : List Nat} (hs : StandsFor k v text idx b)
    : v.body text = idx
        ∧ v.behind text
          =
        pad v ((k.encodedBlockSize - idx.length % k.encodedBlockSize) % k.encodedBlockSize) := by
  rw [hs.text]
  obtain ⟨hbody, hbehind⟩ := body_symbols h hs.alphabet (pad v
    ((k.encodedBlockSize - idx.length % k.encodedBlockSize) % k.encodedBlockSize))
  rw [hbody, hbehind]
  unfold pad
  split
  . next hgenerates =>
    obtain ⟨hnil, hsame⟩ := body_padding h
      ((k.encodedBlockSize - idx.length % k.encodedBlockSize) % k.encodedBlockSize) hgenerates
    rw [hnil, hsame, List.append_nil]
    exact ⟨rfl, rfl⟩
  . exact ⟨List.append_nil idx, rfl⟩

/--
The padding behind the symbols is what the grammar asks for.
-/
theorem grammarRest_pad (idx : List Nat)
    : grammarRest k v (Blocks.rest k.encodedBlockSize idx)
        (pad v ((k.encodedBlockSize - idx.length % k.encodedBlockSize) % k.encodedBlockSize))
        =
      if Blocks.rest k.encodedBlockSize idx = [] then
        .ok []
      else
        k.decodeTail (Blocks.rest k.encodedBlockSize idx)
          (Blocks.rest k.encodedBlockSize idx).length := by
  have hlen := Blocks.length_rest (n := k.encodedBlockSize) idx
  have hlt := Nat.mod_lt idx.length h.encodedPos
  by_cases hnil : Blocks.rest k.encodedBlockSize idx = []
  . rw [if_pos hnil, hnil, ← hlen, hnil, List.length_nil, Nat.sub_zero, Nat.mod_self, pad_zero]
    rfl
  . have hpos : 0 < (Blocks.rest k.encodedBlockSize idx).length := List.length_pos_iff.mpr hnil
    rw [if_neg hnil, ← hlen, Nat.mod_eq_of_lt (by omega)]
    by_cases hgenerates : v.generatesPadding = true
    . obtain ⟨n, hn⟩ : ∃ n, k.encodedBlockSize - (Blocks.rest k.encodedBlockSize idx).length = n + 1 :=
        ⟨_, (Nat.succ_pred_eq_of_pos (by omega)).symm⟩
      have hsub : k.encodedBlockSize - ((Blocks.rest k.encodedBlockSize idx).length + 1) = n := by omega
      rw [hn, pad, if_pos hgenerates, List.replicate_succ, grammarRest, (h.padding hgenerates).2,
        if_neg (by decide), if_neg (by decide), if_neg hnil, hsub, paddingRun_replicate h hgenerates]
      rfl
    . have hrequires : ¬v.requiresPadding = true := fun hr => hgenerates (h.generates hr)
      rw [pad, if_neg hgenerates, grammarRest, if_neg hnil, Codec.decodeEnd,
        if_neg (fun hr => hrequires hr.1)]

theorem StandsFor.decode {text b : Bytes} {idx : List Nat} (hs : StandsFor k v text idx b)
    : decode k v text = .ok b := by
  obtain ⟨hbody, hbehind⟩ := hs.body h
  unfold StreamCodec.decode
  rw [decodeInto_eq_grammar k v h.toReadable, grammar, hbody, hbehind, grammarRest_pad h idx]
  by_cases hnil : Blocks.rest k.encodedBlockSize idx = []
  . rw [if_pos hnil, hs.whole hnil]
    show Except.ok (b ++ []) = _
    rw [List.append_nil]
  . obtain ⟨tail, htail, hput⟩ := hs.part hnil
    rw [if_neg hnil, htail, ← hput]

end Decode

/--
Decoding gives back what was encoded.
-/
theorem decode_encode_of_lawful (h : Lawful k v) (src : Bytes)
    : ∃ text, encode k v src = some text ∧ decode k v text = .ok src := by
  obtain ⟨text, idx, hencode, hs⟩ := encode_standsFor h src
  exact ⟨text, hencode, hs.decode h⟩

end Cppcodec
