import RealtimeAsr.Websocket.Basic

/-!
This module contains `stream_codec` of `cppcodec/detail/stream_codec.hpp` and the exceptions of
`cppcodec/parse_error.hpp`. A `char` is the byte it is stored as.
-/

namespace Cppcodec

inductive ParseError where
  | symbolError (symbol : UInt8)
  | invalidInputLength (what : String)
  | paddingError
  deriving Repr, DecidableEq

def ParseError.what : ParseError → Bytes
  | .symbolError c =>
    utf8 ("parse error: character [" ++ toString c.toNat ++ " '") ++ [c] ++ utf8 "'] out of bounds"
  | .invalidInputLength what => utf8 what
  | .paddingError =>
    utf8 "parse error: codec expects padded input string but padding was invalid"

/--
The template parameter `Codec`. Encoding gives `none` where it throws `std::domain_error` or reads
behind the end of the binary.
-/
structure Codec where
  binaryBlockSize : Nat
  encodedBlockSize : Nat
  numEncodedTailSymbols : Nat → Option Nat
  index : Nat → Bytes → Option UInt8
  indexLast : Nat → Bytes → Option UInt8
  decodeBlock : List Nat → Bytes
  decodeTail : List Nat → Nat → Except ParseError Bytes

structure CodecVariant where
  alphabet : Bytes
  normalizedSymbol : UInt8 → UInt8 := id
  generatesPadding : Bool
  requiresPadding : Bool
  paddingSymbol : UInt8 := 61
  isPaddingSymbol : UInt8 → Bool
  isEofSymbol : UInt8 → Bool := (· == 0)
  shouldIgnore : UInt8 → Bool := fun _ => false

namespace CodecVariant

def paddingIdx : Nat := 1 <<< 8

def invalidIdx : Nat := 1 <<< 9

def eofIdx : Nat := 1 <<< 10

def isPadding (idx : Nat) : Bool :=
  idx == paddingIdx

def isInvalid (idx : Nat) : Bool :=
  idx == invalidIdx

def isEof (idx : Nat) : Bool :=
  idx == eofIdx

/--
`(idx & stop_character_mask) != 0`, where the mask clears the eight low bits.
-/
def isStopCharacter (idx : Nat) : Bool :=
  idx >>> 8 != 0

variable (v : CodecVariant)

def symbol (idx : Nat) : UInt8 :=
  v.alphabet.getD idx 0

def indexOf (symbol : UInt8) : Nat :=
  match v.alphabet.idxOf? symbol with
  | some idx => idx
  | none =>
    if v.isEofSymbol symbol then
      eofIdx
    else if v.isPaddingSymbol symbol then
      paddingIdx
    else
      invalidIdx

def lookup (c : UInt8) : Nat :=
  v.indexOf (v.normalizedSymbol c)

end CodecVariant

namespace StreamCodec

open CodecVariant

variable (k : Codec) (v : CodecVariant)

def encBlock (src : Bytes) : Option Bytes :=
  (List.range k.encodedBlockSize).mapM fun i => (k.index i src).map fun idx => v.symbol idx.toNat

/--
`enc<I>::tail`. It aborts when it comes to `enc<0>`.
-/
def encTail (src : Bytes) (numSymbols : Nat) : Nat → Option Bytes
  | 0 => none
  | i + 1 =>
    let symbolIndex := k.encodedBlockSize - (i + 1)
    if numSymbols = symbolIndex + 1 then do
      let idx ← k.indexLast symbolIndex src
      return [v.symbol idx.toNat]
    else do
      let idx ← k.index symbolIndex src
      let encoded ← encTail src numSymbols i
      return v.symbol idx.toNat :: encoded

def pad (numPaddingCharacters : Nat) : Bytes :=
  if v.generatesPadding then List.replicate numPaddingCharacters v.paddingSymbol else []

def encodeRest (src : Bytes) : Option Bytes :=
  if src.length > 0 then
    if src.length ≥ k.binaryBlockSize then
      none
    else do
      let numSymbols ← k.numEncodedTailSymbols src.length
      let encoded ← encTail k v src numSymbols k.encodedBlockSize
      return encoded ++ pad v (k.encodedBlockSize - numSymbols)
  else
    some []

def encodeFrom : Nat → Bytes → Option Bytes
  | 0, src => encodeRest k v src
  | n + 1, src => do
    let block ← encBlock k v src
    let encoded ← encodeFrom n (src.drop k.binaryBlockSize)
    return block ++ encoded

def encode (src : Bytes) : Option Bytes :=
  encodeFrom k v (src.length / k.binaryBlockSize) src

structure DecodeState where
  alphabetIndexes : List Nat
  alphabetIndexPtr : Nat := 0
  binaryResult : Bytes := []

def DecodeState.current (s : DecodeState) : Nat :=
  s.alphabetIndexes.getD s.alphabetIndexPtr 0

def decodeInit : DecodeState where
  alphabetIndexes := (List.replicate k.encodedBlockSize 0).set 0 eofIdx

def decodeLoop : Bytes → DecodeState → DecodeState × Bytes
  | [], s => (s, [])
  | c :: src, s =>
    if v.shouldIgnore c then
      decodeLoop src s
    else
      let s := { s with alphabetIndexes := s.alphabetIndexes.set s.alphabetIndexPtr (v.lookup c) }
      if isStopCharacter s.current then
        (s, c :: src)
      else
        let s := { s with alphabetIndexPtr := s.alphabetIndexPtr + 1 }
        if s.alphabetIndexPtr = k.encodedBlockSize then
          decodeLoop src {
            s with
            binaryResult := s.binaryResult ++ k.decodeBlock s.alphabetIndexes
            alphabetIndexPtr := 0 }
        else
          decodeLoop src s

def paddingLoop : Bytes → Nat → Except ParseError Nat
  | [], lastIndexPtr => .ok lastIndexPtr
  | c :: src, lastIndexPtr =>
    let idx := v.lookup c
    if isEof idx then
      .ok lastIndexPtr
    else if !isPadding idx then
      .error .paddingError
    else
      let lastIndexPtr := lastIndexPtr + 1
      if lastIndexPtr > k.encodedBlockSize then
        .error .paddingError
      else
        paddingLoop src lastIndexPtr

/--
The end of `decode`. The loop leaves the padding index, which it also puts in the place of an end of
file, where `alphabet_index_ptr` points to.
-/
def decodeLast (s : DecodeState) (lastIndexPtr : Nat) (padded : Bool) : Except ParseError Bytes :=
  if lastIndexPtr ≠ 0 then
    if (v.requiresPadding ∨ padded) ∧ lastIndexPtr ≠ k.encodedBlockSize then
      .error .paddingError
    else
      k.decodeTail s.alphabetIndexes s.alphabetIndexPtr
  else
    .ok []

def decodeRest (s : DecodeState) (src : Bytes) : Except ParseError Bytes :=
  if isInvalid s.current then
    .error (.symbolError (src.headD 0))
  else if isPadding s.current then
    if s.alphabetIndexPtr = 0 then
      .error .paddingError
    else do
      let lastIndexPtr ← paddingLoop k v src.tail (s.alphabetIndexPtr + 1)
      decodeLast k v s lastIndexPtr true
  else
    decodeLast k v s s.alphabetIndexPtr false

structure Decoded where
  put : Bytes
  error : Option ParseError
  deriving Repr, DecidableEq

def decodeInto (src : Bytes) : Decoded :=
  let (s, src) := decodeLoop k v src (decodeInit k)
  match decodeRest k v s src with
  | .ok tail => { put := s.binaryResult ++ tail, error := none }
  | .error e => { put := s.binaryResult, error := some e }

def decode (src : Bytes) : Except ParseError Bytes :=
  match decodeInto k v src with
  | { put, error := none } => .ok put
  | { error := some e, .. } => .error e

def encodedSize (binarySize : Nat) : Nat :=
  let b := k.binaryBlockSize
  let e := k.encodedBlockSize
  if v.generatesPadding then
    (binarySize + (b - 1) - (binarySize + (b - 1)) % b) * e / b
  else
    binarySize * e / b + (if binarySize * e % b ≠ 0 then 1 else 0)

def decodedMaxSize (encodedSize : Nat) : Nat :=
  let b := k.binaryBlockSize
  let e := k.encodedBlockSize
  if v.requiresPadding then
    encodedSize / e * b
  else
    encodedSize / e * b + encodedSize % e * b / e

end StreamCodec

end Cppcodec
