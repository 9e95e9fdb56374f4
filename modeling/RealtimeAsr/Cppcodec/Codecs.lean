import RealtimeAsr.Cppcodec.StreamCodec

/-!
This module contains the codecs `base64`, `base32` and `hex` of `cppcodec/detail` and their variants.
-/

namespace Cppcodec

namespace Base64

def numEncodedTailSymbols : Nat → Option Nat
  | 1 => some 2
  | 2 => some 3
  | _ => none

def index (i : Nat) (b : Bytes) : Option UInt8 :=
  match i with
  | 0 => do
    let b0 ← b[0]?
    return b0 >>> 2
  | 1 => do
    let b0 ← b[0]?
    let b1 ← b[1]?
    return ((b0 &&& 0x3) <<< 4) ||| (b1 >>> 4)
  | 2 => do
    let b1 ← b[1]?
    let b2 ← b[2]?
    return ((b1 &&& 0xF) <<< 2) ||| (b2 >>> 6)
  | 3 => do
    let b2 ← b[2]?
    return b2 &&& 0x3F
  | _ => none

def indexLast (i : Nat) (b : Bytes) : Option UInt8 :=
  match i with
  | 1 => do
    let b0 ← b[0]?
    return (b0 &&& 0x3) <<< 4
  | 2 => do
    let b1 ← b[1]?
    return (b1 &&& 0xF) <<< 2
  | _ => none

def decodeBlock (idx : List Nat) : Bytes :=
  let dec :=
    (idx.getD 0 0 <<< 18) ||| (idx.getD 1 0 <<< 12) ||| (idx.getD 2 0 <<< 6) ||| idx.getD 3 0
  [.ofNat (dec >>> 16), .ofNat ((dec >>> 8) &&& 0xFF), .ofNat (dec &&& 0xFF)]

def decodeTail (idx : List Nat) (idxLen : Nat) : Except ParseError Bytes :=
  if idxLen = 1 then
    .error (.invalidInputLength
      "invalid number of symbols in last base64 block: found 1, expected 2 or 3")
  else
    let first := .ofNat ((idx.getD 0 0 <<< 2) + ((idx.getD 1 0 &&& 0x30) >>> 4))
    if idxLen = 2 then
      .ok [first]
    else
      .ok [first, .ofNat (((idx.getD 1 0 &&& 0xF) <<< 4) + ((idx.getD 2 0 &&& 0x3C) >>> 2))]

end Base64

def base64 : Codec where
  binaryBlockSize := 3
  encodedBlockSize := 4
  numEncodedTailSymbols := Base64.numEncodedTailSymbols
  index := Base64.index
  indexLast := Base64.indexLast
  decodeBlock := Base64.decodeBlock
  decodeTail := Base64.decodeTail

namespace Base32

def numEncodedTailSymbols : Nat → Option Nat
  | 1 => some 2
  | 2 => some 4
  | 3 => some 5
  | 4 => some 7
  | _ => none

def index (i : Nat) (b : Bytes) : Option UInt8 :=
  match i with
  | 0 => do
    let b0 ← b[0]?
    return (b0 >>> 3) &&& (0x1F : UInt8)
  | 1 => do
    let b0 ← b[0]?
    let b1 ← b[1]?
    return ((b0 <<< 2) &&& (0x1C : UInt8)) ||| ((b1 >>> 6) &&& (0x3 : UInt8))
  | 2 => do
    let b1 ← b[1]?
    return (b1 >>> 1) &&& (0x1F : UInt8)
  | 3 => do
    let b1 ← b[1]?
    let b2 ← b[2]?
    return ((b1 <<< 4) &&& (0x10 : UInt8)) ||| ((b2 >>> 4) &&& (0xF : UInt8))
  | 4 => do
    let b2 ← b[2]?
    let b3 ← b[3]?
    return ((b2 <<< 1) &&& (0x1E : UInt8)) ||| ((b3 >>> 7) &&& (0x1 : UInt8))
  | 5 => do
    let b3 ← b[3]?
    return (b3 >>> 2) &&& (0x1F : UInt8)
  | 6 => do
    let b3 ← b[3]?
    let b4 ← b[4]?
    return ((b3 <<< 3) &&& (0x18 : UInt8)) ||| ((b4 >>> 5) &&& (0x7 : UInt8))
  | 7 => do
    let b4 ← b[4]?
    return b4 &&& (0x1F : UInt8)
  | _ => none

def indexLast (i : Nat) (b : Bytes) : Option UInt8 :=
  match i with
  | 1 => do
    let b0 ← b[0]?
    return (b0 <<< 2) &&& (0x1C : UInt8)
  | 3 => do
    let b1 ← b[1]?
    return (b1 <<< 4) &&& (0x10 : UInt8)
  | 4 => do
    let b2 ← b[2]?
    return (b2 <<< 1) &&& (0x1E : UInt8)
  | 6 => do
    let b3 ← b[3]?
    return (b3 <<< 3) &&& (0x18 : UInt8)
  | _ => none

/--
The byte at position `i` of a block: `decode_block` and `decode_tail` put it by the same expression.
-/
def decoded (idx : List Nat) (i : Nat) : UInt8 :=
  let x (j : Nat) : Nat := idx.getD j 0
  match i with
  | 0 => .ofNat (((x 0 <<< 3) &&& 0xF8) ||| ((x 1 >>> 2) &&& 0x7))
  | 1 => .ofNat (((x 1 <<< 6) &&& 0xC0) ||| ((x 2 <<< 1) &&& 0x3E) ||| ((x 3 >>> 4) &&& 0x1))
  | 2 => .ofNat (((x 3 <<< 4) &&& 0xF0) ||| ((x 4 >>> 1) &&& 0xF))
  | 3 => .ofNat (((x 4 <<< 7) &&& 0x80) ||| ((x 5 <<< 2) &&& 0x7C) ||| ((x 6 >>> 3) &&& 0x3))
  | _ => .ofNat (((x 6 <<< 5) &&& 0xE0) ||| (x 7 &&& 0x1F))

def decodeBlock (idx : List Nat) : Bytes :=
  [decoded idx 0, decoded idx 1, decoded idx 2, decoded idx 3, decoded idx 4]

def decodeTail (idx : List Nat) (idxLen : Nat) : Except ParseError Bytes :=
  if idxLen = 1 then
    .error (.invalidInputLength
      "invalid number of symbols in last base32 block: found 1, expected 2, 4, 5 or 7")
  else if idxLen = 3 then
    .error (.invalidInputLength
      "invalid number of symbols in last base32 block: found 3, expected 2, 4, 5 or 7")
  else if idxLen = 6 then
    .error (.invalidInputLength
      "invalid number of symbols in last base32 block: found 6, expected 2, 4, 5 or 7")
  else if idxLen = 2 then
    .ok [decoded idx 0]
  else if idxLen = 4 then
    .ok [decoded idx 0, decoded idx 1]
  else if idxLen = 5 then
    .ok [decoded idx 0, decoded idx 1, decoded idx 2]
  else
    .ok [decoded idx 0, decoded idx 1, decoded idx 2, decoded idx 3]

end Base32

def base32 : Codec where
  binaryBlockSize := 5
  encodedBlockSize := 8
  numEncodedTailSymbols := Base32.numEncodedTailSymbols
  index := Base32.index
  indexLast := Base32.indexLast
  decodeBlock := Base32.decodeBlock
  decodeTail := Base32.decodeTail

namespace Hex

def index (i : Nat) (b : Bytes) : Option UInt8 :=
  match i with
  | 0 => do
    let b0 ← b[0]?
    return b0 >>> 4
  | 1 => do
    let b0 ← b[0]?
    return b0 &&& 0xF
  | _ => none

def indexLast : Nat → Bytes → Option UInt8
  | 0, _ => some 0
  | _, _ => none

end Hex

def hex : Codec where
  binaryBlockSize := 1
  encodedBlockSize := 2
  numEncodedTailSymbols _ := some 0
  index := Hex.index
  indexLast := Hex.indexLast
  decodeBlock idx := [.ofNat ((idx.getD 0 0 <<< 4) ||| idx.getD 1 0)]
  decodeTail _ _ :=
    .error (.invalidInputLength <|
      "odd-length hex input is not supported by the streaming octet decoder, "
        ++ "use a place-based number decoder instead")

-- The default of `padding_symbol`, and the only one that the padding variants recognise, is `=`.
def isEqualsSign (c : UInt8) : Bool :=
  c == 61

/--
A letter between `first` and `last` is moved by the distance from `a` to `A`.
-/
def upper (first last c : UInt8) : UInt8 :=
  if c ≥ first ∧ c ≤ last then c - 97 + 65 else c

def base64Rfc4648 : CodecVariant where
  alphabet := utf8 "ABCDEFGHIJKLMNOPQRSTUVWXYZabcdefghijklmnopqrstuvwxyz0123456789+/"
  generatesPadding := true
  requiresPadding := true
  isPaddingSymbol := isEqualsSign

def base64Url : CodecVariant where
  alphabet := utf8 "ABCDEFGHIJKLMNOPQRSTUVWXYZabcdefghijklmnopqrstuvwxyz0123456789-_"
  generatesPadding := true
  requiresPadding := true
  isPaddingSymbol := isEqualsSign

def base64UrlUnpadded : CodecVariant :=
  { base64Url with generatesPadding := false, requiresPadding := false }

def base32Rfc4648 : CodecVariant where
  alphabet := utf8 "ABCDEFGHIJKLMNOPQRSTUVWXYZ234567"
  normalizedSymbol := upper 97 122
  generatesPadding := true
  requiresPadding := true
  isPaddingSymbol := isEqualsSign

def base32Hex : CodecVariant where
  alphabet := utf8 "0123456789ABCDEFGHIJKLMNOPQRSTUV"
  normalizedSymbol := upper 97 118
  generatesPadding := true
  requiresPadding := true
  isPaddingSymbol := isEqualsSign

def base32Crockford : CodecVariant where
  alphabet := utf8 "0123456789ABCDEFGHJKMNPQRSTVWXYZ"
  normalizedSymbol c :=
    if c = 79 ∨ c = 111 then
      48
    else if c = 73 ∨ c = 105 ∨ c = 76 ∨ c = 108 then
      49
    else
      upper 97 122 c
  generatesPadding := false
  requiresPadding := false
  isPaddingSymbol _ := false
  shouldIgnore c := c == 45

def hexUpper : CodecVariant where
  alphabet := utf8 "0123456789ABCDEF"
  normalizedSymbol := upper 97 102
  generatesPadding := false
  requiresPadding := false
  isPaddingSymbol _ := false

def hexLower : CodecVariant where
  alphabet := utf8 "0123456789abcdef"
  normalizedSymbol c := if c ≥ 65 ∧ c ≤ 70 then c - 65 + 97 else c
  generatesPadding := false
  requiresPadding := false
  isPaddingSymbol _ := false

/--
The headers that define a codec.
-/
inductive Name where
  | base64Rfc4648
  | base64Url
  | base64UrlUnpadded
  | base32Rfc4648
  | base32Hex
  | base32Crockford
  | hexUpper
  | hexLower
  deriving Repr, DecidableEq

namespace Name

def codec : Name → Codec
  | .base64Rfc4648 | .base64Url | .base64UrlUnpadded => base64
  | .base32Rfc4648 | .base32Hex | .base32Crockford => base32
  | .hexUpper | .hexLower => hex

def variant : Name → CodecVariant
  | .base64Rfc4648 => Cppcodec.base64Rfc4648
  | .base64Url => Cppcodec.base64Url
  | .base64UrlUnpadded => Cppcodec.base64UrlUnpadded
  | .base32Rfc4648 => Cppcodec.base32Rfc4648
  | .base32Hex => Cppcodec.base32Hex
  | .base32Crockford => Cppcodec.base32Crockford
  | .hexUpper => Cppcodec.hexUpper
  | .hexLower => Cppcodec.hexLower

def decode (name : Name) : Bytes → Except ParseError Bytes :=
  StreamCodec.decode name.codec name.variant

end Name

end Cppcodec
