import Mathlib.Data.Nat.Bits

/-!
This module contains the functions of `common_audio/signal_processing` that the VAD calls, and what C
makes of integers that do not fit.
-/

namespace WebRtc

/--
What becomes of a value that does not fit into an `int`, and of a shift by less than no or more than 31
bits. C leaves both open, so that this is a parameter of everything that may get there. Where the types of
its operands keep an expression inside the range of `int`, it is written as it is. The product of
`OverflowingMulS16ByS32ToS32`, which is allowed to overflow, is a parameter of its own.
-/
structure Overflow where
  int : Int → Int
  lower : ∀ x, -2147483648 ≤ int x
  upper : ∀ x, int x ≤ 2147483647
  exact : ∀ x, -2147483648 ≤ x → x ≤ 2147483647 → int x = x
  product : Int → Int
  product_lower : ∀ x, -2147483648 ≤ product x
  product_upper : ∀ x, product x ≤ 2147483647
  product_exact : ∀ x, -2147483648 ≤ x → x ≤ 2147483647 → product x = x
  shiftRight : Int → Int → Int
  shiftRight_exact : ∀ x n, 0 ≤ n → n < 32 → shiftRight x n = x >>> n.toNat

/--
`(int32_t) x`
-/
def int32 (x : Int) : Int :=
  (x + 2147483648) % 4294967296 - 2147483648

/--
`(uint32_t) x`
-/
def uint32 (x : Int) : Nat :=
  (x % 4294967296).toNat

theorem int32_lower (x : Int) : -2147483648 ≤ int32 x := by
  unfold int32
  omega

theorem int32_upper (x : Int) : int32 x ≤ 2147483647 := by
  unfold int32
  omega

theorem int32_exact (x : Int) (hlower : -2147483648 ≤ x) (hupper : x ≤ 2147483647) : int32 x = x := by
  unfold int32
  omega

def Overflow.wrapping : Overflow where
  int := int32
  lower := int32_lower
  upper := int32_upper
  exact := int32_exact
  product := int32
  product_lower := int32_lower
  product_upper := int32_upper
  product_exact := int32_exact
  shiftRight x n := x >>> (n % 32).toNat
  shiftRight_exact x n hlower hupper := by
    rw [Int.emod_eq_of_lt hlower hupper]

namespace Spl

/--
`n == 0 ? 32 : __builtin_clz(n)`
-/
def countLeadingZeros32 (n : Nat) : Nat :=
  if n = 0 then 32 else 31 - n.log2

def getSizeInBits (n : Nat) : Nat :=
  32 - countLeadingZeros32 n

def normW32 (a : Int) : Nat :=
  if a = 0 then
    0
  else
    countLeadingZeros32 (uint32 (if a < 0 then -a - 1 else a)) - 1

def normU32 (a : Nat) : Nat :=
  if a = 0 then 0 else countLeadingZeros32 a

-- No caller divides the least `int` by -1.
def divW32W16 (num : Int) (den : Int16) : Int :=
  if den ≠ 0 then num.tdiv den.toInt else 0x7FFFFFFF

def getScalingSquare (inVector : List Int16) (times : Nat) : Nat :=
  let nbits := getSizeInBits (times % 4294967296)
  let smax : Int16 := inVector.foldl
    (fun smax s =>
      let sabs := if s > 0 then s else -s
      if sabs > smax then sabs else smax)
    (-1)
  let t := normW32 (smax.toInt * smax.toInt)
  if smax = 0 then
    0
  else if t > nbits then
    0
  else
    nbits - t

def energy (c : Overflow) (vector : List Int16) : Int × Nat :=
  let scaling := getScalingSquare vector vector.length
  let en : Int := vector.foldl (fun en x => c.int (en + (x.toInt * x.toInt : Int) >>> scaling)) 0
  (en, scaling)

end Spl

end WebRtc
