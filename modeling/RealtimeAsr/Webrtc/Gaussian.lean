import Mathlib.Tactic.Linarith
import RealtimeAsr.Lib.Word16
import RealtimeAsr.Webrtc.Gmm

/-!
This module shows when `WebRtcVad_GaussianProbability` stays inside its types.
-/

namespace WebRtc

namespace Gaussian

def inverse (std : Int16) : Int :=
  (131072 + std.toInt / 2) / std.toInt

theorem inverse_range {std : Int16} (h : 378 ≤ std.toInt)
    : 0 ≤ inverse std ∧ inverse std ≤ 347 ∧ (384 ≤ std.toInt → inverse std ≤ 341) := by
  have hupper := Word16.upper std
  unfold inverse
  refine ⟨Int.ediv_nonneg (by omega) (by omega), ?_, fun h384 => ?_⟩
  . apply Int.le_of_lt_add_one
    apply Int.ediv_lt_of_lt_mul (by omega)
    omega
  . apply Int.le_of_lt_add_one
    apply Int.ediv_lt_of_lt_mul (by omega)
    omega

def inverseSquare (std : Int16) : Int :=
  (inverse std / 4 * (inverse std / 4)) / 4

theorem inverseSquare_range {std : Int16} (h : 378 ≤ std.toInt)
    : 0 ≤ inverseSquare std ∧ inverseSquare std ≤ 1849
        ∧ (384 ≤ std.toInt → inverseSquare std ≤ 1806) := by
  obtain ⟨hlower, hupper, hupper'⟩ := inverse_range h
  have hsquare {n : Int} (hn : inverse std / 4 ≤ n)
      : inverse std / 4 * (inverse std / 4) ≤ n * n :=
    Int.mul_le_mul hn hn (by omega) (by omega)
  have hnonneg : 0 ≤ inverse std / 4 * (inverse std / 4) := Int.mul_nonneg (by omega) (by omega)
  unfold inverseSquare
  refine ⟨by omega, ?_, fun h384 => ?_⟩
  . have hle := hsquare (show inverse std / 4 ≤ 86 by omega)
    omega
  . have hle := hsquare (show inverse std / 4 ≤ 85 by have := hupper' h384; omega)
    omega

def distance (input mean : Int16) : Int :=
  input.toInt * 8 - mean.toInt

/--
The value is near enough to the mean for the standard deviation.
-/
structure Near (input mean std : Int16) : Prop where
  nonneg : 0 ≤ input.toInt
  upper : input.toInt ≤ 4095
  wide : 378 ≤ std.toInt
  far : -18579 ≤ distance input mean ∧ distance input mean ≤ 18579
  farther : std.toInt < 384 → -18146 ≤ distance input mean ∧ distance input mean ≤ 18146

def delta (input mean std : Int16) : Int :=
  (inverseSquare std * distance input mean) / 1024

variable {input mean std : Int16}

theorem product_range {k d n m : Int} (hk : 0 ≤ k) (hkn : k ≤ n) (hm : 0 ≤ m) (hlower : -m ≤ d)
    (hupper : d ≤ m)
    : -(n * m) ≤ k * d ∧ k * d ≤ n * m := by
  have hkm : k * m ≤ n * m := Int.mul_le_mul_of_nonneg_right hkn hm
  have hle : k * d ≤ k * m := Int.mul_le_mul_of_nonneg_left hupper hk
  have hge : k * -m ≤ k * d := Int.mul_le_mul_of_nonneg_left hlower hk
  rw [Int.mul_neg] at hge
  omega

theorem Near.delta_range (h : Near input mean std)
    : -32768 ≤ delta input mean std ∧ delta input mean std ≤ 32767 := by
  obtain ⟨hlower, hupper, hupper'⟩ := inverseSquare_range h.wide
  unfold delta
  by_cases h384 : 384 ≤ std.toInt
  . have hrange := product_range hlower (hupper' h384) (by decide) h.far.1 h.far.2
    omega
  . obtain ⟨hfar, hfar'⟩ := h.farther (by omega)
    have hrange := product_range hlower hupper (by decide) hfar hfar'
    omega

theorem Near.delta_mul_nonneg (h : Near input mean std)
    : 0 ≤ delta input mean std * distance input mean := by
  obtain ⟨hlower, -⟩ := inverseSquare_range h.wide
  unfold delta
  rcases Int.le_total 0 (distance input mean) with hpos | hneg
  . exact Int.mul_nonneg (Int.ediv_nonneg (Int.mul_nonneg hlower hpos) (by decide)) hpos
  . have hproduct : inverseSquare std * distance input mean ≤ 0 :=
      Int.mul_nonpos_of_nonneg_of_nonpos hlower hneg
    exact Int.mul_nonneg_of_nonpos_of_nonpos (by omega) hneg

theorem mantissa_range (x : Int16)
    : 1024 ≤ ((0x0400 : Int16) ||| (x &&& 0x03FF)).toInt
        ∧ ((0x0400 : Int16) ||| (x &&& 0x03FF)).toInt ≤ 2047 := by
  have hnat : ((0x0400 : Int16) ||| (x &&& 0x03FF)).toBitVec.toNat
      = 1024 ||| (x.toBitVec.toNat &&& 1023) := by
    rw [Int16.toBitVec_or, Int16.toBitVec_and, BitVec.toNat_or, BitVec.toNat_and]
    rfl
  have hand : x.toBitVec.toNat &&& 1023 ≤ 1023 := Nat.and_le_right
  have hupper : 1024 ||| (x.toBitVec.toNat &&& 1023) < 2 ^ 11 :=
    Nat.or_lt_two_pow (by decide) (by omega)
  have hlower : 1024 ≤ 1024 ||| (x.toBitVec.toNat &&& 1023) := Nat.left_le_or
  rw [Word16.toInt_of_toNat_lt (by omega), hnat]
  omega

def expValue (c : Overflow) (tmp32 : Int) : Int16 :=
  let tmp16 : Int16 := .ofInt (c.int (kLog2Exp * tmp32) >>> (12 : Nat))
  let tmp16 := -tmp16
  let expValue := 0x0400 ||| (tmp16 &&& 0x03FF)
  let tmp16 := tmp16 ^^^ 0xFFFF
  let tmp16 : Int16 := .ofInt (tmp16.toInt >>> (10 : Nat))
  let tmp16 := tmp16 + 1
  .ofInt (c.shiftRight expValue.toInt tmp16.toInt)

theorem expValue_eq (c : Overflow) {tmp32 : Int} (hlower : 0 ≤ tmp32) (hupper : tmp32 < kCompVar)
    : let tmp16 : Int16 := .ofInt (kLog2Exp * tmp32 / 4096)
      expValue c tmp32
        =
      .ofInt ((0x0400 ||| (-tmp16 &&& 0x03FF) : Int16).toInt >>> ((tmp16.toInt - 1) / 1024 + 1).toNat) := by
  intro tmp16
  have hproduct : 0 ≤ kLog2Exp * tmp32 ∧ kLog2Exp * tmp32 ≤ 5909 * 22004 := by
    have hconst : kLog2Exp = 5909 := rfl
    have hlimit : kCompVar = 22005 := rfl
    rw [hconst]
    omega
  have hint : c.int (kLog2Exp * tmp32) >>> (12 : Nat) = kLog2Exp * tmp32 / 4096 := by
    rw [c.exact _ (by omega) (by omega), Int.shiftRight_eq_div_pow]
    rfl
  have htmp : tmp16.toInt = kLog2Exp * tmp32 / 4096 := Word16.toInt_ofInt (by omega) (by omega)
  have hneg : (-tmp16).toInt = -tmp16.toInt := Word16.toInt_neg (by omega)
  have hxor : (-tmp16 ^^^ 0xFFFF).toInt >>> (10 : Nat) = (tmp16.toInt - 1) / 1024 := by
    rw [Word16.toInt_xor_ones, hneg, Int.neg_neg, Int.shiftRight_eq_div_pow]
    rfl
  have hshift : (Int16.ofInt ((tmp16.toInt - 1) / 1024) + 1).toInt = (tmp16.toInt - 1) / 1024 + 1 := by
    have hof : (Int16.ofInt ((tmp16.toInt - 1) / 1024)).toInt = (tmp16.toInt - 1) / 1024 :=
      Word16.toInt_ofInt (by omega) (by omega)
    have hone : (1 : Int16).toInt = 1 := rfl
    rw [Word16.toInt_add, hof, hone]
    . omega
    . omega
  unfold expValue
  dsimp only
  rw [hint, show Int16.ofInt (kLog2Exp * tmp32 / 4096) = tmp16 from rfl, hxor, hshift,
    c.shiftRight_exact _ _ (by omega) (by omega)]

theorem expValue_range (c : Overflow) {tmp32 : Int} (hlower : 0 ≤ tmp32) (hupper : tmp32 < kCompVar)
    : 0 ≤ (expValue c tmp32).toInt ∧ (expValue c tmp32).toInt ≤ 2047 := by
  obtain ⟨hmantissa, hmantissa'⟩ := mantissa_range (-.ofInt (kLog2Exp * tmp32 / 4096))
  rw [expValue_eq c hlower hupper]
  generalize ((0x0400 : Int16) ||| _).toInt = mantissa at hmantissa hmantissa' ⊢
  generalize Int.toNat _ = shift
  have hpow : (0 : Int) < 2 ^ shift := Int.pow_pos (by decide)
  have hnonneg : 0 ≤ mantissa >>> shift := by
    rw [Int.shiftRight_eq_div_pow]
    exact Int.ediv_nonneg (by omega) (by positivity)
  have hle : mantissa >>> shift ≤ mantissa := by
    rw [Int.shiftRight_eq_div_pow]
    exact Int.ediv_le_self _ (by omega)
  rw [Word16.toInt_ofInt (by omega) (by omega)]
  omega

theorem Near.gaussianProbability_eq (h : Near input mean std) (c : Overflow)
    : gaussianProbability c input mean std
        =
      let tmp32 := delta input mean std * distance input mean / 512
      (inverse std * (if tmp32 < kCompVar then expValue c tmp32 else 0).toInt,
        .ofInt (delta input mean std)) := by
  have hpos := h.wide
  have hinput := h.nonneg
  have hinput' := h.upper
  have hfar := h.far
  obtain ⟨hinverse, hinverse', -⟩ := inverse_range h.wide
  obtain ⟨hsquare, hsquare', -⟩ := inverseSquare_range h.wide
  obtain ⟨hdelta, hdelta'⟩ := h.delta_range
  have hne : std ≠ 0 := by
    rintro rfl
    exact absurd hpos (by decide)
  have hinv : (Int16.ofInt (Spl.divW32W16 (131072 + std.toInt >>> (1 : Nat)) std)).toInt = inverse std := by
    have hdiv : Spl.divW32W16 (131072 + std.toInt >>> (1 : Nat)) std = inverse std := by
      unfold Spl.divW32W16 inverse
      rw [if_pos hne, Int.shiftRight_eq_div_pow]
      exact Int.tdiv_eq_ediv_of_nonneg (by omega)
    rw [hdiv]
    exact Word16.toInt_ofInt (by omega) (by omega)
  have hquarter : (Int16.ofInt (inverse std >>> (2 : Nat))).toInt = inverse std / 4 := by
    rw [Int.shiftRight_eq_div_pow]
    exact Word16.toInt_ofInt (by omega) (by omega)
  have hinv2 : (Int16.ofInt ((inverse std / 4 * (inverse std / 4) : Int) >>> (2 : Nat))).toInt
      = inverseSquare std := by
    rw [Int.shiftRight_eq_div_pow]
    exact Word16.toInt_ofInt (by show -32768 ≤ inverseSquare std; omega)
      (by show inverseSquare std ≤ 32767; omega)
  have hdistance : (Int16.ofInt (input.toInt * 8) - mean).toInt = distance input mean := by
    have hmul : (Int16.ofInt (input.toInt * 8)).toInt = input.toInt * 8 :=
      Word16.toInt_ofInt (by omega) (by omega)
    unfold distance at hfar ⊢
    rw [Word16.toInt_sub, hmul]
    . omega
    . omega
  have hdeltaShift : (inverseSquare std * distance input mean : Int) >>> (10 : Nat) = delta input mean std :=
    Int.shiftRight_eq_div_pow _ _
  have hdeltaInt : (Int16.ofInt (delta input mean std)).toInt = delta input mean std :=
    Word16.toInt_ofInt hdelta hdelta'
  have hexponent : (delta input mean std * distance input mean : Int) >>> (9 : Nat)
      = delta input mean std * distance input mean / 512 :=
    Int.shiftRight_eq_div_pow _ _
  unfold gaussianProbability expValue
  simp only [hinv, hquarter, hinv2, hdistance, hdeltaShift, hdeltaInt, hexponent]

theorem Near.exponent_nonneg (h : Near input mean std)
    : 0 ≤ delta input mean std * distance input mean / 512 :=
  Int.ediv_nonneg h.delta_mul_nonneg (by decide)

/--
An overflow does not matter.
-/
theorem Near.exact (h : Near input mean std) (c c' : Overflow)
    : gaussianProbability c input mean std = gaussianProbability c' input mean std := by
  rw [h.gaussianProbability_eq, h.gaussianProbability_eq]
  dsimp only
  split
  . next hlt => rw [expValue_eq c h.exponent_nonneg hlt, expValue_eq c' h.exponent_nonneg hlt]
  . rfl

theorem Near.probability_range (h : Near input mean std) (c : Overflow)
    : 0 ≤ (gaussianProbability c input mean std).1
        ∧ (gaussianProbability c input mean std).1 ≤ 710309 := by
  obtain ⟨hinverse, hinverse', -⟩ := inverse_range h.wide
  rw [h.gaussianProbability_eq]
  dsimp only
  split
  . next hlt =>
    obtain ⟨hlower, hupper⟩ := expValue_range c h.exponent_nonneg hlt
    refine ⟨Int.mul_nonneg hinverse hlower, ?_⟩
    exact Int.mul_le_mul hinverse' hupper hlower (by decide)
  . rw [Int16.toInt_zero, Int.mul_zero]
    decide

theorem Near.toInt_delta (h : Near input mean std) (c : Overflow)
    : (gaussianProbability c input mean std).2.toInt = delta input mean std := by
  rw [h.gaussianProbability_eq]
  exact Word16.toInt_ofInt h.delta_range.1 h.delta_range.2

/--
A value with a probability is not far away.
-/
theorem Near.delta_mul_lt (h : Near input mean std) {c : Overflow}
    (hpos : (gaussianProbability c input mean std).1 ≠ 0)
    : delta input mean std * distance input mean < 22005 * 512 := by
  rw [h.gaussianProbability_eq] at hpos
  dsimp only at hpos
  split at hpos
  . next hlt =>
    have hlimit : kCompVar = 22005 := rfl
    omega
  . exact absurd (Int.mul_zero _) hpos

end Gaussian

end WebRtc
