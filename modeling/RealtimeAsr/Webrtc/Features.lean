import RealtimeAsr.Lib.Word16
import RealtimeAsr.Webrtc.Calls

/-!
This module shows in which range the features of a frame are, whatever becomes of an overflow.
-/

namespace WebRtc

namespace Spl

theorem countLeadingZeros32_eq {n : Nat} (h : n ≠ 0) : countLeadingZeros32 n = 31 - n.log2 :=
  if_neg h

theorem getSizeInBits_le {n : Nat} (h : n ≤ 63) : getSizeInBits n ≤ 6 := by
  unfold getSizeInBits
  by_cases hzero : n = 0
  . rw [hzero]
    decide
  . have hlog : n.log2 < 6 := (Nat.log2_lt hzero).mpr (Nat.lt_succ_of_le h)
    rw [countLeadingZeros32_eq hzero]
    omega

theorem one_le_normW32 {a : Int} (hpos : 0 < a) (hlt : a < 1073741824) : 1 ≤ normW32 a := by
  have huint : uint32 a = a.toNat := by
    unfold uint32
    rw [Int.emod_eq_of_lt (by omega) (by omega)]
  have hne : a.toNat ≠ 0 := by omega
  have hlog : a.toNat.log2 < 30 := by
    rw [Nat.log2_lt hne]
    show a.toNat < 1073741824
    omega
  unfold normW32
  rw [if_neg (by omega), if_neg (by omega), huint, countLeadingZeros32_eq hne]
  omega

theorem normU32_le (a : Nat) : normU32 a ≤ 31 := by
  unfold normU32
  split
  . decide
  . next h =>
    rw [countLeadingZeros32_eq h]
    exact Nat.sub_le _ _

theorem getScalingSquare_le (inVector : List Int16) {times : Nat} (h : times ≤ 63)
    : getScalingSquare inVector times ≤ 5 := by
  have hbits : getSizeInBits (times % 4294967296) ≤ 6 :=
    getSizeInBits_le (Nat.le_trans (Nat.mod_le _ _) h)
  have hmax (vector : List Int16) (smax : Int16) (hsmax : -1 ≤ smax.toInt)
      : -1 ≤ (vector.foldl (fun smax s =>
          let sabs := if s > 0 then s else -s
          if sabs > smax then sabs else smax) smax).toInt := by
    induction vector generalizing smax with
    | nil => exact hsmax
    | cons s vector ih =>
      apply ih
      dsimp only
      generalize (if s > 0 then s else -s) = sabs
      split
      . next hgt =>
        rw [gt_iff_lt, Word16.lt_iff] at hgt
        omega
      . exact hsmax
  have hlower := hmax inVector (-1) (by decide)
  unfold getScalingSquare
  dsimp only at hlower ⊢
  generalize inVector.foldl _ (-1 : Int16) = smax at hlower ⊢
  split
  . exact Nat.zero_le _
  . next hne =>
    split
    . exact Nat.zero_le _
    . have hupper := Word16.upper smax
      have hne' : smax.toInt ≠ 0 := fun hzero => hne (Int16.toInt_inj.mp hzero)
      have hpos : 0 < smax.toInt * smax.toInt := by
        rcases Int.lt_or_gt_of_ne hne' with hneg | hpos
        . exact Int.mul_pos_of_neg_of_neg hneg hneg
        . exact Int.mul_pos hpos hpos
      have hlt : smax.toInt * smax.toInt < 1073741824 := by
        have hsquare : smax.toInt * smax.toInt ≤ 32767 * 32767 := by
          by_cases hneg : smax.toInt < 0
          . have heq : smax.toInt = -1 := by omega
            rw [heq]
            decide
          . exact Int.mul_le_mul hupper hupper (by omega) (by decide)
        omega
      have hnorm := one_le_normW32 hpos hlt
      omega

end Spl

/--
The logarithm, from the fraction and the number of shifts, before the offset is added.
-/
theorem logEnergy_le {frac : Nat} (hfrac : frac ≤ 1023) {totRshifts : Int}
    (hlower : -14 ≤ totRshifts) (hupper : totRshifts ≤ 22)
    : let logEnergy : Int16 := .ofInt
        ((kLogConst * (kLogEnergyIntPart + .ofInt (frac : Nat)).toInt) >>> (19 : Nat)
          + (totRshifts * kLogConst) >>> (9 : Nat))
      logEnergy.toInt ≤ 1781 := by
  have hlog2 : (kLogEnergyIntPart + .ofInt (frac : Nat)).toInt = 14336 + frac := by
    have hfrac' : (Int16.ofInt (frac : Nat)).toInt = frac :=
      Word16.toInt_ofInt (by omega) (by omega)
    have hpart : kLogEnergyIntPart.toInt = 14336 := rfl
    rw [Word16.toInt_add, hfrac', hpart]
    . omega
    . omega
  intro logEnergy
  have hconst : kLogConst = 24660 := rfl
  have hlogEnergy : logEnergy.toInt
      = (24660 * (14336 + frac : Int)) / 524288 + (totRshifts * 24660) / 512 := by
    show (Int16.ofInt _).toInt = _
    rw [hlog2, hconst, Int.shiftRight_eq_div_pow, Int.shiftRight_eq_div_pow]
    apply Word16.toInt_ofInt
    . show -32768 ≤ _ / 524288 + _ / 512
      omega
    . show _ / 524288 + _ / 512 ≤ 32767
      omega
  rw [hlogEnergy]
  omega

/--
The energy of at most 63 values in Q4 is between 0 and 1781, on top of the offset.
-/
theorem logOfEnergy_range (c : Overflow) {dataIn : List Int16} (hlen : dataIn.length ≤ 63)
    {offset : Int16} (hoffset : 0 ≤ offset.toInt) (hoffset' : offset.toInt ≤ 1000)
    (totalEnergy : Int16)
    : offset.toInt ≤ (logOfEnergy c dataIn offset totalEnergy).2.toInt
        ∧ (logOfEnergy c dataIn offset totalEnergy).2.toInt ≤ offset.toInt + 1781 := by
  have hscaling : (Spl.energy c dataIn).2 ≤ 5 := Spl.getScalingSquare_le dataIn hlen
  unfold logOfEnergy
  generalize Spl.energy c dataIn = e at hscaling ⊢
  obtain ⟨energy, totRshifts⟩ := e
  dsimp only at hscaling ⊢
  generalize uint32 energy = energy
  split
  . have hnorm := Spl.normU32_le energy
    have hfrac (normalized : Nat) : (normalized &&& 0x3FFF) >>> (4 : Nat) ≤ 1023 := by
      have hle : normalized &&& 0x3FFF ≤ 0x3FFF := Nat.and_le_right
      rw [Nat.shiftRight_eq_div_pow]
      omega
    generalize (if (17 - Spl.normU32 energy : Int) < 0 then _ else _) = normalized
    have hrange := logEnergy_le (hfrac normalized) (show -14 ≤ totRshifts + (17 - Spl.normU32 energy : Int)
      by omega) (by omega)
    generalize Int16.ofInt (_ + ((totRshifts + (17 - Spl.normU32 energy : Int)) * kLogConst) >>> (9 : Nat))
      = logEnergy at hrange ⊢
    have hclamp : 0 ≤ (if logEnergy < 0 then 0 else logEnergy).toInt
        ∧ (if logEnergy < 0 then 0 else logEnergy).toInt ≤ 1781 := by
      split
      . decide
      . next h =>
        rw [Word16.lt_iff, Int16.toInt_zero] at h
        omega
    generalize (if logEnergy < 0 then 0 else logEnergy) = clamped at hclamp ⊢
    have hsum : (clamped + offset).toInt = clamped.toInt + offset.toInt :=
      Word16.toInt_add (by omega) (by omega)
    split
    . split
      . dsimp only
        omega
      . dsimp only
        omega
    . dsimp only
      omega
  . dsimp only
    omega

section Lengths

variable (c : Overflow)

theorem length_highPassFilter (dataIn : List Int16) (filterState : Vector Int16 4)
    : (highPassFilter c dataIn filterState).1.length = dataIn.length := by
  induction dataIn generalizing filterState with
  | nil => rfl
  | cons x dataIn ih => exact congrArg (· + 1) (ih _)

theorem length_allPassLoop (filterCoefficient : Int16) (n : Nat) (dataIn : List Int16)
    (state32 : Int)
    : (allPassLoop c filterCoefficient n dataIn state32).1.length = n := by
  induction n generalizing dataIn state32 with
  | zero => rfl
  | succ n ih => exact congrArg (· + 1) (ih _ _)

theorem length_splitFilter (dataIn : List Int16) (upperState lowerState : Int16)
    : (splitFilter c dataIn upperState lowerState).hp.length = dataIn.length / 2
        ∧ (splitFilter c dataIn upperState lowerState).lp.length = dataIn.length / 2 := by
  have hlen (dataIn : List Int16) (n : Nat) (filterCoefficient filterState : Int16)
      : (allPassFilter c dataIn n filterCoefficient filterState).1.length = n :=
    length_allPassLoop c filterCoefficient n dataIn _
  unfold splitFilter
  constructor
  . dsimp only
    rw [List.length_zipWith, hlen, hlen, Nat.min_self, Nat.shiftRight_eq_div_pow, Nat.pow_one]
  . dsimp only
    rw [List.length_zipWith, hlen, hlen, Nat.min_self, Nat.shiftRight_eq_div_pow, Nat.pow_one]

theorem length_downsampling
    : ∀ (signalIn : List Int16) (filterState : Int × Int),
      (downsampling signalIn filterState).1.length = signalIn.length / 2
  | [], _ => rfl
  | [_], (_, _) => by simp [downsampling]
  | x :: y :: signalIn, filterState => by
    have hlen : (x :: y :: signalIn).length / 2 = signalIn.length / 2 + 1 :=
      Nat.add_div_right _ Nat.zero_lt_two
    rw [hlen]
    exact congrArg (· + 1) (length_downsampling signalIn _)

variable {ρ : Type} (r : Resampler ρ)

theorem length_resampleParts (speechFrame : List Int16) (n : Nat) (state : ρ)
    : (VadInst.resampleParts r.resample48khzTo8khz speechFrame n state).1.length = 80 * n := by
  induction n generalizing state with
  | zero => rfl
  | succ n ih =>
    unfold VadInst.resampleParts
    dsimp only
    rw [List.length_append, r.length_resample, ih]
    omega

/--
The frame has 80 values for each 10 ms.
-/
theorem VadInst.length_narrow (self : VadInst ρ) {fs : Int} {audioFrame : List Int16}
    (h : Supported fs audioFrame.length)
    : ∃ ms ∈ [(10 : Int), 20, 30], ((self.narrow r fs audioFrame).1.length : Int) = 8 * ms := by
  obtain ⟨hrate, ms, hms, hlen⟩ := h
  refine ⟨ms, hms, ?_⟩
  unfold narrow
  simp only [List.mem_cons, List.not_mem_nil, or_false] at hrate
  obtain rfl | rfl | rfl | rfl := hrate
  . simp only [Int.reduceEq, if_false]
    omega
  . simp only [Int.reduceEq, if_false, if_true, length_downsampling]
    omega
  . simp only [Int.reduceEq, if_false, if_true, length_downsampling]
    omega
  . have hten : (audioFrame.length / 480 : Nat) * 10 = ms := by
      simp only [List.mem_cons, List.not_mem_nil, or_false] at hms
      omega
    simp only [if_true, length_resampleParts]
    omega

end Lengths

theorem kOffsetVector_range (channel : Fin 6)
    : 0 ≤ kOffsetVector[channel].toInt ∧ kOffsetVector[channel].toInt ≤ 1000 := by
  revert channel
  decide

/--
The features of a channel.
-/
def InRange (channel : Fin 6) (feature : Int16) : Prop :=
  kOffsetVector[channel].toInt ≤ feature.toInt ∧ feature.toInt ≤ kOffsetVector[channel].toInt + 1781

theorem VadInst.calculateFeatures_range {ρ : Type} (c : Overflow) (self : VadInst ρ)
    {dataIn : List Int16} (hlen : dataIn.length ≤ 240) (channel : Fin 6)
    : InRange channel (self.calculateFeatures c dataIn).2.1[channel] := by
  have hsplit (self : VadInst ρ) (frequencyBand : Fin 5) {dataIn : List Int16} {n : Nat}
      (h : dataIn.length ≤ 2 * n + 1)
      : (self.split c frequencyBand dataIn).1.length ≤ n
        ∧ (self.split c frequencyBand dataIn).2.1.length ≤ n := by
    obtain ⟨hhp, hlp⟩ := length_splitFilter c dataIn self.upperState[frequencyBand]
      self.lowerState[frequencyBand]
    have hhp : (self.split c frequencyBand dataIn).1.length = dataIn.length / 2 := hhp
    have hlp : (self.split c frequencyBand dataIn).2.1.length = dataIn.length / 2 := hlp
    omega
  have hrange (i : Fin 6) {dataIn : List Int16} (hlen : dataIn.length ≤ 60) (totalEnergy : Int16)
      : InRange i (logOfEnergy c dataIn kOffsetVector[i] totalEnergy).2 :=
    logOfEnergy_range c (show dataIn.length ≤ 63 by omega) (kOffsetVector_range i).1
      (kOffsetVector_range i).2 totalEnergy
  unfold calculateFeatures
  have h0 := hsplit self 0 (show dataIn.length ≤ 2 * 120 + 1 by omega)
  generalize self.split c 0 dataIn = s at h0 ⊢
  obtain ⟨hp120, lp120, self₁⟩ := s
  dsimp only at h0 ⊢
  have h1 := hsplit self₁ 1 (show hp120.length ≤ 2 * 60 + 1 by omega)
  generalize self₁.split c 1 hp120 = s at h1 ⊢
  obtain ⟨hp60, lp60, self₂⟩ := s
  dsimp only at h1 ⊢
  have f5 : InRange 5 (logOfEnergy c hp60 (kOffsetVector.get 5) 0).2 := hrange 5 h1.1 0
  generalize logOfEnergy c hp60 (kOffsetVector.get 5) 0 = e5 at f5 ⊢
  have f4 : InRange 4 (logOfEnergy c lp60 (kOffsetVector.get 4) e5.1).2 := hrange 4 h1.2 e5.1
  generalize logOfEnergy c lp60 (kOffsetVector.get 4) e5.1 = e4 at f4 ⊢
  have h2 := hsplit self₂ 2 (show lp120.length ≤ 2 * 60 + 1 by omega)
  generalize self₂.split c 2 lp120 = s at h2 ⊢
  obtain ⟨hp60, lp60, self₃⟩ := s
  dsimp only at h2 ⊢
  have f3 : InRange 3 (logOfEnergy c hp60 (kOffsetVector.get 3) e4.1).2 := hrange 3 h2.1 e4.1
  generalize logOfEnergy c hp60 (kOffsetVector.get 3) e4.1 = e3 at f3 ⊢
  have h3 := hsplit self₃ 3 (show lp60.length ≤ 2 * 60 + 1 by omega)
  generalize self₃.split c 3 lp60 = s at h3 ⊢
  obtain ⟨hp120, lp120, self₄⟩ := s
  dsimp only at h3 ⊢
  have f2 : InRange 2 (logOfEnergy c hp120 (kOffsetVector.get 2) e3.1).2 := hrange 2 h3.1 e3.1
  generalize logOfEnergy c hp120 (kOffsetVector.get 2) e3.1 = e2 at f2 ⊢
  have h4 := hsplit self₄ 4 (show lp120.length ≤ 2 * 60 + 1 by omega)
  generalize self₄.split c 4 lp120 = s at h4 ⊢
  obtain ⟨hp60, lp60, self₅⟩ := s
  dsimp only at h4 ⊢
  have f1 : InRange 1 (logOfEnergy c hp60 (kOffsetVector.get 1) e2.1).2 := hrange 1 h4.1 e2.1
  generalize logOfEnergy c hp60 (kOffsetVector.get 1) e2.1 = e1 at f1 ⊢
  have hhp := length_highPassFilter c lp60 self₅.hpFilterState
  generalize highPassFilter c lp60 self₅.hpFilterState = s at hhp ⊢
  obtain ⟨hp120, hpFilterState⟩ := s
  dsimp only at hhp ⊢
  have f0 : InRange 0 (logOfEnergy c hp120 (kOffsetVector.get 0) e1.1).2 := hrange 0 (by omega) e1.1
  generalize logOfEnergy c hp120 (kOffsetVector.get 0) e1.1 = e0 at f0 ⊢
  match channel with
  | 0 => exact f0
  | 1 => exact f1
  | 2 => exact f2
  | 3 => exact f3
  | 4 => exact f4
  | 5 => exact f5

end WebRtc
