import RealtimeAsr.Webrtc.Calls
import RealtimeAsr.Webrtc.Likelihood

/-!
This module shows in which range the means and the deviations of the models are, over any sequence of
calls.
-/

namespace WebRtc

theorem gaussian_inj {channel channel' : Fin 6} {k k' : Fin 2}
    : gaussian channel k = gaussian channel' k' ↔ channel = channel' ∧ k = k' := by
  revert channel channel' k k'
  decide

theorem get_set_each (data : Table) (channel : Fin 6) (x y : Int16) (channel' : Fin 6) (k : Fin 2)
    : ((data.store (gaussian channel 0) x).store (gaussian channel 1) y)[gaussian channel' k]
        =
      if channel' = channel then (if k = 0 then x else y) else data[gaussian channel' k] := by
  have hk : k = 0 ∨ k = 1 := by omega
  by_cases hchannel : channel' = channel
  . rw [if_pos hchannel, hchannel]
    rcases hk with rfl | rfl
    . rw [Vector.getElem_store, if_neg (by simp [gaussian_inj]), Vector.getElem_store, if_pos rfl]
      rfl
    . rw [Vector.getElem_store, if_pos rfl]
      rfl
  . rw [if_neg hchannel, Vector.getElem_store, if_neg (by simp [gaussian_inj, Ne.symm hchannel]),
      Vector.getElem_store,
      if_neg (by simp [gaussian_inj, Ne.symm hchannel])]

theorem set_each_spec (data : Table) (channel : Fin 6) {x y : Int16} {P : Fin 2 → Int16 → Prop} (hx : P 0 x)
    (hy : P 1 y)
    : let data' := (data.store (gaussian channel 0) x).store (gaussian channel 1) y
      (∀ k, P k data'[gaussian channel k])
        ∧ ∀ channel' ≠ channel, ∀ k, data'[gaussian channel' k] = data[gaussian channel' k] := by
  refine ⟨fun k => ?_, fun channel' hne k => ?_⟩
  . have hk : k = 0 ∨ k = 1 := by omega
    rw [get_set_each, if_pos rfl]
    rcases hk with rfl | rfl
    . exact hx
    . exact hy
  . rw [get_set_each, if_neg hne]

theorem get_set_both (data : Table) (channel : Fin 6) (f : Int16 → Int16) (channel' : Fin 6) (k : Fin 2)
    : let data₁ := data.store (gaussian channel 0) (f data[gaussian channel 0])
      (data₁.store (gaussian channel 1) (f data₁[gaussian channel 1]))[gaussian channel' k]
        =
      if channel' = channel then f data[gaussian channel' k] else data[gaussian channel' k] := by
  have hk : k = 0 ∨ k = 1 := by omega
  intro data₁
  have hsecond : data₁[gaussian channel 1] = data[gaussian channel 1] := by
    rw [Vector.getElem_store, if_neg (by simp [gaussian_inj])]
  rw [get_set_each, hsecond]
  split
  . next hchannel =>
    rw [hchannel]
    rcases hk with rfl | rfl
    . rfl
    . rfl
  . rfl

/--
The means of a channel, moved by some amount.
-/
structure Moved (data data' : Table) (channel : Fin 6) (offset : Int) : Prop where
  get : ∀ k, data'[gaussian channel k].toInt = data[gaussian channel k].toInt + offset
  others : ∀ channel' ≠ channel, ∀ k, data'[gaussian channel' k] = data[gaussian channel' k]

theorem Moved.refl (data : Table) (channel : Fin 6) : Moved data data channel 0 where
  get _ := (Int.add_zero _).symm
  others _ _ _ := rfl

theorem Moved.trans {data data' data'' : Table} {channel : Fin 6} {m n : Int}
    (h : Moved data data' channel m) (h' : Moved data' data'' channel n)
    : Moved data data'' channel (m + n) where
  get k := by rw [h'.get k, h.get k, Int.add_assoc]
  others channel' hne k := by rw [h'.others channel' hne k, h.others channel' hne k]

def weighted (data weights : Table) (channel : Fin 6) : Int :=
  data[gaussian channel 0].toInt * weights[gaussian channel 0].toInt
    + data[gaussian channel 1].toInt * weights[gaussian channel 1].toInt

theorem weightedAverage_fst (data : Table) (channel : Fin 6) (offset : Int16) (weights : Table)
    : (weightedAverage data channel offset weights).1
        =
      weighted (weightedAverage data channel offset weights).2 weights channel :=
  rfl

theorem weightedAverage_zero (data : Table) (channel : Fin 6) (weights : Table)
    : (weightedAverage data channel 0 weights).1 = weighted data weights channel := by
  have hget (k : Fin 2) : (weightedAverage data channel 0 weights).2[gaussian channel k]
      = data[gaussian channel k] := by
    have hboth := get_set_both data channel (· + 0) channel k
    rw [if_pos rfl] at hboth
    exact hboth.trans (Int16.add_zero _)
  rw [weightedAverage_fst]
  unfold weighted
  rw [hget, hget]

theorem weightedAverage_moved {data : Table} {channel : Fin 6} {offset : Int16} (weights : Table)
    (hlower : ∀ k, -32768 ≤ data[gaussian channel k].toInt + offset.toInt)
    (hupper : ∀ k, data[gaussian channel k].toInt + offset.toInt ≤ 32767)
    : Moved data (weightedAverage data channel offset weights).2 channel offset.toInt where
  get k := by
    have hboth := get_set_both data channel (· + offset) channel k
    rw [if_pos rfl] at hboth
    exact (congrArg Int16.toInt hboth).trans (Word16.toInt_add (hlower k) (hupper k))
  others channel' hne k := by
    have hboth := get_set_both data channel (· + offset) channel' k
    rw [if_neg hne] at hboth
    exact hboth

/--
The global mean is in Q14, and its limit in Q7.
-/
theorem limit_moved {means : Table} {channel : Fin 6} {globalMean : Int} {maximum : Int16}
    (hglobal : -4194304 ≤ globalMean) (hglobal' : globalMean ≤ 4194303) (hmaximum : 0 ≤ maximum.toInt)
    (hlower : ∀ k, -32768 ≤ means[gaussian channel k].toInt - (globalMean / 128 - maximum.toInt))
    : Moved means (VadInst.limit means channel globalMean maximum) channel
        (-max 0 (globalMean / 128 - maximum.toInt)) := by
  have hmean : (Int16.ofInt (globalMean >>> (7 : Nat))).toInt = globalMean / 128 := by
    rw [Int.shiftRight_eq_div_pow]
    exact Word16.toInt_ofInt (by omega) (by omega)
  unfold VadInst.limit
  dsimp only
  by_cases hover : Int16.ofInt (globalMean >>> (7 : Nat)) > maximum
  . have hlt := Word16.lt_iff.mp hover
    have hexcess : (Int16.ofInt (globalMean >>> (7 : Nat)) - maximum).toInt
        = globalMean / 128 - maximum.toInt := by
      rw [Word16.toInt_sub, hmean]
      . omega
      . omega
    rw [if_pos hover]
    constructor
    . intro k
      have hboth := get_set_both means channel
        (· - (Int16.ofInt (globalMean >>> (7 : Nat)) - maximum)) channel k
      rw [if_pos rfl] at hboth
      have hsub := Word16.toInt_sub (a := means[gaussian channel k])
        (b := Int16.ofInt (globalMean >>> (7 : Nat)) - maximum)
        (by rw [hexcess]; exact hlower k)
        (by have hupper := Word16.upper means[gaussian channel k]; omega)
      rw [hexcess] at hsub
      refine (congrArg Int16.toInt hboth).trans (hsub.trans ?_)
      omega
    . intro channel' hne k
      have hboth := get_set_both means channel
        (· - (Int16.ofInt (globalMean >>> (7 : Nat)) - maximum)) channel' k
      rw [if_neg hne] at hboth
      exact hboth
  . have hle := mt Word16.lt_iff.mpr hover
    rw [if_neg hover, Int.max_eq_left (by omega)]
    exact Moved.refl means channel

theorem weighted_noise_range {data : Table} {channel : Fin 6} {n : Int}
    (h : ∀ k, 0 ≤ data[gaussian channel k].toInt ∧ data[gaussian channel k].toInt ≤ n)
    : 0 ≤ weighted data kNoiseDataWeights channel
        ∧ weighted data kNoiseDataWeights channel ≤ 128 * n := by
  obtain ⟨hweight, -, hsum, -⟩ := weights_range channel
  have hrange := weighted_range (hweight 0) (hweight 1) hsum (h 0).1 (h 0).2 (h 1).1 (h 1).2
  unfold weighted
  rw [Int.mul_comm, Int.mul_comm data[gaussian channel 1].toInt]
  omega

theorem weighted_speech_range {data : Table} {channel : Fin 6} {n : Int}
    (h : ∀ k, 0 ≤ data[gaussian channel k].toInt ∧ data[gaussian channel k].toInt ≤ n)
    : 0 ≤ weighted data kSpeechDataWeights channel
        ∧ weighted data kSpeechDataWeights channel ≤ 128 * n := by
  obtain ⟨-, hweight, -, hsum⟩ := weights_range channel
  have hrange := weighted_range (hweight 0) (hweight 1) hsum (h 0).1 (h 0).2 (h 1).1 (h 1).2
  unfold weighted
  rw [Int.mul_comm, Int.mul_comm data[gaussian channel 1].toInt]
  omega

theorem Moved.weighted_noise {data data' : Table} {channel : Fin 6} {offset : Int}
    (h : Moved data data' channel offset)
    : weighted data' kNoiseDataWeights channel = weighted data kNoiseDataWeights channel + 128 * offset := by
  obtain ⟨-, -, hsum, -⟩ := weights_range channel
  unfold weighted
  rw [h.get 0, h.get 1, Int.add_mul, Int.add_mul, ← hsum, Int.add_mul, Int.mul_comm offset,
    Int.mul_comm offset]
  omega

theorem Moved.weighted_speech {data data' : Table} {channel : Fin 6} {offset : Int}
    (h : Moved data data' channel offset)
    : weighted data' kSpeechDataWeights channel
        =
      weighted data kSpeechDataWeights channel + 128 * offset := by
  obtain ⟨-, -, -, hsum⟩ := weights_range channel
  unfold weighted
  rw [h.get 0, h.get 1, Int.add_mul, Int.add_mul, ← hsum, Int.add_mul, Int.mul_comm offset,
    Int.mul_comm offset]
  omega

theorem kMinimumDifference_range (channel : Fin 6)
    : 0 ≤ kMinimumDifference[channel].toInt ∧ kMinimumDifference[channel].toInt ≤ 576 := by
  revert channel
  decide

theorem kMaximum_nonneg (channel : Fin 6)
    : 0 ≤ kMaximumSpeech[channel].toInt ∧ 0 ≤ kMaximumNoise[channel].toInt := by
  revert channel
  decide

namespace VadInst

variable {ρ : Type} (self : VadInst ρ) (channel : Fin 6)

def difference : Int :=
  weighted self.speechMeans kSpeechDataWeights channel / 512
    - weighted self.noiseMeans kNoiseDataWeights channel / 512

structure Separated (inst : VadInst ρ) (channel : Fin 6) (r : VadInst ρ × Int × Int) (t₁ t₂ : Int)
    : Prop where
  speech : Moved inst.speechMeans r.1.speechMeans channel t₁
  noise : Moved inst.noiseMeans r.1.noiseMeans channel (-t₂)
  speechStds : r.1.speechStds = inst.speechStds
  noiseStds : r.1.noiseStds = inst.noiseStds
  noiseGlobal : r.2.1 = weighted r.1.noiseMeans kNoiseDataWeights channel
  speechGlobal : r.2.2 = weighted r.1.speechMeans kSpeechDataWeights channel
  amount : t₁ = 0 ∧ t₂ = 0 ∧ kMinimumDifference[channel].toInt ≤ inst.difference channel
    ∨ t₁ = 13 * (kMinimumDifference[channel].toInt - inst.difference channel) / 4
      ∧ t₂ = 3 * (kMinimumDifference[channel].toInt - inst.difference channel) / 4
      ∧ inst.difference channel < kMinimumDifference[channel].toInt

variable {self channel}

theorem separate_spec
    (hnoise : ∀ k, 0 ≤ self.noiseMeans[gaussian channel k].toInt
      ∧ self.noiseMeans[gaussian channel k].toInt ≤ 9344)
    (hspeech : ∀ k, 0 ≤ self.speechMeans[gaussian channel k].toInt
      ∧ self.speechMeans[gaussian channel k].toInt ≤ 19400)
    : ∃ t₁ t₂, self.Separated channel (self.separate channel) t₁ t₂ := by
  have hn := weighted_noise_range hnoise
  have hs := weighted_speech_range hspeech
  obtain ⟨hmin, hmin'⟩ := kMinimumDifference_range channel
  have hdiff : (Int16.ofInt (weighted self.speechMeans kSpeechDataWeights channel >>> (9 : Nat))
      - Int16.ofInt (weighted self.noiseMeans kNoiseDataWeights channel >>> (9 : Nat))).toInt
      = self.difference channel := by
    have hs' : (Int16.ofInt (weighted self.speechMeans kSpeechDataWeights channel >>> (9 : Nat))).toInt
        = weighted self.speechMeans kSpeechDataWeights channel / 512 := by
      rw [Int.shiftRight_eq_div_pow]
      exact Word16.toInt_ofInt (by omega) (by omega)
    have hn' : (Int16.ofInt (weighted self.noiseMeans kNoiseDataWeights channel >>> (9 : Nat))).toInt
        = weighted self.noiseMeans kNoiseDataWeights channel / 512 := by
      rw [Int.shiftRight_eq_div_pow]
      exact Word16.toInt_ofInt (by omega) (by omega)
    unfold difference
    rw [Word16.toInt_sub, hs', hn']
    . omega
    . omega
  have hdifference : self.difference channel ≤ 4850 ∧ -2336 ≤ self.difference channel := by
    unfold difference
    omega
  unfold separate
  dsimp only
  rw [weightedAverage_zero, weightedAverage_zero]
  generalize Int16.ofInt (weighted self.speechMeans kSpeechDataWeights channel >>> (9 : Nat))
      - Int16.ofInt (weighted self.noiseMeans kNoiseDataWeights channel >>> (9 : Nat)) = diff at hdiff ⊢
  by_cases hclose : diff < kMinimumDifference[channel]
  . have hlt := Word16.lt_iff.mp hclose
    rw [hdiff] at hlt
    have hgap : (kMinimumDifference[channel] - diff).toInt
        = kMinimumDifference[channel].toInt - self.difference channel := by
      rw [Word16.toInt_sub, hdiff]
      . omega
      . omega
    have hup : (Int16.ofInt ((13 * (kMinimumDifference[channel] - diff).toInt) >>> (2 : Nat))).toInt
        = 13 * (kMinimumDifference[channel].toInt - self.difference channel) / 4 := by
      rw [hgap, Int.shiftRight_eq_div_pow]
      exact Word16.toInt_ofInt (by omega) (by omega)
    have hdown : (Int16.ofInt ((3 * (kMinimumDifference[channel] - diff).toInt) >>> (2 : Nat))).toInt
        = 3 * (kMinimumDifference[channel].toInt - self.difference channel) / 4 := by
      rw [hgap, Int.shiftRight_eq_div_pow]
      exact Word16.toInt_ofInt (by omega) (by omega)
    have hlow : -32767 ≤ (Int16.ofInt
        ((3 * (kMinimumDifference[channel] - diff).toInt) >>> (2 : Nat))).toInt := by
      omega
    have hdown' := Word16.toInt_neg hlow
    rw [if_pos hclose]
    generalize Int16.ofInt ((13 * (kMinimumDifference[channel] - diff).toInt) >>> (2 : Nat)) = up at hup ⊢
    generalize Int16.ofInt ((3 * (kMinimumDifference[channel] - diff).toInt) >>> (2 : Nat)) = down
      at hdown hlow hdown' ⊢
    refine ⟨up.toInt, down.toInt, ?_, ?_, rfl, rfl, rfl, rfl, Or.inr ⟨hup, hdown, hlt⟩⟩
    . apply weightedAverage_moved kSpeechDataWeights
      . intro k
        have h := hspeech k
        omega
      . intro k
        have h := hspeech k
        omega
    . rw [← hdown']
      apply weightedAverage_moved kNoiseDataWeights
      . intro k
        have h := hnoise k
        omega
      . intro k
        have h := hnoise k
        omega
  . have hle := mt Word16.lt_iff.mpr hclose
    rw [hdiff] at hle
    rw [if_neg hclose]
    exact ⟨0, 0, Moved.refl _ _, Moved.refl _ _, rfl, rfl, rfl, rfl, Or.inl ⟨rfl, rfl, by omega⟩⟩

theorem limited_spec
    (hnoise : ∀ k, 0 ≤ self.noiseMeans[gaussian channel k].toInt
      ∧ self.noiseMeans[gaussian channel k].toInt ≤ 9344)
    (hspeech : ∀ k, 0 ≤ self.speechMeans[gaussian channel k].toInt
      ∧ self.speechMeans[gaussian channel k].toInt ≤ 19400)
    : let r := self.separate channel
      let s := weighted self.speechMeans kSpeechDataWeights channel
      let n := weighted self.noiseMeans kNoiseDataWeights channel
      ∃ t₁ t₂, (t₁ = 0 ∧ t₂ = 0 ∧ kMinimumDifference[channel].toInt ≤ self.difference channel
          ∨ t₁ = 13 * (kMinimumDifference[channel].toInt - self.difference channel) / 4
            ∧ t₂ = 3 * (kMinimumDifference[channel].toInt - self.difference channel) / 4
            ∧ self.difference channel < kMinimumDifference[channel].toInt)
        ∧ Moved self.speechMeans (limit r.1.speechMeans channel r.2.2 kMaximumSpeech[channel]) channel
          (t₁ + -max 0 ((s + 128 * t₁) / 128 - kMaximumSpeech[channel].toInt))
        ∧ Moved self.noiseMeans (limit r.1.noiseMeans channel r.2.1 kMaximumNoise[channel]) channel
          (-t₂ + -max 0 ((n + 128 * -t₂) / 128 - kMaximumNoise[channel].toInt))
        ∧ r.1.speechStds = self.speechStds ∧ r.1.noiseStds = self.noiseStds := by
  dsimp only
  have hn := weighted_noise_range hnoise
  have hs := weighted_speech_range hspeech
  obtain ⟨hmin, hmin'⟩ := kMinimumDifference_range channel
  obtain ⟨t₁, t₂, hsep⟩ := separate_spec hnoise hspeech
  have hspeechGlobal := hsep.speechGlobal.trans hsep.speech.weighted_speech
  have hnoiseGlobal := hsep.noiseGlobal.trans hsep.noise.weighted_noise
  have hdifference : self.difference channel ≤ 4850 ∧ -2336 ≤ self.difference channel := by
    unfold difference
    omega
  have hamount := hsep.amount
  have hmaximum := kMaximum_nonneg channel
  refine ⟨t₁, t₂, hamount, hsep.speech.trans ?_, hsep.noise.trans ?_, hsep.speechStds, hsep.noiseStds⟩
  . rw [← hspeechGlobal]
    apply limit_moved
    . omega
    . omega
    . exact hmaximum.1
    . intro k
      have hk := hsep.speech.get k
      have hspeechk := hspeech k
      omega
  . rw [← hnoiseGlobal]
    apply limit_moved
    . omega
    . omega
    . exact hmaximum.2
    . intro k
      have hk := hsep.noise.get k
      have hnoisek := hnoise k
      omega

end VadInst

end WebRtc
