import RealtimeAsr.Webrtc.Means

/-!
This module shows in which bounds the update of a channel leaves its models, whatever the features, the
tests and the overflows are.
-/

namespace WebRtc

def maximumBefore : Vector Int16 6 := #v[12800, 11392, 11392, 11520, 11520, 11520]

def lowestNoiseMean (channel : Fin 6) : Int :=
  if channel = 0 then -951 else -1000

theorem maximumBefore_range (channel : Fin 6)
    : 11392 ≤ maximumBefore[channel].toInt ∧ maximumBefore[channel].toInt ≤ 12800 := by
  revert channel
  decide

theorem channel_constants (channel : Fin 6)
    : (kNoiseDataWeights[gaussian channel 0].toInt, kNoiseDataWeights[gaussian channel 1].toInt,
        kSpeechDataWeights[gaussian channel 0].toInt, kSpeechDataWeights[gaussian channel 1].toInt,
        kMinimumDifference[channel].toInt, kMaximumNoise[channel].toInt, kMaximumSpeech[channel].toInt,
        maximumBefore[channel].toInt, lowestNoiseMean channel, (channel.val : Int))
      ∈ [(34, 94, 48, 80, 544, 9216, 11392, 12800, -951, 0),
        (62, 66, 82, 46, 544, 9088, 11392, 11392, -1000, 1),
        (72, 56, 45, 83, 576, 8960, 11520, 11392, -1000, 2),
        (66, 62, 87, 41, 576, 8832, 11520, 11520, -1000, 3),
        (53, 75, 50, 78, 576, 8704, 11520, 11520, -1000, 4),
        (25, 103, 47, 81, 576, 8576, 11520, 11520, -1000, 5)] := by
  revert channel
  decide

section Arithmetic

variable {w0 w1 v0 v1 m maxN maxS before low channel n0 n1 s0 s1 t e : Int}
  (hc : (w0, w1, v0, v1, m, maxN, maxS, before, low, channel)
    ∈ [(34, 94, 48, 80, 544, 9216, 11392, 12800, -951, 0),
      (62, 66, 82, 46, 544, 9088, 11392, 11392, -1000, 1),
      (72, 56, 45, 83, 576, 8960, 11520, 11392, -1000, 2),
      (66, 62, 87, 41, 576, 8832, 11520, 11520, -1000, 3),
      (53, 75, 50, 78, 576, 8704, 11520, 11520, -1000, 4),
      (25, 103, 47, 81, 576, 8576, 11520, 11520, -1000, 5)])

include hc

/--
The noise means, moved down by `t` to separate them from the speech and by `e` to keep the limit.
-/
theorem noise_bounds (hn0 : 640 ≤ n0) (hn0' : n0 ≤ (72 - channel) * 128) (hn1 : 768 ≤ n1)
    (hn1' : n1 ≤ (73 - channel) * 128) (hs0 : 640 ≤ s0) (hs1 : 768 ≤ s1)
    (ht : t = 0
      ∨ t = 3 * (m - ((s0 * v0 + s1 * v1) / 512 - (n0 * w0 + n1 * w1) / 512)) / 4
        ∧ (s0 * v0 + s1 * v1) / 512 - (n0 * w0 + n1 * w1) / 512 < m)
    (he : e = max 0 ((n0 * w0 + n1 * w1 + 128 * -t) / 128 - maxN))
    : (low ≤ n0 - t - e ∧ n0 - t - e ≤ (72 - channel) * 128)
        ∧ low ≤ n1 - t - e ∧ n1 - t - e ≤ (73 - channel) * 128 := by
  simp only [List.mem_cons, Prod.mk.injEq, List.not_mem_nil, or_false] at hc
  rcases hc with ⟨rfl, rfl, rfl, rfl, rfl, rfl, -, -, rfl, rfl⟩
    | ⟨rfl, rfl, rfl, rfl, rfl, rfl, -, -, rfl, rfl⟩
    | ⟨rfl, rfl, rfl, rfl, rfl, rfl, -, -, rfl, rfl⟩ | ⟨rfl, rfl, rfl, rfl, rfl, rfl, -, -, rfl, rfl⟩
    | ⟨rfl, rfl, rfl, rfl, rfl, rfl, -, -, rfl, rfl⟩ | ⟨rfl, rfl, rfl, rfl, rfl, rfl, -, -, rfl, rfl⟩
  all_goals omega

theorem speech_bounds (hs0 : 640 ≤ s0) (hs1 : 768 ≤ s1) (hspread : s1 - s0 ≤ before)
    (hspread' : s0 - s1 ≤ before) (ht : 0 ≤ t)
    (he : e = max 0 ((s0 * v0 + s1 * v1 + 128 * t) / 128 - maxS))
    : (640 ≤ s0 + t - e ∧ s0 + t - e ≤ 19400) ∧ 768 ≤ s1 + t - e ∧ s1 + t - e ≤ 19400 := by
  simp only [List.mem_cons, Prod.mk.injEq, List.not_mem_nil, or_false] at hc
  rcases hc with ⟨-, -, rfl, rfl, -, -, rfl, rfl, -, -⟩ | ⟨-, -, rfl, rfl, -, -, rfl, rfl, -, -⟩
    | ⟨-, -, rfl, rfl, -, -, rfl, rfl, -, -⟩ | ⟨-, -, rfl, rfl, -, -, rfl, rfl, -, -⟩
    | ⟨-, -, rfl, rfl, -, -, rfl, rfl, -, -⟩ | ⟨-, -, rfl, rfl, -, -, rfl, rfl, -, -⟩
  all_goals omega

end Arithmetic

theorem separated_apart {s n t₁ t₂ m : Int}
    (h : t₁ = 0 ∧ t₂ = 0 ∧ m ≤ s / 512 - n / 512
      ∨ t₁ = 13 * (m - (s / 512 - n / 512)) / 4 ∧ t₂ = 3 * (m - (s / 512 - n / 512)) / 4
        ∧ s / 512 - n / 512 < m)
    : 512 * m - 639 ≤ (s + 128 * t₁) - (n - 128 * t₂) := by
  rcases h with h | ⟨h₁, h₂, -⟩
  . omega
  . have hsum : 4 * (m - (s / 512 - n / 512)) - 1 ≤ t₁ + t₂ := by omega
    omega

theorem limited_apart {s n e f m maxS maxN : Int} (hmax : 4 * m ≤ maxS - maxN)
    (hapart : 512 * m - 639 ≤ s - n) (he : e = max 0 (s / 128 - maxS)) (hf : f = max 0 (n / 128 - maxN))
    : (s - 128 * e) / 128 ≤ maxS ∧ (n - 128 * f) / 128 ≤ maxN
        ∧ 512 * m - 639 ≤ (s - 128 * e) - (n - 128 * f) := by
  omega

theorem limits_apart (channel : Fin 6)
    : 4 * kMinimumDifference[channel].toInt ≤ kMaximumSpeech[channel].toInt - kMaximumNoise[channel].toInt := by
  revert channel
  decide

theorem updateNoiseMean_range (vadflag : Bool) (channel : Fin 6) (k : Fin 2)
    (nmk ngprvec deltaN featureMinimum tmp1S16 : Int16)
    : let mean := updateNoiseMean vadflag channel k nmk ngprvec deltaN featureMinimum tmp1S16
      640 + 128 * (k.val : Int) ≤ mean.toInt ∧ mean.toInt ≤ (72 + k.val - channel.val) * 128 := by
  intro mean
  have hbounds : (Int16.ofInt ((k.val + 5) <<< 7 : Nat)).toInt = 640 + 128 * k.val
      ∧ (Int16.ofInt ((72 + k.val - channel.val) <<< 7 : Nat)).toInt = (72 + k.val - channel.val : Int) * 128 := by
    revert channel k
    decide
  obtain ⟨hlower, hupper⟩ := hbounds
  have hchannel := channel.isLt
  show _ ≤ (updateNoiseMean _ _ _ _ _ _ _ _).toInt ∧ (updateNoiseMean _ _ _ _ _ _ _ _).toInt ≤ _
  unfold updateNoiseMean
  dsimp only
  generalize Int16.ofInt ((k.val + 5) <<< 7 : Nat) = lower at hlower ⊢
  generalize Int16.ofInt ((72 + k.val - channel.val) <<< 7 : Nat) = upper at hupper ⊢
  generalize ((if (!vadflag) = true then _ else nmk) + _ : Int16) = nmk3
  have hclamped : lower.toInt ≤ (if nmk3 < lower then lower else nmk3).toInt := by
    split
    . exact Int.le_refl _
    . next h =>
      rw [Word16.lt_iff] at h
      omega
  generalize (if nmk3 < lower then lower else nmk3) = clamped at hclamped ⊢
  split
  . omega
  . next h =>
    rw [gt_iff_lt, Word16.lt_iff] at h
    omega

theorem kMinimumMean_range (k : Fin 2) : 640 ≤ kMinimumMean[k].toInt ∧ kMinimumMean[k].toInt ≤ 768 := by
  revert k
  decide

theorem updateSpeechMean_range (k : Fin 2) (smk sgprvec deltaS : Int16) {maxspe : Int16}
    (hmaxspe : 128 ≤ maxspe.toInt) (hmaxspe' : maxspe.toInt ≤ 32127)
    : let mean := updateSpeechMean k smk sgprvec deltaS maxspe
      kMinimumMean[k].toInt ≤ mean.toInt ∧ mean.toInt ≤ maxspe.toInt + 640 := by
  intro mean
  obtain ⟨-, hmin⟩ := kMinimumMean_range k
  have hmax : (maxspe + 640).toInt = maxspe.toInt + 640 := by
    have hconst : (640 : Int16).toInt = 640 := rfl
    rw [Word16.toInt_add, hconst]
    . omega
    . omega
  show _ ≤ (updateSpeechMean _ _ _ _ _).toInt ∧ (updateSpeechMean _ _ _ _ _).toInt ≤ _
  unfold updateSpeechMean
  dsimp only
  generalize maxspe + 640 = maxmu at hmax ⊢
  generalize (smk + _ : Int16) = smk2
  have hclamped : kMinimumMean[k].toInt
      ≤ (if smk2 < kMinimumMean[k] then kMinimumMean[k] else smk2).toInt := by
    split
    . exact Int.le_refl _
    . next h =>
      rw [Word16.lt_iff] at h
      omega
  generalize (if smk2 < kMinimumMean[k] then kMinimumMean[k] else smk2) = clamped at hclamped ⊢
  split
  . omega
  . next h =>
    rw [gt_iff_lt, Word16.lt_iff] at h
    omega

theorem kMinStd_le (std : Int16) : 384 ≤ (if std < kMinStd then kMinStd else std).toInt := by
  have hmin : kMinStd.toInt = 384 := rfl
  split
  . exact Int.le_of_eq hmin.symm
  . next h =>
    rw [Word16.lt_iff] at h
    omega

theorem updateSpeechStd_le (c : Overflow) (feature smk ssk sgprvec deltaS : Int16)
    : 384 ≤ (updateSpeechStd c feature smk ssk sgprvec deltaS).toInt := by
  unfold updateSpeechStd
  apply kMinStd_le

theorem updateNoiseStd_le (c : Overflow) (feature nmk nsk ngprvec deltaN : Int16)
    : 384 ≤ (updateNoiseStd c feature nmk nsk ngprvec deltaN).toInt := by
  unfold updateNoiseStd
  apply kMinStd_le

namespace VadInst

variable {ρ : Type}

structure SameModels (s t : VadInst ρ) (channel : Fin 6) : Prop where
  noiseMeans : ∀ k, t.noiseMeans[gaussian channel k] = s.noiseMeans[gaussian channel k]
  speechMeans : ∀ k, t.speechMeans[gaussian channel k] = s.speechMeans[gaussian channel k]
  noiseStds : ∀ k, t.noiseStds[gaussian channel k] = s.noiseStds[gaussian channel k]
  speechStds : ∀ k, t.speechStds[gaussian channel k] = s.speechStds[gaussian channel k]

theorem SameModels.trans {s t u : VadInst ρ} {channel : Fin 6} (h : SameModels s t channel)
    (h' : SameModels t u channel)
    : SameModels s u channel where
  noiseMeans k := (h'.noiseMeans k).trans (h.noiseMeans k)
  speechMeans k := (h'.speechMeans k).trans (h.speechMeans k)
  noiseStds k := (h'.noiseStds k).trans (h.noiseStds k)
  speechStds k := (h'.speechStds k).trans (h.speechStds k)

structure InBounds (inst : VadInst ρ) (channel : Fin 6) : Prop where
  noiseMean : ∀ k : Fin 2, lowestNoiseMean channel ≤ inst.noiseMeans[gaussian channel k].toInt
    ∧ inst.noiseMeans[gaussian channel k].toInt ≤ (72 + k.val - channel.val) * 128
  speechMean : ∀ k : Fin 2, kMinimumMean[k].toInt ≤ inst.speechMeans[gaussian channel k].toInt
    ∧ inst.speechMeans[gaussian channel k].toInt ≤ 19400
  spread : inst.speechMeans[gaussian channel 1].toInt - inst.speechMeans[gaussian channel 0].toInt
      ≤ maximumBefore[channel].toInt
    ∧ inst.speechMeans[gaussian channel 0].toInt - inst.speechMeans[gaussian channel 1].toInt
      ≤ maximumBefore[channel].toInt
  noiseStd : ∀ k : Fin 2, 378 ≤ inst.noiseStds[gaussian channel k].toInt
    ∧ (gaussian channel k ≠ 0 → 384 ≤ inst.noiseStds[gaussian channel k].toInt)
  speechStd : ∀ k : Fin 2, 384 ≤ inst.speechStds[gaussian channel k].toInt

/--
The global means of the channel are inside their limits and, but for the rounding, apart.
-/
structure Apart (inst : VadInst ρ) (channel : Fin 6) : Prop where
  noise : weighted inst.noiseMeans kNoiseDataWeights channel / 128 ≤ kMaximumNoise[channel].toInt
  speech : weighted inst.speechMeans kSpeechDataWeights channel / 128 ≤ kMaximumSpeech[channel].toInt
  apart : 512 * kMinimumDifference[channel].toInt - 639
    ≤ weighted inst.speechMeans kSpeechDataWeights channel
      - weighted inst.noiseMeans kNoiseDataWeights channel

variable {self t : VadInst ρ} {channel : Fin 6}

theorem InBounds.congr (h : self.InBounds channel) (hsame : SameModels self t channel)
    : t.InBounds channel where
  noiseMean k := by
    rw [hsame.noiseMeans k]
    exact h.noiseMean k
  speechMean k := by
    rw [hsame.speechMeans k]
    exact h.speechMean k
  spread := by
    rw [hsame.speechMeans 0, hsame.speechMeans 1]
    exact h.spread
  noiseStd k := by
    rw [hsame.noiseStds k]
    exact h.noiseStd k
  speechStd k := by
    rw [hsame.speechStds k]
    exact h.speechStd k

theorem Apart.congr (h : self.Apart channel) (hsame : SameModels self t channel) : t.Apart channel := by
  obtain ⟨hnoise, hspeech, hapart⟩ := h
  unfold weighted at hnoise hspeech hapart
  constructor
  . unfold weighted
    rw [hsame.noiseMeans 0, hsame.noiseMeans 1]
    exact hnoise
  . unfold weighted
    rw [hsame.speechMeans 0, hsame.speechMeans 1]
    exact hspeech
  . unfold weighted
    rw [hsame.noiseMeans 0, hsame.noiseMeans 1, hsame.speechMeans 0, hsame.speechMeans 1]
    exact hapart

def InNoise (channel : Fin 6) (k : Fin 2) (mean : Int16) : Prop :=
  640 + 128 * (k.val : Int) ≤ mean.toInt ∧ mean.toInt ≤ (72 + k.val - channel.val) * 128

def InSpeech (channel : Fin 6) (k : Fin 2) (mean : Int16) : Prop :=
  kMinimumMean[k].toInt ≤ mean.toInt ∧ mean.toInt ≤ maximumBefore[channel].toInt + 640

/--
What the updates of both Gaussians make of the channel.
-/
structure Reestimated (inst inst' : VadInst ρ) (channel : Fin 6) : Prop where
  noiseMean : ∀ k : Fin 2, InNoise channel k inst'.noiseMeans[gaussian channel k]
  speechMean :
    (∀ k : Fin 2, inst'.speechMeans[gaussian channel k] = inst.speechMeans[gaussian channel k])
      ∨ ∀ k : Fin 2, InSpeech channel k inst'.speechMeans[gaussian channel k]
  noiseStd : ∀ k : Fin 2, inst'.noiseStds[gaussian channel k] = inst.noiseStds[gaussian channel k]
    ∨ 384 ≤ inst'.noiseStds[gaussian channel k].toInt
  speechStd : ∀ k : Fin 2, inst'.speechStds[gaussian channel k] = inst.speechStds[gaussian channel k]
    ∨ 384 ≤ inst'.speechStds[gaussian channel k].toInt
  others : ∀ channel' ≠ channel, SameModels inst inst' channel'

theorem reestimated_noise (c : Overflow) (self : VadInst ρ) (feature : Int16) (t : Tested)
    (channel : Fin 6) (featureMinimum tmp1S16 maxspe : Int16)
    : Reestimated self
        ((self.updateGaussian c false feature t channel featureMinimum tmp1S16 maxspe
            0).updateGaussian c false feature t channel featureMinimum tmp1S16 maxspe 1)
        channel := by
  generalize hupdated : (self.updateGaussian c false feature t channel featureMinimum tmp1S16 maxspe
    0).updateGaussian c false feature t channel featureMinimum tmp1S16 maxspe 1 = updated
  have hmean (k : Fin 2) (nmk ngprvec deltaN : Int16)
      : InNoise channel k
          (updateNoiseMean false channel k nmk ngprvec deltaN featureMinimum tmp1S16) :=
    updateNoiseMean_range false channel k nmk ngprvec deltaN featureMinimum tmp1S16
  have hboth : ∃ mean mean' std std' : Int16, InNoise channel 0 mean ∧ InNoise channel 1 mean'
      ∧ 384 ≤ std.toInt ∧ 384 ≤ std'.toInt ∧ updated = {
        self with
        noiseMeans := (self.noiseMeans.store (gaussian channel 0) mean).store (gaussian channel 1) mean'
        noiseStds := (self.noiseStds.store (gaussian channel 0) std).store (gaussian channel 1) std' } :=
    ⟨_, _, _, _, hmean 0 _ _ _, hmean 1 _ _ _, updateNoiseStd_le _ _ _ _ _ _,
      updateNoiseStd_le _ _ _ _ _ _, hupdated.symm⟩
  obtain ⟨mean, mean', std, std', hfirst, hsecond, hstd, hstd', rfl⟩ := hboth
  have hmeans := set_each_spec self.noiseMeans channel (P := InNoise channel) hfirst hsecond
  have hstds := set_each_spec self.noiseStds channel (P := fun _ std => 384 ≤ std.toInt) hstd hstd'
  exact {
    noiseMean := hmeans.1
    speechMean := Or.inl fun _ => rfl
    noiseStd := fun k => Or.inr (hstds.1 k)
    speechStd := fun _ => Or.inl rfl
    others := fun channel' hne =>
      ⟨hmeans.2 channel' hne, fun _ => rfl, hstds.2 channel' hne, fun _ => rfl⟩ }

theorem reestimated_speech (c : Overflow) (self : VadInst ρ) (feature : Int16) (t : Tested)
    (channel : Fin 6) (featureMinimum tmp1S16 : Int16)
    : Reestimated self
        ((self.updateGaussian c true feature t channel featureMinimum tmp1S16 maximumBefore[channel]
            0).updateGaussian c true feature t channel featureMinimum tmp1S16 maximumBefore[channel] 1)
        channel := by
  generalize hupdated : (self.updateGaussian c true feature t channel featureMinimum tmp1S16
    maximumBefore[channel] 0).updateGaussian c true feature t channel featureMinimum tmp1S16
      maximumBefore[channel] 1 = updated
  have hrange := maximumBefore_range channel
  have hmean (k : Fin 2) (nmk ngprvec deltaN : Int16)
      : InNoise channel k
          (updateNoiseMean true channel k nmk ngprvec deltaN featureMinimum tmp1S16) :=
    updateNoiseMean_range true channel k nmk ngprvec deltaN featureMinimum tmp1S16
  have hspeech (k : Fin 2) (smk sgprvec deltaS : Int16)
      : InSpeech channel k (updateSpeechMean k smk sgprvec deltaS maximumBefore[channel]) :=
    updateSpeechMean_range k smk sgprvec deltaS (by omega) (by omega)
  have hboth : ∃ noise noise' mean mean' std std' : Int16, InNoise channel 0 noise
      ∧ InNoise channel 1 noise' ∧ InSpeech channel 0 mean ∧ InSpeech channel 1 mean'
      ∧ 384 ≤ std.toInt ∧ 384 ≤ std'.toInt ∧ updated = {
        self with
        noiseMeans := (self.noiseMeans.store (gaussian channel 0) noise).store (gaussian channel 1) noise'
        speechMeans := (self.speechMeans.store (gaussian channel 0) mean).store (gaussian channel 1) mean'
        speechStds := (self.speechStds.store (gaussian channel 0) std).store (gaussian channel 1) std' } :=
    ⟨_, _, _, _, _, _, hmean 0 _ _ _, hmean 1 _ _ _, hspeech 0 _ _ _, hspeech 1 _ _ _,
      updateSpeechStd_le _ _ _ _ _ _, updateSpeechStd_le _ _ _ _ _ _, hupdated.symm⟩
  obtain ⟨noise, noise', mean, mean', std, std', hnoise, hnoise', hfirst, hsecond, hstd, hstd', rfl⟩ :=
    hboth
  have hnoises := set_each_spec self.noiseMeans channel (P := InNoise channel) hnoise hnoise'
  have hmeans := set_each_spec self.speechMeans channel (P := InSpeech channel) hfirst hsecond
  have hstds := set_each_spec self.speechStds channel (P := fun _ std => 384 ≤ std.toInt) hstd hstd'
  exact {
    noiseMean := hnoises.1
    speechMean := Or.inr hmeans.1
    noiseStd := fun _ => Or.inl rfl
    speechStd := fun k => Or.inr (hstds.1 k)
    others := fun channel' hne =>
      ⟨hnoises.2 channel' hne, hmeans.2 channel' hne, fun _ => rfl, hstds.2 channel' hne⟩ }

theorem Reestimated.limited (h : self.InBounds channel) (hupdated : Reestimated self t channel)
    : let separated := t.separate channel
      let limited : VadInst ρ := {
        separated.1 with
        speechMeans := limit separated.1.speechMeans channel separated.2.2 kMaximumSpeech[channel]
        noiseMeans := limit separated.1.noiseMeans channel separated.2.1 kMaximumNoise[channel] }
      limited.InBounds channel ∧ limited.Apart channel
        ∧ ∀ channel' ≠ channel, SameModels self limited channel' := by
  have hchannel := channel.isLt
  have hnoise (k : Fin 2) : 0 ≤ t.noiseMeans[gaussian channel k].toInt
      ∧ t.noiseMeans[gaussian channel k].toInt ≤ 9344 := by
    have hmean := hupdated.noiseMean k
    unfold InNoise at hmean
    omega
  have hspeech (k : Fin 2) : kMinimumMean[k].toInt ≤ t.speechMeans[gaussian channel k].toInt
      ∧ t.speechMeans[gaussian channel k].toInt ≤ 19400 := by
    have hrange := maximumBefore_range channel
    rcases hupdated.speechMean with hsame | hmean
    . rw [hsame k]
      exact h.speechMean k
    . obtain ⟨hlower, hupper⟩ := hmean k
      omega
  obtain ⟨t₁, t₂, hamount, hspeechMoved, hnoiseMoved, hspeechStds, hnoiseStds⟩ := limited_spec hnoise
    (fun k => by have hk := hspeech k; have hmin := kMinimumMean_range k; omega)
  have hconstants := channel_constants channel
  have hspread : t.speechMeans[gaussian channel 1].toInt - t.speechMeans[gaussian channel 0].toInt
        ≤ maximumBefore[channel].toInt
      ∧ t.speechMeans[gaussian channel 0].toInt - t.speechMeans[gaussian channel 1].toInt
        ≤ maximumBefore[channel].toInt := by
    have hrange := maximumBefore_range channel
    rcases hupdated.speechMean with hsame | hmean
    . rw [hsame 0, hsame 1]
      exact h.spread
    . obtain ⟨hlower0, hupper0⟩ := hmean 0
      obtain ⟨hlower1, hupper1⟩ := hmean 1
      have hmin0 := kMinimumMean_range 0
      have hmin1 := kMinimumMean_range 1
      omega
  have hnoiseWeighted := hnoiseMoved.weighted_noise
  have hspeechWeighted := hspeechMoved.weighted_speech
  generalize t.separate channel = r
    at hspeechMoved hnoiseMoved hspeechStds hnoiseStds hnoiseWeighted hspeechWeighted ⊢
  dsimp only
  generalize limit r.1.speechMeans channel r.2.2 kMaximumSpeech[channel] = speechMeans
    at hspeechMoved hspeechWeighted ⊢
  generalize limit r.1.noiseMeans channel r.2.1 kMaximumNoise[channel] = noiseMeans
    at hnoiseMoved hnoiseWeighted ⊢
  have hapart := limited_apart (limits_apart channel) (separated_apart hamount) rfl rfl
  generalize he : max 0 ((weighted t.speechMeans kSpeechDataWeights channel + 128 * t₁) / 128
    - kMaximumSpeech[channel].toInt) = e at hspeechMoved hspeechWeighted hapart
  generalize hf : max 0 ((weighted t.noiseMeans kNoiseDataWeights channel + 128 * -t₂) / 128
    - kMaximumNoise[channel].toInt) = f at hnoiseMoved hnoiseWeighted
  have hn0 := hupdated.noiseMean 0
  have hn1 := hupdated.noiseMean 1
  have hs0 := (hspeech 0).1
  have hs1 := (hspeech 1).1
  have hn0' := hnoiseMoved.get 0
  have hn1' := hnoiseMoved.get 1
  have hs0' := hspeechMoved.get 0
  have hs1' := hspeechMoved.get 1
  refine ⟨⟨?_, ?_, ?_, ?_, ?_⟩, ⟨?_, ?_, ?_⟩, fun channel' hne => ?_⟩
  . have hbounds := noise_bounds hconstants hn0.1 hn0.2 hn1.1 hn1.2 hs0 hs1
      (show t₂ = 0 ∨ _ by exact hamount.imp (fun h => h.2.1) fun h => h.2) hf.symm
    intro k
    have hk : k = 0 ∨ k = 1 := by omega
    rcases hk with rfl | rfl
    . rw [hn0']
      exact ⟨by omega, by omega⟩
    . rw [hn1']
      exact ⟨by omega, by omega⟩
  . have hbounds := speech_bounds hconstants hs0 hs1 hspread.1 hspread.2 (show 0 ≤ t₁ by omega) he.symm
    intro k
    have hk : k = 0 ∨ k = 1 := by omega
    have hmin0 : kMinimumMean[(0 : Fin 2)].toInt = 640 := rfl
    have hmin1 : kMinimumMean[(1 : Fin 2)].toInt = 768 := rfl
    rcases hk with rfl | rfl
    . rw [hs0']
      exact ⟨by omega, by omega⟩
    . rw [hs1']
      exact ⟨by omega, by omega⟩
  . dsimp only
    rw [hs0', hs1']
    omega
  . intro k
    dsimp only
    rw [hnoiseStds]
    rcases hupdated.noiseStd k with hsame | hstd
    . rw [hsame]
      exact h.noiseStd k
    . omega
  . intro k
    dsimp only
    rw [hspeechStds]
    rcases hupdated.speechStd k with hsame | hstd
    . rw [hsame]
      exact h.speechStd k
    . exact hstd
  . rw [hnoiseWeighted]
    omega
  . rw [hspeechWeighted]
    omega
  . rw [hnoiseWeighted, hspeechWeighted]
    omega
  . have hothers := hupdated.others channel' hne
    constructor
    . intro k
      exact (hnoiseMoved.others channel' hne k).trans (hothers.noiseMeans k)
    . intro k
      exact (hspeechMoved.others channel' hne k).trans (hothers.speechMeans k)
    . intro k
      dsimp only
      rw [hnoiseStds]
      exact hothers.noiseStds k
    . intro k
      dsimp only
      rw [hspeechStds]
      exact hothers.speechStds k

theorem updateChannel_spec (c : Overflow) (h : self.InBounds channel) (vadflag : Bool) (feature : Int16)
    (t : Tested)
    : let updated := self.updateChannel c vadflag feature t channel maximumBefore[channel]
      updated.InBounds channel ∧ updated.Apart channel
        ∧ ∀ channel' ≠ channel, SameModels self updated channel' := by
  unfold updateChannel
  dsimp only
  generalize htmp : Int16.ofInt ((weightedAverage _ channel 0 kNoiseDataWeights).1 >>> (6 : Nat)) = tmp1S16
  have hbounds : (self.findMinimum feature channel).2.InBounds channel :=
    h.congr ⟨fun _ => rfl, fun _ => rfl, fun _ => rfl, fun _ => rfl⟩
  have hothers (channel' : Fin 6) : SameModels self (self.findMinimum feature channel).2 channel' :=
    ⟨fun _ => rfl, fun _ => rfl, fun _ => rfl, fun _ => rfl⟩
  generalize (self.findMinimum feature channel).2 = self₁ at hbounds hothers ⊢
  have hupdated : Reestimated self₁
      ((self₁.updateGaussian c vadflag feature t channel (self.findMinimum feature channel).1 tmp1S16
          maximumBefore[channel] 0).updateGaussian c vadflag feature t channel
        (self.findMinimum feature channel).1 tmp1S16 maximumBefore[channel] 1)
      channel := by
    cases vadflag with
    | false => apply reestimated_noise
    | true => apply reestimated_speech
  generalize updateGaussian c _ _ _ _ _ _ _ _ 1 = self₂ at hupdated ⊢
  obtain ⟨hin, hapart, hsame⟩ := hupdated.limited hbounds
  exact ⟨hin, hapart, fun channel' hne => (hothers channel').trans (hsame channel' hne)⟩

end VadInst

end WebRtc
