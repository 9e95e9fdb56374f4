import RealtimeAsr.Webrtc.Minimum
import RealtimeAsr.Webrtc.Models

/-!
This module shows that the models stay in their bounds over any sequence of calls.
-/

namespace WebRtc

namespace VadInst

variable {ρ : Type} {self : VadInst ρ}

theorem updateChannels_eq (c : Overflow) (self : VadInst ρ) (vadflag : Bool) (features : Vector Int16 6)
    (tests : Vector Tested 6)
    : updateChannels c vadflag features tests (List.finRange 6) 12800 self
        =
      (List.finRange 6).foldl (fun self channel =>
        self.updateChannel c vadflag features[channel] tests[channel] channel maximumBefore[channel]) self := by
  have hlist : List.finRange 6 = [0, 1, 2, 3, 4, 5] := rfl
  rw [hlist]
  rfl

/--
The models have not been updated since the initialization.
-/
structure Fresh (inst : VadInst ρ) : Prop where
  noiseMeans : inst.noiseMeans = kNoiseDataMeans
  speechMeans : inst.speechMeans = kSpeechDataMeans
  noiseStds : inst.noiseStds = kNoiseDataStds
  speechStds : inst.speechStds = kSpeechDataStds

structure SameTables (s t : VadInst ρ) : Prop where
  noiseMeans : t.noiseMeans = s.noiseMeans
  speechMeans : t.speechMeans = s.speechMeans
  noiseStds : t.noiseStds = s.noiseStds
  speechStds : t.speechStds = s.speechStds

/--
The models of all channels are in their bounds, and apart once they have been updated.
-/
structure Bounded (inst : VadInst ρ) : Prop where
  inBounds : ∀ channel, inst.InBounds channel
  apart : inst.Fresh ∨ ∀ channel, inst.Apart channel

theorem SameTables.models {s t : VadInst ρ} (h : SameTables s t) (channel : Fin 6)
    : SameModels s t channel where
  noiseMeans k := by rw [h.noiseMeans]
  speechMeans k := by rw [h.speechMeans]
  noiseStds k := by rw [h.noiseStds]
  speechStds k := by rw [h.speechStds]

theorem SameTables.fresh {s t : VadInst ρ} (h : SameTables s t) (hfresh : s.Fresh) : t.Fresh where
  noiseMeans := h.noiseMeans.trans hfresh.noiseMeans
  speechMeans := h.speechMeans.trans hfresh.speechMeans
  noiseStds := h.noiseStds.trans hfresh.noiseStds
  speechStds := h.speechStds.trans hfresh.speechStds

theorem Bounded.congr {s t : VadInst ρ} (h : s.Bounded) (hsame : SameTables s t) : t.Bounded where
  inBounds channel := (h.inBounds channel).congr (hsame.models channel)
  apart := h.apart.imp hsame.fresh fun hapart channel => (hapart channel).congr (hsame.models channel)

theorem bounded_init (r : Resampler ρ) (c : Overflow) (memory : VadInst ρ)
    : (memory.call c r .init).2.Bounded where
  inBounds channel := by
    constructor
    . show ∀ k : Fin 2, lowestNoiseMean channel ≤ kNoiseDataMeans[gaussian channel k].toInt
        ∧ kNoiseDataMeans[gaussian channel k].toInt ≤ (72 + k.val - channel.val) * 128
      revert channel
      decide
    . show ∀ k : Fin 2, kMinimumMean[k].toInt ≤ kSpeechDataMeans[gaussian channel k].toInt
        ∧ kSpeechDataMeans[gaussian channel k].toInt ≤ 19400
      revert channel
      decide
    . show kSpeechDataMeans[gaussian channel 1].toInt - kSpeechDataMeans[gaussian channel 0].toInt
          ≤ maximumBefore[channel].toInt
        ∧ kSpeechDataMeans[gaussian channel 0].toInt - kSpeechDataMeans[gaussian channel 1].toInt
          ≤ maximumBefore[channel].toInt
      revert channel
      decide
    . show ∀ k : Fin 2, 378 ≤ kNoiseDataStds[gaussian channel k].toInt
        ∧ (gaussian channel k ≠ 0 → 384 ≤ kNoiseDataStds[gaussian channel k].toInt)
      revert channel
      decide
    . show ∀ k : Fin 2, 384 ≤ kSpeechDataStds[gaussian channel k].toInt
      revert channel
      decide
  apart := Or.inl ⟨rfl, rfl, rfl, rfl⟩

/--
Every channel that is updated ends up in its bounds and apart, and no other one changes.
-/
theorem foldl_updateChannel (c : Overflow) (vadflag : Bool) (features : Vector Int16 6)
    (tests : Vector Tested 6) (h : ∀ channel, self.InBounds channel) (channels : List (Fin 6))
    : let updated := channels.foldl (fun self channel =>
        self.updateChannel c vadflag features[channel] tests[channel] channel maximumBefore[channel]) self
      (∀ channel, updated.InBounds channel)
        ∧ ∀ channel, channel ∈ channels ∨ self.Apart channel → updated.Apart channel := by
  induction channels generalizing self with
  | nil => exact ⟨h, fun channel hor => hor.resolve_left List.not_mem_nil⟩
  | cons channel channels ih =>
    obtain ⟨hin, hapart, hsame⟩ := updateChannel_spec c (h channel) vadflag features[channel] tests[channel]
    have hinAll (channel' : Fin 6)
        : (self.updateChannel c vadflag features[channel] tests[channel] channel
          maximumBefore[channel]).InBounds channel' := by
      by_cases heq : channel' = channel
      . rw [heq]
        exact hin
      . exact (h channel').congr (hsame channel' heq)
    obtain ⟨hfinal, hfinalApart⟩ := ih hinAll
    refine ⟨hfinal, fun channel' hor => hfinalApart channel' ?_⟩
    by_cases heq : channel' = channel
    . rw [heq]
      exact Or.inr hapart
    . rcases hor with hmem | hold
      . exact Or.inl ((List.mem_cons.mp hmem).resolve_left heq)
      . exact Or.inr (hold.congr (hsame channel' heq))

theorem Bounded.update (h : self.Bounded) (c : Overflow) (vadflag : Bool) (features : Vector Int16 6)
    (tests : Vector Tested 6)
    : (self.update c vadflag features tests).Bounded := by
  obtain ⟨hin, hapart⟩ := foldl_updateChannel c vadflag features tests h.inBounds (List.finRange 6)
  rw [← updateChannels_eq] at hin hapart
  unfold VadInst.update
  generalize VadInst.updateChannels c vadflag features tests _ _ self = self₁ at hin hapart ⊢
  have hupdated : self₁.Bounded :=
    ⟨hin, Or.inr fun channel => hapart channel (Or.inl (List.mem_finRange channel))⟩
  exact hupdated.congr ⟨rfl, rfl, rfl, rfl⟩

theorem likelihoodTest_bounded (h : self.Bounded) (c : Overflow) (features : Vector Int16 6)
    (totalPower : Int16) (frameLength : Nat)
    : (self.likelihoodTest c features totalPower frameLength).2.Bounded := by
  unfold likelihoodTest
  dsimp only
  split
  . exact h.update c _ features _
  . exact h

theorem Bounded.detect (h : self.Bounded) (c : Overflow) (r : Resampler ρ) (fs : Int)
    (audioFrame : List Int16)
    : (self.detect c r fs audioFrame).2.Bounded := by
  obtain ⟨_, _, heq⟩ := self.narrow_eq r fs audioFrame
  have hnarrow : (self.narrow r fs audioFrame).2.Bounded := by
    rw [heq]
    exact h.congr ⟨rfl, rfl, rfl, rfl⟩
  have hfeatures := hnarrow.congr
    (t := ((self.narrow r fs audioFrame).2.calculateFeatures c (self.narrow r fs audioFrame).1).2.2)
    ⟨rfl, rfl, rfl, rfl⟩
  exact likelihoodTest_bounded hfeatures c _ _ _

theorem Bounded.process (h : self.Bounded) (c : Overflow) (r : Resampler ρ) (fs : Int)
    (audioFrame : List Int16)
    : (self.process c r.resample48khzTo8khz fs audioFrame).2.Bounded := by
  by_cases haccepts : self.Accepts fs audioFrame
  . obtain ⟨_, _, _, heq⟩ := conclude_eq self.mode (self.frameIndex r fs audioFrame)
      (self.detect c r fs audioFrame)
    rw [process_eq c r self haccepts, heq]
    exact (h.detect c r fs audioFrame).congr ⟨rfl, rfl, rfl, rfl⟩
  . rw [process_of_not_accepts c r self haccepts]
    exact h

theorem Bounded.call (h : self.Bounded) (c : Overflow) (r : Resampler ρ) (e : Call)
    : (self.call c r e).2.Bounded := by
  cases e with
  | init => exact bounded_init r c self
  | setMode mode =>
    obtain ⟨mode', heq⟩ := self.setMode_eq mode
    show (self.setMode mode).2.Bounded
    rw [heq]
    exact h.congr ⟨rfl, rfl, rfl, rfl⟩
  | process fs audioFrame => exact h.process c r fs audioFrame

/--
In every run from an initialization, whatever an overflow yields, the means of all the Gaussians are
between their bounds and no deviation is below its lower one; an upper one it has not. Once the models have
been updated, the global means are inside their limits and the one of speech is, but for the rounding, the
least difference above the one of noise.
-/
theorem models_in_bounds (c : Overflow) (r : Resampler ρ) (memory : VadInst ρ) (calls : List Call)
    : let self := (machine c r memory).runFrom (memory.call c r .init).2 calls
      (∀ channel, self.InBounds channel) ∧ (self.Fresh ∨ ∀ channel, self.Apart channel) := by
  have hrun := (machine c r memory).runFrom_invariant (I := Bounded)
    (fun s e hs => hs.call c r e) _ (bounded_init r c memory) calls
  exact ⟨hrun.inBounds, hrun.apart⟩

end VadInst

end WebRtc
