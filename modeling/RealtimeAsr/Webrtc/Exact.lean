import RealtimeAsr.Webrtc.Bounds

/-!
This module shows that the likelihood test, with the update of the models, leaves the integers in one
product at most, the one of `OverflowingMulS16ByS32ToS32`.
-/

namespace WebRtc

theorem kOffsetVector_bounds (channel : Fin 6)
    : 176 ≤ kOffsetVector[channel].toInt ∧ kOffsetVector[channel].toInt ≤ 368 := by
  revert channel
  decide

theorem gaussian_eq_zero {channel : Fin 6} {k : Fin 2} : gaussian channel k = 0 ↔ channel = 0 ∧ k = 0 := by
  revert channel k
  decide

namespace VadInst

variable {ρ : Type} {self : VadInst ρ} {channel : Fin 6} {feature : Int16}

theorem InBounds.near (h : self.InBounds channel) (hfeature : InRange channel feature)
    : self.Near feature channel := by
  obtain ⟨hoffset, hoffset'⟩ := kOffsetVector_bounds channel
  obtain ⟨hlower, hupper⟩ := hfeature
  have hchannel := channel.isLt
  constructor
  . intro k
    obtain ⟨hmean, hmean'⟩ := h.noiseMean k
    obtain ⟨hstd, hwide⟩ := h.noiseStd k
    have hk := k.isLt
    have hlowest : -1000 ≤ lowestNoiseMean channel := by
      unfold lowestNoiseMean
      split
      . decide
      . decide
    refine ⟨by omega, by omega, hstd, ?_, fun hnarrow => ?_⟩
    . unfold Gaussian.distance
      omega
    . have hzero : gaussian channel k = 0 := by
        by_contra hne
        have h384 := hwide hne
        omega
      have hlow : lowestNoiseMean channel = -951 := if_pos (gaussian_eq_zero.mp hzero).1
      unfold Gaussian.distance
      omega
  . intro k
    obtain ⟨hmean, hmean'⟩ := h.speechMean k
    have hmin := kMinimumMean_range k
    have hstd := h.speechStd k
    refine ⟨by omega, by omega, by omega, ?_, fun hnarrow => ?_⟩
    . unfold Gaussian.distance
      omega
    . omega

def StdExact (inst : VadInst ρ) (feature : Int16) (t : Tested) (channel : Fin 6) (k : Fin 2) : Prop :=
  ∀ c c' : Overflow,
    updateSpeechStd c feature inst.speechMeans[gaussian channel k] inst.speechStds[gaussian channel k]
        t.sgprvec[k] t.deltaS[k]
      =
    updateSpeechStd c' feature inst.speechMeans[gaussian channel k] inst.speechStds[gaussian channel k]
        t.sgprvec[k] t.deltaS[k]

theorem StdExact.congr {s t : VadInst ρ} {tested : Tested} {k : Fin 2}
    (h : s.StdExact feature tested channel k)
    (hmean : t.speechMeans[gaussian channel k] = s.speechMeans[gaussian channel k])
    (hstd : t.speechStds[gaussian channel k] = s.speechStds[gaussian channel k])
    : t.StdExact feature tested channel k := by
  intro c c'
  rw [hmean, hstd]
  exact h c c'

theorem InBounds.stdExact (h : self.InBounds channel) (hfeature : InRange channel feature) (c : Overflow)
    (k : Fin 2)
    : self.StdExact feature (self.testChannel c feature channel) channel k := by
  have hnear := h.near hfeature
  intro c₁ c₂
  obtain ⟨hmean, hmean'⟩ := h.speechMean k
  have hmin := kMinimumMean_range k
  obtain ⟨hnonneg, hle, hdelta, hlt⟩ := hnear.tested_speech c k
  exact updateSpeechStd_exact (hnear.speech k) (by omega) (by omega) hnonneg hle hdelta hlt c₁ c₂

theorem updateNoiseStd_congr {c c' : Overflow} (hproduct : c'.product = c.product)
    (feature nmk nsk ngprvec deltaN : Int16)
    : updateNoiseStd c' feature nmk nsk ngprvec deltaN = updateNoiseStd c feature nmk nsk ngprvec deltaN := by
  unfold updateNoiseStd overflowingMulS16ByS32ToS32
  rw [hproduct]

theorem updateGaussian_exact {t : Tested} {k : Fin 2} (h : self.StdExact feature t channel k)
    {c c' : Overflow} (hproduct : c'.product = c.product) (vadflag : Bool) (featureMinimum tmp1S16 maxspe : Int16)
    : self.updateGaussian c vadflag feature t channel featureMinimum tmp1S16 maxspe k
        =
      self.updateGaussian c' vadflag feature t channel featureMinimum tmp1S16 maxspe k := by
  unfold updateGaussian
  dsimp only
  rw [h c c', updateNoiseStd_congr hproduct]

theorem updateGaussian_second (c : Overflow) (self : VadInst ρ) (vadflag : Bool) (feature : Int16)
    (t : Tested) (channel : Fin 6) (featureMinimum tmp1S16 maxspe : Int16)
    : let first := self.updateGaussian c vadflag feature t channel featureMinimum tmp1S16 maxspe 0
      first.speechMeans[gaussian channel 1] = self.speechMeans[gaussian channel 1]
        ∧ first.speechStds[gaussian channel 1] = self.speechStds[gaussian channel 1] := by
  have hne : ¬gaussian channel 0 = gaussian channel 1 := by simp [gaussian_inj]
  unfold updateGaussian
  cases vadflag with
  | false => exact ⟨rfl, rfl⟩
  | true =>
    exact ⟨(Vector.getElem_store _ _ _ _).trans (if_neg hne),
      (Vector.getElem_store _ _ _ _).trans (if_neg hne)⟩

theorem updateChannel_exact {t : Tested} (h : ∀ k, self.StdExact feature t channel k)
    {c c' : Overflow} (hproduct : c'.product = c.product) (vadflag : Bool) (maxspe : Int16)
    : self.updateChannel c vadflag feature t channel maxspe
        =
      self.updateChannel c' vadflag feature t channel maxspe := by
  have hexact (k : Fin 2) : (self.findMinimum feature channel).2.StdExact feature t channel k :=
    (h k).congr rfl rfl
  unfold updateChannel
  dsimp only
  generalize htmp : Int16.ofInt ((weightedAverage _ channel 0 kNoiseDataWeights).1 >>> (6 : Nat)) = tmp1S16
  generalize (self.findMinimum feature channel).1 = featureMinimum
  generalize (self.findMinimum feature channel).2 = self₁ at hexact ⊢
  obtain ⟨hmean, hstd⟩ := updateGaussian_second c' self₁ vadflag feature t channel featureMinimum tmp1S16
    maxspe
  rw [updateGaussian_exact (hexact 0) hproduct,
    updateGaussian_exact ((hexact 1).congr hmean hstd) hproduct]

/--
The tests are those of the instance before any channel is updated.
-/
theorem foldl_updateChannel_exact {features : Vector Int16 6} {tests : Vector Tested 6}
    {channels : List (Fin 6)} (hnodup : channels.Nodup) (h : ∀ channel, self.InBounds channel)
    (hexact : ∀ channel ∈ channels, ∀ k, self.StdExact features[channel] tests[channel] channel k)
    {c c' : Overflow} (hproduct : c'.product = c.product) (vadflag : Bool)
    : channels.foldl (fun self channel =>
          self.updateChannel c vadflag features[channel] tests[channel] channel maximumBefore[channel]) self
        =
      channels.foldl (fun self channel =>
          self.updateChannel c' vadflag features[channel] tests[channel] channel maximumBefore[channel])
        self := by
  induction channels generalizing self with
  | nil => rw [List.foldl_nil, List.foldl_nil]
  | cons channel channels ih =>
    obtain ⟨hnot, hnodup⟩ := List.nodup_cons.mp hnodup
    obtain ⟨hin, -, hsame⟩ := updateChannel_spec c' (h channel) vadflag features[channel] tests[channel]
    rw [List.foldl_cons, List.foldl_cons,
      updateChannel_exact (hexact channel List.mem_cons_self) hproduct]
    apply ih hnodup
    . intro channel'
      by_cases heq : channel' = channel
      . rw [heq]
        exact hin
      . exact (h channel').congr (hsame channel' heq)
    . intro channel' hmem k
      have hne : channel' ≠ channel := fun heq => hnot (heq ▸ hmem)
      exact (hexact channel' (List.mem_cons_of_mem _ hmem) k).congr
        ((hsame channel' hne).speechMeans k) ((hsame channel' hne).speechStds k)

theorem updateChannel_frameCounter (c : Overflow) (self : VadInst ρ) (vadflag : Bool) (feature : Int16)
    (t : Tested) (channel : Fin 6) (maxspe : Int16)
    : (self.updateChannel c vadflag feature t channel maxspe).frameCounter = self.frameCounter := by
  have hgaussian (s : VadInst ρ) (featureMinimum tmp1S16 : Int16) (k : Fin 2)
      : (s.updateGaussian c vadflag feature t channel featureMinimum tmp1S16 maxspe k).frameCounter
        = s.frameCounter := by
    unfold updateGaussian
    cases vadflag with
    | false => rfl
    | true => rfl
  have hseparate (s : VadInst ρ) : (s.separate channel).1.frameCounter = s.frameCounter := by
    unfold separate
    dsimp only
    split
    . rfl
    . rfl
  unfold updateChannel
  dsimp only
  rw [hseparate, hgaussian, hgaussian]
  rfl

theorem updateChannels_frameCounter (c : Overflow) (vadflag : Bool) (features : Vector Int16 6)
    (tests : Vector Tested 6) (channels : List (Fin 6)) (maxspe : Int16) (self : VadInst ρ)
    : (updateChannels c vadflag features tests channels maxspe self).frameCounter = self.frameCounter := by
  induction channels generalizing maxspe self with
  | nil => rfl
  | cons channel channels ih =>
    exact (ih _ _).trans (updateChannel_frameCounter c self vadflag _ _ channel maxspe)

theorem update_exact (h : self.Bounded) {features : Vector Int16 6} {tests : Vector Tested 6}
    (hexact : ∀ channel k, self.StdExact features[channel] tests[channel] channel k)
    (hcounter : 0 ≤ self.frameCounter) (hcounter' : self.frameCounter < 2147483647)
    {c c' : Overflow} (hproduct : c'.product = c.product) (vadflag : Bool)
    : self.update c vadflag features tests = self.update c' vadflag features tests := by
  have hint (c : Overflow) : c.int (self.frameCounter + 1) = self.frameCounter + 1 :=
    c.exact _ (by omega) (by omega)
  have hfoldl := foldl_updateChannel_exact (List.nodup_finRange 6) h.inBounds
    (fun channel _ => hexact channel) hproduct vadflag
  rw [← updateChannels_eq, ← updateChannels_eq] at hfoldl
  have hsame := updateChannels_frameCounter c' vadflag features tests (List.finRange 6) 12800 self
  unfold VadInst.update
  rw [hfoldl]
  generalize VadInst.updateChannels c' vadflag features tests _ _ self = self₁ at hsame ⊢
  dsimp only
  rw [hsame, hint c, hint c']

theorem likelihoodTest_exact (h : self.Bounded) {features : Vector Int16 6}
    (hfeatures : ∀ channel : Fin 6, InRange channel features[channel])
    (hcounter : 0 ≤ self.frameCounter) (hcounter' : self.frameCounter < 2147483647)
    {c c' : Overflow} (hproduct : c'.product = c.product) (totalPower : Int16) (frameLength : Nat)
    : self.likelihoodTest c features totalPower frameLength
        =
      self.likelihoodTest c' features totalPower frameLength := by
  have htests : (Vector.ofFn fun channel : Fin 6 => self.testChannel c features[channel] channel)
      = Vector.ofFn fun channel : Fin 6 => self.testChannel c' features[channel] channel :=
    congrArg Vector.ofFn (funext fun channel =>
      ((h.inBounds channel).near (hfeatures channel)).testChannel_exact c c')
  have hexact (channel : Fin 6) (k : Fin 2)
      : self.StdExact features[channel]
          (Vector.ofFn fun channel : Fin 6 => self.testChannel c' features[channel] channel)[channel]
          channel k := by
    have hget : (Vector.ofFn fun channel : Fin 6 => self.testChannel c' features[channel] channel)[channel]
        = self.testChannel c' features[channel] channel :=
      Vector.ofFn_at _ channel
    rw [hget]
    exact (h.inBounds channel).stdExact (hfeatures channel) c' k
  unfold likelihoodTest
  dsimp only
  rw [htests]
  split
  . rw [update_exact h hexact hcounter hcounter' hproduct]
  . rfl

theorem call_frameCounter (c : Overflow) (r : Resampler ρ) (self : VadInst ρ) {n : Int}
    (hcounter : 0 ≤ self.frameCounter) (hcounter' : self.frameCounter ≤ n) (hn : n < 2147483647) (e : Call)
    : 0 ≤ (self.call c r e).2.frameCounter ∧ (self.call c r e).2.frameCounter ≤ n + 1 := by
  cases e with
  | init =>
    show (0 : Int) ≤ 0 ∧ 0 ≤ n + 1
    omega
  | setMode mode =>
    obtain ⟨_, heq⟩ := self.setMode_eq mode
    show 0 ≤ (self.setMode mode).2.frameCounter ∧ (self.setMode mode).2.frameCounter ≤ n + 1
    rw [heq]
    dsimp only
    omega
  | process fs audioFrame =>
    show 0 ≤ (self.process c r.resample48khzTo8khz fs audioFrame).2.frameCounter
      ∧ (self.process c r.resample48khzTo8khz fs audioFrame).2.frameCounter ≤ n + 1
    by_cases haccepts : self.Accepts fs audioFrame
    . obtain ⟨_, _, _, heq⟩ := conclude_eq self.mode (self.frameIndex r fs audioFrame)
        (self.detect c r fs audioFrame)
      have hnarrow : (self.narrow r fs audioFrame).2.frameCounter = self.frameCounter := by
        obtain ⟨_, _, hnarrow⟩ := self.narrow_eq r fs audioFrame
        rw [hnarrow]
      have hdetect : (self.detect c r fs audioFrame).2.frameCounter = self.frameCounter
          ∨ (self.detect c r fs audioFrame).2.frameCounter = c.int (self.frameCounter + 1) := by
        rw [← hnarrow]
        unfold detect likelihoodTest
        dsimp only
        split
        . refine Or.inr ?_
          unfold update
          dsimp only
          rw [updateChannels_frameCounter]
          rfl
        . exact Or.inl rfl
      have hint : c.int (self.frameCounter + 1) = self.frameCounter + 1 :=
        c.exact _ (by omega) (by omega)
      rw [process_eq c r self haccepts, heq]
      dsimp only
      omega
    . rw [process_of_not_accepts c r self haccepts]
      dsimp only
      omega

theorem run_frameCounter (c : Overflow) (r : Resampler ρ) (memory : VadInst ρ) {calls : List Call}
    (hcalls : calls.length < 2147483647)
    : let self := (machine c r memory).runFrom (memory.call c r .init).2 calls
      0 ≤ self.frameCounter ∧ self.frameCounter ≤ calls.length := by
  induction calls using List.reverseRecOn with
  | nil =>
    show (0 : Int) ≤ 0 ∧ (0 : Int) ≤ 0
    decide
  | append_singleton calls e ih =>
    rw [List.length_append, List.length_singleton] at hcalls
    obtain ⟨hlower, hupper⟩ := ih (by omega)
    rw [Machine.runFrom_append, Machine.runFrom_cons, Machine.runFrom_nil, List.length_append,
      List.length_singleton]
    have hcall := call_frameCounter c r _ hlower hupper (by omega) e
    push_cast
    exact hcall

theorem detect_exact (h : self.Bounded) (hcounter : 0 ≤ self.frameCounter)
    (hcounter' : self.frameCounter < 2147483647) {c c' : Overflow} (hproduct : c'.product = c.product)
    (r : Resampler ρ) {fs : Int} {audioFrame : List Int16} (hframe : Supported fs audioFrame.length)
    : let narrowed := self.narrow r fs audioFrame
      let features := narrowed.2.calculateFeatures c narrowed.1
      self.detect c r fs audioFrame
        =
      features.2.2.likelihoodTest c' features.2.1 features.1 narrowed.1.length := by
  obtain ⟨ms, hms, hlen⟩ := self.length_narrow r hframe
  obtain ⟨_, _, heq⟩ := self.narrow_eq r fs audioFrame
  have hnarrow : (self.narrow r fs audioFrame).2.Bounded := by
    rw [heq]
    exact h.congr ⟨rfl, rfl, rfl, rfl⟩
  have hsame : (self.narrow r fs audioFrame).2.frameCounter = self.frameCounter := by
    rw [heq]
  have hshort : (self.narrow r fs audioFrame).1.length ≤ 240 := by
    simp only [List.mem_cons, List.not_mem_nil, or_false] at hms
    omega
  unfold detect
  generalize self.narrow r fs audioFrame = narrowed at hnarrow hsame hshort ⊢
  obtain ⟨speechNB, self₁⟩ := narrowed
  dsimp only at hnarrow hsame hshort ⊢
  have hrange := self₁.calculateFeatures_range c hshort
  have hfeatures := hnarrow.congr (t := (self₁.calculateFeatures c speechNB).2.2) ⟨rfl, rfl, rfl, rfl⟩
  have hfeatures' : (self₁.calculateFeatures c speechNB).2.2.frameCounter = self₁.frameCounter := rfl
  generalize self₁.calculateFeatures c speechNB = f at hrange hfeatures hfeatures' ⊢
  exact likelihoodTest_exact hfeatures hrange (by omega) (by omega) hproduct f.1 speechNB.length

/--
In every run with fewer than 2147483647 calls, the likelihood test of the next frame depends on what an
overflow yields in the product of `OverflowingMulS16ByS32ToS32` only: from the features on, the detection
has no other.
-/
theorem detection_exact {c c' : Overflow} (hproduct : c'.product = c.product) (r : Resampler ρ)
    (memory : VadInst ρ) {calls : List Call} (hcalls : calls.length < 2147483647) {fs : Int}
    {audioFrame : List Int16}
    (hframe : Supported fs audioFrame.length)
    : let self := (machine c r memory).runFrom (memory.call c r .init).2 calls
      let narrowed := self.narrow r fs audioFrame
      let features := narrowed.2.calculateFeatures c narrowed.1
      self.detect c r fs audioFrame
        =
      features.2.2.likelihoodTest c' features.2.1 features.1 narrowed.1.length := by
  have hbounded := (machine c r memory).runFrom_invariant (I := Bounded)
    (fun s e hs => hs.call c r e) _ (bounded_init r c memory) calls
  obtain ⟨hlower, hupper⟩ := run_frameCounter c r memory hcalls
  exact detect_exact hbounded hlower (Int.lt_of_le_of_lt hupper (by omega)) hproduct r hframe

def clamp (x : Int) : Int :=
  max (-2147483648) (min x 2147483647)

theorem clamp_lower (x : Int) : -2147483648 ≤ clamp x := by
  unfold clamp
  omega

theorem clamp_upper (x : Int) : clamp x ≤ 2147483647 := by
  unfold clamp
  omega

theorem clamp_exact (x : Int) (hlower : -2147483648 ≤ x) (hupper : x ≤ 2147483647) : clamp x = x := by
  unfold clamp
  omega

/--
An overflow yields the nearest value, but for the product, which wraps.
-/
def nearest : Overflow where
  int := clamp
  lower := clamp_lower
  upper := clamp_upper
  exact := clamp_exact
  product := int32
  product_lower := int32_lower
  product_upper := int32_upper
  product_exact := int32_exact
  shiftRight x n := x >>> n.toNat
  shiftRight_exact _ _ _ _ := rfl

theorem detection_exact_on_data
    : let calls := [Call.setMode 3, .process 8000 (List.replicate 80 0)]
      let audioFrame := List.replicate 160 (1000 : Int16)
      let self := (machine .wrapping .silent zeros).runFrom (zeros.call .wrapping .silent .init).2 calls
      let narrowed := self.narrow .silent 16000 audioFrame
      let features := narrowed.2.calculateFeatures .wrapping narrowed.1
      calls.length < 2147483647
        ∧ Supported 16000 audioFrame.length
        ∧ self.detect .wrapping .silent 16000 audioFrame
          = features.2.2.likelihoodTest nearest features.2.1 features.1 narrowed.1.length := by
  intro calls audioFrame
  have hcalls : calls.length < 2147483647 := by simp [calls]
  have hlen : audioFrame.length = 160 := List.length_replicate
  have hframe : Supported 16000 audioFrame.length := by
    rw [hlen]
    simp [Supported]
  clear_value calls audioFrame
  have hproduct : nearest.product = Overflow.wrapping.product := rfl
  exact ⟨hcalls, hframe, detection_exact hproduct .silent zeros hcalls hframe⟩

/--
The product does overflow: what it yields then shows in the deviations behind one loud frame.
-/
theorem detection_not_exact
    : let nearestProduct : Overflow := {
        Overflow.wrapping with
        product := clamp
        product_lower := clamp_lower
        product_upper := clamp_upper
        product_exact := clamp_exact }
      let self := (machine .wrapping .silent zeros).runFrom (zeros.call .wrapping .silent .init).2 [.setMode 3]
      let audioFrame := List.replicate 80 (32767 : Int16)
      (self.detect .wrapping .silent 8000 audioFrame).2.noiseStds
        ≠ (self.detect nearestProduct .silent 8000 audioFrame).2.noiseStds := by
  decide +kernel

end VadInst

end WebRtc
