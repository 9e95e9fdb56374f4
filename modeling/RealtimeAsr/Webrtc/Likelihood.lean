import RealtimeAsr.Webrtc.Core
import RealtimeAsr.Webrtc.Gaussian

/-!
This module shows that the likelihood test of a channel, and the update of its models, stay inside their
types where the features are near enough to the means.
-/

namespace WebRtc

open Gaussian

/--
`ngprvec` and `sgprvec`, from the probability of the first Gaussian and that of both; `none` is what they
are without a probability.
-/
def conditionals (none : Vector Int16 2) (first both : Int) : Vector Int16 2 :=
  let h : Int16 := .ofInt (both >>> (12 : Nat))
  if h > 0 then
    let first := conditionalProbability first h
    #v[first, 16384 - first]
  else
    none

def likelihoods (noise speech : Fin 2 → Int × Int16) (n0 h0Test s0 h1Test : Int) : Tested where
  logLikelihoodRatio := shiftsOf h0Test - shiftsOf h1Test
  deltaN := Vector.ofFn fun k => (noise k).2
  deltaS := Vector.ofFn fun k => (speech k).2
  ngprvec := conditionals ((Vector.replicate 2 0).store 0 16384) n0 h0Test
  sgprvec := conditionals (Vector.replicate 2 0) s0 h1Test

theorem weights_range (channel : Fin 6)
    : (∀ k, 0 ≤ kNoiseDataWeights[gaussian channel k].toInt)
        ∧ (∀ k, 0 ≤ kSpeechDataWeights[gaussian channel k].toInt)
        ∧ kNoiseDataWeights[gaussian channel 0].toInt + kNoiseDataWeights[gaussian channel 1].toInt = 128
        ∧ kSpeechDataWeights[gaussian channel 0].toInt + kSpeechDataWeights[gaussian channel 1].toInt
          = 128 := by
  revert channel
  decide

theorem weighted_range {v w p q n : Int} (hv : 0 ≤ v) (hw : 0 ≤ w) (hvw : v + w = 128) (hp : 0 ≤ p)
    (hpn : p ≤ n) (hq : 0 ≤ q) (hqn : q ≤ n)
    : (0 ≤ v * p ∧ 0 ≤ w * q) ∧ v * p + w * q ≤ 128 * n := by
  have hvp : v * p ≤ v * n := Int.mul_le_mul_of_nonneg_left hpn hv
  have hwq : w * q ≤ w * n := Int.mul_le_mul_of_nonneg_left hqn hw
  have hsum : v * n + w * n = 128 * n := by rw [← Int.add_mul, hvw]
  exact ⟨⟨Int.mul_nonneg hv hp, Int.mul_nonneg hw hq⟩, by omega⟩

theorem conditionalProbability_eq {first both : Int} (hnonneg : 0 ≤ first) (hle : first ≤ both)
    (hboth : both ≤ 128 * 710309) {h : Int16} (hh : h.toInt = both / 4096) (hpos : 0 < h.toInt)
    : (conditionalProbability first h).toInt = first / 4096 * 16384 / h.toInt
        ∧ first / 4096 * 16384 / h.toInt ≤ 16384 := by
  have hmask : maskProbability first = first / 4096 * 16384 := by
    unfold maskProbability int32 uint32
    omega
  have hle' : first / 4096 * 16384 / h.toInt ≤ 16384 := by
    apply Int.le_of_lt_add_one
    apply Int.ediv_lt_of_lt_mul hpos
    omega
  have hnonneg' : 0 ≤ first / 4096 * 16384 / h.toInt :=
    Int.ediv_nonneg (by omega) (Int.le_of_lt hpos)
  have hne : h ≠ 0 := by
    rintro rfl
    exact absurd hpos (by decide)
  refine ⟨?_, hle'⟩
  unfold conditionalProbability Spl.divW32W16
  rw [if_pos hne, hmask, Int.tdiv_eq_ediv_of_nonneg (by omega)]
  exact Word16.toInt_ofInt (by omega) (by omega)

theorem conditionals_of_pos {none : Vector Int16 2} {first both : Int}
    (h : (0 : Int) < (Int16.ofInt (both >>> (12 : Nat))).toInt)
    : conditionals none first both
        =
      #v[conditionalProbability first (.ofInt (both >>> (12 : Nat))),
        (16384 : Int16) - conditionalProbability first (.ofInt (both >>> (12 : Nat)))] := by
  have hpos : Int16.ofInt (both >>> (12 : Nat)) > 0 := by
    rw [gt_iff_lt, Word16.lt_iff]
    exact h
  unfold conditionals
  rw [if_pos hpos]

theorem conditionals_of_not_pos {none : Vector Int16 2} {first both : Int}
    (h : ¬(0 : Int) < (Int16.ofInt (both >>> (12 : Nat))).toInt)
    : conditionals none first both = none := by
  have hpos : ¬Int16.ofInt (both >>> (12 : Nat)) > 0 := by
    rw [gt_iff_lt, Word16.lt_iff]
    exact h
  unfold conditionals
  rw [if_neg hpos]

/--
Without a probability of its own, a Gaussian has no share in that of both.
-/
theorem conditionals_spec {first both : Int} (hnonneg : 0 ≤ first)
    (hle : first ≤ both) (hboth : both ≤ 128 * 710309)
    : ∃ p q : Int16, conditionals (Vector.replicate 2 0) first both = #v[p, q]
        ∧ (0 ≤ p.toInt ∧ p.toInt ≤ 16384) ∧ (0 ≤ q.toInt ∧ q.toInt ≤ 16384)
        ∧ (first = 0 → p = 0) ∧ (first = both → q = 0) := by
  have hh : (Int16.ofInt (both >>> (12 : Nat))).toInt = both / 4096 := by
    rw [Int.shiftRight_eq_div_pow]
    exact Word16.toInt_ofInt (by omega) (by omega)
  by_cases hpos : (0 : Int) < (Int16.ofInt (both >>> (12 : Nat))).toInt
  . rw [conditionals_of_pos hpos]
    generalize Int16.ofInt (both >>> (12 : Nat)) = h at hh hpos ⊢
    obtain ⟨hfirst, hfirst'⟩ := conditionalProbability_eq hnonneg hle hboth hh hpos
    have hfirst0 : 0 ≤ (conditionalProbability first h).toInt := by
      rw [hfirst]
      exact Int.ediv_nonneg (by omega) (Int.le_of_lt hpos)
    rw [← hfirst] at hfirst'
    have hsecond : (16384 - conditionalProbability first h).toInt
        = 16384 - (conditionalProbability first h).toInt := by
      have hconst : (16384 : Int16).toInt = 16384 := rfl
      rw [Word16.toInt_sub, hconst]
      . omega
      . omega
    refine ⟨_, _, rfl, ⟨hfirst0, hfirst'⟩, by omega, fun hzero => ?_, fun heq => ?_⟩
    . apply Int16.toInt_inj.mp
      rw [hfirst, hzero]
      exact Int.zero_ediv _
    . apply Int16.toInt_inj.mp
      have hall : first / 4096 * 16384 / h.toInt = 16384 := by
        rw [heq, ← hh]
        exact Int.mul_ediv_cancel_left _ (by omega)
      rw [hsecond, hfirst, hall]
      rfl
  . rw [conditionals_of_not_pos hpos]
    exact ⟨0, 0, rfl, by decide, by decide, fun _ => rfl, fun _ => rfl⟩

namespace VadInst

variable {ρ : Type}

structure Near (inst : VadInst ρ) (feature : Int16) (channel : Fin 6) : Prop where
  noise : ∀ k, Gaussian.Near feature inst.noiseMeans[gaussian channel k] inst.noiseStds[gaussian channel k]
  speech : ∀ k,
    Gaussian.Near feature inst.speechMeans[gaussian channel k] inst.speechStds[gaussian channel k]

variable (self : VadInst ρ)

def noiseModel (c : Overflow) (feature : Int16) (channel : Fin 6) (k : Fin 2) : Int × Int16 :=
  gaussianProbability c feature self.noiseMeans[gaussian channel k] self.noiseStds[gaussian channel k]

def speechModel (c : Overflow) (feature : Int16) (channel : Fin 6) (k : Fin 2) : Int × Int16 :=
  gaussianProbability c feature self.speechMeans[gaussian channel k] self.speechStds[gaussian channel k]

variable {self} {feature : Int16} {channel : Fin 6}

theorem Near.testChannel_eq (h : self.Near feature channel) (c : Overflow)
    : let noise := self.noiseModel c feature channel
      let speech := self.speechModel c feature channel
      let n (k : Fin 2) := kNoiseDataWeights[gaussian channel k].toInt * (noise k).1
      let s (k : Fin 2) := kSpeechDataWeights[gaussian channel k].toInt * (speech k).1
      self.testChannel c feature channel
        =
      likelihoods noise speech (n 0) (n 0 + n 1) (s 0) (s 0 + s 1) := by
  intro noise speech n s
  obtain ⟨hnoiseWeight, hspeechWeight, hnoiseSum, hspeechSum⟩ := weights_range channel
  have hnoise (k : Fin 2) := (h.noise k).probability_range c
  have hspeech (k : Fin 2) := (h.speech k).probability_range c
  have hn : (0 ≤ n 0 ∧ 0 ≤ n 1) ∧ n 0 + n 1 ≤ 128 * 710309 :=
    weighted_range (hnoiseWeight 0) (hnoiseWeight 1) hnoiseSum (hnoise 0).1 (hnoise 0).2 (hnoise 1).1
      (hnoise 1).2
  have hs : (0 ≤ s 0 ∧ 0 ≤ s 1) ∧ s 0 + s 1 ≤ 128 * 710309 :=
    weighted_range (hspeechWeight 0) (hspeechWeight 1) hspeechSum (hspeech 0).1 (hspeech 0).2
      (hspeech 1).1 (hspeech 1).2
  have hunfold : self.testChannel c feature channel
      = likelihoods noise speech (c.int (n 0)) (c.int (c.int (n 0) + c.int (n 1)))
          (c.int (s 0)) (c.int (c.int (s 0) + c.int (s 1))) := rfl
  have hint {x : Int} (hlower : 0 ≤ x) (hupper : x ≤ 128 * 710309) : c.int x = x :=
    c.exact x (by omega) (by omega)
  rw [hunfold]
  generalize n 0 = n0 at hn ⊢
  generalize n 1 = n1 at hn ⊢
  generalize s 0 = s0 at hs ⊢
  generalize s 1 = s1 at hs ⊢
  rw [hint hn.1.1 (by omega), hint hn.1.2 (by omega), hint hs.1.1 (by omega), hint hs.1.2 (by omega),
    hint (by omega) hn.2, hint (by omega) hs.2]

theorem Near.testChannel_exact (h : self.Near feature channel) (c c' : Overflow)
    : self.testChannel c feature channel = self.testChannel c' feature channel := by
  have hnoise : self.noiseModel c feature channel = self.noiseModel c' feature channel :=
    funext fun k => (h.noise k).exact c c'
  have hspeech : self.speechModel c feature channel = self.speechModel c' feature channel :=
    funext fun k => (h.speech k).exact c c'
  rw [h.testChannel_eq c, h.testChannel_eq c']
  dsimp only
  rw [hnoise, hspeech]

theorem Near.tested_speech (h : self.Near feature channel) (c : Overflow) (k : Fin 2)
    : let t := self.testChannel c feature channel
      let mean := self.speechMeans[gaussian channel k]
      let std := self.speechStds[gaussian channel k]
      0 ≤ t.sgprvec[k].toInt ∧ t.sgprvec[k].toInt ≤ 16384
        ∧ t.deltaS[k].toInt = delta feature mean std
        ∧ (t.sgprvec[k] ≠ 0 → delta feature mean std * distance feature mean < 22005 * 512) := by
  intro t mean std
  obtain ⟨-, hweight, -, hsum⟩ := weights_range channel
  have hspeech (k : Fin 2) := (h.speech k).probability_range c
  have hdelta (k : Fin 2) := (h.speech k).toInt_delta c
  have hlt (k : Fin 2) (hpos : (self.speechModel c feature channel k).1 ≠ 0) :=
    (h.speech k).delta_mul_lt hpos
  have ht := h.testChannel_eq c
  dsimp only at ht
  have hs : (0 ≤ kSpeechDataWeights[gaussian channel 0].toInt * (self.speechModel c feature channel 0).1
      ∧ 0 ≤ kSpeechDataWeights[gaussian channel 1].toInt * (self.speechModel c feature channel 1).1)
      ∧ kSpeechDataWeights[gaussian channel 0].toInt * (self.speechModel c feature channel 0).1
        + kSpeechDataWeights[gaussian channel 1].toInt * (self.speechModel c feature channel 1).1
        ≤ 128 * 710309 :=
    weighted_range (hweight 0) (hweight 1) hsum (hspeech 0).1 (hspeech 0).2 (hspeech 1).1 (hspeech 1).2
  obtain ⟨p, q, hpq, hp, hq, hfirst, hsecond⟩ := conditionals_spec hs.1.1 (by omega) hs.2
  have hsgprvec : t.sgprvec = #v[p, q] := by
    show (self.testChannel c feature channel).sgprvec = _
    rw [ht]
    exact hpq
  have hdeltaS : t.deltaS
      = #v[(self.speechModel c feature channel 0).2, (self.speechModel c feature channel 1).2] := by
    show (self.testChannel c feature channel).deltaS = _
    rw [ht]
    rfl
  have hk : k = 0 ∨ k = 1 := by omega
  rw [hsgprvec, hdeltaS]
  rcases hk with rfl | rfl
  . refine ⟨hp.1, hp.2, hdelta 0, fun hne => hlt 0 fun hzero => hne (hfirst ?_)⟩
    rw [hzero, Int.mul_zero]
  . refine ⟨hq.1, hq.2, hdelta 1, fun hne => hlt 1 fun hzero => hne (hsecond ?_)⟩
    rw [hzero, Int.mul_zero, Int.add_zero]

end VadInst

/--
The square of the distance in the update of a deviation is small where the value has a probability.
-/
theorem updateSpeechStd_exact {feature smk ssk sgprvec deltaS : Int16}
    (hnear : Gaussian.Near feature smk ssk) (hsmk : 0 ≤ smk.toInt) (hsmk' : smk.toInt ≤ 32763)
    (hnonneg : 0 ≤ sgprvec.toInt) (hle : sgprvec.toInt ≤ 16384)
    (hdelta : deltaS.toInt = delta feature smk ssk)
    (hlt : sgprvec ≠ 0 → delta feature smk ssk * distance feature smk < 22005 * 512) (c c' : Overflow)
    : updateSpeechStd c feature smk ssk sgprvec deltaS = updateSpeechStd c' feature smk ssk sgprvec deltaS := by
  have hinput := hnear.nonneg
  have hinput' := hnear.upper
  obtain ⟨hdelta0, hdelta1⟩ := hnear.delta_range
  have hsign := hnear.delta_mul_nonneg
  have hmean : (Int16.ofInt ((smk.toInt + 4) >>> (3 : Nat))).toInt = (smk.toInt + 4) / 8 := by
    rw [Int.shiftRight_eq_div_pow]
    exact Word16.toInt_ofInt (by omega) (by omega)
  have hdistance : (feature - .ofInt ((smk.toInt + 4) >>> (3 : Nat))).toInt
      = feature.toInt - (smk.toInt + 4) / 8 := by
    rw [Word16.toInt_sub, hmean]
    . omega
    . omega
  have hshare : (Int16.ofInt (sgprvec.toInt >>> (2 : Nat))).toInt = sgprvec.toInt / 4 := by
    rw [Int.shiftRight_eq_div_pow]
    exact Word16.toInt_ofInt (by omega) (by omega)
  have hshift : (deltaS.toInt * (feature.toInt - (smk.toInt + 4) / 8) : Int) >>> (3 : Nat)
      = deltaS.toInt * (feature.toInt - (smk.toInt + 4) / 8) / 8 :=
    Int.shiftRight_eq_div_pow _ _
  have hfit (c : Overflow)
      : c.int (sgprvec.toInt / 4 * (deltaS.toInt * (feature.toInt - (smk.toInt + 4) / 8) / 8 - 4096))
        = sgprvec.toInt / 4 * (deltaS.toInt * (feature.toInt - (smk.toInt + 4) / 8) / 8 - 4096) := by
    by_cases hzero : sgprvec = 0
    . rw [hzero, Int16.toInt_zero, Int.zero_ediv, Int.zero_mul]
      exact c.exact 0 (by decide) (by decide)
    . have hproduct := hlt hzero
      rw [hdelta]
      generalize delta feature smk ssk = δ at hdelta0 hdelta1 hsign hproduct ⊢
      -- Eight times the distance is the one of the probability, but for the rounding.
      have hround : 8 * (feature.toInt - (smk.toInt + 4) / 8)
          = distance feature smk + ((smk.toInt + 4) % 8 - 4) := by
        unfold distance
        omega
      have hsum : 8 * (δ * (feature.toInt - (smk.toInt + 4) / 8))
          = δ * distance feature smk + ((smk.toInt + 4) % 8 - 4) * δ := by
        rw [Int.mul_left_comm, hround, Int.mul_add, Int.mul_comm (_ - 4)]
      have hrest : -(4 * 32768) ≤ ((smk.toInt + 4) % 8 - 4) * δ
          ∧ ((smk.toInt + 4) % 8 - 4) * δ ≤ 4 * 32768 := by
        by_cases hneg : (smk.toInt + 4) % 8 - 4 < 0
        . have hrange := product_range (k := -((smk.toInt + 4) % 8 - 4)) (d := δ) (n := 4) (m := 32768)
            (by omega) (by omega) (by decide) (by omega) (by omega)
          rw [Int.neg_mul] at hrange
          omega
        . exact product_range (by omega) (by omega) (by decide) (by omega) (by omega)
      have hfactor : -6144 ≤ δ * (feature.toInt - (smk.toInt + 4) / 8) / 8 - 4096
          ∧ δ * (feature.toInt - (smk.toInt + 4) / 8) / 8 - 4096 ≤ 173992 := by
        omega
      have hrange := product_range (k := sgprvec.toInt / 4) (n := 4096) (m := 173992)
        (by omega) (by omega) (by decide) (show -173992 ≤ _ by omega) hfactor.2
      exact c.exact _ (by omega) (by omega)
  unfold updateSpeechStd
  dsimp only
  rw [hshare, hdistance, hshift, hfit c, hfit c']

end WebRtc
