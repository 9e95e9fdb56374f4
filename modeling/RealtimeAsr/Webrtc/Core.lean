import RealtimeAsr.Webrtc.Sp
import RealtimeAsr.Webrtc.Gmm
import RealtimeAsr.Webrtc.Filterbank

/-!
This module contains `GmmProbability` and the `WebRtcVad_CalcVad` functions of `vad/vad_core.c`.
-/

namespace WebRtc

def weightedAverage (data : Table) (channel : Fin 6) (offset : Int16) (weights : Table)
    : Int × Table :=
  let data := data.store (gaussian channel 0) (data[gaussian channel 0] + offset)
  let data := data.store (gaussian channel 1) (data[gaussian channel 1] + offset)
  (data[gaussian channel 0].toInt * weights[gaussian channel 0].toInt
    + data[gaussian channel 1].toInt * weights[gaussian channel 1].toInt, data)

/--
What the test of one channel finds: the columns of the channel in `deltaN`, `deltaS`, `ngprvec` and
`sgprvec`.
-/
structure Tested where
  logLikelihoodRatio : Int
  deltaN : Vector Int16 2
  deltaS : Vector Int16 2
  ngprvec : Vector Int16 2
  sgprvec : Vector Int16 2
  deriving Repr, DecidableEq

/--
`(probability & 0xFFFFF000) << 2`, which is unsigned.
-/
def maskProbability (probability : Int) : Int :=
  int32 (uint32 probability / 4096 * 4096 * 4)

variable (c : Overflow)

def conditionalProbability (probability : Int) (h : Int16) : Int16 :=
  .ofInt (Spl.divW32W16 (maskProbability probability) h)

def shiftsOf (hTest : Int) : Int :=
  if hTest = 0 then 31 else Spl.normW32 hTest

variable {ρ : Type}

namespace VadInst

variable (self : VadInst ρ)

def testChannel (feature : Int16) (channel : Fin 6) : Tested :=
  let g (k : Fin 2) := gaussian channel k
  let noise (k : Fin 2) :=
    gaussianProbability c feature self.noiseMeans[g k] self.noiseStds[g k]
  let noiseProbability (k : Fin 2) := c.int (kNoiseDataWeights[g k].toInt * (noise k).1)
  let speech (k : Fin 2) :=
    gaussianProbability c feature self.speechMeans[g k] self.speechStds[g k]
  let speechProbability (k : Fin 2) := c.int (kSpeechDataWeights[g k].toInt * (speech k).1)
  let h0Test := c.int (noiseProbability 0 + noiseProbability 1)
  let h1Test := c.int (speechProbability 0 + speechProbability 1)
  let h0 : Int16 := .ofInt (h0Test >>> (12 : Nat))
  let ngprvec : Vector Int16 2 :=
    if h0 > 0 then
      let first := conditionalProbability (noiseProbability 0) h0
      #v[first, 16384 - first]
    else
      (Vector.replicate 2 0).store 0 16384
  let h1 : Int16 := .ofInt (h1Test >>> (12 : Nat))
  let sgprvec : Vector Int16 2 :=
    if h1 > 0 then
      let first := conditionalProbability (speechProbability 0) h1
      #v[first, 16384 - first]
    else
      Vector.replicate 2 0
  { logLikelihoodRatio := shiftsOf h0Test - shiftsOf h1Test
    deltaN := Vector.ofFn fun k => (noise k).2
    deltaS := Vector.ofFn fun k => (speech k).2
    ngprvec
    sgprvec }

end VadInst

def isSpeech (tests : Vector Tested 6) (individualTest totalTest : Int16) : Bool :=
  let localTest := (List.finRange 6).any fun channel =>
    tests[channel].logLikelihoodRatio * 4 > individualTest.toInt
  let sumLogLikelihoodRatios := (List.finRange 6).foldl
    (fun sum channel => sum + tests[channel].logLikelihoodRatio * kSpectrumWeight[channel].toInt)
    (0 : Int)
  localTest || decide (sumLogLikelihoodRatios ≥ totalTest.toInt)

def updateNoiseMean (vadflag : Bool) (channel : Fin 6) (k : Fin 2) (nmk ngprvec deltaN : Int16)
    (featureMinimum tmp1S16 : Int16) : Int16 :=
  let nmk2 :=
    if !vadflag then
      let delt : Int16 := .ofInt ((ngprvec.toInt * deltaN.toInt : Int) >>> (11 : Nat))
      nmk + .ofInt ((delt.toInt * kNoiseUpdateConst) >>> (22 : Nat))
    else
      nmk
  let ndelt : Int16 := .ofInt (featureMinimum.toInt * 16 - tmp1S16.toInt)
  let nmk3 := nmk2 + .ofInt ((ndelt.toInt * kBackEta) >>> (9 : Nat))
  let tmpS16 : Int16 := .ofInt ((k.val + 5) <<< 7 : Nat)
  let nmk3 := if nmk3 < tmpS16 then tmpS16 else nmk3
  let tmpS16 : Int16 := .ofInt ((72 + k.val - channel.val) <<< 7 : Nat)
  if nmk3 > tmpS16 then tmpS16 else nmk3

def updateSpeechMean (k : Fin 2) (smk sgprvec deltaS maxspe : Int16) : Int16 :=
  let delt : Int16 := .ofInt ((sgprvec.toInt * deltaS.toInt : Int) >>> (11 : Nat))
  let tmpS16 : Int16 := .ofInt ((delt.toInt * kSpeechUpdateConst) >>> (21 : Nat))
  let smk2 := smk + .ofInt ((tmpS16.toInt + 1) >>> (1 : Nat))
  let maxmu := maxspe + 640
  let smk2 := if smk2 < kMinimumMean[k] then kMinimumMean[k] else smk2
  if smk2 > maxmu then maxmu else smk2

def signedQuotient (tmp : Int) (den : Int16) : Int16 :=
  if tmp > 0 then .ofInt (Spl.divW32W16 tmp den) else -.ofInt (Spl.divW32W16 (-tmp) den)

def updateSpeechStd (feature smk ssk sgprvec deltaS : Int16) : Int16 :=
  let tmpS16 : Int16 := .ofInt ((smk.toInt + 4) >>> (3 : Nat))
  let tmpS16 := feature - tmpS16
  let tmp1S32 := (deltaS.toInt * tmpS16.toInt : Int) >>> (3 : Nat)
  let tmp2S32 := tmp1S32 - 4096
  let tmpS16 : Int16 := .ofInt (sgprvec.toInt >>> (2 : Nat))
  let tmp1S32 := c.int (tmpS16.toInt * tmp2S32)
  let tmp2S32 := tmp1S32 >>> (4 : Nat)
  let tmpS16 := signedQuotient tmp2S32 (.ofInt (ssk.toInt * 10))
  let tmpS16 := tmpS16 + 128
  let ssk := ssk + .ofInt (tmpS16.toInt >>> (8 : Nat))
  if ssk < kMinStd then kMinStd else ssk

def overflowingMulS16ByS32ToS32 (a : Int16) (b : Int) : Int :=
  c.product (a.toInt * b)

def updateNoiseStd (feature nmk nsk ngprvec deltaN : Int16) : Int16 :=
  let tmpS16 := feature - .ofInt (nmk.toInt >>> (3 : Nat))
  let tmp1S32 := (deltaN.toInt * tmpS16.toInt : Int) >>> (3 : Nat)
  let tmp1S32 := tmp1S32 - 4096
  let tmpS16 : Int16 := .ofInt ((ngprvec.toInt + 2) >>> (2 : Nat))
  let tmp2S32 := overflowingMulS16ByS32ToS32 c tmpS16 tmp1S32
  let tmp1S32 := tmp2S32 >>> (14 : Nat)
  let tmpS16 := signedQuotient tmp1S32 nsk
  let tmpS16 := tmpS16 + 32
  let nsk := nsk + .ofInt (tmpS16.toInt >>> (6 : Nat))
  if nsk < kMinStd then kMinStd else nsk

namespace VadInst

variable (self : VadInst ρ)

def updateGaussian (vadflag : Bool) (feature : Int16) (t : Tested) (channel : Fin 6)
    (featureMinimum tmp1S16 maxspe : Int16) (k : Fin 2) : VadInst ρ :=
  let g := gaussian channel k
  let nmk := self.noiseMeans[g]
  let smk := self.speechMeans[g]
  let nsk := self.noiseStds[g]
  let ssk := self.speechStds[g]
  let noiseMeans := self.noiseMeans.store g
    (updateNoiseMean vadflag channel k nmk t.ngprvec[k] t.deltaN[k] featureMinimum tmp1S16)
  if vadflag then {
    self with
    noiseMeans
    speechMeans := self.speechMeans.store g (updateSpeechMean k smk t.sgprvec[k] t.deltaS[k] maxspe)
    speechStds := self.speechStds.store g
      (updateSpeechStd c feature smk ssk t.sgprvec[k] t.deltaS[k]) }
  else {
    self with
    noiseMeans
    noiseStds := self.noiseStds.store g
      (updateNoiseStd c feature nmk nsk t.ngprvec[k] t.deltaN[k]) }

def separate (channel : Fin 6) : VadInst ρ × Int × Int :=
  let noiseGlobalMean := (weightedAverage self.noiseMeans channel 0 kNoiseDataWeights).1
  let speechGlobalMean := (weightedAverage self.speechMeans channel 0 kSpeechDataWeights).1
  let diff : Int16 := .ofInt (speechGlobalMean >>> (9 : Nat)) - .ofInt (noiseGlobalMean >>> (9 : Nat))
  if diff < kMinimumDifference[channel] then
    let tmpS16 := kMinimumDifference[channel] - diff
    let tmp1S16 : Int16 := .ofInt ((13 * tmpS16.toInt) >>> (2 : Nat))
    let tmp2S16 : Int16 := .ofInt ((3 * tmpS16.toInt) >>> (2 : Nat))
    let (speechGlobalMean, speechMeans) :=
      weightedAverage self.speechMeans channel tmp1S16 kSpeechDataWeights
    let (noiseGlobalMean, noiseMeans) :=
      weightedAverage self.noiseMeans channel (-tmp2S16) kNoiseDataWeights
    ({ self with speechMeans, noiseMeans }, noiseGlobalMean, speechGlobalMean)
  else
    (self, noiseGlobalMean, speechGlobalMean)

def limit (means : Table) (channel : Fin 6) (globalMean : Int) (maximum : Int16) : Table :=
  let tmp2S16 : Int16 := .ofInt (globalMean >>> (7 : Nat))
  if tmp2S16 > maximum then
    let tmp2S16 := tmp2S16 - maximum
    let means := means.store (gaussian channel 0) (means[gaussian channel 0] - tmp2S16)
    means.store (gaussian channel 1) (means[gaussian channel 1] - tmp2S16)
  else
    means

/--
The update of one channel. `maxspe` is the limit of the channel before.
-/
def updateChannel (vadflag : Bool) (feature : Int16) (t : Tested) (channel : Fin 6)
    (maxspe : Int16) : VadInst ρ :=
  let (featureMinimum, self) := self.findMinimum feature channel
  let noiseGlobalMean := (weightedAverage self.noiseMeans channel 0 kNoiseDataWeights).1
  let tmp1S16 : Int16 := .ofInt (noiseGlobalMean >>> (6 : Nat))
  let self := self.updateGaussian c vadflag feature t channel featureMinimum tmp1S16 maxspe 0
  let self := self.updateGaussian c vadflag feature t channel featureMinimum tmp1S16 maxspe 1
  let (self, noiseGlobalMean, speechGlobalMean) := self.separate channel
  { self with
    speechMeans := limit self.speechMeans channel speechGlobalMean kMaximumSpeech[channel]
    noiseMeans := limit self.noiseMeans channel noiseGlobalMean kMaximumNoise[channel] }

def updateChannels (vadflag : Bool) (features : Vector Int16 6) (tests : Vector Tested 6)
    : List (Fin 6) → Int16 → VadInst ρ → VadInst ρ
  | [], _, self => self
  | channel :: channels, maxspe, self =>
    let self := self.updateChannel c vadflag features[channel] tests[channel] channel maxspe
    updateChannels vadflag features tests channels kMaximumSpeech[channel] self

def update (vadflag : Bool) (features : Vector Int16 6) (tests : Vector Tested 6) : VadInst ρ :=
  let self := updateChannels c vadflag features tests (List.finRange 6) 12800 self
  { self with frameCounter := c.int (self.frameCounter + 1) }

def lengthIndex (frameLength : Nat) : Fin 3 :=
  if frameLength = 80 then 0 else if frameLength = 160 then 1 else 2

/--
The first part of `GmmProbability`: the decision for the frame alone, and the updated models.
-/
def likelihoodTest (features : Vector Int16 6) (totalPower : Int16) (frameLength : Nat)
    : Bool × VadInst ρ :=
  let individualTest := self.mode.individual[lengthIndex frameLength]
  let totalTest := self.mode.total[lengthIndex frameLength]
  if totalPower.toInt > kMinEnergy then
    let tests := Vector.ofFn fun channel => self.testChannel c features[channel] channel
    let vadflag := isSpeech tests individualTest totalTest
    (vadflag, self.update c vadflag features tests)
  else
    (false, self)

/--
The end of `GmmProbability`: the transition hysteresis.
-/
def smooth (vadflag : Bool) (overhead1 overhead2 : Int16) : Int16 × VadInst ρ :=
  if !vadflag then
    if self.overHang > 0 then
      (2 + self.overHang, { self with overHang := self.overHang - 1, numOfSpeech := 0 })
    else
      (0, { self with numOfSpeech := 0 })
  else
    let numOfSpeech := self.numOfSpeech + 1
    if numOfSpeech > kMaxSpeechFrames then
      (1, { self with numOfSpeech := kMaxSpeechFrames, overHang := overhead2 })
    else
      (1, { self with numOfSpeech, overHang := overhead1 })

def gmmProbability (features : Vector Int16 6) (totalPower : Int16) (frameLength : Nat)
    : Int16 × VadInst ρ :=
  let overhead1 := self.mode.overHangMax1[lengthIndex frameLength]
  let overhead2 := self.mode.overHangMax2[lengthIndex frameLength]
  let (vadflag, self) := self.likelihoodTest c features totalPower frameLength
  self.smooth vadflag overhead1 overhead2

def calcVad8khz (speechFrame : List Int16) : Int × VadInst ρ :=
  let frameLength := speechFrame.length
  let (totalPower, featureVector, self) := self.calculateFeatures c speechFrame
  let (vad, self) := self.gmmProbability c featureVector totalPower frameLength
  (vad.toInt, { self with vad := vad.toInt })

def calcVad16khz (speechFrame : List Int16) : Int × VadInst ρ :=
  let states := self.downsamplingFilterStates
  let (speechNB, state) := downsampling speechFrame (states.get 0, states.get 1)
  let self : VadInst ρ := {
    self with downsamplingFilterStates := (states.store 0 state.1).store 1 state.2 }
  self.calcVad8khz c speechNB

def calcVad32khz (speechFrame : List Int16) : Int × VadInst ρ :=
  let states := self.downsamplingFilterStates
  let (speechWB, upper) := downsampling speechFrame (states.get 2, states.get 3)
  let (speechNB, lower) := downsampling speechWB (states.get 0, states.get 1)
  let states := (states.store 2 upper.1).store 3 upper.2
  let self : VadInst ρ := {
    self with downsamplingFilterStates := (states.store 0 lower.1).store 1 lower.2 }
  self.calcVad8khz c speechNB

/--
`speech_frame` is not advanced: every part of 10 ms is resampled from the first one.
-/
def resampleParts (resample48khzTo8khz : List Int16 → ρ → List Int16 × ρ) (speechFrame : List Int16)
    : Nat → ρ → List Int16 × ρ
  | 0, state => ([], state)
  | n + 1, state =>
    let (part, state) := resample48khzTo8khz (speechFrame.take 480) state
    let (rest, state) := resampleParts resample48khzTo8khz speechFrame n state
    (part ++ rest, state)

def calcVad48khz (resample48khzTo8khz : List Int16 → ρ → List Int16 × ρ)
    (speechFrame : List Int16) : Int × VadInst ρ :=
  let num10msFrames := speechFrame.length / 480
  let (speechNb, state48To8) :=
    resampleParts resample48khzTo8khz speechFrame num10msFrames self.state48To8
  let self : VadInst ρ := { self with state48To8 }
  self.calcVad8khz c speechNb

end VadInst

end WebRtc
