import RealtimeAsr.Lib.Fixed
import RealtimeAsr.Webrtc.Spl

/-!
This module contains the instance of the VAD, `VadInstT` of `vad/vad_core.h`, and how `vad/vad_core.c`
initializes it.
-/

namespace WebRtc

def kNumChannels : Nat := 6

def kMinEnergy : Int := 10

/--
A value for every Gaussian: `channel + k * kNumChannels` is the `k`th one of the channel.
-/
abbrev Table := Vector Int16 12

def gaussian (channel : Fin 6) (k : Fin 2) : Fin 12 :=
  ⟨channel + k * 6, by omega⟩

def kSpectrumWeight : Vector Int16 6 := #v[6, 8, 10, 12, 14, 16]

def kNoiseUpdateConst : Int := 655

def kSpeechUpdateConst : Int := 6554

def kBackEta : Int := 154

def kMinimumDifference : Vector Int16 6 := #v[544, 544, 576, 576, 576, 576]

def kMaximumSpeech : Vector Int16 6 := #v[11392, 11392, 11520, 11520, 11520, 11520]

def kMinimumMean : Vector Int16 2 := #v[640, 768]

def kMaximumNoise : Vector Int16 6 := #v[9216, 9088, 8960, 8832, 8704, 8576]

def kNoiseDataWeights : Table := #v[34, 62, 72, 66, 53, 25, 94, 66, 56, 62, 75, 103]

def kSpeechDataWeights : Table := #v[48, 82, 45, 87, 50, 47, 80, 46, 83, 41, 78, 81]

def kNoiseDataMeans : Table :=
  #v[6738, 4892, 7065, 6715, 6771, 3369, 7646, 3863, 7820, 7266, 5020, 4362]

def kSpeechDataMeans : Table :=
  #v[8306, 10085, 10078, 11823, 11843, 6309, 9473, 9571, 10879, 7581, 8180, 7483]

def kNoiseDataStds : Table := #v[378, 1064, 493, 582, 688, 593, 474, 697, 475, 688, 421, 455]

def kSpeechDataStds : Table := #v[555, 505, 567, 524, 585, 1231, 509, 828, 492, 1540, 1079, 850]

def kMaxSpeechFrames : Int16 := 6

def kMinStd : Int16 := 384

def kDefaultMode : Int := 0

def kInitCheck : Int := 42

/--
The thresholds that depend on the mode, each for frames of 10, 20 and 30 ms.
-/
structure Mode where
  overHangMax1 : Vector Int16 3
  overHangMax2 : Vector Int16 3
  individual : Vector Int16 3
  total : Vector Int16 3
  deriving Repr, DecidableEq

def quality : Mode where
  overHangMax1 := #v[8, 4, 3]
  overHangMax2 := #v[14, 7, 5]
  individual := #v[24, 21, 24]
  total := #v[57, 48, 57]

def lowBitrate : Mode where
  overHangMax1 := #v[8, 4, 3]
  overHangMax2 := #v[14, 7, 5]
  individual := #v[37, 32, 37]
  total := #v[100, 80, 100]

def aggressive : Mode where
  overHangMax1 := #v[6, 3, 2]
  overHangMax2 := #v[9, 5, 3]
  individual := #v[82, 78, 82]
  total := #v[285, 260, 285]

def veryAggressive : Mode where
  overHangMax1 := #v[6, 3, 2]
  overHangMax2 := #v[9, 5, 3]
  individual := #v[94, 94, 94]
  total := #v[1100, 1050, 1100]

/--
`VadInstT`, with `ρ` for the state of the resampler from 48 kHz. An `int` and an `int32_t` is an integer
that fits.
-/
structure VadInst (ρ : Type) where
  vad : Int
  downsamplingFilterStates : Vector Int 4
  state48To8 : ρ
  noiseMeans : Table
  speechMeans : Table
  noiseStds : Table
  speechStds : Table
  frameCounter : Int
  overHang : Int16
  numOfSpeech : Int16
  indexVector : List Int16
  lowValueVector : List Int16
  meanValue : Vector Int16 6
  upperState : Vector Int16 5
  lowerState : Vector Int16 5
  hpFilterState : Vector Int16 4
  mode : Mode
  initFlag : Int

variable {ρ : Type}

def modeOf : Int → Option Mode
  | 0 => some quality
  | 1 => some lowBitrate
  | 2 => some aggressive
  | 3 => some veryAggressive
  | _ => none

/--
`WebRtcVad_set_mode_core`
-/
def VadInst.setModeCore (self : VadInst ρ) (mode : Int) : Int × VadInst ρ :=
  match modeOf mode with
  | some mode => (0, { self with mode })
  | none => (-1, self)

/--
`WebRtcVad_InitCore`
-/
def VadInst.initCore (resetResample48khzTo8khz : ρ) (self : VadInst ρ) : Int × VadInst ρ :=
  let self := {
    self with
    vad := 1
    frameCounter := 0
    overHang := 0
    numOfSpeech := 0
    downsamplingFilterStates := Vector.replicate 4 0
    state48To8 := resetResample48khzTo8khz
    noiseMeans := kNoiseDataMeans
    speechMeans := kSpeechDataMeans
    noiseStds := kNoiseDataStds
    speechStds := kSpeechDataStds
    lowValueVector := List.replicate (16 * kNumChannels) 10000
    indexVector := List.replicate (16 * kNumChannels) 0
    upperState := Vector.replicate 5 0
    lowerState := Vector.replicate 5 0
    hpFilterState := Vector.replicate 4 0
    meanValue := Vector.replicate 6 1600 }
  match self.setModeCore kDefaultMode with
  | (0, self) => (0, { self with initFlag := kInitCheck })
  | (_, self) => (-1, self)

end WebRtc
