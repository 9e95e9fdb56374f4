import RealtimeAsr.Webrtc.Inst

/-!
This module contains `vad/vad_filterbank.c`: the energies of a frame in six frequency bands.
-/

namespace WebRtc

def kLogConst : Int := 24660

def kLogEnergyIntPart : Int16 := 14336

def kHpZeroCoefs : Vector Int16 3 := #v[6631, -13262, 6631]

def kHpPoleCoefs : Vector Int16 3 := #v[16384, -7756, 5620]

def kAllPassCoefsQ15 : Vector Int16 2 := #v[20972, 5571]

def kOffsetVector : Vector Int16 6 := #v[368, 368, 272, 176, 176, 176]

variable (c : Overflow)

def highPassFilter : List Int16 → Vector Int16 4 → List Int16 × Vector Int16 4
  | [], filterState => ([], filterState)
  | x :: dataIn, filterState =>
    let tmp32 := (kHpZeroCoefs.get 0).toInt * x.toInt
    let tmp32 := c.int (tmp32 + (kHpZeroCoefs.get 1).toInt * (filterState.get 0).toInt)
    let tmp32 := c.int (tmp32 + (kHpZeroCoefs.get 2).toInt * (filterState.get 1).toInt)
    let tmp32 := c.int (tmp32 - (kHpPoleCoefs.get 1).toInt * (filterState.get 2).toInt)
    let tmp32 := c.int (tmp32 - (kHpPoleCoefs.get 2).toInt * (filterState.get 3).toInt)
    let y : Int16 := .ofInt (tmp32 >>> (14 : Nat))
    let (dataOut, state) := highPassFilter dataIn #v[x, filterState.get 0, y, filterState.get 2]
    (y :: dataOut, state)

/--
The loop of `AllPassFilter`, which reads every second value of `data_in`.
-/
def allPassLoop (filterCoefficient : Int16) : Nat → List Int16 → Int → List Int16 × Int
  | 0, _, state32 => ([], state32)
  | n + 1, dataIn, state32 =>
    let x := dataIn.headD 0
    let tmp32 := c.int (state32 + filterCoefficient.toInt * x.toInt)
    let tmp16 : Int16 := .ofInt (tmp32 >>> (16 : Nat))
    let state32 := x.toInt * 16384 - filterCoefficient.toInt * tmp16.toInt
    let state32 := c.int (state32 * 2)
    let (dataOut, state32) := allPassLoop filterCoefficient n (dataIn.drop 2) state32
    (tmp16 :: dataOut, state32)

def allPassFilter (dataIn : List Int16) (dataLength : Nat) (filterCoefficient filterState : Int16)
    : List Int16 × Int16 :=
  let (dataOut, state32) :=
    allPassLoop c filterCoefficient dataLength dataIn (filterState.toInt * 65536)
  (dataOut, .ofInt (state32 >>> (16 : Nat)))

/--
What `SplitFilter` leaves: the upper and the lower half of the spectrum, and the states of the two
filters.
-/
structure Split where
  hp : List Int16
  lp : List Int16
  upperState : Int16
  lowerState : Int16

def splitFilter (dataIn : List Int16) (upperState lowerState : Int16) : Split :=
  let halfLength := dataIn.length >>> (1 : Nat)
  let (hp, upperState) := allPassFilter c dataIn halfLength (kAllPassCoefsQ15.get 0) upperState
  let (lp, lowerState) := allPassFilter c (dataIn.drop 1) halfLength (kAllPassCoefsQ15.get 1) lowerState
  { hp := List.zipWith (· - ·) hp lp, lp := List.zipWith (· + ·) lp hp, upperState, lowerState }

/--
`LogOfEnergy`: the total energy, and the energy in Q4.
-/
def logOfEnergy (dataIn : List Int16) (offset totalEnergy : Int16) : Int16 × Int16 :=
  let (energy, totRshifts) := Spl.energy c dataIn
  let energy := uint32 energy
  if energy ≠ 0 then
    let normalizingRshifts : Int := 17 - Spl.normU32 energy
    let totRshifts : Int := totRshifts + normalizingRshifts
    let energy :=
      if normalizingRshifts < 0 then
        energy <<< (-normalizingRshifts).toNat % 4294967296
      else
        energy >>> normalizingRshifts.toNat
    let log2Energy : Int16 := kLogEnergyIntPart + .ofInt ((energy &&& 0x3FFF) >>> (4 : Nat) : Nat)
    let logEnergy : Int16 :=
      .ofInt ((kLogConst * log2Energy.toInt) >>> (19 : Nat) + (totRshifts * kLogConst) >>> (9 : Nat))
    let logEnergy := if logEnergy < 0 then 0 else logEnergy
    let logEnergy := logEnergy + offset
    if totalEnergy.toInt ≤ kMinEnergy then
      if totRshifts ≥ 0 then
        (totalEnergy + .ofInt (kMinEnergy + 1), logEnergy)
      else
        (totalEnergy + .ofInt (energy >>> (-totRshifts).toNat : Nat), logEnergy)
    else
      (totalEnergy, logEnergy)
  else
    (totalEnergy, offset)

variable {ρ : Type}

def VadInst.split (self : VadInst ρ) (frequencyBand : Fin 5) (inPtr : List Int16)
    : List Int16 × List Int16 × VadInst ρ :=
  let s := splitFilter c inPtr self.upperState[frequencyBand] self.lowerState[frequencyBand]
  let self := {
    self with
    upperState := self.upperState.store frequencyBand s.upperState
    lowerState := self.lowerState.store frequencyBand s.lowerState }
  (s.hp, s.lp, self)

/--
`WebRtcVad_CalculateFeatures`: the total energy, and the features.
-/
def VadInst.calculateFeatures (self : VadInst ρ) (dataIn : List Int16)
    : Int16 × Vector Int16 6 × VadInst ρ :=
  -- Split at 2000 Hz, and the upper band at 3000 Hz.
  let (hp120, lp120, self) := self.split c 0 dataIn
  let (hp60, lp60, self) := self.split c 1 hp120
  let (totalEnergy, feature5) := logOfEnergy c hp60 (kOffsetVector.get 5) 0
  let (totalEnergy, feature4) := logOfEnergy c lp60 (kOffsetVector.get 4) totalEnergy
  -- The lower band at 1000 Hz, at 500 Hz and at 250 Hz.
  let (hp60, lp60, self) := self.split c 2 lp120
  let (totalEnergy, feature3) := logOfEnergy c hp60 (kOffsetVector.get 3) totalEnergy
  let (hp120, lp120, self) := self.split c 3 lp60
  let (totalEnergy, feature2) := logOfEnergy c hp120 (kOffsetVector.get 2) totalEnergy
  let (hp60, lp60, self) := self.split c 4 lp120
  let (totalEnergy, feature1) := logOfEnergy c hp60 (kOffsetVector.get 1) totalEnergy
  -- Without 0 Hz to 80 Hz.
  let (hp120, hpFilterState) := highPassFilter c lp60 self.hpFilterState
  let (totalEnergy, feature0) := logOfEnergy c hp120 (kOffsetVector.get 0) totalEnergy
  (totalEnergy, #v[feature0, feature1, feature2, feature3, feature4, feature5],
    { self with hpFilterState })

end WebRtc
