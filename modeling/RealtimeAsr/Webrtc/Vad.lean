import RealtimeAsr.Webrtc.Core

/-!
This module contains the interface of the VAD, `vad/webrtc_vad.c`, for handles and frames that are there.
-/

namespace WebRtc

def kValidRates : List Int := [8000, 16000, 32000, 48000]

/--
`WebRtcVad_ValidRateAndFrameLength`
-/
def validRateAndFrameLength (rate : Int) (frameLength : Nat) : Int :=
  match kValidRates.find? (· == rate) with
  | some validRate =>
    if [10, 20, 30].any fun validLengthMs => frameLength == (validRate / 1000 * validLengthMs).toNat then
      0
    else
      -1
  | none => -1

variable {ρ : Type}

namespace VadInst

/--
`WebRtcVad_Create` leaves everything but the flag as `malloc` found it.
-/
def create (memory : VadInst ρ) : VadInst ρ :=
  { memory with initFlag := 0 }

/--
`WebRtcVad_set_mode`
-/
def setMode (self : VadInst ρ) (mode : Int) : Int × VadInst ρ :=
  if self.initFlag ≠ kInitCheck then (-1, self) else self.setModeCore mode

/--
`WebRtcVad_Process`
-/
def process (c : Overflow) (resample48khzTo8khz : List Int16 → ρ → List Int16 × ρ)
    (self : VadInst ρ) (fs : Int) (audioFrame : List Int16) : Int × VadInst ρ :=
  if self.initFlag ≠ kInitCheck then
    (-1, self)
  else if validRateAndFrameLength fs audioFrame.length ≠ 0 then
    (-1, self)
  else
    let (vad, self) :=
      if fs = 48000 then
        self.calcVad48khz c resample48khzTo8khz audioFrame
      else if fs = 32000 then
        self.calcVad32khz c audioFrame
      else if fs = 16000 then
        self.calcVad16khz c audioFrame
      else if fs = 8000 then
        self.calcVad8khz c audioFrame
      else
        (-1, self)
    (if vad > 0 then 1 else vad, self)

end VadInst

end WebRtc
