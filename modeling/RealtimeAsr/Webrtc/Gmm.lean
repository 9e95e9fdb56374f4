import RealtimeAsr.Webrtc.Spl

/-!
This module contains `vad/vad_gmm.c`.
-/

namespace WebRtc

def kCompVar : Int := 22005

def kLog2Exp : Int := 5909

/--
`WebRtcVad_GaussianProbability`: the probability, and `delta`.
-/
def gaussianProbability (c : Overflow) (input mean std : Int16) : Int × Int16 :=
  let tmp32 := 131072 + std.toInt >>> (1 : Nat)
  let invStd : Int16 := .ofInt (Spl.divW32W16 tmp32 std)
  let tmp16 : Int16 := .ofInt (invStd.toInt >>> (2 : Nat))
  let invStd2 : Int16 := .ofInt ((tmp16.toInt * tmp16.toInt : Int) >>> (2 : Nat))
  let tmp16 : Int16 := .ofInt (input.toInt * 8)
  let tmp16 := tmp16 - mean
  let delta : Int16 := .ofInt ((invStd2.toInt * tmp16.toInt : Int) >>> (10 : Nat))
  let tmp32 := (delta.toInt * tmp16.toInt : Int) >>> (9 : Nat)
  let expValue : Int16 :=
    if tmp32 < kCompVar then
      let tmp16 : Int16 := .ofInt (c.int (kLog2Exp * tmp32) >>> (12 : Nat))
      let tmp16 := -tmp16
      let expValue := 0x0400 ||| (tmp16 &&& 0x03FF)
      let tmp16 := tmp16 ^^^ 0xFFFF
      let tmp16 : Int16 := .ofInt (tmp16.toInt >>> (10 : Nat))
      let tmp16 := tmp16 + 1
      .ofInt (c.shiftRight expValue.toInt tmp16.toInt)
    else
      0
  (invStd.toInt * expValue.toInt, delta)

end WebRtc
