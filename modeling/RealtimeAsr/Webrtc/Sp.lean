import RealtimeAsr.Webrtc.Inst

/-!
This module contains `vad/vad_sp.c`: the downsampling by two and the minimum statistics.
-/

namespace WebRtc

def kAllPassCoefsQ13 : Vector Int16 2 := #v[5243, 1392]

def kSmoothingDown : Int := 6553

def kSmoothingUp : Int := 32439

/--
`WebRtcVad_Downsampling`, with the two values of `filter_state`.
-/
def downsampling : List Int16 → Int × Int → List Int16 × Int × Int
  | x :: y :: signalIn, (tmp32_1, tmp32_2) =>
    let upper := (kAllPassCoefsQ13.get 0).toInt
    let lower := (kAllPassCoefsQ13.get 1).toInt
    let tmp16_1 : Int16 := .ofInt (tmp32_1 >>> (1 : Nat) + (upper * x.toInt) >>> (14 : Nat))
    let tmp16_2 : Int16 := .ofInt (tmp32_2 >>> (1 : Nat) + (lower * y.toInt) >>> (14 : Nat))
    let (signalOut, state) := downsampling signalIn
      (x.toInt - (upper * tmp16_1.toInt) >>> (12 : Nat), y.toInt - (lower * tmp16_2.toInt) >>> (12 : Nat))
    ((tmp16_1 + tmp16_2) :: signalOut, state)
  | _, state => ([], state)

/--
`for (j = i; j < 16; j++) xs[j] = xs[j + 1];` on a pointer into an array.
-/
def shiftDown (i : Nat) (xs : List Int16) : List Int16 :=
  (List.range' i (16 - i)).foldl (fun xs j => xs.set j (xs.getD (j + 1) 0)) xs

/--
`for (i = 15; i > position; i--) xs[i] = xs[i - 1];`
-/
def shiftUp (position : Nat) (xs : List Int16) : List Int16 :=
  (List.range' (position + 1) (15 - position)).reverse.foldl
    (fun xs i => xs.set i (xs.getD (i - 1) 0)) xs

/--
The arrays that `smallest_values` and `age` point into, from there on.
-/
structure Smallest where
  values : List Int16
  age : List Int16
  deriving Repr, DecidableEq

namespace Smallest

def growOlder (s : Smallest) (i : Nat) : Smallest :=
  let age := s.age.getD i 0
  if age ≠ 100 then
    { s with age := s.age.set i (age + 1) }
  else
    { values := (shiftDown i s.values).set 15 10000, age := (shiftDown i s.age).set 15 101 }

def removeOld (s : Smallest) : Smallest :=
  (List.range 16).foldl growOlder s

def position (s : Smallest) (featureValue : Int16) : Option Nat :=
  let below (i : Nat) : Bool := featureValue < s.values.getD i 0
  if below 7 then
    if below 3 then
      if below 1 then
        if below 0 then some 0 else some 1
      else if below 2 then
        some 2
      else
        some 3
    else if below 5 then
      if below 4 then some 4 else some 5
    else if below 6 then
      some 6
    else
      some 7
  else if below 15 then
    if below 11 then
      if below 9 then
        if below 8 then some 8 else some 9
      else if below 10 then
        some 10
      else
        some 11
    else if below 13 then
      if below 12 then some 12 else some 13
    else if below 14 then
      some 14
    else
      some 15
  else
    none

def insert (s : Smallest) (featureValue : Int16) : Smallest :=
  match s.position featureValue with
  | some position => {
      values := (shiftUp position s.values).set position featureValue
      age := (shiftUp position s.age).set position 1 }
  | none => s

def observe (s : Smallest) (featureValue : Int16) : Smallest :=
  s.removeOld.insert featureValue

end Smallest

variable {ρ : Type}

namespace VadInst

def smallest (self : VadInst ρ) (channel : Fin 6) : Smallest where
  values := self.lowValueVector.drop (channel.val <<< 4)
  age := self.indexVector.drop (channel.val <<< 4)

def findMinimum (self : VadInst ρ) (featureValue : Int16) (channel : Fin 6) : Int16 × VadInst ρ :=
  let offset := channel.val <<< 4
  let s := (self.smallest channel).observe featureValue
  let self : VadInst ρ := {
    self with
    lowValueVector := self.lowValueVector.take offset ++ s.values
    indexVector := self.indexVector.take offset ++ s.age }
  let currentMedian : Int16 :=
    if self.frameCounter > 2 then
      s.values.getD 2 0
    else if self.frameCounter > 0 then
      s.values.getD 0 0
    else
      1600
  let alpha : Int :=
    if self.frameCounter > 0 then
      if currentMedian < self.meanValue[channel] then kSmoothingDown else kSmoothingUp
    else
      0
  let tmp32 := (alpha + 1) * self.meanValue[channel].toInt
  let tmp32 := tmp32 + (32767 - alpha) * currentMedian.toInt
  let tmp32 := tmp32 + 16384
  let mean : Int16 := .ofInt (tmp32 >>> (15 : Nat))
  (mean, { self with meanValue := self.meanValue.store channel mean })

end VadInst

end WebRtc
