import RealtimeAsr.Lib.Machine
import RealtimeAsr.Lib.Word16
import RealtimeAsr.Webrtc.Vad

/-!
This module contains runs of calls of the VAD, takes `WebRtcVad_Process` apart into the detection and the
hysteresis, and shows which results it returns when.
-/

namespace WebRtc

/--
The resampler from 48 kHz to 8 kHz, which writes 80 values, and its state after a reset.
-/
structure Resampler (ρ : Type) where
  reset : ρ
  resample48khzTo8khz : List Int16 → ρ → List Int16 × ρ
  length_resample : ∀ speechFrame state, (resample48khzTo8khz speechFrame state).1.length = 80

def Resampler.silent : Resampler Unit where
  reset := ()
  resample48khzTo8khz _ state := (List.replicate 80 0, state)
  length_resample _ _ := List.length_replicate

inductive Call where
  | init
  | setMode (mode : Int)
  | process (fs : Int) (audioFrame : List Int16)

namespace VadInst

def zeros : VadInst Unit where
  vad := 0
  downsamplingFilterStates := Vector.replicate 4 0
  state48To8 := ()
  noiseMeans := Vector.replicate 12 0
  speechMeans := Vector.replicate 12 0
  noiseStds := Vector.replicate 12 0
  speechStds := Vector.replicate 12 0
  frameCounter := 0
  overHang := 0
  numOfSpeech := 0
  indexVector := List.replicate 96 0
  lowValueVector := List.replicate 96 0
  meanValue := Vector.replicate 6 0
  upperState := Vector.replicate 5 0
  lowerState := Vector.replicate 5 0
  hpFilterState := Vector.replicate 4 0
  mode := quality
  initFlag := 0

variable {ρ : Type} (c : Overflow) (r : Resampler ρ) (self : VadInst ρ)

def call : Call → Int × VadInst ρ
  | .init => self.initCore r.reset
  | .setMode mode => self.setMode mode
  | .process fs audioFrame => self.process c r.resample48khzTo8khz fs audioFrame

def machine (memory : VadInst ρ) : Machine (VadInst ρ) Call where
  init := memory.create
  step self e := (self.call c r e).2

def narrow (fs : Int) (audioFrame : List Int16) : List Int16 × VadInst ρ :=
  let states := self.downsamplingFilterStates
  if fs = 48000 then
    let (speechNb, state48To8) :=
      resampleParts r.resample48khzTo8khz audioFrame (audioFrame.length / 480) self.state48To8
    (speechNb, { self with state48To8 })
  else if fs = 32000 then
    let (speechWB, upper) := downsampling audioFrame (states.get 2, states.get 3)
    let (speechNB, lower) := downsampling speechWB (states.get 0, states.get 1)
    let states := (states.store 2 upper.1).store 3 upper.2
    (speechNB, { self with downsamplingFilterStates := (states.store 0 lower.1).store 1 lower.2 })
  else if fs = 16000 then
    let (speechNB, state) := downsampling audioFrame (states.get 0, states.get 1)
    (speechNB, { self with downsamplingFilterStates := (states.store 0 state.1).store 1 state.2 })
  else
    (audioFrame, self)

def detect (fs : Int) (audioFrame : List Int16) : Bool × VadInst ρ :=
  let (speechNB, self) := self.narrow r fs audioFrame
  let (totalPower, featureVector, self) := self.calculateFeatures c speechNB
  self.likelihoodTest c featureVector totalPower speechNB.length

def frameIndex (fs : Int) (audioFrame : List Int16) : Fin 3 :=
  lengthIndex (self.narrow r fs audioFrame).1.length

/--
The end of `WebRtcVad_Process`, for a frame that went through the detection.
-/
def conclude (mode : Mode) (i : Fin 3) (d : Bool × VadInst ρ) : Int × VadInst ρ :=
  let s := d.2.smooth d.1 mode.overHangMax1[i] mode.overHangMax2[i]
  (if s.1.toInt > 0 then 1 else s.1.toInt, { s.2 with vad := s.1.toInt })

def Accepts (fs : Int) (audioFrame : List Int16) : Prop :=
  self.initFlag = kInitCheck ∧ validRateAndFrameLength fs audioFrame.length = 0

instance (fs : Int) (audioFrame : List Int16) : Decidable (self.Accepts fs audioFrame) := by
  unfold Accepts
  infer_instance

structure SameControl (s t : VadInst ρ) : Prop where
  overHang : t.overHang = s.overHang
  numOfSpeech : t.numOfSpeech = s.numOfSpeech
  mode : t.mode = s.mode
  initFlag : t.initFlag = s.initFlag

theorem SameControl.refl (s : VadInst ρ) : SameControl s s := ⟨rfl, rfl, rfl, rfl⟩

theorem SameControl.trans {s t u : VadInst ρ} (h : SameControl s t) (h' : SameControl t u)
    : SameControl s u where
  overHang := h'.overHang.trans h.overHang
  numOfSpeech := h'.numOfSpeech.trans h.numOfSpeech
  mode := h'.mode.trans h.mode
  initFlag := h'.initFlag.trans h.initFlag

theorem findMinimum_control (featureValue : Int16) (channel : Fin 6)
    : SameControl self (self.findMinimum featureValue channel).2 :=
  ⟨rfl, rfl, rfl, rfl⟩

theorem updateGaussian_control (vadflag : Bool) (feature : Int16) (t : Tested) (channel : Fin 6)
    (featureMinimum tmp1S16 maxspe : Int16) (k : Fin 2)
    : SameControl self
        (self.updateGaussian c vadflag feature t channel featureMinimum tmp1S16 maxspe k) := by
  unfold updateGaussian
  cases vadflag with
  | false => exact ⟨rfl, rfl, rfl, rfl⟩
  | true => exact ⟨rfl, rfl, rfl, rfl⟩

theorem separate_control (channel : Fin 6) : SameControl self (self.separate channel).1 := by
  unfold separate
  dsimp only
  split
  . exact ⟨rfl, rfl, rfl, rfl⟩
  . exact SameControl.refl self

theorem updateChannel_control (vadflag : Bool) (feature : Int16) (t : Tested) (channel : Fin 6)
    (maxspe : Int16)
    : SameControl self (self.updateChannel c vadflag feature t channel maxspe) := by
  unfold updateChannel
  dsimp only
  generalize htmp : Int16.ofInt ((weightedAverage _ channel 0 kNoiseDataWeights).1 >>> (6 : Nat)) = tmp1S16
  have h₁ := self.findMinimum_control feature channel
  have h₂ := updateGaussian_control c (self.findMinimum feature channel).2 vadflag feature t channel
    (self.findMinimum feature channel).1 tmp1S16 maxspe 0
  generalize updateGaussian c _ _ _ _ _ _ _ _ 0 = self₂ at h₂ ⊢
  have h₃ := updateGaussian_control c self₂ vadflag feature t channel
    (self.findMinimum feature channel).1 tmp1S16 maxspe 1
  generalize updateGaussian c _ _ _ _ _ _ _ _ 1 = self₃ at h₃ ⊢
  have h := ((h₁.trans h₂).trans h₃).trans (self₃.separate_control channel)
  exact ⟨h.overHang, h.numOfSpeech, h.mode, h.initFlag⟩

theorem updateChannels_control (vadflag : Bool) (features : Vector Int16 6)
    (tests : Vector Tested 6) (channels : List (Fin 6)) (maxspe : Int16)
    : SameControl self (updateChannels c vadflag features tests channels maxspe self) := by
  induction channels generalizing maxspe self with
  | nil => exact SameControl.refl self
  | cons channel channels ih =>
    exact (updateChannel_control c self vadflag _ _ channel maxspe).trans (ih _ _)

theorem update_control (vadflag : Bool) (features : Vector Int16 6) (tests : Vector Tested 6)
    : SameControl self (self.update c vadflag features tests) := by
  have h := updateChannels_control c self vadflag features tests (List.finRange 6) 12800
  unfold update
  generalize updateChannels c vadflag features tests _ _ self = self₁ at h ⊢
  exact ⟨h.overHang, h.numOfSpeech, h.mode, h.initFlag⟩

theorem likelihoodTest_control (features : Vector Int16 6) (totalPower : Int16) (frameLength : Nat)
    : SameControl self (self.likelihoodTest c features totalPower frameLength).2 := by
  unfold likelihoodTest
  dsimp only
  split
  . apply update_control
  . exact SameControl.refl self

theorem narrow_eq (fs : Int) (audioFrame : List Int16)
    : ∃ downsamplingFilterStates state48To8,
        (self.narrow r fs audioFrame).2 = { self with downsamplingFilterStates, state48To8 } := by
  unfold narrow
  dsimp only
  split
  . exact ⟨_, _, rfl⟩
  . split
    . exact ⟨_, _, rfl⟩
    . split
      . exact ⟨_, _, rfl⟩
      . exact ⟨_, _, rfl⟩

theorem conclude_eq (mode : Mode) (i : Fin 3) (d : Bool × VadInst ρ)
    : ∃ vad overHang numOfSpeech, (conclude mode i d).2 = { d.2 with vad, overHang, numOfSpeech } := by
  unfold conclude smooth
  dsimp only
  split
  . split
    . exact ⟨_, _, _, rfl⟩
    . exact ⟨_, _, _, rfl⟩
  . split
    . exact ⟨_, _, _, rfl⟩
    . exact ⟨_, _, _, rfl⟩

theorem setMode_eq (mode : Int) : ∃ mode', (self.setMode mode).2 = { self with mode := mode' } := by
  unfold setMode setModeCore
  split
  . exact ⟨_, rfl⟩
  . split
    . exact ⟨_, rfl⟩
    . exact ⟨_, rfl⟩

theorem calculateFeatures_control (dataIn : List Int16)
    : SameControl self (self.calculateFeatures c dataIn).2.2 :=
  ⟨rfl, rfl, rfl, rfl⟩

theorem narrow_control (fs : Int) (audioFrame : List Int16)
    : SameControl self (self.narrow r fs audioFrame).2 := by
  obtain ⟨_, _, heq⟩ := self.narrow_eq r fs audioFrame
  rw [heq]
  exact ⟨rfl, rfl, rfl, rfl⟩

theorem detect_control (fs : Int) (audioFrame : List Int16)
    : SameControl self (self.detect c r fs audioFrame).2 := by
  unfold detect
  exact ((self.narrow_control r fs audioFrame).trans (calculateFeatures_control c _ _)).trans
    (likelihoodTest_control c _ _ _ _)

end VadInst

theorem validRateAndFrameLength_eq_zero {rate : Int} {frameLength : Nat}
    (h : validRateAndFrameLength rate frameLength = 0)
    : rate ∈ kValidRates
        ∧ ∃ ms ∈ [(10 : Int), 20, 30], frameLength = (rate / 1000 * ms).toNat := by
  unfold validRateAndFrameLength at h
  cases hfind : kValidRates.find? (· == rate) with
  | none =>
    rw [hfind] at h
    cases h
  | some validRate =>
    have hsome := List.find?_some hfind
    have heq : validRate = rate := by simpa using hsome
    have hmem := List.mem_of_find?_eq_some hfind
    rw [hfind] at h
    rw [heq] at hmem h
    refine ⟨hmem, ?_⟩
    by_contra hnot
    have hfalse : ([10, 20, 30].any fun validLengthMs =>
        frameLength == (rate / 1000 * validLengthMs).toNat) = false := by
      rw [List.any_eq_false]
      intro ms hms hlen
      exact hnot ⟨ms, hms, eq_of_beq hlen⟩
    dsimp only at h
    rw [hfalse] at h
    cases h

def Supported (rate : Int) (frameLength : Nat) : Prop :=
  rate ∈ [8000, 16000, 32000, 48000] ∧ ∃ ms ∈ [(10 : Int), 20, 30], frameLength * 1000 = rate * ms

theorem validRateAndFrameLength_iff {rate : Int} {frameLength : Nat}
    : validRateAndFrameLength rate frameLength = 0 ↔ Supported rate frameLength := by
  constructor
  . intro h
    obtain ⟨hrate, ms, hms, hlen⟩ := validRateAndFrameLength_eq_zero h
    refine ⟨hrate, ms, hms, ?_⟩
    simp only [kValidRates, List.mem_cons, List.not_mem_nil, or_false] at hrate hms
    obtain rfl | rfl | rfl | rfl := hrate <;> omega
  . rintro ⟨hrate, ms, hms, hlen⟩
    have hframe : frameLength = (rate / 1000 * ms).toNat := by
      simp only [List.mem_cons, List.not_mem_nil, or_false] at hrate hms
      obtain rfl | rfl | rfl | rfl := hrate <;> omega
    rw [hframe]
    clear hlen hframe
    revert ms rate
    decide

namespace VadInst

variable {ρ : Type} (c : Overflow) (r : Resampler ρ) (self : VadInst ρ)

theorem calcVad8khz_eq (speechFrame : List Int16)
    : self.calcVad8khz c speechFrame
        =
      let f := self.calculateFeatures c speechFrame
      let d := f.2.2.likelihoodTest c f.2.1 f.1 speechFrame.length
      let s := d.2.smooth d.1 self.mode.overHangMax1[lengthIndex speechFrame.length]
        self.mode.overHangMax2[lengthIndex speechFrame.length]
      (s.1.toInt, { s.2 with vad := s.1.toInt }) := by
  have hmode := (self.calculateFeatures_control c speechFrame).mode
  unfold calcVad8khz gmmProbability
  generalize self.calculateFeatures c speechFrame = f at hmode ⊢
  obtain ⟨totalPower, featureVector, self₁⟩ := f
  dsimp only at hmode ⊢
  rw [hmode]

/--
An accepted frame goes through the detection and then through the hysteresis.
-/
theorem process_eq {fs : Int} {audioFrame : List Int16} (h : self.Accepts fs audioFrame)
    : self.process c r.resample48khzTo8khz fs audioFrame
        =
      conclude self.mode (self.frameIndex r fs audioFrame) (self.detect c r fs audioFrame) := by
  obtain ⟨hinit, hvalid⟩ := h
  have hrate := (validRateAndFrameLength_eq_zero hvalid).1
  have hmode := (self.narrow_control r fs audioFrame).mode
  have hcalc : self.process c r.resample48khzTo8khz fs audioFrame
      = let p := (self.narrow r fs audioFrame).2.calcVad8khz c (self.narrow r fs audioFrame).1
        (if p.1 > 0 then 1 else p.1, p.2) := by
    unfold process narrow
    rw [if_neg (not_not_intro hinit), if_neg (not_not_intro hvalid)]
    simp only [kValidRates, List.mem_cons, List.not_mem_nil, or_false] at hrate
    obtain rfl | rfl | rfl | rfl := hrate
    . simp only [Int.reduceEq, if_false, if_true]
    . simp only [Int.reduceEq, if_false, if_true]
      rfl
    . simp only [Int.reduceEq, if_false, if_true]
      rfl
    . simp only [Int.reduceEq, if_false, if_true]
      rfl
  unfold conclude detect frameIndex
  rw [hcalc, calcVad8khz_eq, hmode]

theorem process_of_not_accepts {fs : Int} {audioFrame : List Int16} (h : ¬self.Accepts fs audioFrame)
    : self.process c r.resample48khzTo8khz fs audioFrame = (-1, self) := by
  unfold process
  by_cases hinit : self.initFlag = kInitCheck
  . rw [if_neg (not_not_intro hinit), if_pos (fun hvalid => h ⟨hinit, hvalid⟩)]
  . rw [if_pos hinit]

end VadInst

end WebRtc
