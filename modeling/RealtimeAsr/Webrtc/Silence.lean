import RealtimeAsr.Webrtc.Smoothing

/-!
This module shows that the detection does not depend on the hysteresis, and that digital silence in front
of everything else leaves no trace in the VAD.
-/

namespace WebRtc

variable {ρ : Type}

namespace VadInst

/--
Another state of the hysteresis, and another last decision.
-/
def withControl (self : VadInst ρ) (vad : Int) (overHang numOfSpeech : Int16) : VadInst ρ :=
  { self with vad, overHang, numOfSpeech }

section Oblivious

variable (c : Overflow) (r : Resampler ρ) (self : VadInst ρ) (vad : Int)
  (overHang numOfSpeech : Int16)

theorem findMinimum_withControl (featureValue : Int16) (channel : Fin 6)
    : (self.withControl vad overHang numOfSpeech).findMinimum featureValue channel
        =
      ((self.findMinimum featureValue channel).1,
        (self.findMinimum featureValue channel).2.withControl vad overHang numOfSpeech) :=
  rfl

theorem updateGaussian_withControl (vadflag : Bool) (feature : Int16) (t : Tested) (channel : Fin 6)
    (featureMinimum tmp1S16 maxspe : Int16) (k : Fin 2)
    : (self.withControl vad overHang numOfSpeech).updateGaussian c vadflag feature t channel
        featureMinimum tmp1S16 maxspe k
        =
      (self.updateGaussian c vadflag feature t channel featureMinimum tmp1S16 maxspe k).withControl
        vad overHang numOfSpeech := by
  unfold updateGaussian
  cases vadflag with
  | false => rfl
  | true => rfl

theorem separate_withControl (channel : Fin 6)
    : (self.withControl vad overHang numOfSpeech).separate channel
        =
      ((self.separate channel).1.withControl vad overHang numOfSpeech, (self.separate channel).2) := by
  unfold separate
  dsimp only [withControl]
  split
  . rfl
  . rfl

theorem updateChannel_withControl (vadflag : Bool) (feature : Int16) (t : Tested) (channel : Fin 6)
    (maxspe : Int16)
    : (self.withControl vad overHang numOfSpeech).updateChannel c vadflag feature t channel maxspe
        =
      (self.updateChannel c vadflag feature t channel maxspe).withControl
        vad overHang numOfSpeech := by
  unfold updateChannel
  rw [findMinimum_withControl]
  generalize self.findMinimum feature channel = found
  obtain ⟨featureMinimum, self₁⟩ := found
  dsimp only
  rw [updateGaussian_withControl, updateGaussian_withControl, separate_withControl]
  rfl

theorem updateChannels_withControl (vadflag : Bool) (features : Vector Int16 6)
    (tests : Vector Tested 6) (channels : List (Fin 6)) (maxspe : Int16)
    : updateChannels c vadflag features tests channels maxspe
        (self.withControl vad overHang numOfSpeech)
        =
      (updateChannels c vadflag features tests channels maxspe self).withControl
        vad overHang numOfSpeech := by
  induction channels generalizing self maxspe with
  | nil => rfl
  | cons channel channels ih =>
    unfold updateChannels
    rw [updateChannel_withControl]
    exact ih _ _

theorem update_withControl (vadflag : Bool) (features : Vector Int16 6) (tests : Vector Tested 6)
    : (self.withControl vad overHang numOfSpeech).update c vadflag features tests
        =
      (self.update c vadflag features tests).withControl vad overHang numOfSpeech := by
  unfold update
  rw [updateChannels_withControl]
  generalize updateChannels c vadflag features tests _ _ self = self₁
  rfl

theorem likelihoodTest_withControl (features : Vector Int16 6) (totalPower : Int16)
    (frameLength : Nat)
    : (self.withControl vad overHang numOfSpeech).likelihoodTest c features totalPower frameLength
        =
      ((self.likelihoodTest c features totalPower frameLength).1,
        (self.likelihoodTest c features totalPower frameLength).2.withControl
          vad overHang numOfSpeech) := by
  have htests (channel : Fin 6)
      : (self.withControl vad overHang numOfSpeech).testChannel c features[channel] channel
          = self.testChannel c features[channel] channel := rfl
  unfold likelihoodTest
  simp only [htests, update_withControl]
  split
  . rfl
  . rfl

theorem narrow_withControl (fs : Int) (audioFrame : List Int16)
    : (self.withControl vad overHang numOfSpeech).narrow r fs audioFrame
        =
      ((self.narrow r fs audioFrame).1,
        (self.narrow r fs audioFrame).2.withControl vad overHang numOfSpeech) := by
  unfold narrow
  dsimp only
  split
  . rfl
  . split
    . rfl
    . split
      . rfl
      . rfl

theorem calculateFeatures_withControl (dataIn : List Int16)
    : (self.withControl vad overHang numOfSpeech).calculateFeatures c dataIn
        =
      ((self.calculateFeatures c dataIn).1, (self.calculateFeatures c dataIn).2.1,
        (self.calculateFeatures c dataIn).2.2.withControl vad overHang numOfSpeech) := by
  unfold calculateFeatures VadInst.split
  generalize logOfEnergy c = logOfEnergy
  generalize highPassFilter c = highPassFilter
  generalize splitFilter c = splitFilter
  rfl

/--
The detection neither reads nor changes the state of the hysteresis.
-/
theorem detect_withControl (fs : Int) (audioFrame : List Int16)
    : (self.withControl vad overHang numOfSpeech).detect c r fs audioFrame
        =
      ((self.detect c r fs audioFrame).1,
        (self.detect c r fs audioFrame).2.withControl vad overHang numOfSpeech) := by
  unfold detect
  rw [narrow_withControl]
  generalize self.narrow r fs audioFrame = narrowed
  obtain ⟨speechNB, self₁⟩ := narrowed
  dsimp only
  rw [calculateFeatures_withControl]
  generalize self₁.calculateFeatures c speechNB = f
  obtain ⟨totalPower, featureVector, self₂⟩ := f
  apply likelihoodTest_withControl

theorem setMode_withVad (mode : Int)
    : ({ self with vad } : VadInst ρ).setMode mode
        =
      ((self.setMode mode).1, { (self.setMode mode).2 with vad }) := by
  unfold setMode setModeCore
  show (if self.initFlag ≠ kInitCheck then _ else _) = _
  split
  . rfl
  . cases modeOf mode with
    | some m => rfl
    | none => rfl

theorem conclude_withVad (mode : Mode) (i : Fin 3) (d : Bool × VadInst ρ)
    : conclude mode i (d.1, { d.2 with vad }) = conclude mode i d := by
  unfold conclude smooth
  dsimp only
  cases d.1 with
  | false =>
    simp only [Bool.not_false, if_true]
    split
    . rfl
    . rfl
  | true =>
    simp only [Bool.not_true, Bool.false_eq_true, if_false]
    split
    . rfl
    . rfl

/--
The last decision does not matter for the next one, and is gone after that.
-/
theorem process_withVad {fs : Int} {audioFrame : List Int16} (h : self.Accepts fs audioFrame)
    : ({ self with vad } : VadInst ρ).process c r.resample48khzTo8khz fs audioFrame
        =
      self.process c r.resample48khzTo8khz fs audioFrame := by
  have hcontrol := self.detect_control c r fs audioFrame
  have hdetect := detect_withControl c r self vad self.overHang self.numOfSpeech fs audioFrame
  have hindex : (self.withControl vad self.overHang self.numOfSpeech).frameIndex r fs audioFrame
      = self.frameIndex r fs audioFrame := by
    unfold frameIndex
    rw [narrow_withControl]
  have hsame : (self.detect c r fs audioFrame).2.withControl vad self.overHang self.numOfSpeech
      = { (self.detect c r fs audioFrame).2 with vad } := by
    rw [← hcontrol.overHang, ← hcontrol.numOfSpeech]
    rfl
  rw [process_eq c r self h]
  rw [process_eq c r { self with vad } h]
  show conclude self.mode
    ((self.withControl vad self.overHang self.numOfSpeech).frameIndex r fs audioFrame)
    ((self.withControl vad self.overHang self.numOfSpeech).detect c r fs audioFrame) = _
  rw [hindex, hdetect, hsame, conclude_withVad]

theorem decisions_withVad (calls : List Call)
    : ({ self with vad } : VadInst ρ).decisions c r calls = self.decisions c r calls := by
  induction calls generalizing self vad with
  | nil => rfl
  | cons e calls ih =>
    cases e with
    | init => rfl
    | setMode mode =>
      show decisions c r (({ self with vad } : VadInst ρ).setMode mode).2 calls = _
      rw [setMode_withVad]
      exact ih (self.setMode mode).2 vad
    | process fs audioFrame =>
      unfold decisions
      dsimp only [call]
      by_cases haccepts : self.Accepts fs audioFrame
      . rw [process_withVad c r self vad haccepts]
      . rw [process_of_not_accepts c r self haccepts,
          process_of_not_accepts c r { self with vad } haccepts]
        exact ih self vad

end Oblivious

end VadInst

section Zero

theorem downsampling_zero
    : ∀ n, downsampling (List.replicate n 0) (0, 0) = (List.replicate (n / 2) 0, 0, 0)
  | 0 => rfl
  | 1 => rfl
  | n + 2 => by
    have ih := downsampling_zero n
    have hstate (k : Int) : (0 : Int16).toInt
        - (k * (Int16.ofInt ((0 : Int) >>> (1 : Nat) + (k * (0 : Int16).toInt) >>> (14 : Nat))).toInt)
          >>> (12 : Nat) = 0 := by
      have hzero : (Int16.ofInt ((0 : Int) >>> (1 : Nat) + (0 : Int) >>> (14 : Nat))).toInt = 0 := by decide
      rw [Int16.toInt_zero, Int.mul_zero, hzero, Int.mul_zero]
      rfl
    have hout (k : Int)
        : Int16.ofInt ((0 : Int) >>> (1 : Nat) + (k * (0 : Int16).toInt) >>> (14 : Nat)) = 0 := by
      rw [Int16.toInt_zero, Int.mul_zero]
      rfl
    rw [List.replicate_succ, List.replicate_succ, downsampling]
    dsimp only
    rw [hstate, hstate, ih, hout, hout, Nat.add_div_right n (by decide), List.replicate_succ]
    rfl

variable (c : Overflow)

theorem int_zero : c.int 0 = 0 := c.exact 0 (by decide) (by decide)

theorem allPassLoop_zero (filterCoefficient : Int16) (n m : Nat)
    : allPassLoop c filterCoefficient n (List.replicate m 0) 0 = (List.replicate n 0, 0) := by
  induction n generalizing m with
  | zero => rfl
  | succ n ih =>
    have hhead : (List.replicate m (0 : Int16)).headD 0 = 0 := by
      cases m with
      | zero => rfl
      | succ m => rfl
    have hzero : (Int16.ofInt ((0 : Int) >>> (16 : Nat))).toInt = 0 := by decide
    unfold allPassLoop
    dsimp only
    rw [hhead, List.drop_replicate, Int16.toInt_zero, Int.mul_zero, Int.add_zero, int_zero c, hzero,
      Int.zero_mul, Int.mul_zero, Int.sub_zero, Int.zero_mul, int_zero c, ih]
    rfl

theorem allPassFilter_zero (filterCoefficient : Int16) (n m : Nat)
    : allPassFilter c (List.replicate m 0) n filterCoefficient 0 = (List.replicate n 0, 0) := by
  unfold allPassFilter
  rw [Int16.toInt_zero, Int.zero_mul, allPassLoop_zero]
  rfl

theorem splitFilter_zero (n : Nat)
    : splitFilter c (List.replicate n 0) 0 0
        =
      { hp := List.replicate (n >>> (1 : Nat)) 0, lp := List.replicate (n >>> (1 : Nat)) 0
        upperState := 0, lowerState := 0 } := by
  unfold splitFilter
  dsimp only
  rw [List.length_replicate, List.drop_replicate, allPassFilter_zero, allPassFilter_zero]
  dsimp only
  rw [List.zipWith_replicate, List.zipWith_replicate, Nat.min_self]
  rfl

theorem energy_zero (n : Nat) : (Spl.energy c (List.replicate n 0)).1 = 0 := by
  unfold Spl.energy
  dsimp only
  generalize Spl.getScalingSquare (List.replicate n 0) _ = scaling
  induction n with
  | zero => rfl
  | succ n ih =>
    rw [List.replicate_succ, List.foldl_cons, Int16.toInt_zero, Int.mul_zero, Int.zero_shiftRight,
      Int.add_zero, int_zero c]
    exact ih

theorem logOfEnergy_zero (n : Nat) (offset totalEnergy : Int16)
    : logOfEnergy c (List.replicate n 0) offset totalEnergy = (totalEnergy, offset) := by
  have henergy := energy_zero c n
  unfold logOfEnergy
  generalize Spl.energy c (List.replicate n 0) = e at henergy ⊢
  obtain ⟨energy, totRshifts⟩ := e
  dsimp only at henergy ⊢
  rw [henergy]
  rfl

theorem highPassFilter_zero (n : Nat)
    : highPassFilter c (List.replicate n 0) (Vector.replicate 4 0)
        =
      (List.replicate n 0, Vector.replicate 4 0) := by
  induction n with
  | zero => rfl
  | succ n ih =>
    have hzero : Int16.ofInt ((0 : Int) >>> (14 : Nat)) = 0 := by decide
    have hstate : #v[(0 : Int16), 0, 0, 0] = Vector.replicate 4 0 := by decide
    rw [List.replicate_succ, highPassFilter]
    simp only [Vector.replicate_get, Int16.toInt_zero, Int.mul_zero, Int.add_zero, Int.sub_zero,
      int_zero c, hzero, hstate, ih]

end Zero

namespace VadInst

/--
Nothing was heard yet.
-/
structure Quiet (inst : VadInst ρ) : Prop where
  downsampling : inst.downsamplingFilterStates = Vector.replicate 4 0
  upper : inst.upperState = Vector.replicate 5 0
  lower : inst.lowerState = Vector.replicate 5 0
  hp : inst.hpFilterState = Vector.replicate 4 0
  overHang : inst.overHang = 0
  numOfSpeech : inst.numOfSpeech = 0

variable (c : Overflow) (r : Resampler ρ) {self : VadInst ρ}

theorem Quiet.split (h : self.Quiet) (frequencyBand : Fin 5) (n : Nat)
    : self.split c frequencyBand (List.replicate n (0 : Int16))
        =
      (List.replicate (n >>> (1 : Nat)) (0 : Int16), List.replicate (n >>> (1 : Nat)) (0 : Int16), self) := by
  have hget : (Vector.replicate 5 (0 : Int16))[frequencyBand] = 0 := by
    revert frequencyBand
    decide
  have hset : (Vector.replicate 5 (0 : Int16)).store frequencyBand 0 = Vector.replicate 5 0 := by
    revert frequencyBand
    decide
  have hsame : { self with
      upperState := Vector.replicate 5 (0 : Int16)
      lowerState := Vector.replicate 5 (0 : Int16) } = self := by
    have hupper := h.upper
    have hlower := h.lower
    cases self
    dsimp only at hupper hlower ⊢
    rw [hupper, hlower]
  unfold VadInst.split
  dsimp only
  rw [h.upper, h.lower, hget, splitFilter_zero]
  dsimp only
  rw [hset, hsame]

theorem Quiet.calculateFeatures (h : self.Quiet) (n : Nat)
    : (self.calculateFeatures c (List.replicate n (0 : Int16))).1 = 0
        ∧ (self.calculateFeatures c (List.replicate n (0 : Int16))).2.2 = self := by
  have hsame : { self with hpFilterState := Vector.replicate 4 (0 : Int16) } = self := by
    have hhp := h.hp
    cases self
    dsimp only at hhp ⊢
    rw [hhp]
  unfold VadInst.calculateFeatures
  simp only [h.split c, logOfEnergy_zero, h.hp, highPassFilter_zero]
  exact ⟨trivial, hsame⟩

theorem Quiet.narrow (h : self.Quiet) {fs : Int} (hfs : fs ≠ 48000) (n : Nat)
    : ∃ m, self.narrow r fs (List.replicate n (0 : Int16)) = (List.replicate m (0 : Int16), self) := by
  have hstore : ((Vector.replicate 4 (0 : Int)).store 0 0).store 1 0 = Vector.replicate 4 0 := by decide
  have hstore' : ((Vector.replicate 4 (0 : Int)).store 2 0).store 3 0 = Vector.replicate 4 0 := by decide
  have hsame : { self with downsamplingFilterStates := Vector.replicate 4 (0 : Int) } = self := by
    have hdownsampling := h.downsampling
    cases self
    dsimp only at hdownsampling ⊢
    rw [hdownsampling]
  unfold VadInst.narrow
  dsimp only
  rw [if_neg hfs, h.downsampling]
  simp only [Vector.replicate_get, downsampling_zero, hstore, hstore', hsame]
  split
  . exact ⟨_, rfl⟩
  . split
    . exact ⟨_, rfl⟩
    . exact ⟨_, rfl⟩

theorem Quiet.detect (h : self.Quiet) {fs : Int} (hfs : fs ≠ 48000) (n : Nat)
    : self.detect c r fs (List.replicate n (0 : Int16)) = (false, self) := by
  obtain ⟨m, hm⟩ := h.narrow r hfs n
  obtain ⟨hpower, hself⟩ := h.calculateFeatures c m
  unfold VadInst.detect
  rw [hm]
  dsimp only
  generalize self.calculateFeatures c (List.replicate m 0) = f at hpower hself ⊢
  obtain ⟨totalPower, featureVector, self₁⟩ := f
  dsimp only at hpower hself ⊢
  rw [hpower, hself]
  unfold likelihoodTest
  dsimp only
  rw [if_neg (by decide)]

theorem Quiet.process (h : self.Quiet) {fs : Int} (hfs : fs ≠ 48000) {n : Nat}
    (haccepts : self.Accepts fs (List.replicate n (0 : Int16)))
    : self.process c r.resample48khzTo8khz fs (List.replicate n (0 : Int16))
        =
      (0, { self with vad := 0 }) := by
  have hidle : ¬(0 : Int16) > 0 := by decide
  have hsame : self.withControl 0 0 0 = { self with vad := 0 } := by
    unfold withControl
    rw [h.overHang, h.numOfSpeech]
  rw [process_eq c r self haccepts, h.detect c r hfs, ← hsame]
  unfold conclude smooth
  simp only [Bool.not_false, if_true, h.overHang, hidle, if_false]
  rfl

theorem quiet_init (memory : VadInst ρ) : (memory.call c r .init).2.Quiet :=
  ⟨rfl, rfl, rfl, rfl, rfl, rfl⟩

theorem Quiet.setMode (h : self.Quiet) (mode : Int) : (self.setMode mode).2.Quiet := by
  unfold VadInst.setMode setModeCore
  split
  . exact h
  . split
    . exact ⟨h.downsampling, h.upper, h.lower, h.hp, h.overHang, h.numOfSpeech⟩
    . exact h

/--
Frames of digital silence, by their rates and lengths.
-/
def silence (frames : List (Int × Nat)) : List Call :=
  frames.map fun (fs, n) => .process fs (List.replicate n 0)

/--
Silence in front of everything else is no speech, and all that comes behind it is decided as if it had
not been there.
-/
theorem decisions_behind_silence (memory : VadInst ρ) (mode : Int) (frames : List (Int × Nat))
    (hframes : ∀ f ∈ frames, Supported f.1 f.2 ∧ f.1 ≠ 48000) (calls : List Call)
    : let self := ((memory.call c r .init).2.call c r (.setMode mode)).2
      self.decisions c r (silence frames ++ calls)
        =
      List.replicate frames.length 0 ++ self.decisions c r calls := by
  intro self
  have hinit : self.initFlag = kInitCheck := setMode_initFlag _ mode
  have hquiet : self.Quiet := (quiet_init c r memory).setMode mode
  generalize self = self at hinit hquiet
  induction frames generalizing self with
  | nil => rfl
  | cons f frames ih =>
    obtain ⟨fs, n⟩ := f
    obtain ⟨⟨hsupported, hfs⟩, hrest⟩ := List.forall_mem_cons.mp hframes
    have haccepts : self.Accepts fs (List.replicate n (0 : Int16)) := by
      refine ⟨hinit, ?_⟩
      rw [List.length_replicate, validRateAndFrameLength_iff]
      exact hsupported
    have hresult := hquiet.process c r hfs haccepts
    show decisions c r self (.process fs (List.replicate n 0) :: (silence frames ++ calls)) = _
    rw [decisions]
    dsimp only [call]
    rw [hresult]
    dsimp only
    rw [if_pos (by decide), decisions_withVad, ih hrest self hinit hquiet]
    rfl

theorem decisions_behind_silence_on_data
    : let frames := [((8000 : Int), 80), (16000, 320)]
      let calls := [Call.process 8000 (List.replicate 80 1000)]
      let self := ((zeros.call .wrapping .silent .init).2.call .wrapping .silent (.setMode 1)).2
      (∀ f ∈ frames, Supported f.1 f.2 ∧ f.1 ≠ 48000)
        ∧ self.decisions .wrapping .silent (silence frames ++ calls)
          = [0, 0] ++ self.decisions .wrapping .silent calls := by
  intro frames calls self
  have hframes : ∀ f ∈ frames, Supported f.1 f.2 ∧ f.1 ≠ 48000 := by
    simp [frames, Supported]
  exact ⟨hframes, decisions_behind_silence .wrapping .silent zeros 1 frames hframes calls⟩

end VadInst

end WebRtc
