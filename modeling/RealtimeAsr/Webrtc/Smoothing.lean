import RealtimeAsr.Lib.Hangover
import RealtimeAsr.Webrtc.Calls

/-!
This module shows that the decisions of the VAD are the detection behind a hangover, over any sequence of
calls, and which results the calls return.
-/

namespace WebRtc

def Mode.Known (m : Mode) : Prop :=
  m ∈ [quality, lowBitrate, aggressive, veryAggressive]

theorem Mode.Known.overHang {m : Mode} (h : m.Known) (i : Fin 3)
    : (0 ≤ m.overHangMax1[i].toInt ∧ m.overHangMax1[i].toInt ≤ 14)
        ∧ 0 ≤ m.overHangMax2[i].toInt ∧ m.overHangMax2[i].toInt ≤ 14 := by
  simp only [Mode.Known, List.mem_cons, List.not_mem_nil, or_false] at h
  obtain rfl | rfl | rfl | rfl := h
  . revert i
    decide
  . revert i
    decide
  . revert i
    decide
  . revert i
    decide

namespace VadInst

variable {ρ : Type} (c : Overflow) (r : Resampler ρ) (self : VadInst ρ)

structure Tracks (inst : VadInst ρ) (s : Hangover.State) : Prop where
  left : inst.overHang.toInt = s.left
  leftLe : s.left ≤ 14
  streak : inst.numOfSpeech.toInt = s.streak
  streakLe : s.streak ≤ 6
  mode : inst.mode.Known

def item (fs : Int) (audioFrame : List Int16) : Hangover.Item where
  active := (self.detect c r fs audioFrame).1
  short := self.mode.overHangMax1[self.frameIndex r fs audioFrame].toInt.toNat
  long := self.mode.overHangMax2[self.frameIndex r fs audioFrame].toInt.toNat

variable {self}

theorem Tracks.control {s : Hangover.State} {self₁ : VadInst ρ} (h : self.Tracks s)
    (hsame : SameControl self self₁)
    : self₁.Tracks s where
  left := by rw [hsame.overHang, h.left]
  leftLe := h.leftLe
  streak := by rw [hsame.numOfSpeech, h.streak]
  streakLe := h.streakLe
  mode := by
    rw [hsame.mode]
    exact h.mode

theorem Tracks.smooth {s : Hangover.State} (h : self.Tracks s) (x : Hangover.Item)
    (overhead1 overhead2 : Int16) (h1 : overhead1.toInt = x.short) (h1' : x.short ≤ 14)
    (h2 : overhead2.toInt = x.long) (h2' : x.long ≤ 14)
    : (if (self.smooth x.active overhead1 overhead2).1.toInt > 0 then 1
          else (self.smooth x.active overhead1 overhead2).1.toInt)
          = (if (Hangover.step 6 s x).1 then (1 : Int) else 0)
        ∧ (self.smooth x.active overhead1 overhead2).2.Tracks (Hangover.step 6 s x).2 := by
  have hleft := h.left
  have hleftLe := h.leftLe
  have hstreak := h.streak
  have hstreakLe := h.streakLe
  unfold VadInst.smooth Hangover.step
  cases x.active with
  | false =>
    by_cases hpos : 0 < s.left
    . have hover : self.overHang > 0 := by
        rw [gt_iff_lt, Word16.lt_iff, hleft]
        exact Int.ofNat_lt.mpr hpos
      have hvad : (2 + self.overHang).toInt = 2 + (s.left : Int) := by
        rw [Word16.toInt_add, hleft]
        . rfl
        . rw [hleft]
          show -32768 ≤ 2 + _
          omega
        . rw [hleft]
          show 2 + _ ≤ _
          omega
      have hnext : (self.overHang - 1).toInt = s.left - 1 := by
        rw [Word16.toInt_sub, hleft]
        . rfl
        . rw [hleft]
          show -32768 ≤ _ - 1
          omega
        . rw [hleft]
          show _ - 1 ≤ _
          omega
      simp only [Bool.not_false, if_true, hover, hvad, Bool.false_eq_true, if_false, hpos, decide_true]
      refine ⟨if_pos (by omega), ?_, by dsimp only; omega, rfl, Nat.zero_le _, h.mode⟩
      rw [hnext]
      dsimp only
      omega
    . have hover : ¬self.overHang > 0 := by
        rw [gt_iff_lt, Word16.lt_iff, hleft]
        exact fun hlt => hpos (Int.ofNat_lt.mp hlt)
      simp only [Bool.not_false, if_true, hover, if_false, Bool.false_eq_true, hpos, decide_false]
      refine ⟨rfl, ?_, by dsimp only; omega, rfl, Nat.zero_le _, h.mode⟩
      rw [hleft]
      dsimp only
      omega
  | true =>
    have hnum : (self.numOfSpeech + 1).toInt = s.streak + 1 := by
      rw [Word16.toInt_add, hstreak]
      . rfl
      . rw [hstreak]
        show -32768 ≤ _ + 1
        omega
      . rw [hstreak]
        show _ + 1 ≤ _
        omega
    by_cases hfull : s.streak + 1 > 6
    . have hmax : self.numOfSpeech + 1 > kMaxSpeechFrames := by
        rw [gt_iff_lt, Word16.lt_iff, hnum]
        show 6 < _
        omega
      simp only [Bool.not_true, Bool.false_eq_true, if_false, hmax, if_true, hfull]
      exact ⟨rfl, h2, h2', rfl, Nat.le_refl 6, h.mode⟩
    . have hmax : ¬self.numOfSpeech + 1 > kMaxSpeechFrames := by
        rw [gt_iff_lt, Word16.lt_iff, hnum]
        show ¬6 < _
        omega
      simp only [Bool.not_true, Bool.false_eq_true, if_false, hmax, if_true, hfull]
      exact ⟨rfl, h1, h1', hnum, by dsimp only; omega, h.mode⟩

theorem Tracks.process {s : Hangover.State} (h : self.Tracks s) {fs : Int} {audioFrame : List Int16}
    (haccepts : self.Accepts fs audioFrame)
    : (self.process c r.resample48khzTo8khz fs audioFrame).1
          = (if (Hangover.step 6 s (self.item c r fs audioFrame)).1 then 1 else 0)
        ∧ (self.process c r.resample48khzTo8khz fs audioFrame).2.Tracks
            (Hangover.step 6 s (self.item c r fs audioFrame)).2 := by
  obtain ⟨⟨hshort, hshort'⟩, hlong, hlong'⟩ := h.mode.overHang (self.frameIndex r fs audioFrame)
  obtain ⟨hresult, htracks⟩ := (h.control (self.detect_control c r fs audioFrame)).smooth
    (self.item c r fs audioFrame) self.mode.overHangMax1[self.frameIndex r fs audioFrame]
    self.mode.overHangMax2[self.frameIndex r fs audioFrame]
    (Int.toNat_of_nonneg hshort).symm (Int.toNat_le.mpr hshort')
    (Int.toNat_of_nonneg hlong).symm (Int.toNat_le.mpr hlong')
  have hactive : (self.item c r fs audioFrame).active = (self.detect c r fs audioFrame).1 := rfl
  rw [process_eq c r self haccepts]
  rw [hactive] at hresult htracks
  generalize self.item c r fs audioFrame = x at hresult htracks ⊢
  generalize self.detect c r fs audioFrame = d at hresult htracks ⊢
  exact ⟨hresult, htracks.left, htracks.leftLe, htracks.streak, htracks.streakLe, htracks.mode⟩

variable (self)

/--
The frames among the calls that are accepted, as the hysteresis sees them.
-/
def items (self : VadInst ρ) : List Call → List Hangover.Item
  | [] => []
  | .process fs audioFrame :: calls =>
    let rest := items (self.call c r (.process fs audioFrame)).2 calls
    if self.Accepts fs audioFrame then self.item c r fs audioFrame :: rest else rest
  | e :: calls => items (self.call c r e).2 calls

/--
What the calls of `WebRtcVad_Process` return, but for the errors.
-/
def decisions (self : VadInst ρ) : List Call → List Int
  | [] => []
  | .process fs audioFrame :: calls =>
    let (res, next) := self.call c r (.process fs audioFrame)
    if res ≠ -1 then res :: decisions next calls else decisions next calls
  | e :: calls => decisions (self.call c r e).2 calls

variable {self}

theorem known_modeOf {mode : Int} {m : Mode} (h : modeOf mode = some m) : m.Known := by
  unfold modeOf at h
  unfold Mode.Known
  split at h
  all_goals cases h
  all_goals decide

theorem Tracks.setMode {s : Hangover.State} (h : self.Tracks s) (mode : Int)
    : (self.setMode mode).2.Tracks s := by
  unfold VadInst.setMode setModeCore
  split
  . exact h
  . split
    . next hmode => exact ⟨h.left, h.leftLe, h.streak, h.streakLe, known_modeOf hmode⟩
    . exact h

theorem decisions_eq {s : Hangover.State} (h : self.Tracks s) {calls : List Call}
    (hcalls : Call.init ∉ calls)
    : self.decisions c r calls
        =
      (Hangover.outputs 6 s (self.items c r calls)).map fun b => if b then 1 else 0 := by
  induction calls generalizing self s with
  | nil => rfl
  | cons e calls ih =>
    rw [List.mem_cons, not_or] at hcalls
    cases e with
    | init => exact absurd rfl hcalls.1
    | setMode mode => exact ih (h.setMode mode) hcalls.2
    | process fs audioFrame =>
      unfold decisions items
      dsimp only [call]
      by_cases haccepts : self.Accepts fs audioFrame
      . obtain ⟨hresult, htracks⟩ := h.process c r haccepts
        have hne : (self.process c r.resample48khzTo8khz fs audioFrame).1 ≠ -1 := by
          rw [hresult]
          split
          . decide
          . decide
        rw [if_pos haccepts, if_pos hne, ih htracks hcalls.2, hresult]
        rfl
      . have hresult := process_of_not_accepts c r self haccepts
        rw [if_neg haccepts, hresult]
        exact ih h hcalls.2

theorem tracks_init (memory : VadInst ρ) : (memory.call c r .init).2.Tracks {} where
  left := rfl
  leftLe := Nat.zero_le _
  streak := rfl
  streakLe := Nat.zero_le _
  mode := List.mem_cons_self ..

/--
From an initialization on, the VAD says that a frame is speech if and only if it finds speech in it or
still holds the last speech it found.
-/
theorem decisions_iff_held (memory : VadInst ρ) {calls : List Call} (hcalls : Call.init ∉ calls)
    : let self := (memory.call c r .init).2
      (self.decisions c r calls).length = (self.items c r calls).length
        ∧ ∀ n < (self.items c r calls).length,
          (self.decisions c r calls)[n]? = some 1 ∧ Hangover.Held 6 (self.items c r calls) n
            ∨ (self.decisions c r calls)[n]? = some 0
              ∧ ¬Hangover.Held 6 (self.items c r calls) n := by
  intro self
  have htracks : self.Tracks {} := tracks_init c r memory
  rw [decisions_eq c r htracks hcalls, List.length_map, Hangover.length_outputs]
  refine ⟨rfl, fun n hn => ?_⟩
  rw [List.getElem?_map, ← Hangover.outputs_iff_held 6 _ hn]
  have hlen : n < (Hangover.outputs 6 {} (self.items c r calls)).length := by
    rw [Hangover.length_outputs]
    exact hn
  rw [List.getElem?_eq_getElem hlen]
  cases (Hangover.outputs 6 {} (self.items c r calls))[n] with
  | true =>
    left
    exact ⟨rfl, rfl⟩
  | false =>
    right
    exact ⟨rfl, by simp⟩

def tone : List Int16 :=
  (List.replicate 5 [0, 8000, 12000, 8000, 0, -8000, -12000, -8000]).flatten ++ List.replicate 40 0

theorem decisions_iff_held_on_data
    : let calls := .setMode 3 :: .process 8000 tone :: List.replicate 7 (.process 8000 (List.replicate 80 0))
      let self := (zeros.call .wrapping .silent .init).2
      Call.init ∉ calls
        ∧ self.decisions .wrapping .silent calls = [1, 1, 1, 1, 1, 1, 1, 0]
        ∧ (self.decisions .wrapping .silent calls).length = (self.items .wrapping .silent calls).length
        ∧ ∀ n < (self.items .wrapping .silent calls).length,
          (self.decisions .wrapping .silent calls)[n]? = some 1
              ∧ Hangover.Held 6 (self.items .wrapping .silent calls) n
            ∨ (self.decisions .wrapping .silent calls)[n]? = some 0
              ∧ ¬Hangover.Held 6 (self.items .wrapping .silent calls) n := by
  intro calls self
  have hcalls : Call.init ∉ calls := by simp [calls]
  exact ⟨hcalls, by decide +kernel, decisions_iff_held .wrapping .silent zeros hcalls⟩

theorem setMode_initFlag (self : VadInst ρ) (mode : Int)
    : (self.setMode mode).2.initFlag = self.initFlag := by
  obtain ⟨_, heq⟩ := self.setMode_eq mode
  rw [heq]

theorem conclude_initFlag (mode : Mode) (i : Fin 3) (d : Bool × VadInst ρ)
    : (conclude mode i d).2.initFlag = d.2.initFlag := by
  obtain ⟨_, _, _, heq⟩ := conclude_eq mode i d
  rw [heq]

theorem process_initFlag (self : VadInst ρ) (fs : Int) (audioFrame : List Int16)
    : (self.process c r.resample48khzTo8khz fs audioFrame).2.initFlag = self.initFlag := by
  by_cases haccepts : self.Accepts fs audioFrame
  . rw [process_eq c r self haccepts, conclude_initFlag]
    exact (self.detect_control c r fs audioFrame).initFlag
  . rw [process_of_not_accepts c r self haccepts]

/--
The flag says whether the instance was initialized, and an initialized one can be used.
-/
theorem run_initialized (memory : VadInst ρ) (calls : List Call)
    : (((machine c r memory).run calls).initFlag = kInitCheck ↔ Call.init ∈ calls)
        ∧ (Call.init ∈ calls → ∃ s, ((machine c r memory).run calls).Tracks s) := by
  induction calls using List.reverseRecOn with
  | nil =>
    refine ⟨iff_of_false ?_ List.not_mem_nil, fun h => absurd h List.not_mem_nil⟩
    show ¬(0 : Int) = 42
    decide
  | append_singleton calls e ih =>
    rw [Machine.run_concat, List.mem_append, List.mem_singleton]
    generalize (machine c r memory).run calls = self at ih
    obtain ⟨hflag, htracks⟩ := ih
    cases e with
    | init => exact ⟨iff_of_true rfl (Or.inr rfl), fun _ => ⟨_, tracks_init c r self⟩⟩
    | setMode mode =>
      simp only [reduceCtorEq, or_false]
      refine ⟨?_, fun hinit => ?_⟩
      . rw [← hflag]
        exact iff_of_eq (congrArg (· = kInitCheck) (setMode_initFlag self mode))
      . obtain ⟨s, hs⟩ := htracks hinit
        exact ⟨s, hs.setMode mode⟩
    | process fs audioFrame =>
      simp only [reduceCtorEq, or_false]
      refine ⟨?_, fun hinit => ?_⟩
      . rw [← hflag]
        exact iff_of_eq (congrArg (· = kInitCheck) (process_initFlag c r self fs audioFrame))
      . obtain ⟨s, hs⟩ := htracks hinit
        by_cases haccepts : self.Accepts fs audioFrame
        . exact ⟨_, (hs.process c r haccepts).2⟩
        . refine ⟨s, ?_⟩
          show (self.process c r.resample48khzTo8khz fs audioFrame).2.Tracks s
          rw [process_of_not_accepts c r self haccepts]
          exact hs

/--
In every run, a frame is refused, and then leaves the instance as it is, if and only if the instance was
never initialized or the frame is not 10, 20 or 30 ms at a supported rate. Otherwise the result is 0 or 1.
-/
theorem process_results (memory : VadInst ρ) (calls : List Call) (fs : Int)
    (audioFrame : List Int16)
    : let self := (machine c r memory).run calls
      let (res, next) := self.call c r (.process fs audioFrame)
      (Call.init ∈ calls ∧ Supported fs audioFrame.length → res = 0 ∨ res = 1)
        ∧ (¬(Call.init ∈ calls ∧ Supported fs audioFrame.length) → res = -1 ∧ next = self) := by
  intro self
  obtain ⟨hflag, htracks⟩ := run_initialized c r memory calls
  have haccepts : self.Accepts fs audioFrame
      ↔ Call.init ∈ calls ∧ Supported fs audioFrame.length :=
    and_congr hflag validRateAndFrameLength_iff
  constructor
  . intro h
    obtain ⟨s, hs⟩ := htracks h.1
    show (self.process c r.resample48khzTo8khz fs audioFrame).1 = 0
      ∨ (self.process c r.resample48khzTo8khz fs audioFrame).1 = 1
    rw [(hs.process c r (haccepts.mpr h)).1]
    split
    . exact Or.inr rfl
    . exact Or.inl rfl
  . intro h
    have hresult := process_of_not_accepts c r self (mt haccepts.mp h)
    exact ⟨congrArg Prod.fst hresult, congrArg Prod.snd hresult⟩

end VadInst

end WebRtc
