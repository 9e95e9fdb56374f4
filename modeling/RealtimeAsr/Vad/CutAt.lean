import RealtimeAsr.Vad.Pieces

/-!
This module contains the frame at which a call of `cut_add_vad_activity` cuts, and what a cut changes.
-/

namespace Cutter

/--
The numbers of frames that the call asks `cut_write_file` for.
-/
def writes (c : Cutter) (e : CutCall) : List Int :=
  (c.call e).2.asked.drop c.asked.length

theorem writes_eq {c : Cutter} {e : CutCall} {frames : List Int}
    (h : (c.call e).2.asked = c.asked ++ frames)
    : c.writes e = frames := by
  unfold writes
  rw [h, List.drop_left]

inductive CutAt (c : Cutter) (isActive isLast : Int) : Int → Prop where
  | limit (h : c.AtLimit isLast) : CutAt c isActive isLast c.info.currentFrame
  | after (h : ¬c.AtLimit isLast) (hsame : c.info.isPerviousActive = isActive)
    (hcut : c.SilenceAfter isActive)
    : CutAt c isActive isLast c.info.currentFrame
  | before (h : ¬c.AtLimit isLast) (hchange : c.info.isPerviousActive ≠ isActive)
    (hcut : c.SilenceBefore isActive)
    : CutAt c isActive isLast (c.info.currentFrame - 30)

theorem CutAt.unique {c : Cutter} {isActive isLast last last' : Int}
    (h : c.CutAt isActive isLast last) (h' : c.CutAt isActive isLast last')
    : last' = last := by
  cases h with
  | limit h =>
    cases h' with
    | limit _ => rfl
    | after hnot _ _ => exact absurd h hnot
    | before hnot _ _ => exact absurd h hnot
  | after h hsame _ =>
    cases h' with
    | limit hlimit => exact absurd hlimit h
    | after _ _ _ => rfl
    | before _ hchange _ => exact absurd hsame hchange
  | before h hchange _ =>
    cases h' with
    | limit hlimit => exact absurd hlimit h
    | after _ hsame _ => exact absurd hsame hchange
    | before _ _ _ => rfl

structure CutDone (c : Cutter) (e : CutCall) (last : Int) (c' : Cutter) : Prop where
  asked : c'.asked = c.asked ++ [last - c.info.cutBeginFrame]
  begins : c'.info.cutBeginFrame = last
  last_begin : c'.info.lastCutBeginFrame = c.info.cutBeginFrame
  name : c'.info.resultFilename = snprintf CutInfo.resultFilenameSize (c.info.filename last)
  fp : c'.info.fp = (c.info.fp.fread e.ops ((last - c.info.cutBeginFrame) * frameSize).toNat).2

inductive CutCalled (c : Cutter) (e : CutCall) (res : Int) (c' : Cutter) : Prop where
  | cut (last : Int) (hat : c.CutAt e.isActive e.isLast last) (hres : res = -last)
    (hdone : c.CutDone e last c')
  | kept (hnot : ∀ last, ¬c.CutAt e.isActive e.isLast last) (hres : res = 0)
    (hasked : c'.asked = c.asked) (hkeeps : Keeps c c')

theorem cutTo_done (c : Cutter) (e : CutCall) (last isActive along contain : Int)
    : c.CutDone e last ((c.cutTo e.ops last).mark isActive along contain) := by
  constructor
  . exact cutTo_asked e.ops c last
  . simp [mark, cutTo_info]
  . simp [mark, cutTo_info]
  . simp [mark, cutTo_info]
  . simp [mark, cutTo_info]

theorem cutCalled (c : Cutter) (e : CutCall) : c.CutCalled e (c.call e).1 (c.call e).2 := by
  have hcalled : c.Called e.ops e.isActive e.isLast (c.call e).1 (c.call e).2 :=
    c.called e.ops e.isActive e.isLast
  generalize (c.call e).1 = res, (c.call e).2 = c' at hcalled ⊢
  cases hcalled with
  | limit h => exact .cut _ (.limit h) rfl (c.cutTo_done e _ _ _ _)
  | after h hsame hcut => exact .cut _ (.after h hsame hcut) rfl (c.cutTo_done e _ _ _ _)
  | continued h hsame hcut =>
    refine .kept ?_ rfl rfl ⟨rfl, rfl, rfl⟩
    intro last hat
    cases hat with
    | limit hlimit => exact h hlimit
    | after _ _ hsilence => exact hcut hsilence
    | before _ hchange _ => exact hchange hsame
  | before h hchange hcut => exact .cut _ (.before h hchange hcut) rfl (c.cutTo_done e _ _ _ _)
  | changed h hchange hcut =>
    refine .kept ?_ rfl rfl ⟨rfl, rfl, rfl⟩
    intro last hat
    cases hat with
    | limit hlimit => exact h hlimit
    | after _ hsame _ => exact hchange hsame
    | before _ _ hsilence => exact hcut hsilence

structure Opened (c : Cutter) : Prop where
  begins : 0 ≤ c.info.cutBeginFrame
  open_ : c.info.cutBeginFrame < c.info.currentFrame
    ∨ (c.info.cutBeginFrame = 0 ∧ c.info.currentFrame = 0)

theorem Opened.cutAt {c : Cutter} (h : c.Opened) {isActive isLast last : Int}
    (hat : c.CutAt isActive isLast last)
    : (c.info.cutBeginFrame < last ∨ (c.info.cutBeginFrame = 0 ∧ last = 0))
      ∧ last ≤ c.info.currentFrame := by
  have hopen := h.open_
  cases hat with
  | limit _ => exact ⟨hopen, le_refl _⟩
  | after _ _ _ => exact ⟨hopen, le_refl _⟩
  | before _ _ hcut =>
    have hlong := hcut.long
    omega

theorem call_currentFrame (c : Cutter) (e : CutCall)
    : (c.call e).2.info.currentFrame = c.info.currentFrame + 1 := by
  have hcalled : c.Called e.ops e.isActive e.isLast (c.call e).1 (c.call e).2 :=
    c.called e.ops e.isActive e.isLast
  generalize (c.call e).1 = res, (c.call e).2 = c' at hcalled ⊢
  cases hcalled with
  | limit _ => simp [mark, cutTo_info]
  | after _ _ _ => simp [mark, cutTo_info]
  | continued _ _ _ => rfl
  | before _ _ _ => simp [mark, cutTo_info]
  | changed _ _ _ => rfl

theorem Opened.call {c : Cutter} (h : c.Opened) (e : CutCall) : (c.call e).2.Opened := by
  have hcurrent := c.call_currentFrame e
  have hbegins := h.begins
  have hopen := h.open_
  cases c.cutCalled e with
  | cut last hat _ hdone =>
    obtain ⟨hafter, hle⟩ := h.cutAt hat
    have hend := hdone.begins
    constructor
    . omega
    . omega
  | kept _ _ _ hkeeps =>
    have hend := hkeeps.begins
    constructor
    . omega
    . omega

theorem opened_run (samples : List UInt16) (dir filenamePrefix : List Char) (calls : List CutCall)
    : ((cutting samples dir filenamePrefix).run calls).Opened :=
  Machine.run_invariant _ ⟨le_refl 0, Or.inr ⟨rfl, rfl⟩⟩ (fun _ e h => h.call e) calls

end Cutter
