import RealtimeAsr.Lib.Machine
import RealtimeAsr.Vad.FileCut

/-!
This module contains what one call of `cut_add_vad_activity` can do, and the runs of such calls.
-/

namespace Cutter

def cutTo (ops : FileOps) (c : Cutter) (e : Int) : Cutter :=
  (c.cutFrame ops e 1).2

theorem cutFrame_eq (ops : FileOps) (c : Cutter) (e force : Int)
    : c.cutFrame ops e force
      =
      if force ≠ 0 ∨ 500 ≤ e - c.info.cutBeginFrame then
        (0, c.cutTo ops e)
      else
        (1, c) := by
  have hmin : calFrameByTime fileCutMinMs = 500 := by decide
  unfold cutTo cutFrame
  simp only [hmin, ge_iff_le]
  split
  . simp
  . rfl

@[simp]
theorem cutWriteFile_info (ops : FileOps) (c : Cutter) (frames : Int)
    : (c.cutWriteFile ops frames).2.info
      =
      { c.info with fp := (c.info.fp.fread ops (frames * frameSize).toNat).2 } := by
  unfold cutWriteFile
  dsimp only
  split
  . split
    . rfl
    . split
      . rfl
      . rfl
  . rfl

@[simp]
theorem cutWriteFile_asked (ops : FileOps) (c : Cutter) (frames : Int)
    : (c.cutWriteFile ops frames).2.asked = c.asked ++ [frames] := by
  unfold cutWriteFile
  dsimp only
  split
  . split
    . rfl
    . split
      . rfl
      . rfl
  . rfl

theorem cutTo_info (ops : FileOps) (c : Cutter) (e : Int)
    : (c.cutTo ops e).info
      =
      { c.info with
        fp := (c.info.fp.fread ops ((e - c.info.cutBeginFrame) * frameSize).toNat).2
        resultFilename := snprintf CutInfo.resultFilenameSize (c.info.filename e)
        isPerviousActive := 0
        isContainActive := 0
        lastCutBeginFrame := c.info.cutBeginFrame
        cutBeginFrame := e } := by
  unfold cutTo cutFrame
  simp

theorem cutTo_asked (ops : FileOps) (c : Cutter) (e : Int)
    : (c.cutTo ops e).asked = c.asked ++ [e - c.info.cutBeginFrame] := by
  unfold cutTo cutFrame
  simp

def mark (c : Cutter) (isActive along contain : Int) : Cutter :=
  { c with
    info := { c.info with
      isPerviousActive := isActive
      isContainActive := contain
      previousAlongFrames := along
      currentFrame := c.info.currentFrame + 1 } }

def AtLimit (c : Cutter) (isLast : Int) : Prop :=
  isLast ≠ 0 ∨ c.info.currentFrame - c.info.cutBeginFrame = 1000

structure SilenceAfter (c : Cutter) (isActive : Int) : Prop where
  silent : isActive = 0
  contains : c.info.isContainActive ≠ 0
  along : 25 ≤ c.info.previousAlongFrames
  long : 500 ≤ c.info.currentFrame - c.info.cutBeginFrame

structure SilenceBefore (c : Cutter) (isActive : Int) : Prop where
  active : isActive ≠ 0
  along : 30 < c.info.previousAlongFrames
  long : 500 ≤ c.info.currentFrame - 30 - c.info.cutBeginFrame

inductive Called (ops : FileOps) (c : Cutter) (isActive isLast : Int) : Int → Cutter → Prop where
  | limit (h : c.AtLimit isLast)
    : Called ops c isActive isLast (-c.info.currentFrame)
      ((c.cutTo ops c.info.currentFrame).mark isActive c.info.previousAlongFrames 0)
  | after (h : ¬c.AtLimit isLast) (hsame : c.info.isPerviousActive = isActive)
    (hcut : c.SilenceAfter isActive)
    : Called ops c isActive isLast (-c.info.currentFrame)
      ((c.cutTo ops c.info.currentFrame).mark isActive 1 0)
  | continued (h : ¬c.AtLimit isLast) (hsame : c.info.isPerviousActive = isActive)
    (hcut : ¬c.SilenceAfter isActive)
    : Called ops c isActive isLast 0
      (c.mark isActive (c.info.previousAlongFrames + 1) c.info.isContainActive)
  | before (h : ¬c.AtLimit isLast) (hchange : c.info.isPerviousActive ≠ isActive)
    (hcut : c.SilenceBefore isActive)
    : Called ops c isActive isLast (-(c.info.currentFrame - 30))
      ((c.cutTo ops (c.info.currentFrame - 30)).mark isActive 1 1)
  | changed (h : ¬c.AtLimit isLast) (hchange : c.info.isPerviousActive ≠ isActive)
    (hcut : ¬c.SilenceBefore isActive)
    : Called ops c isActive isLast 0
      (c.mark isActive 1 (if isActive ≠ 0 then 1 else c.info.isContainActive))

theorem addContinued_of_silence (ops : FileOps) (c : Cutter) (isActive : Int)
    (h : c.SilenceAfter isActive)
    : c.addContinued ops isActive
      =
      (-c.info.currentFrame,
        { c.cutTo ops c.info.currentFrame with
          info := { (c.cutTo ops c.info.currentFrame).info with previousAlongFrames := 1 } }) := by
  have hframes : calFrameByTime fileCutSilenceAfterActiveMs = 25 := by decide
  have hdiff : c.info.previousAlongFrames - 25 ≥ 0 := by
    have := h.along
    omega
  have hsilent : isActive = 0 ∧ c.info.isContainActive ≠ 0 := ⟨h.silent, h.contains⟩
  have hlong : (0 : Int) ≠ 0 ∨ 500 ≤ c.info.currentFrame - c.info.cutBeginFrame := Or.inr h.long
  unfold addContinued
  simp only [hframes]
  rw [if_pos hsilent, if_pos hdiff, cutFrame_eq, if_pos hlong]
  simp [cutTo_info]

theorem addContinued_of_not (ops : FileOps) (c : Cutter) (isActive : Int)
    (h : ¬c.SilenceAfter isActive)
    : c.addContinued ops isActive
      =
      (0,
        { c with
          info := { c.info with previousAlongFrames := c.info.previousAlongFrames + 1 } }) := by
  have hframes : calFrameByTime fileCutSilenceAfterActiveMs = 25 := by decide
  unfold addContinued
  simp only [hframes]
  by_cases hsilent : isActive = 0 ∧ c.info.isContainActive ≠ 0
  . rw [if_pos hsilent]
    by_cases hdiff : c.info.previousAlongFrames - 25 ≥ 0
    . have hshort : ¬((0 : Int) ≠ 0 ∨ 500 ≤ c.info.currentFrame - c.info.cutBeginFrame) := by
        rintro (hforce | hlong)
        . exact hforce rfl
        . exact h ⟨hsilent.1, hsilent.2, by omega, hlong⟩
      rw [if_pos hdiff, cutFrame_eq, if_neg hshort]
      rfl
    . rw [if_neg hdiff]
      rfl
  . rw [if_neg hsilent]
    rfl

theorem addChanged_of_silence (ops : FileOps) (c : Cutter) (isActive : Int)
    (h : c.SilenceBefore isActive)
    : c.addChanged ops isActive
      =
      (-(c.info.currentFrame - 30),
        { c.cutTo ops (c.info.currentFrame - 30) with
          info := { (c.cutTo ops (c.info.currentFrame - 30)).info with
            previousAlongFrames := 1 } }) := by
  have hframes : calFrameByTime fileCutSilenceBeforeActiveMs = 30 := by decide
  unfold addChanged
  simp only [hframes]
  have hactive : isActive ≠ 0 ∧ c.info.previousAlongFrames > 30 := ⟨h.active, h.along⟩
  have hlong : (0 : Int) ≠ 0 ∨ 500 ≤ c.info.currentFrame - 30 - c.info.cutBeginFrame :=
    Or.inr h.long
  rw [if_pos hactive, cutFrame_eq, if_pos hlong]
  simp

theorem addChanged_of_not (ops : FileOps) (c : Cutter) (isActive : Int)
    (h : ¬c.SilenceBefore isActive)
    : c.addChanged ops isActive
      =
      (0, { c with info := { c.info with previousAlongFrames := 1 } }) := by
  have hframes : calFrameByTime fileCutSilenceBeforeActiveMs = 30 := by decide
  unfold addChanged
  simp only [hframes]
  by_cases halong : isActive ≠ 0 ∧ c.info.previousAlongFrames > 30
  . have hshort : ¬((0 : Int) ≠ 0 ∨ 500 ≤ c.info.currentFrame - 30 - c.info.cutBeginFrame) := by
      rintro (hforce | hlong)
      . exact hforce rfl
      . exact h ⟨halong.1, halong.2, hlong⟩
    rw [if_pos halong, cutFrame_eq, if_neg hshort]
    rfl
  . rw [if_neg halong]

theorem called (ops : FileOps) (c : Cutter) (isActive isLast : Int)
    : c.Called ops isActive isLast (c.cutAddVadActivity ops isActive isLast).1
      (c.cutAddVadActivity ops isActive isLast).2 := by
  have hmax : calFrameByTime fileCutMaxMs = 1000 := by decide
  unfold cutAddVadActivity
  simp only [hmax]
  by_cases hlimit : c.AtLimit isLast
  . have hcut : isLast ≠ 0 ∨ 500 ≤ c.info.currentFrame - c.info.cutBeginFrame := by
      rcases hlimit with hlast | hfull
      . exact Or.inl hlast
      . right
        omega
    have hcalled : c.Called ops isActive isLast _ _ := Called.limit hlimit
    unfold AtLimit at hlimit
    rw [if_pos hlimit, cutFrame_eq, if_pos hcut]
    simpa [mark, cutTo_info] using hcalled
  . have hgo : ¬(isLast ≠ 0 ∨ c.info.currentFrame - c.info.cutBeginFrame = 1000) := hlimit
    rw [if_neg hgo]
    by_cases hsame : c.info.isPerviousActive = isActive
    . rw [if_pos hsame]
      by_cases hcut : c.SilenceAfter isActive
      . rw [addContinued_of_silence ops c isActive hcut]
        have hcalled : c.Called ops isActive isLast _ _ := Called.after hlimit hsame hcut
        simpa [mark, cutTo_info] using hcalled
      . rw [addContinued_of_not ops c isActive hcut]
        exact Called.continued hlimit hsame hcut
    . rw [if_neg hsame]
      by_cases hcut : c.SilenceBefore isActive
      . rw [addChanged_of_silence ops c isActive hcut, if_pos hcut.active]
        exact Called.before hlimit hsame hcut
      . rw [addChanged_of_not ops c isActive hcut]
        have hcalled : c.Called ops isActive isLast _ _ := Called.changed hlimit hsame hcut
        by_cases hact : isActive ≠ 0
        . rw [if_pos hact]
          rw [if_pos hact] at hcalled
          exact hcalled
        . rw [if_neg hact]
          rw [if_neg hact] at hcalled
          exact hcalled

end Cutter
