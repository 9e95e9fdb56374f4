import RealtimeAsr.Vad.CutAt

/-!
This module contains what a cut does when `cut_write_file` fails: the call reports it all the same, and
the piece is skipped.
-/

namespace Cutter

def Writable (ops : FileOps) (c : Cutter) (frames : Int) : Prop :=
  let readed := (c.info.fp.fread ops (frames * frameSize).toNat).1.length
  0 < readed ∧ ops.fopen ∧ readed ≤ ops.fwrite readed

theorem cutWriteFile_zero (ops : FileOps) (c : Cutter) (frames : Int)
    : (c.cutWriteFile ops frames).1 = 0 ↔ c.Writable ops frames := by
  unfold cutWriteFile Writable
  dsimp only
  generalize (c.info.fp.fread ops (frames * frameSize).toNat).1 = buffer
  by_cases hread : buffer.length > 0
  . rw [if_pos hread]
    by_cases hopen : ops.fopen = true
    . simp only [hopen, Bool.not_true, Bool.false_eq_true, if_false, true_and]
      split
      . simp
        omega
      . simp
        omega
    . simp [hopen]
  . rw [if_neg hread]
    simp
    omega

structure Honest (c : Cutter) (e : CutCall) : Prop where
  reports : (c.call e).1 < 0 →
    ∃ frames, c.writes e = [frames] ∧ (c.cutWriteFile e.ops frames).1 = 0
  leaves : ∀ frames ∈ c.writes e,
    (c.cutWriteFile e.ops frames).1 ≠ 0 →
      (c.call e).2.info.cutBeginFrame = c.info.cutBeginFrame
        ∧ (c.call e).2.info.fp = c.info.fp

theorem fread_zero (ops : FileOps) (fp : PcmFile) : (fp.fread ops 0).2 = fp := by
  unfold PcmFile.fread
  simp

/--
A call is honest about its cut exactly when nothing is to be written or all of the file operations that
write the piece succeed.
-/
theorem honest_iff_writable (samples : List UInt16) (dir filenamePrefix : List Char)
    (calls : List CutCall) (e : CutCall)
    : let c := (cutting samples dir filenamePrefix).run calls
      Honest c e
        ↔
      ∀ last, c.CutAt e.isActive e.isLast last → last ≠ 0 →
        c.Writable e.ops (last - c.info.cutBeginFrame) := by
  intro c
  have hopened : c.Opened := opened_run samples dir filenamePrefix calls
  cases c.cutCalled e with
  | cut last hat hres hdone =>
    obtain ⟨hafter, _⟩ := hopened.cutAt hat
    have hbegins := hopened.begins
    have hwrites := writes_eq hdone.asked
    constructor
    . intro hhonest last' hat' hlast
      obtain rfl := hat.unique hat'
      obtain ⟨frames, hframes, hzero⟩ := hhonest.reports (by omega)
      rw [hwrites, List.singleton_inj] at hframes
      rw [← cutWriteFile_zero, hframes]
      exact hzero
    . intro hwritable
      constructor
      . intro hneg
        refine ⟨_, hwrites, ?_⟩
        rw [cutWriteFile_zero]
        exact hwritable last hat (by omega)
      . intro frames hframes hfail
        rw [hwrites, List.mem_singleton] at hframes
        rw [hframes, Ne, cutWriteFile_zero] at hfail
        have hfresh : last = 0 := by
          by_contra hlast
          exact hfail (hwritable last hat hlast)
        have hzero : c.info.cutBeginFrame = 0 := by omega
        have hend := hdone.begins
        refine ⟨by omega, ?_⟩
        rw [hdone.fp, hfresh, hzero]
        exact fread_zero e.ops c.info.fp
  | kept hnot hres hasked _ =>
    have hwrites := writes_eq (hasked.trans (List.append_nil _).symm)
    constructor
    . intro _ last hat
      exact absurd hat (hnot last)
    . intro _
      constructor
      . intro hneg
        omega
      . intro frames hframes
        rw [hwrites] at hframes
        contradiction

def diskFull : CutCall where
  isActive := 0
  isLast := 1
  ops := { FileOps.succeeding with fwrite := fun _ => 0 }

theorem diskFull_not_honest
    : let c := (cutting (List.replicate 161 7) "pcm".toList "16k_1".toList).run
        [{ isActive := 1 }, { isActive := 0 }]
      ¬Honest c diskFull := by
  intro c hhonest
  have hneg : (c.call diskFull).1 < 0 := by decide +kernel
  obtain ⟨frames, hframes, hzero⟩ := hhonest.reports hneg
  have hwrites : c.writes diskFull = [2] := by decide +kernel
  have hfail : (c.cutWriteFile diskFull.ops 2).1 = 2 := by decide +kernel
  obtain rfl := List.singleton_inj.mp (hwrites.symm.trans hframes)
  exact absurd (hfail.symm.trans hzero) (by decide)

end Cutter
