import RealtimeAsr.Vad.CutAt

/-!
This module contains the limits on the pieces: the bounds of the numbers of frames that the calls of
`cut_add_vad_activity` ask `cut_write_file` for in every run, whatever the file operations do.
-/

namespace Cutter

structure Limited (c : Cutter) : Prop where
  behind : c.info.cutBeginFrame ≤ c.info.currentFrame
  short : c.info.currentFrame - c.info.cutBeginFrame ≤ 1000

theorem limited_cut (c : Cutter) (ops : FileOps) {e : Int} (hle : e ≤ c.info.currentFrame)
    (hnear : c.info.currentFrame - e ≤ 30) (isActive along contain : Int)
    : ((c.cutTo ops e).mark isActive along contain).Limited := by
  constructor
  . simp only [mark, cutTo_info]
    omega
  . simp only [mark, cutTo_info]
    omega

theorem Limited.mark {c : Cutter} (h : c.Limited) {isLast : Int} (hlimit : ¬c.AtLimit isLast)
    (isActive along contain : Int)
    : (c.mark isActive along contain).Limited := by
  have hbehind := h.behind
  have hshort := h.short
  have hfull : c.info.currentFrame - c.info.cutBeginFrame ≠ 1000 := fun hfull => hlimit (Or.inr hfull)
  constructor
  . simp only [Cutter.mark]
    omega
  . simp only [Cutter.mark]
    omega

theorem Limited.call {c : Cutter} (h : c.Limited) (e : CutCall) : (c.call e).2.Limited := by
  have hcalled : c.Called e.ops e.isActive e.isLast (c.call e).1 (c.call e).2 :=
    c.called e.ops e.isActive e.isLast
  generalize (c.call e).1 = res, (c.call e).2 = c' at hcalled ⊢
  cases hcalled with
  | limit _ => exact limited_cut c e.ops (by omega) (by omega) _ _ _
  | after _ _ _ => exact limited_cut c e.ops (by omega) (by omega) _ _ _
  | continued hlimit _ _ => exact h.mark hlimit _ _ _
  | before _ _ _ => exact limited_cut c e.ops (by omega) (by omega) _ _ _
  | changed hlimit _ _ => exact h.mark hlimit _ _ _

theorem limited_run (samples : List UInt16) (dir filenamePrefix : List Char) (calls : List CutCall)
    : ((cutting samples dir filenamePrefix).run calls).Limited := by
  induction calls using List.reverseRecOn with
  | nil =>
    constructor
    . exact le_refl 0
    . show (0 : Int) - 0 ≤ 1000
      decide
  | append_singleton calls e ih =>
    rw [Machine.run_concat]
    exact ih.call e

def Piece (c c' : Cutter) (frames : Int) : Prop :=
  c'.info.lastCutBeginFrame = c.info.cutBeginFrame
    ∧ c'.info.cutBeginFrame = c.info.cutBeginFrame + frames

theorem CutDone.piece {c c' : Cutter} {e : CutCall} {last : Int} (h : c.CutDone e last c')
    : Piece c c' (last - c.info.cutBeginFrame) := by
  refine ⟨h.last_begin, ?_⟩
  have hend := h.begins
  omega

theorem Limited.cutAt {c : Cutter} (h : c.Limited) {isActive isLast last : Int}
    (hat : c.CutAt isActive isLast last)
    : 0 ≤ last - c.info.cutBeginFrame
      ∧ last - c.info.cutBeginFrame ≤ 1000
      ∧ (isLast = 0 → 500 ≤ last - c.info.cutBeginFrame) := by
  have hbehind := h.behind
  have hshort := h.short
  cases hat with
  | limit hlimit =>
    refine ⟨by omega, hshort, ?_⟩
    intro hlast
    have hfull := hlimit.resolve_left (by simpa using hlast)
    omega
  | after _ _ hcut =>
    have hlong := hcut.long
    exact ⟨by omega, hshort, fun _ => hlong⟩
  | before _ _ hcut =>
    have hlong := hcut.long
    exact ⟨by omega, by omega, fun _ => hlong⟩

/--
In every run the open piece has at most `FILE_CUT_MAX_MS`, and every number of frames that a call asks
`cut_write_file` for is the length of the piece it cuts and lies within the limits.
-/
theorem piece_lengths (samples : List UInt16) (dir filenamePrefix : List Char)
    (calls : List CutCall) (e : CutCall)
    : let c := (cutting samples dir filenamePrefix).run calls
      let longest := calFrameByTime fileCutMaxMs
      let shortest := calFrameByTime fileCutMinMs
      (0 ≤ c.info.currentFrame - c.info.cutBeginFrame
          ∧ c.info.currentFrame - c.info.cutBeginFrame ≤ longest)
        ∧ (∀ frames ∈ c.writes e,
            (0 ≤ frames ∧ frames ≤ longest)
              ∧ (e.isLast = 0 → shortest ≤ frames)
              ∧ Piece c (c.call e).2 frames)
        ∧ (c.writes e = [] → Keeps c (c.call e).2) := by
  intro c longest shortest
  have hmax : longest = 1000 := by decide
  have hmin : shortest = 500 := by decide
  have hlimited : c.Limited := limited_run samples dir filenamePrefix calls
  rw [hmax, hmin]
  refine ⟨⟨?_, hlimited.short⟩, ?_⟩
  . have hbehind := hlimited.behind
    omega
  cases c.cutCalled e with
  | cut last hat _ hdone =>
    have hwrites := writes_eq hdone.asked
    obtain ⟨hlower, hupper, hlong⟩ := hlimited.cutAt hat
    rw [hwrites]
    constructor
    . intro frames hframes
      rw [List.mem_singleton.mp hframes]
      exact ⟨⟨hlower, hupper⟩, hlong, hdone.piece⟩
    . intro hnone
      contradiction
  | kept _ _ hasked hkeeps =>
    have hwrites := writes_eq (hasked.trans (List.append_nil _).symm)
    rw [hwrites]
    constructor
    . intro frames hframes
      contradiction
    . intro _
      exact hkeeps

end Cutter
