import RealtimeAsr.Lib.Tiling
import RealtimeAsr.Vad.Call

/-!
This module contains the pieces that a run of `cut_add_vad_activity` cuts out of its stream, as long as
the file operations succeed.
-/

structure CutCall where
  isActive : Int
  isLast : Int := 0
  ops : FileOps := .succeeding

namespace Cutter

def call (c : Cutter) (e : CutCall) : Int × Cutter :=
  c.cutAddVadActivity e.ops e.isActive e.isLast

def cutting (samples : List UInt16) (dir filenamePrefix : List Char)
    : Machine Cutter CutCall where
  init := cutInfoCreate samples dir filenamePrefix
  step c e := (c.call e).2

def frameCount (samples : List UInt16) : Nat :=
  (samples.length + 159) / 160

def reported (c : Cutter) (e : CutCall) : List (Nat × Nat) :=
  if (c.call e).1 < 0 then
    [(c.info.cutBeginFrame.toNat, (-(c.call e).1).toNat)]
  else
    []

def pieces (c : Cutter) : List CutCall → List (Nat × Nat)
  | [] => []
  | e :: es => c.reported e ++ pieces (c.call e).2 es

section

variable (samples : List UInt16) (dir filenamePrefix : List Char)

theorem pieces_concat (c : Cutter) (es : List CutCall) (e : CutCall)
    : c.pieces (es ++ [e])
      =
      c.pieces es ++ ((cutting samples dir filenamePrefix).runFrom c es).reported e := by
  induction es generalizing c with
  | nil =>
    unfold pieces pieces
    simp
  | cons d ds ih =>
    rw [List.cons_append, Machine.runFrom_cons]
    unfold pieces
    rw [ih, List.append_assoc]
    rfl

end

structure Cuts (samples : List UInt16) (b e : Nat) (c c' : Cutter) : Prop where
  begins : c.info.cutBeginFrame = b
  last_begin : c'.info.lastCutBeginFrame = b
  ends : c'.info.cutBeginFrame = e
  files : c'.files
    = c.files ++ [⟨c'.info.resultFilename, samples.extract (160 * b) (min (160 * e) samples.length)⟩]

structure Keeps (c c' : Cutter) : Prop where
  last_begin : c'.info.lastCutBeginFrame = c.info.lastCutBeginFrame
  begins : c'.info.cutBeginFrame = c.info.cutBeginFrame
  files : c'.files = c.files

theorem Keeps.not_cuts {samples : List UInt16} {b e : Nat} {c c' : Cutter} (h : Keeps c c')
    : ¬Cuts samples b e c c' := by
  intro hcuts
  have hfiles := hcuts.files
  rw [h.files] at hfiles
  simp at hfiles

structure Aligned (samples : List UInt16) (n b : Nat) (c : Cutter) : Prop where
  current : c.info.currentFrame = n
  begins : c.info.cutBeginFrame = b
  behind : b ≤ n
  open_ : n ≠ 0 → b < n
  fresh : n = 0 → c.info.lastCutBeginFrame = 0
  stream : c.info.fp = ⟨samples, min (160 * b) samples.length⟩

theorem fread_succeeding (xs : List UInt16) (p n : Nat)
    : PcmFile.fread .succeeding ⟨xs, min p xs.length⟩ n
      =
      (xs.extract p (min (p + n) xs.length), ⟨xs, min (p + n) xs.length⟩) := by
  unfold PcmFile.fread FileOps.succeeding
  simp only [List.length_drop, List.extract_eq_take_drop, Nat.min_self]
  by_cases hp : p ≤ xs.length
  . rw [Nat.min_eq_left hp]
    congr 2
    . omega
    . omega
  . have hover : min p xs.length = xs.length := by omega
    have hnone : xs.drop p = [] := by
      rw [List.drop_eq_nil_iff]
      omega
    rw [hover, hnone]
    simp
    omega

theorem length_extract_min (xs : List UInt16) (a b : Nat)
    : (xs.extract a (min b xs.length)).length = min b xs.length - a := by
  simp only [List.extract_eq_take_drop, List.length_take, List.length_drop]
  omega

theorem extract_min (xs : List UInt16) (a b : Nat)
    : xs.extract a (min b xs.length) = xs.extract a b := by
  simp only [List.extract_eq_take_drop]
  rw [List.take_eq_take_iff, List.length_drop]
  omega

theorem extract_all (xs : List UInt16)
    : xs.extract (160 * 0) (160 * frameCount xs) = xs := by
  simp only [List.extract_eq_take_drop]
  unfold frameCount
  rw [List.drop_zero, List.take_of_length_le]
  omega

theorem cutWriteFile_succeeding (c : Cutter) (frames : Int)
    : (c.cutWriteFile .succeeding frames).2.files
      =
      let buffer := (c.info.fp.fread .succeeding (frames * frameSize).toNat).1
      if buffer.length > 0 then
        c.files ++ [⟨c.info.resultFilename, buffer⟩]
      else
        c.files := by
  unfold cutWriteFile
  dsimp only
  by_cases hread : (c.info.fp.fread .succeeding (frames * frameSize).toNat).1.length > 0
  . rw [if_pos hread, if_pos hread]
    simp [FileOps.succeeding]
  . rw [if_neg hread, if_neg hread]

theorem Aligned.cutTo {samples : List UInt16} {n b e : Nat} {c : Cutter}
    (h : c.Aligned samples n b) (hbe : b ≤ e)
    : (c.cutTo .succeeding e).info.fp = ⟨samples, min (160 * e) samples.length⟩
      ∧
      (c.cutTo .succeeding e).files
        =
        let piece := samples.extract (160 * b) (min (160 * e) samples.length)
        if piece.length > 0 then
          c.files ++ [⟨(c.cutTo .succeeding e).info.resultFilename, piece⟩]
        else
          c.files := by
  have hsize : (((e : Int) - c.info.cutBeginFrame) * frameSize).toNat = 160 * (e - b) := by
    rw [h.begins]
    unfold frameSize multi
    omega
  have hend : 160 * b + 160 * (e - b) = 160 * e := by omega
  constructor
  . rw [cutTo_info]
    dsimp only
    rw [hsize, h.stream, fread_succeeding, hend]
  . rw [cutTo_info]
    unfold Cutter.cutTo cutFrame
    dsimp only
    rw [if_pos (Or.inl (by decide)), cutWriteFile_succeeding]
    dsimp only
    rw [hsize, h.stream, fread_succeeding, hend]

theorem Aligned.cutTo_cuts {samples : List UInt16} {n b e : Nat} {c : Cutter}
    (h : c.Aligned samples n b) (hbe : b < e) (he : e ≤ frameCount samples)
    (isActive along contain : Int)
    : Cuts samples b e c ((c.cutTo .succeeding e).mark isActive along contain) := by
  have hdata : (samples.extract (160 * b) (min (160 * e) samples.length)).length > 0 := by
    rw [length_extract_min]
    unfold frameCount at he
    omega
  have hfiles := (h.cutTo hbe.le).2
  dsimp only at hfiles
  rw [if_pos hdata] at hfiles
  refine ⟨h.begins, ?_, ?_, hfiles⟩
  . simp [mark, cutTo_info, h.begins]
  . simp [mark, cutTo_info]

theorem Aligned.cutTo_next {samples : List UInt16} {n b e : Nat} {c : Cutter}
    (h : c.Aligned samples n b) (hbe : b ≤ e) (he : e ≤ n) (isActive along contain : Int)
    : ((c.cutTo .succeeding e).mark isActive along contain).Aligned samples (n + 1) e where
  current := by
    simp [mark, cutTo_info, h.current]
  begins := by
    simp [mark, cutTo_info]
  behind := by omega
  open_ := by
    intro _
    omega
  fresh := by
    intro hn
    omega
  stream := (h.cutTo hbe).1

theorem Aligned.mark {samples : List UInt16} {n b : Nat} {c : Cutter}
    (h : c.Aligned samples n b) (isActive along contain : Int)
    : (c.mark isActive along contain).Aligned samples (n + 1) b where
  current := by
    simp [Cutter.mark, h.current]
  begins := h.begins
  behind := by
    have := h.behind
    omega
  open_ := by
    intro _
    have := h.behind
    omega
  fresh := by
    intro hn
    omega
  stream := h.stream

inductive Aligned.Call (samples : List UInt16) (n b : Nat) (c : Cutter) (res : Int) (c' : Cutter)
    : Prop where
  | cuts (e : Nat) (hbe : b < e) (hres : res = -e) (hcuts : Cuts samples b e c c')
    (hnext : c'.Aligned samples (n + 1) e)
  | keeps (hres : res = 0) (hkeeps : Keeps c c') (hnext : c'.Aligned samples (n + 1) b)

theorem Aligned.cutTo_fresh {samples : List UInt16} {n b : Nat} {c : Cutter}
    (h : c.Aligned samples n b) (hn : n = 0) (isActive along contain : Int)
    : Aligned.Call samples n b c (-n) ((c.cutTo .succeeding n).mark isActive along contain) := by
  have hb : b = 0 := by
    have := h.behind
    omega
  subst hb
  subst hn
  have hnone : ¬(samples.extract (160 * 0) (min (160 * 0) samples.length)).length > 0 := by
    rw [length_extract_min]
    omega
  have hfiles := (h.cutTo (le_refl 0)).2
  dsimp only at hfiles
  rw [if_neg hnone] at hfiles
  refine .keeps rfl ⟨?_, ?_, hfiles⟩ (h.cutTo_next (le_refl 0) (le_refl 0) _ _ _)
  . simp [Cutter.mark, cutTo_info, h.begins, h.fresh rfl]
  . simp [Cutter.mark, cutTo_info, h.begins]

theorem Aligned.call {samples : List UInt16} {n b : Nat} {c : Cutter} (h : c.Aligned samples n b)
    (hn : n ≤ frameCount samples) (e : CutCall) (hops : e.ops = .succeeding)
    : Aligned.Call samples n b c (c.call e).1 (c.call e).2 := by
  have hcalled : c.Called e.ops e.isActive e.isLast (c.call e).1 (c.call e).2 :=
    c.called e.ops e.isActive e.isLast
  have hcurrent := h.current
  have hbegins := h.begins
  rw [hops] at hcalled
  generalize (c.call e).1 = res, (c.call e).2 = c' at hcalled ⊢
  cases hcalled with
  | limit hlimit =>
    rw [hcurrent]
    -- Before the first frame there is nothing to cut, and the call reports nothing.
    by_cases hfresh : n = 0
    . exact h.cutTo_fresh hfresh _ _ _
    . have hbe := h.open_ hfresh
      exact .cuts n hbe rfl (h.cutTo_cuts hbe hn _ _ _) (h.cutTo_next hbe.le (le_refl n) _ _ _)
  | after hlimit hsame hcut =>
    have hlong := hcut.long
    have hbe : b < n := by omega
    rw [hcurrent]
    exact .cuts n hbe rfl (h.cutTo_cuts hbe hn _ _ _) (h.cutTo_next hbe.le (le_refl n) _ _ _)
  | continued hlimit hsame hcut => exact .keeps rfl ⟨rfl, rfl, rfl⟩ (h.mark _ _ _)
  | before hlimit hchange hcut =>
    have hlong := hcut.long
    have hback : c.info.currentFrame - 30 = ((n - 30 : Nat) : Int) := by omega
    have hbe : b < n - 30 := by omega
    rw [hback]
    exact .cuts (n - 30) hbe rfl (h.cutTo_cuts hbe (by omega) _ _ _)
      (h.cutTo_next hbe.le (by omega) _ _ _)
  | changed hlimit hchange hcut => exact .keeps rfl ⟨rfl, rfl, rfl⟩ (h.mark _ _ _)

structure Accounted (samples : List UInt16) (c : Cutter) (e : CutCall) : Prop where
  reports : ∀ f : Nat, 0 < f →
    ((c.call e).1 = -f ↔ ∃ b < f, Cuts samples b f c (c.call e).2)
  silent : (¬∃ b f, b < f ∧ Cuts samples b f c (c.call e).2) →
    (c.call e).1 = 0 ∧ Keeps c (c.call e).2

theorem Aligned.accounted {samples : List UInt16} {n b : Nat} {c : Cutter}
    (h : c.Aligned samples n b) (hn : n ≤ frameCount samples) (e : CutCall)
    (hops : e.ops = .succeeding)
    : Accounted samples c e := by
  cases h.call hn e hops with
  | cuts g hbe hres hcuts hnext =>
    constructor
    . intro f hf
      rw [hres]
      constructor
      . intro hfg
        have hsame : f = g := by omega
        subst hsame
        exact ⟨b, hbe, hcuts⟩
      . rintro ⟨a, ha, hother⟩
        have hends := hother.ends
        rw [hcuts.ends] at hends
        rw [hends]
    . intro hnone
      exact absurd ⟨b, g, hbe, hcuts⟩ hnone
  | keeps hres hkeeps hnext =>
    constructor
    . intro f hf
      rw [hres]
      constructor
      . intro hzero
        omega
      . rintro ⟨a, ha, hcuts⟩
        exact absurd hcuts hkeeps.not_cuts
    . intro _
      exact ⟨hres, hkeeps⟩

theorem aligned_init (samples : List UInt16) (dir filenamePrefix : List Char)
    : (cutInfoCreate samples dir filenamePrefix).Aligned samples 0 0 := by
  refine ⟨rfl, rfl, le_refl 0, ?_, ?_, ?_⟩
  . intro hn
    contradiction
  . intro _
    rfl
  . simp [cutInfoCreate]

section

variable (samples : List UInt16) (dir filenamePrefix : List Char)

structure Tiled (es : List CutCall) (b : Nat) (c : Cutter) : Prop where
  aligned : c.Aligned samples es.length b
  tiles : Tiles 0 ((cutInfoCreate samples dir filenamePrefix).pieces es) b
  files : c.files.map (·.samples)
    = ((cutInfoCreate samples dir filenamePrefix).pieces es).map
      fun p => samples.extract (160 * p.1) (min (160 * p.2) samples.length)

theorem Tiled.call {es : List CutCall} {b : Nat}
    (h : Tiled samples dir filenamePrefix es b ((cutting samples dir filenamePrefix).run es))
    (hn : es.length ≤ frameCount samples) (e : CutCall) (hops : e.ops = .succeeding)
    : ∃ b', Tiled samples dir filenamePrefix (es ++ [e]) b'
      ((cutting samples dir filenamePrefix).run (es ++ [e])) := by
  have hpieces := pieces_concat samples dir filenamePrefix
    (cutInfoCreate samples dir filenamePrefix) es e
  have hlength : (es ++ [e]).length = es.length + 1 := by simp
  rw [Machine.run_concat]
  change _ = _ ++ ((cutting samples dir filenamePrefix).run es).reported e at hpieces
  generalize hc : (cutting samples dir filenamePrefix).run es = c at h hpieces ⊢
  cases h.aligned.call hn e hops with
  | cuts f hbe hres hcuts hnext =>
    have hreported : c.reported e = [(b, f)] := by
      unfold reported
      rw [hres, if_pos (by omega), hcuts.begins]
      simp
    rw [hreported] at hpieces
    refine ⟨f, ?_, ?_, ?_⟩
    . rw [hlength]
      exact hnext
    . rw [hpieces]
      exact h.tiles.concat hbe
    . change (c.call e).2.files.map _ = _
      rw [hcuts.files, hpieces, List.map_append, List.map_append, h.files]
      rfl
  | keeps hres hkeeps hnext =>
    have hreported : c.reported e = [] := by
      unfold reported
      rw [hres, if_neg (by omega)]
    rw [hreported, List.append_nil] at hpieces
    refine ⟨b, ?_, ?_, ?_⟩
    . rw [hlength]
      exact hnext
    . rw [hpieces]
      exact h.tiles
    . change (c.call e).2.files.map _ = _
      rw [hkeeps.files, hpieces, h.files]

theorem tiled_run (es : List CutCall) (hn : es.length ≤ frameCount samples + 1)
    (hops : ∀ e ∈ es, e.ops = .succeeding)
    : ∃ b, Tiled samples dir filenamePrefix es b ((cutting samples dir filenamePrefix).run es) := by
  induction es using List.reverseRecOn with
  | nil => exact ⟨0, aligned_init samples dir filenamePrefix, .nil, rfl⟩
  | append_singleton es e ih =>
    rw [List.length_append, List.length_singleton] at hn
    obtain ⟨b, htiled⟩ := ih (by omega) fun d hd => hops d (List.mem_append_left [e] hd)
    exact htiled.call samples dir filenamePrefix (by omega) e (hops e (by simp))

theorem Tiled.flatten {es : List CutCall} {c : Cutter}
    (h : Tiled samples dir filenamePrefix es (frameCount samples) c)
    : (c.files.map (·.samples)).flatten = samples := by
  have hmono : Monotone fun e : Nat => 160 * e := by
    intro a b hab
    dsimp only
    omega
  rw [h.files]
  simp only [extract_min]
  rw [List.flatten_extract_tiles samples hmono h.tiles]
  exact extract_all samples

theorem call_last (c : Cutter) (e : CutCall) (hlast : e.isLast ≠ 0)
    : (c.call e).2.info.cutBeginFrame = c.info.currentFrame := by
  have hcalled : c.Called e.ops e.isActive e.isLast (c.call e).1 (c.call e).2 :=
    c.called e.ops e.isActive e.isLast
  have hlimit : c.AtLimit e.isLast := Or.inl hlast
  generalize (c.call e).1 = res, (c.call e).2 = c' at hcalled ⊢
  cases hcalled with
  | limit _ => simp [mark, cutTo_info]
  | after h _ _ => exact absurd hlimit h
  | continued h _ _ => exact absurd hlimit h
  | before h _ _ => exact absurd hlimit h
  | changed h _ _ => exact absurd hlimit h

def wholeFile (acts : List Int) (isActive isLast : Int) : List CutCall :=
  acts.map (fun a => { isActive := a }) ++ [{ isActive := isActive, isLast := isLast }]

theorem wholeFile_ops (acts : List Int) (isActive isLast : Int)
    : ∀ e ∈ wholeFile acts isActive isLast, e.ops = .succeeding := by
  intro e he
  unfold wholeFile at he
  rw [List.mem_append, List.mem_map, List.mem_singleton] at he
  rcases he with ⟨a, _, rfl⟩ | rfl
  . rfl
  . rfl

theorem cutting_tiles (acts : List Int) (isActive isLast : Int)
    (hacts : acts.length = frameCount samples) (hlast : isLast ≠ 0)
    : let calls := wholeFile acts isActive isLast
      let cutter := cutting samples dir filenamePrefix
      let pieces := cutter.init.pieces calls
      let written := (cutter.run calls).files.map (·.samples)
      Tiles 0 pieces (frameCount samples)
      ∧
      written = pieces.map (fun p => samples.extract (160 * p.1) (min (160 * p.2) samples.length))
      ∧
      written.flatten = samples
      ∧
      ∀ es e, es ++ [e] <+: calls → Accounted samples (cutter.run es) e := by
  dsimp only
  have hops := wholeFile_ops acts isActive isLast
  have hlength : (wholeFile acts isActive isLast).length = frameCount samples + 1 := by
    simp [wholeFile, hacts]
  obtain ⟨b, htiled⟩ := tiled_run samples dir filenamePrefix _ hlength.le hops
  have hb : b = frameCount samples := by
    -- The last call cuts at the frame that the calls for the decisions have reached.
    have hbegins := htiled.aligned.begins
    obtain ⟨a, hbefore⟩ := tiled_run samples dir filenamePrefix
      (acts.map fun a => { isActive := a }) (by simp [hacts])
      fun e he => hops e (List.mem_append_left _ he)
    have hcurrent := hbefore.aligned.current
    unfold wholeFile at hbegins
    rw [Machine.run_concat] at hbegins
    change ((Cutter.call _ _).2).info.cutBeginFrame = _ at hbegins
    rw [call_last _ _ hlast, hcurrent, List.length_map, hacts] at hbegins
    omega
  subst hb
  refine ⟨htiled.tiles, htiled.files, ?_, ?_⟩
  . exact htiled.flatten
  . intro es e hpre
    have hshort := hpre.length_le
    rw [hlength, List.length_append, List.length_singleton] at hshort
    have hcall := hops e (hpre.mem (by simp))
    obtain ⟨a, hbefore⟩ := tiled_run samples dir filenamePrefix es (by omega)
      fun d hd => hops d (hpre.mem (List.mem_append_left [e] hd))
    exact hbefore.aligned.accounted (by omega) e hcall

end

def pausing : List Int :=
  1 :: List.replicate 499 0

theorem pausing_length : pausing.length = 500 := by
  unfold pausing
  rw [List.length_cons, List.length_replicate]

def paused : Cutter :=
  (cutting (List.replicate 81441 7) "pcm".toList "16k_1".toList).run
    (pausing.map fun a => { isActive := a })

theorem paused_call : (paused.call { isActive := 0 }).1 = -(500 : Nat) := by
  have hfields : paused.info.currentFrame = 500
      ∧ paused.info.cutBeginFrame = 0
      ∧ paused.info.isPerviousActive = 0
      ∧ paused.info.isContainActive = 1
      ∧ paused.info.previousAlongFrames = 499 := by
    decide +kernel
  obtain ⟨hcurrent, hbegin, hprevious, hcontain, halong⟩ := hfields
  have hsilence : paused.SilenceAfter 0 := ⟨rfl, by omega, by omega, by omega⟩
  have hcalled : paused.Called .succeeding 0 0 (paused.call { isActive := 0 }).1
      (paused.call { isActive := 0 }).2 :=
    paused.called .succeeding 0 0
  generalize (paused.call { isActive := 0 }).1 = res, (paused.call { isActive := 0 }).2 = c' at hcalled ⊢
  cases hcalled with
  | limit _ => exact congrArg Neg.neg hcurrent
  | after _ _ _ => exact congrArg Neg.neg hcurrent
  | continued _ _ hnot => exact absurd hsilence hnot
  | before _ hchange _ => exact absurd hprevious hchange
  | changed _ hchange _ => exact absurd hprevious hchange

theorem cutting_tiles_on_data
    : let samples : List UInt16 := List.replicate 81441 7
      let acts := pausing ++ 0 :: List.replicate 9 0
      let cutter := cutting samples "pcm".toList "16k_1".toList
      acts.length = frameCount samples
        ∧ (∃ b < 500, Cuts samples b 500 paused (paused.call { isActive := 0 }).2)
        ∧ ((cutter.run (wholeFile acts 0 1)).files.map (·.samples)).flatten = samples := by
  intro samples acts cutter
  have hframes : acts.length = frameCount samples := by
    unfold frameCount
    rw [List.length_append, pausing_length, List.length_replicate]
    rfl
  obtain ⟨-, -, hflatten, haccounted⟩ :=
    cutting_tiles samples "pcm".toList "16k_1".toList acts 0 1 hframes (by decide)
  have hpre : pausing.map (fun a => ({ isActive := a } : CutCall)) ++ [{ isActive := 0 }]
      <+: wholeFile acts 0 1 := by
    refine ⟨List.replicate 9 { isActive := 0 } ++ [{ isActive := 0, isLast := 1 }], ?_⟩
    simp [wholeFile, acts]
  have hreports := (haccounted _ _ hpre).reports 500 (by decide)
  exact ⟨hframes, hreports.mp paused_call, hflatten⟩

end Cutter
