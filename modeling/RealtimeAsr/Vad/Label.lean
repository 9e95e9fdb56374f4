import RealtimeAsr.Vad.Silence

/-!
This module relates `is_contain_active` and the label in the name of a piece to the activity of the
frames: both are right until a forced cut falls on an active frame.
-/

namespace Cutter

def Heard (acts : List Int) (b e : Int) : Prop :=
  ∃ f : Nat, b ≤ f ∧ f < e ∧ acts[f]? = some 1

theorem not_heard_self (acts : List Int) (b : Int) : ¬Heard acts b b := by
  rintro ⟨f, hb, he, _⟩
  omega

theorem heard_concat_silent {acts : List Int} {n : Int} (hn : n = acts.length) (b : Int)
    : Heard (acts ++ [0]) b (n + 1) ↔ Heard acts b n := by
  constructor
  . rintro ⟨f, hb, he, hact⟩
    by_cases hf : f < acts.length
    . rw [List.getElem?_append_left hf] at hact
      exact ⟨f, hb, by omega, hact⟩
    . have hlast : f = acts.length := by omega
      rw [hlast] at hact
      simp at hact
  . rintro ⟨f, hb, he, hact⟩
    refine ⟨f, hb, by omega, ?_⟩
    rw [List.getElem?_append_left (by omega)]
    exact hact

theorem not_heard_fresh {acts : List Int} {n : Int} (hn : n = acts.length)
    : ¬Heard (acts ++ [0]) n (n + 1) := by
  rw [heard_concat_silent hn]
  exact not_heard_self acts n

theorem heard_concat_active {acts : List Int} {n b : Int} (hn : n = acts.length) (hb : b ≤ n)
    : Heard (acts ++ [1]) b (n + 1) := by
  refine ⟨acts.length, by omega, by omega, ?_⟩
  simp

theorem QuietFrom.heard {acts : List Int} {st : Nat} {b e n : Int} (h : QuietFrom acts st)
    (hn : n = acts.length) (hst : st ≤ e) (he : e ≤ n)
    : Heard acts b n ↔ Heard acts b e := by
  constructor
  . rintro ⟨f, hb, hf, hact⟩
    refine ⟨f, hb, ?_, hact⟩
    by_contra hlate
    have hquiet := h f (by omega) (by omega)
    rw [hquiet] at hact
    simp at hact
  . rintro ⟨f, hb, hf, hact⟩
    exact ⟨f, hb, by omega, hact⟩

structure Truthful (acts : List Int) (c : Cutter) : Prop where
  fed : Fed acts c
  flag : c.info.isContainActive ≠ 0 ↔ Heard acts c.info.cutBeginFrame c.info.currentFrame
  carried : c.info.isPerviousActive = 1 → c.info.isContainActive ≠ 0

def ForcedInSpeech (c : Cutter) (e : CutCall) : Prop :=
  c.AtLimit e.isLast ∧ e.isActive ≠ 0

section Call

variable {acts : List Int} {c : Cutter} {e : CutCall}

theorem Truthful.call (h : Truthful acts c) (hactive : e.isActive = 0 ∨ e.isActive = 1)
    (hforced : ¬c.ForcedInSpeech e)
    : Truthful (acts ++ [e.isActive]) (c.call e).2 := by
  have hfed := h.fed.call hactive
  have hcalled : c.Called e.ops e.isActive e.isLast (c.call e).1 (c.call e).2 :=
    c.called e.ops e.isActive e.isLast
  have hcurrent := h.fed.current
  have hbehind := h.fed.limited.behind
  generalize (c.call e).1 = res, (c.call e).2 = c' at hcalled hfed ⊢
  refine ⟨hfed, ?_, ?_⟩
  . cases hcalled with
    | limit hlimit =>
      have hsilent : e.isActive = 0 := by
        by_contra hact
        exact hforced ⟨hlimit, hact⟩
      have hfresh := not_heard_fresh hcurrent
      rw [hsilent]
      simp only [mark, cutTo_info]
      exact iff_of_false (by decide) hfresh
    | after _ _ hcut =>
      have hfresh := not_heard_fresh hcurrent
      rw [hcut.silent]
      simp only [mark, cutTo_info]
      exact iff_of_false (by decide) hfresh
    | continued _ hsame _ =>
      simp only [mark]
      cases hactive with
      | inl hsilent =>
        rw [hsilent, heard_concat_silent hcurrent]
        exact h.flag
      | inr hact =>
        have hheard := heard_concat_active hcurrent hbehind
        have hcontain := h.carried (hsame.trans hact)
        rw [hact]
        exact iff_of_true hcontain hheard
    | before _ _ hcut =>
      have hact := hactive.resolve_left hcut.active
      have hheard := heard_concat_active hcurrent
        (by omega : c.info.currentFrame - 30 ≤ c.info.currentFrame)
      rw [hact]
      simp only [mark, cutTo_info]
      exact iff_of_true (by decide) hheard
    | changed _ _ _ =>
      simp only [mark]
      cases hactive with
      | inl hsilent =>
        rw [hsilent, heard_concat_silent hcurrent]
        simpa using h.flag
      | inr hact =>
        have hheard := heard_concat_active hcurrent hbehind
        rw [hact]
        exact iff_of_true (by simp) hheard
  . cases hcalled with
    | limit hlimit =>
      intro hact
      have hact : e.isActive = 1 := hact
      exact absurd ⟨hlimit, by omega⟩ hforced
    | after _ _ hcut =>
      intro hact
      have hact : e.isActive = 1 := hact
      have hsilent := hcut.silent
      omega
    | continued _ hsame _ =>
      intro hact
      exact h.carried (hsame.trans hact)
    | before _ _ _ =>
      intro _
      simp [mark]
    | changed _ _ _ =>
      intro hact
      have hact : e.isActive = 1 := hact
      simp [mark, hact]

theorem not_truthful_of_forced (hfed : Fed acts c) (hactive : e.isActive = 0 ∨ e.isActive = 1)
    (hforced : c.ForcedInSpeech e)
    : ¬((c.call e).2.info.isContainActive ≠ 0
        ↔ Heard (acts ++ [e.isActive]) (c.call e).2.info.cutBeginFrame
          (c.call e).2.info.currentFrame) := by
  obtain ⟨hlimit, hact⟩ := hforced
  have hone := hactive.resolve_left hact
  have hheard := heard_concat_active hfed.current (le_refl c.info.currentFrame)
  have hcalled : c.Called e.ops e.isActive e.isLast (c.call e).1 (c.call e).2 :=
    c.called e.ops e.isActive e.isLast
  generalize (c.call e).1 = res, (c.call e).2 = c' at hcalled ⊢
  cases hcalled with
  | limit _ =>
    rw [hone]
    simp only [mark, cutTo_info]
    intro hflag
    exact hflag.mpr hheard rfl
  | after h _ _ => exact absurd hlimit h
  | continued h _ _ => exact absurd hlimit h
  | before h _ _ => exact absurd hlimit h
  | changed h _ _ => exact absurd hlimit h

theorem cutWriteFile_files (ops : FileOps) (c : Cutter) (frames : Int)
    : (c.cutWriteFile ops frames).2.files = c.files
      ∨ ∃ data, (c.cutWriteFile ops frames).2.files = c.files ++ [⟨c.info.resultFilename, data⟩] := by
  unfold cutWriteFile
  dsimp only
  split
  . split
    . exact Or.inl rfl
    . right
      split
      . exact ⟨_, rfl⟩
      . exact ⟨_, rfl⟩
  . exact Or.inl rfl

theorem cutTo_file_name {ops : FileOps} {b : Int} {file : OutFile}
    (h : (c.cutTo ops b).files = c.files ++ [file])
    : file.name = snprintf CutInfo.resultFilenameSize (c.info.filename b) := by
  unfold cutTo cutFrame at h
  dsimp only at h
  rw [if_pos (Or.inl (by decide))] at h
  dsimp only at h
  generalize hnamed : ({ c with info := { c.info with
    resultFilename := snprintf CutInfo.resultFilenameSize (c.info.filename b) } } : Cutter) = d at h
  have hfiles : d.files = c.files := by rw [← hnamed]
  have hname : d.info.resultFilename = snprintf CutInfo.resultFilenameSize (c.info.filename b) := by
    rw [← hnamed]
  rcases d.cutWriteFile_files ops (b - c.info.cutBeginFrame) with hsame | ⟨data, hadd⟩
  . rw [hsame, hfiles] at h
    simp at h
  . rw [hadd, hfiles] at h
    have hfile := List.append_cancel_left h
    simp only [List.cons.injEq, and_true] at hfile
    rw [← hfile, ← hname]

end Call

def activeEnding : List Char :=
  "_A.pcm".toList

theorem filename_ending (c : Cutter) (lastFrame : Int)
    : activeEnding <:+ c.info.filename lastFrame ↔ c.info.isContainActive ≠ 0 := by
  have hsplit : ∀ (stem : List Char) (x : Char),
      activeEnding <:+ stem ++ ['_'] ++ [x] ++ ".pcm".toList ↔ x = 'A' := by
    intro stem x
    have hend : stem ++ ['_'] ++ [x] ++ ".pcm".toList = stem ++ '_' :: x :: ".pcm".toList := by
      simp
    rw [hend]
    constructor
    . intro h
      have hlength : activeEnding.length = ('_' :: x :: ".pcm".toList).length := rfl
      have htail := List.suffix_of_suffix_length_le h (List.suffix_append stem _) hlength.le
      have hsame : '_' :: 'A' :: ".pcm".toList = '_' :: x :: ".pcm".toList :=
        htail.eq_of_length hlength
      simp only [List.cons.injEq, true_and, and_true] at hsame
      exact hsame.symm
    . rintro rfl
      exact List.suffix_append stem _
  unfold CutInfo.filename
  rw [hsplit]
  by_cases hcontain : c.info.isContainActive ≠ 0
  . simp [hcontain]
  . simp [hcontain]

/--
The label is in the name only where the whole name fits into `result_filename`.
-/
structure Labelled (acts : List Int) (c : Cutter) (e : CutCall) : Prop where
  flag : c.info.isContainActive ≠ 0 ↔ Heard acts c.info.cutBeginFrame c.info.currentFrame
  label : ∀ file, (c.call e).2.files = c.files ++ [file] →
    (c.info.filename (c.call e).2.info.cutBeginFrame).length < CutInfo.resultFilenameSize →
      (activeEnding <:+ file.name
        ↔ Heard acts c.info.cutBeginFrame (c.call e).2.info.cutBeginFrame)

theorem snprintf_of_fits {size : Nat} {text : List Char} (h : text.length < size)
    : snprintf size text = text := by
  unfold snprintf
  rw [List.take_of_length_le]
  omega

section

variable {acts : List Int} {c : Cutter} {e : CutCall}

theorem Truthful.cutTo_label (h : Truthful acts c) {b isActive along contain : Int} {file : OutFile}
    (hfile : ((c.cutTo e.ops b).mark isActive along contain).files = c.files ++ [file])
    (hfits : (c.info.filename b).length < CutInfo.resultFilenameSize)
    (hheard : Heard acts c.info.cutBeginFrame c.info.currentFrame
      ↔ Heard acts c.info.cutBeginFrame b)
    : activeEnding <:+ file.name ↔ Heard acts c.info.cutBeginFrame b := by
  have hname : file.name = snprintf CutInfo.resultFilenameSize (c.info.filename b) :=
    cutTo_file_name (b := b) hfile
  rw [hname, snprintf_of_fits hfits, filename_ending, h.flag, hheard]

theorem Truthful.labelled (h : Truthful acts c) (hactive : e.isActive = 0 ∨ e.isActive = 1)
    : Labelled acts c e := by
  refine ⟨h.flag, ?_⟩
  intro file hfile hfits
  have hcalled : c.Called e.ops e.isActive e.isLast (c.call e).1 (c.call e).2 :=
    c.called e.ops e.isActive e.isLast
  have hcurrent := h.fed.current
  generalize (c.call e).1 = res, (c.call e).2 = c' at hcalled hfile hfits ⊢
  cases hcalled with
  | limit _ =>
    simp only [mark, cutTo_info] at hfits ⊢
    exact h.cutTo_label hfile hfits Iff.rfl
  | after _ _ _ =>
    simp only [mark, cutTo_info] at hfits ⊢
    exact h.cutTo_label hfile hfits Iff.rfl
  | continued _ _ _ => simp [mark] at hfile
  | before _ hchange hcut =>
    have hone := hactive.resolve_left hcut.active
    have hquiet := h.fed.silence_before hchange hone hcut
    simp only [mark, cutTo_info] at hfits ⊢
    apply h.cutTo_label hfile hfits
    -- The piece ends 30 frames before the active frame, in the silence.
    exact hquiet.2.heard hcurrent (by omega) (by omega)
  | changed _ _ _ => simp [mark] at hfile

end

theorem prefix_pair {α : Type} {es fs : List α} {d : α} (h : fs ++ [d] <+: es) (e : α)
    : ∃ f, fs ++ [d, f] <+: es ++ [e] := by
  obtain ⟨rest, rfl⟩ := h
  cases rest with
  | nil =>
    refine ⟨e, ?_⟩
    simp
  | cons f rest =>
    refine ⟨f, ?_⟩
    simp

section

variable (samples : List UInt16) (dir filenamePrefix : List Char)

theorem truthful_run (calls : List CutCall)
    (hactive : ∀ d ∈ calls, d.isActive = 0 ∨ d.isActive = 1)
    (hforced : ∀ es d, es ++ [d] <+: calls →
      ¬((cutting samples dir filenamePrefix).run es).ForcedInSpeech d)
    : Truthful (calls.map (·.isActive)) ((cutting samples dir filenamePrefix).run calls) := by
  induction calls using List.reverseRecOn with
  | nil =>
    refine ⟨fed_run samples dir filenamePrefix [] hactive, ?_, ?_⟩
    . have hnone := not_heard_self [] 0
      exact iff_of_false (fun h => h rfl) hnone
    . intro h
      have hzero : (0 : Int) = 1 := h
      omega
  | append_singleton calls e ih =>
    have ih := ih (fun d hd => hactive d (List.mem_append_left [e] hd))
      fun es d hpre => hforced es d (hpre.trans (List.prefix_append calls [e]))
    rw [Machine.run_concat, List.map_append]
    exact ih.call (hactive e (by simp)) (hforced calls e (List.prefix_refl _))

theorem not_labelled_of_forced {calls : List CutCall} {d : CutCall}
    (hactive : ∀ f ∈ calls ++ [d], f.isActive = 0 ∨ f.isActive = 1)
    (hforced : ((cutting samples dir filenamePrefix).run calls).ForcedInSpeech d) (e : CutCall)
    : ¬Labelled ((calls ++ [d]).map (·.isActive))
        ((cutting samples dir filenamePrefix).run (calls ++ [d])) e := by
  intro hlabelled
  have hflag := hlabelled.flag
  have hfed := fed_run samples dir filenamePrefix calls
    fun f hf => hactive f (List.mem_append_left [d] hf)
  rw [Machine.run_concat, List.map_append] at hflag
  exact not_truthful_of_forced hfed (hactive d (by simp)) hforced hflag

/--
The flag and the labels are right at every call of a run exactly when no call but the last one forces a
cut at an active frame.
-/
theorem labels_truthful (calls : List CutCall)
    (hactive : ∀ d ∈ calls, d.isActive = 0 ∨ d.isActive = 1)
    : (∀ es e, es ++ [e] <+: calls →
        Labelled (es.map (·.isActive)) ((cutting samples dir filenamePrefix).run es) e)
      ↔
      (∀ es d e, es ++ [d, e] <+: calls →
        ¬((cutting samples dir filenamePrefix).run es).ForcedInSpeech d) := by
  constructor
  . intro hlabelled es d e hpre hforced
    have hsplit : es ++ [d, e] = (es ++ [d]) ++ [e] := by simp
    rw [hsplit] at hpre
    apply not_labelled_of_forced samples dir filenamePrefix _ hforced e (hlabelled _ e hpre)
    intro f hf
    exact hactive f (hpre.mem (List.mem_append_left [e] hf))
  . intro hforced es e hpre
    have htruthful := truthful_run samples dir filenamePrefix es
      (fun d hd => hactive d (hpre.mem (List.mem_append_left [e] hd)))
      fun fs d hshort => by
        obtain ⟨f, hpair⟩ := prefix_pair hshort e
        exact hforced fs d f (hpair.trans hpre)
    exact htruthful.labelled (hactive e (hpre.mem (by simp)))

def speaking (n : Nat) : List CutCall :=
  List.replicate n { isActive := 1 }

theorem speaking_succ (n : Nat) : speaking (n + 1) = speaking n ++ [{ isActive := 1 }] := by
  unfold speaking
  rw [List.replicate_succ']

theorem speaking_active (n : Nat) : ∀ d ∈ speaking n, d.isActive = 0 ∨ d.isActive = 1 := by
  intro d hd
  rw [(List.mem_replicate.mp hd).2]
  exact Or.inr rfl

structure Speech (n : Nat) (c : Cutter) : Prop where
  current : c.info.currentFrame = n
  begins : c.info.cutBeginFrame = 0
  previous : n ≠ 0 → c.info.isPerviousActive = 1
  fresh : n = 0 → c.info.previousAlongFrames = 0

theorem Speech.call {n : Nat} {c : Cutter} (h : Speech n c) (hn : n < 1000)
    : Speech (n + 1) (c.call { isActive := 1 }).2 := by
  have hcurrent := h.current
  have hbegins := h.begins
  have hcalled : c.Called .succeeding 1 0 (c.call { isActive := 1 }).1 (c.call { isActive := 1 }).2 :=
    c.called .succeeding 1 0
  generalize (c.call { isActive := 1 }).1 = res, (c.call { isActive := 1 }).2 = c' at hcalled ⊢
  cases hcalled with
  | limit hlimit =>
    have hfull := hlimit.resolve_left (by decide)
    omega
  | after _ _ hcut => exact absurd hcut.silent (by decide)
  | continued _ _ _ => exact ⟨by simp [mark, hcurrent], hbegins, fun _ => rfl, by omega⟩
  | before _ hchange hcut =>
    by_cases hfresh : n = 0
    . have halong := hcut.along
      have hzero := h.fresh hfresh
      omega
    . exact absurd (h.previous hfresh) hchange
  | changed _ _ _ => exact ⟨by simp [mark, hcurrent], hbegins, fun _ => rfl, by omega⟩

theorem speech_run (n : Nat) (hn : n ≤ 1000)
    : Speech n ((cutting samples dir filenamePrefix).run (speaking n)) := by
  induction n with
  | zero => exact ⟨rfl, rfl, fun h => absurd rfl h, fun _ => rfl⟩
  | succ n ih =>
    rw [speaking_succ, Machine.run_concat]
    exact (ih (by omega)).call (by omega)

end

theorem labels_truthful_on_speech
    : (∀ es e, es ++ [e] <+: speaking 1001 →
        Labelled (es.map (·.isActive)) ((cutting [] [] []).run es) e)
      ↔
      (∀ es d e, es ++ [d, e] <+: speaking 1001 →
        ¬((cutting [] [] []).run es).ForcedInSpeech d) :=
  labels_truthful [] [] [] (speaking 1001) (speaking_active 1001)

theorem speech_not_labelled
    : let cutter := cutting (List.replicate 160320 7) "output_pcm".toList "16k_1.pcm".toList
      ¬∀ es e, es ++ [e] <+: speaking 1002 →
        Labelled (es.map (·.isActive)) (cutter.run es) e := by
  intro cutter hlabelled
  obtain ⟨n, hn⟩ : ∃ n, n = 1000 := ⟨1000, rfl⟩
  have hspeech : Speech n (cutter.run (speaking n)) := speech_run _ _ _ n hn.le
  have hforced : (cutter.run (speaking n)).ForcedInSpeech { isActive := 1 } := by
    refine ⟨Or.inr ?_, by decide⟩
    rw [hspeech.current, hspeech.begins, hn]
    rfl
  have hwhole : speaking 1002 = speaking n ++ [{ isActive := 1 }] ++ [{ isActive := 1 }] := by
    rw [← speaking_succ, ← speaking_succ, hn]
  rw [hwhole] at hlabelled
  apply not_labelled_of_forced _ _ _ _ hforced { isActive := 1 }
  . exact hlabelled _ _ (List.prefix_refl _)
  . rw [← speaking_succ]
    exact speaking_active (n + 1)

end Cutter
