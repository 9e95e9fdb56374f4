import RealtimeAsr.Vad.Limits

/-!
This module shows that a cut which is not forced falls in silence: `previous_along_frames` counts at
most the silent frames behind it, unless a forced cut left it stale, and then no cut asks for it.
-/

namespace Cutter

def QuietFrom (acts : List Int) (st : Nat) : Prop :=
  ∀ f, st ≤ f → f < acts.length → acts[f]? = some 0

theorem QuietFrom.concat {acts : List Int} {st : Nat} (h : QuietFrom acts st)
    : QuietFrom (acts ++ [0]) st := by
  intro f hst hlt
  rw [List.length_append, List.length_singleton] at hlt
  by_cases hf : f < acts.length
  . rw [List.getElem?_append_left hf]
    exact h f hst hf
  . have heq : f = acts.length := by omega
    rw [heq]
    simp

theorem quietFrom_length (acts : List Int) : QuietFrom acts acts.length := by
  intro f hst hlt
  omega

theorem QuietFrom.getElem? {acts : List Int} {st f : Nat} (h : QuietFrom acts st) (act : Int)
    (hst : st ≤ f) (hlt : f < acts.length)
    : (acts ++ [act])[f]? = some 0 := by
  rw [List.getElem?_append_left hlt]
  exact h f hst hlt

/--
The run of silence that `previous_along_frames` counts starts at `st`. A forced cut leaves the counter
as it is, and then the silence starts with the piece.
-/
structure Silence (acts : List Int) (c : Cutter) (st : Nat) : Prop where
  quiet : QuietFrom acts st
  counted : c.info.previousAlongFrames + st ≤ acts.length
    ∨ (c.info.isContainActive = 0 ∧ c.info.cutBeginFrame = st)

structure Fed (acts : List Int) (c : Cutter) : Prop where
  limited : c.Limited
  current : c.info.currentFrame = acts.length
  begins : 0 ≤ c.info.cutBeginFrame
  previous : c.info.isPerviousActive = 0 ∨ c.info.isPerviousActive = 1
  silence : c.info.isPerviousActive = 0 → ∃ st, Silence acts c st

section Call

variable {acts : List Int} {c : Cutter} {e : CutCall}

theorem Fed.silence_after (h : Fed acts c) (hsame : c.info.isPerviousActive = e.isActive)
    (hcut : c.SilenceAfter e.isActive)
    : 25 ≤ acts.length ∧ QuietFrom (acts ++ [e.isActive]) (acts.length - 25) := by
  obtain ⟨st, hquiet, hcounted⟩ := h.silence (hsame.trans hcut.silent)
  have hcontains := hcut.contains
  have halong := hcut.along
  have hcounted := hcounted.resolve_right fun hstale => hcontains hstale.1
  refine ⟨by omega, ?_⟩
  rw [hcut.silent]
  apply QuietFrom.concat
  intro f hst hlt
  exact hquiet f (by omega) hlt

theorem Fed.silence_before (h : Fed acts c) (hchange : c.info.isPerviousActive ≠ e.isActive)
    (hactive : e.isActive = 1) (hcut : c.SilenceBefore e.isActive)
    : 31 ≤ acts.length ∧ QuietFrom acts (acts.length - 31) := by
  have hprevious := h.previous.resolve_right fun hone => hchange (hone.trans hactive.symm)
  obtain ⟨st, hquiet, hcounted⟩ := h.silence hprevious
  have halong := hcut.along
  have hlong := hcut.long
  have hcurrent := h.current
  have hbegins := h.begins
  refine ⟨by omega, ?_⟩
  intro f hst hlt
  apply hquiet f _ hlt
  -- A stale counter does not matter: the piece is longer than the silence the cut asks for.
  cases hcounted with
  | inl hcounted => omega
  | inr hstale =>
    have := hstale.2
    omega

theorem Fed.call (h : Fed acts c) (hactive : e.isActive = 0 ∨ e.isActive = 1)
    : Fed (acts ++ [e.isActive]) (c.call e).2 := by
  have hlimited := h.limited.call e
  have hcalled : c.Called e.ops e.isActive e.isLast (c.call e).1 (c.call e).2 :=
    c.called e.ops e.isActive e.isLast
  have hcurrent := h.current
  have hbegins := h.begins
  have hbehind := h.limited.behind
  have hlen : ((acts ++ [e.isActive]).length : Int) = acts.length + 1 := by simp
  generalize (c.call e).1 = res, (c.call e).2 = c' at hcalled hlimited ⊢
  have fresh : e.isActive = 0 → QuietFrom (acts ++ [e.isActive]) acts.length := by
    intro hsilent
    rw [hsilent]
    exact (quietFrom_length acts).concat
  cases hcalled with
  | limit _ =>
    refine ⟨hlimited, ?_, ?_, hactive, ?_⟩
    . simp [mark, cutTo_info, hcurrent]
    . simp [mark, cutTo_info, hcurrent]
    . intro hsilent
      refine ⟨acts.length, fresh hsilent, Or.inr ?_⟩
      simp [mark, cutTo_info, hcurrent]
  | after _ _ hcut =>
    refine ⟨hlimited, ?_, ?_, hactive, ?_⟩
    . simp [mark, cutTo_info, hcurrent]
    . simp [mark, cutTo_info, hcurrent]
    . intro hsilent
      refine ⟨acts.length, fresh hsilent, Or.inl ?_⟩
      simp only [mark, hlen]
      omega
  | continued _ hsame _ =>
    refine ⟨hlimited, ?_, hbegins, hactive, ?_⟩
    . simp [mark, hcurrent]
    . intro hsilent
      have hsilent : e.isActive = 0 := hsilent
      obtain ⟨st, hquiet, hcounted⟩ := h.silence (hsame.trans hsilent)
      refine ⟨st, ?_, ?_⟩
      . rw [hsilent]
        exact hquiet.concat
      . cases hcounted with
        | inl hcounted =>
          left
          simp only [mark, hlen]
          omega
        | inr hstale => exact Or.inr hstale
  | before _ _ hcut =>
    have hlong := hcut.long
    refine ⟨hlimited, ?_, ?_, hactive, ?_⟩
    . simp [mark, cutTo_info, hcurrent]
    . simp only [mark, cutTo_info]
      omega
    . intro hsilent
      exact absurd hsilent hcut.active
  | changed _ _ _ =>
    refine ⟨hlimited, ?_, hbegins, hactive, ?_⟩
    . simp [mark, hcurrent]
    . intro hsilent
      refine ⟨acts.length, fresh hsilent, Or.inl ?_⟩
      simp only [mark, hlen]
      omega

end Call

theorem fed_run (samples : List UInt16) (dir filenamePrefix : List Char) (calls : List CutCall)
    (hactive : ∀ e ∈ calls, e.isActive = 0 ∨ e.isActive = 1)
    : Fed (calls.map (·.isActive)) ((cutting samples dir filenamePrefix).run calls) := by
  induction calls using List.reverseRecOn with
  | nil =>
    refine ⟨limited_run samples dir filenamePrefix [], rfl, le_refl 0, Or.inl rfl, ?_⟩
    intro _
    exact ⟨0, quietFrom_length [], Or.inl (le_refl 0)⟩
  | append_singleton calls e ih =>
    have ih := ih fun d hd => hactive d (List.mem_append_left [e] hd)
    rw [Machine.run_concat, List.map_append]
    exact ih.call (hactive e (by simp))

/--
A cut at frame `L` that is not forced by the length of the piece has either 25 inactive frames before
an inactive frame `L`, or 31 inactive frames from `L - 1` on before an active frame.
-/
theorem cut_in_silence (samples : List UInt16) (dir filenamePrefix : List Char)
    (calls : List CutCall) (e : CutCall)
    (hactive : ∀ d ∈ calls ++ [e], d.isActive = 0 ∨ d.isActive = 1)
    (hlast : e.isLast = 0)
    : let c := (cutting samples dir filenamePrefix).run calls
      let acts := (calls ++ [e]).map (·.isActive)
      c.writes e ≠ [] ∨ (c.call e).1 < 0 →
        c.info.currentFrame - c.info.cutBeginFrame ≠ calFrameByTime fileCutMaxMs →
          ∃ L : Nat,
            (c.call e).1 = -L
              ∧ (c.call e).2.info.cutBeginFrame = L
              ∧ ((25 ≤ L ∧ ∀ f, L - 25 ≤ f → f ≤ L → acts[f]? = some 0)
                ∨ (1 ≤ L
                  ∧ (∀ f, L - 1 ≤ f → f ≤ L + 29 → acts[f]? = some 0)
                  ∧ acts[L + 30]? = some 1
                  ∧ L + 30 = calls.length)) := by
  intro c acts hcut hshort
  have hmax : calFrameByTime fileCutMaxMs = 1000 := by decide
  have hfed : Fed (calls.map (·.isActive)) c := fed_run samples dir filenamePrefix calls
    fun d hd => hactive d (List.mem_append_left [e] hd)
  have hacts : acts = calls.map (·.isActive) ++ [e.isActive] := by simp [acts]
  have hcurrent := hfed.current
  have hlimit : ¬c.AtLimit e.isLast := by
    rw [hmax] at hshort
    rintro (hforce | hfull)
    . exact hforce hlast
    . exact hshort hfull
  have hcalled : c.Called e.ops e.isActive e.isLast (c.call e).1 (c.call e).2 :=
    c.called e.ops e.isActive e.isLast
  unfold writes at hcut
  generalize (c.call e).1 = res, (c.call e).2 = c' at hcut hcalled ⊢
  rw [hacts]
  cases hcalled with
  | limit h => exact absurd h hlimit
  | after h hsame hsilence =>
    obtain ⟨hlen, hquiet⟩ := hfed.silence_after hsame hsilence
    rw [List.length_map] at hcurrent hlen hquiet
    refine ⟨calls.length, by rw [hcurrent], by simp [mark, cutTo_info, hcurrent], Or.inl ⟨hlen, ?_⟩⟩
    intro f hst hle
    apply hquiet f hst
    simp
    omega
  | continued _ _ _ => simp [mark] at hcut
  | before h hchange hsilence =>
    have hone := (hactive e (by simp)).resolve_left hsilence.active
    obtain ⟨hlen, hquiet⟩ := hfed.silence_before hchange hone hsilence
    rw [List.length_map] at hcurrent hlen hquiet
    have hback : c.info.currentFrame - 30 = ((calls.length - 30 : Nat) : Int) := by omega
    have hback' : calls.length - 30 + 30 = calls.length := by omega
    refine ⟨calls.length - 30, by rw [hback], ?_, Or.inr ⟨by omega, ?_, ?_, hback'⟩⟩
    . simp only [mark, cutTo_info]
      exact hback
    . intro f hst hle
      apply hquiet.getElem? _ (by omega)
      rw [List.length_map]
      omega
    . rw [hback', List.getElem?_append_right (by simp)]
      simp [hone]
  | changed _ _ _ => simp [mark] at hcut

def fiveSeconds : List CutCall :=
  { isActive := 1 } :: List.replicate 499 { isActive := 0 }

theorem fiveSeconds_active
    : ∀ d ∈ fiveSeconds ++ [{ isActive := 0 }], d.isActive = 0 ∨ d.isActive = 1 := by
  intro d hd
  simp only [fiveSeconds, List.cons_append, List.mem_cons, List.mem_append, List.mem_replicate,
    List.not_mem_nil, or_false] at hd
  rcases hd with rfl | ⟨_, rfl⟩ | rfl
  . exact Or.inr rfl
  . exact Or.inl rfl
  . exact Or.inl rfl

theorem fiveSeconds_writes
    : let c := (cutting [] [] []).run fiveSeconds
      c.writes { isActive := 0 } ≠ []
        ∧ c.info.currentFrame - c.info.cutBeginFrame ≠ calFrameByTime fileCutMaxMs := by
  decide +kernel

theorem cut_in_silence_on_data
    : let c := (cutting [] [] []).run fiveSeconds
      let e : CutCall := { isActive := 0 }
      let acts := (fiveSeconds ++ [e]).map (·.isActive)
      ∃ L : Nat,
        (c.call e).1 = -L
          ∧ (c.call e).2.info.cutBeginFrame = L
          ∧ ((25 ≤ L ∧ ∀ f, L - 25 ≤ f → f ≤ L → acts[f]? = some 0)
            ∨ (1 ≤ L
              ∧ (∀ f, L - 1 ≤ f → f ≤ L + 29 → acts[f]? = some 0)
              ∧ acts[L + 30]? = some 1
              ∧ L + 30 = fiveSeconds.length)) :=
  cut_in_silence [] [] [] fiveSeconds { isActive := 0 } fiveSeconds_active rfl
    (Or.inl fiveSeconds_writes.1) fiveSeconds_writes.2

end Cutter
