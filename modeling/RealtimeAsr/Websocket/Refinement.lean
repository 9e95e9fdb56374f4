import RealtimeAsr.Websocket.Session

/-!
This module shows that the streaming segmentation of a session refines the batch segmentation of the
frames it has decided so far.
-/

variable {ν : Type}

theorem session_keeps_running (env : Env ν) (state : Int) (vad : ν) (start : StartMsg)
    (calls : List Call) (hanswers : env.Answers) (hwrites : env.Writes)
    (hended : Call.ended calls = false)
    (hpass : ∀ pre, pre ++ [.pass] <+: calls → (session env state vad start pre).handler.state = 1)
    : (session env state vad start calls).decoder = .running := by
  induction calls using List.reverseRecOn with
  | nil =>
    cases session_nil env state vad start with
    | inl h =>
      obtain ⟨_, nbest, continuousDecoding, heq⟩ := h
      rw [heq]
      rfl
    | inr h =>
      rw [hwrites] at h
      cases h.1
  | append_singleton calls call ih =>
    rw [Call.ended_append, Bool.or_eq_false_iff] at hended
    have hrun := ih hended.1 fun pre hpre => hpass pre (hpre.trans (List.prefix_append _ _))
    have hrunning := (running_session hrun).1
    rw [session_concat]
    cases call with
    | data buffer => exact (hrunning.step_data buffer).decoder
    | stop v => cases hended.2
    | pass =>
      have hstate := hpass calls (List.prefix_refl _)
      show ((session env state vad start calls).pass env).decoder = .running
      have hto := session_pass hrun
      generalize (session env state vad start calls).pass env = s at hto ⊢
      cases hto with
      | skipped => exact hrun
      | decoded _ hkept => exact hkept.decoder.trans hrun
      | finished h3 =>
        rw [hstate] at h3
        cases h3
      | rescored h2 =>
        rw [hstate] at h2
        cases h2
      | failed _ _ _ hblames => exact absurd hanswers (hblames hrunning.closed hwrites)

/--
Once there is audio, every pass finds `state_ == 1` until the session ends.
-/
theorem session_data_first (env : Env ν) (state : Int) (vad : ν) (start : StartMsg) (buffer : Bytes)
    (calls : List Call) (hanswers : env.Answers) (hwrites : env.Writes)
    (hended : Call.ended calls = false)
    : ∀ pre, pre ++ [.pass] <+: .data buffer :: calls →
        (session env state vad start pre).handler.state = 1 := by
  induction calls using List.reverseRecOn with
  | nil =>
    intro pre hpre
    have hmem := hpre.mem (List.mem_append_right pre List.mem_cons_self)
    cases List.mem_singleton.mp hmem
  | append_singleton calls call ih =>
    rw [Call.ended_append, Bool.or_eq_false_iff] at hended
    have ih := ih hended.1
    intro pre hpre
    rw [← List.cons_append] at hpre
    cases List.prefix_concat_iff.mp hpre with
    | inl hwhole =>
      obtain ⟨hpre, -⟩ := List.append_inj' hwhole rfl
      have hrun := session_keeps_running env state vad start (.data buffer :: calls) hanswers hwrites
        hended.1 ih
      have hstate := (running_session hrun).1.state
      have hafter : Call.ended (.data buffer :: calls) = false := hended.1
      rw [Call.stateAfter, hafter] at hstate
      rw [hpre]
      exact hstate
    | inr hshort => exact ih pre hshort

/--
With `L = last_frame_`, the decode thread has computed the decisions of the first `L` frames, each
once, and posted exactly what one batch over these frames posts.
-/
theorem streaming_refines_batch (env : Env ν) (state : Int) (vad : ν) (start : StartMsg)
    (calls : List Call) (reply : Post → Bytes) (hreply : env.Replies reply) (hwrites : env.Writes)
    (hended : Call.ended calls = false)
    (hpass : ∀ pre, pre ++ [.pass] <+: calls → (session env state vad start pre).handler.state = 1)
    : let c := session env state vad start calls
      let L := c.handler.lastFrame
      let samples := (Call.audio calls).take (L * ConnectionHandler.samplesPerFrame)
      let decisions := (vadRun env vad samples L).1
      let batch := ({} : Acts).feed decisions
      c.decoder = .running
        ∧ c.handler.samples = Call.audio calls
        ∧ L = (Call.audio (Call.seen calls)).length / ConnectionHandler.samplesPerFrame
        ∧ c.handler.acts.acts = decisions
        ∧ c.access.filterMap Access.frame? = List.range L
        ∧ c.handler.acts = batch
        ∧ c.handler.nsegDone = c.handler.acts.segEnds.length
        ∧ c.posts.filter (·.id.isSeg) = segPosts env.round batch samples batch.segEnds.length
        ∧ c.handler.seginfos = segInfos reply env.round batch samples batch.segEnds.length := by
  intro c L samples decisions batch
  have hrun := session_keeps_running env state vad start calls hreply.answers hwrites hended hpass
  obtain ⟨hrunning, hsync⟩ := running_session hrun
  have hroom : L * ConnectionHandler.samplesPerFrame ≤ (Call.audio calls).length := by
    have := hsync.track.room
    rw [hsync.acts_length, hrunning.samples] at this
    exact this
  have hlen : samples.length = L * ConnectionHandler.samplesPerFrame := by
    rw [List.length_take]
    exact Nat.min_eq_left hroom
  -- Samples behind the last decided frame change neither the decisions nor the requests.
  have hsplit : Call.audio calls = samples ++ (Call.audio calls).drop _ :=
    (List.take_append_drop _ _).symm
  have hbatch : c.handler.acts = batch := by
    rw [hsync.acts, hrunning.samples, hsplit, batchActs_append env vad _ _ (Nat.le_of_eq hlen.symm)]
    rfl
  have hpaired : batch.Paired := by
    rw [← hbatch]
    exact hsync.track.paired
  have hfit : batch.acts.length * ConnectionHandler.samplesPerFrame ≤ samples.length := by
    rw [← hbatch, hsync.acts_length, hlen]
  have hwalk : ∀ {β : Type} (f : Nat → Nat → Post → β),
      segWalk f env.round c.handler.acts c.handler.samples c.handler.acts.segEnds.length
        = segWalk f env.round batch samples batch.segEnds.length := by
    intro β f
    rw [hbatch, hrunning.samples, hsplit]
    exact segWalk_stable env.round f (Acts.Extends.refl _) hpaired hfit _ (Nat.le_refl _)
  refine ⟨hrun, hrunning.samples, hrunning.frames, ?_, ?_, hbatch, hsync.nseg, ?_, ?_⟩
  . rw [hbatch]
    simp [batch]
  . rw [hsync.track.frames, hsync.acts_length]
  . rw [hsync.track.posts]
    exact hwalk _
  . rw [hsync.track.infos reply hreply]
    exact hwalk _

section Scripted

def Env.scripted (decisions : Nat → Int) : Env Nat where
  vadProcess n _ := (decisions n, n + 1)
  post _ _ := some []
  write _ _ := true
  close _ := true
  round := .exact

variable (decisions : Nat → Int)

theorem scripted_replies : (Env.scripted decisions).Replies fun _ => [] :=
  fun _ _ => rfl

theorem scripted_answers : (Env.scripted decisions).Answers :=
  (scripted_replies decisions).answers

theorem scripted_writes : (Env.scripted decisions).Writes :=
  fun _ _ => rfl

theorem vadRun_scripted (samples : List Int16) (n : Nat)
    : vadRun (Env.scripted decisions) 0 samples n = ((List.range n).map decisions, n) := by
  induction n with
  | zero => rfl
  | succ n ih =>
    unfold vadRun
    rw [ih, List.range_succ, List.map_append]
    rfl

theorem int16s_replicate (k : Nat) : (int16s (List.replicate (2 * k) 0)).length = k := by
  rw [int16s_length, List.length_replicate, Nat.mul_div_cancel_left _ (by decide)]

end Scripted

def speechThenSilence (n : Nat) : Int :=
  if n < 210 then 1 else 0

def silentMessage (frames : Nat) : Bytes :=
  List.replicate (2 * (frames * ConnectionHandler.samplesPerFrame + ConnectionHandler.header)) 0

def twoMessages : List Call :=
  [.data (silentMessage 100), .pass, .data (silentMessage 125), .pass]

theorem twoMessages_length : (Call.audio twoMessages).length = 225 * ConnectionHandler.samplesPerFrame := by
  have hlen (frames : Nat) : ((int16s (silentMessage frames)).drop ConnectionHandler.header).length
      = frames * ConnectionHandler.samplesPerFrame := by
    rw [List.length_drop, silentMessage, int16s_replicate, Nat.add_sub_cancel]
  simp only [twoMessages, Call.audio, List.append_nil, List.length_append, hlen]
  rw [← Nat.add_mul]

theorem streaming_refines_batch_on_data
    : let c := session (Env.scripted speechThenSilence) 0 0 .plain twoMessages
      let samples := (Call.audio twoMessages).take (225 * ConnectionHandler.samplesPerFrame)
      let batch := ({} : Acts).feed ((List.range 225).map speechThenSilence)
      c.decoder = .running
        ∧ c.handler.acts = batch
        ∧ c.handler.acts.segEnds = [224]
        ∧ c.handler.nsegDone = 1
        ∧ c.posts.filter (·.id.isSeg) = segPosts .exact batch samples 1
        ∧ c.handler.seginfos = segInfos (fun _ => []) .exact batch samples 1 := by
  have hrefines := streaming_refines_batch (Env.scripted speechThenSilence) 0 0 .plain twoMessages
    (fun _ => []) (scripted_replies _) (scripted_writes _) rfl
    (session_data_first (Env.scripted speechThenSilence) 0 0 .plain (silentMessage 100)
      [.pass, .data (silentMessage 125), .pass] (scripted_answers _) (scripted_writes _) rfl)
  have hseen : Call.seen twoMessages = twoMessages :=
    Call.seen_concat_pass [.data (silentMessage 100), .pass, .data (silentMessage 125)]
  have hends : (({} : Acts).feed ((List.range 225).map speechThenSilence)).segEnds = [224] := by
    decide +kernel
  generalize session (Env.scripted speechThenSilence) 0 0 .plain twoMessages = c at hrefines ⊢
  obtain ⟨hrun, -, hframes, -, -, hbatch, hnseg, hposts, hinfos⟩ := hrefines
  have hlast : c.handler.lastFrame = 225 := by
    rw [hframes, hseen, twoMessages_length]
    exact Nat.mul_div_cancel _ (by decide)
  rw [vadRun_scripted] at hbatch hposts hinfos
  rw [hlast] at hbatch hposts hinfos
  rw [hbatch, hends] at hnseg
  rw [hends] at hposts hinfos
  exact ⟨hrun, hbatch, (congrArg Acts.segEnds hbatch).trans hends, hnseg, hposts, hinfos⟩
