import RealtimeAsr.Websocket.Agree
import RealtimeAsr.Websocket.Reader

/-!
This module shows when `reset` makes a handler as good as a new one: only as long as no sample of audio
has arrived, since it leaves the ranges, the collected results and the marks of the decode thread as
they are.
-/

variable {ν : Type}

namespace ConnectionHandler

/--
No range that was stored has a sample in it.
-/
def NoAudio (h : ConnectionHandler) : Prop :=
  ∀ range ∈ h.rcvRangeSmps, range.2 < range.1

structure Handled (h : ConnectionHandler) : Prop where
  noises : h.noises = [utf8 "快快快"]
  nranges : h.lastNranges ≤ h.rcvRangeSmps.length
  blank : h.lastFrame = 0 → h.Blank
  silent : h.NoAudio → h.samples = [] ∧ h.lastFrame = 0
  ends : h.NoAudio → ∀ range ∈ h.rcvRangeSmps, range.2 = -1

structure Underway (h : ConnectionHandler) : Prop where
  noises : h.noises = [utf8 "快快快"]
  nranges : h.lastNranges ≤ h.rcvRangeSmps.length
  audio : ¬h.NoAudio
  lastFrame : h.lastFrame ≠ 0

structure Waiting (h : ConnectionHandler) : Prop extends Handled h, Blank h

theorem Underway.handled {h : ConnectionHandler} (hgo : h.Underway) : h.Handled where
  noises := hgo.noises
  nranges := hgo.nranges
  blank heq := absurd heq hgo.lastFrame
  silent hno := absurd hno hgo.audio
  ends hno := absurd hno hgo.audio

namespace Handled

variable {h : ConnectionHandler}

theorem underway (hh : Handled h) (hne : h.lastFrame ≠ 0) : Underway h where
  noises := hh.noises
  nranges := hh.nranges
  audio hno := hne (hh.silent hno).2
  lastFrame := hne

theorem reset (hh : Handled h) : Handled h.reset where
  noises := hh.noises
  nranges := hh.nranges
  blank heq :=
    { lastFrame := heq
      acts := rfl
      nsegDone := (hh.blank heq).nsegDone
      seginfos := (hh.blank heq).seginfos }
  silent hno := ⟨rfl, (hh.silent hno).2⟩
  ends := hh.ends

theorem nframes_eq_zero (hh : Handled h) (hno : h.NoAudio) (hnew : h.New) : h.nframes = 0 := by
  have hlt : h.rcvRangeSmps.length - 1 < h.rcvRangeSmps.length := by
    unfold New at hnew
    omega
  have hend : h.endSplIdx = -1 := by
    apply hh.ends hno
    show h.rcvRangeSmps.getD (h.rcvRangeSmps.length - 1) (0, 0) ∈ _
    rw [List.getD_eq_getElem _ _ hlt]
    exact List.getElem_mem hlt
  unfold nframes
  rw [hend]
  rfl

-- Of a message without audio no sample is kept.
theorem drop_of_noAudio (hh : Handled h) {buffer : Bytes}
    (hno : (ConnectionHandler.onSpeechData buffer h).NoAudio)
    : h.NoAudio ∧ h.samples = [] ∧ (int16s buffer).drop header = [] := by
  have hold : h.NoAudio := fun range hmem => hno range (List.mem_append_left _ hmem)
  have hnil := (hh.silent hold).1
  refine ⟨hold, hnil, ?_⟩
  have hlast := hno _ (List.mem_append_right _ (List.mem_singleton.mpr rfl))
  dsimp only at hlast
  rw [List.drop_eq_nil_iff]
  omega

theorem onSpeechData (hh : Handled h) (buffer : Bytes)
    : Handled (ConnectionHandler.onSpeechData buffer h) where
  noises := hh.noises
  nranges := by
    show _ ≤ (h.rcvRangeSmps ++ [_]).length
    rw [List.length_append]
    exact Nat.le_trans hh.nranges (Nat.le_add_right _ _)
  blank heq := { hh.blank heq with }
  silent hno := by
    obtain ⟨hold, hnil, hdrop⟩ := hh.drop_of_noAudio hno
    refine ⟨?_, (hh.silent hold).2⟩
    show h.samples ++ (int16s buffer).drop header = []
    rw [hnil, hdrop]
    rfl
  ends hno := by
    obtain ⟨hold, hnil, hdrop⟩ := hh.drop_of_noAudio hno
    intro range hmem
    cases List.mem_append.mp hmem with
    | inl hmem => exact hh.ends hold range hmem
    | inr hmem =>
      rw [List.mem_singleton.mp hmem, hnil, hdrop]
      rfl

end Handled

end ConnectionHandler

namespace ConnectionHandler

open Prog (Keeps Respects)

variable {env : Env ν} {vad₀ : ν} {c : Conn ν}

section Unchanged

-- What is logged, asked and written does not change the handler.
variable (H : ConnectionHandler → Prop)

theorem copySamples_handler (id : PostId) (st num : Nat)
    : Keeps (fun s : Conn ν => H s.handler) (copySamples id st num) := by
  intro s hs
  exact hs

theorem httpaudioPost_handler (content : Bytes) (id : PostId) (format : String)
    : Keeps (fun s => H s.handler) (httpaudioPost env content id format) :=
  httpaudioPost_keeps fun _ hs => hs

theorem wsWrite_handler (msg : Msg) : Keeps (fun s => H s.handler) (wsWrite env msg) :=
  wsWrite_keeps fun _ hs => hs

end Unchanged

theorem respects_underway : PostingRespects fun s t : Conn ν => s = t ∧ s.handler.Underway where
  acts _ _ h := by rw [h.1]
  samples _ _ h := by rw [h.1]
  nsegDone _ _ h := by rw [h.1]
  curResult _ _ h := by rw [h.1]
  segs _ _ h := by rw [h.1]
  closed _ _ h := by rw [h.1]
  posts _ _ h := by rw [h.1]
  msgs _ _ h := by rw [h.1]
  log _ _ _ h := ⟨by rw [h.1], h.2⟩
  ask _ _ _ h := ⟨by rw [h.1], h.2⟩
  say _ _ _ h := ⟨by rw [h.1], h.2⟩
  hear _ _ _ h := ⟨by rw [h.1], { h.2 with }⟩
  close _ _ _ h := ⟨by rw [h.1], { h.2 with }⟩
  posted _ _ _ h := ⟨by rw [h.1], { h.2 with }⟩
  finish _ _ h := ⟨by rw [h.1], { h.2 with }⟩
  stop _ _ h := ⟨by rw [h.1], { h.2 with }⟩

theorem vadFrames_stored (env : Env ν) (ranges : List (Int × Int)) (lo hi : Nat) {E : Conn ν → Prop}
    : Prog.Triple
        (fun s => s.handler.noises = [utf8 "快快快"] ∧ s.handler.rcvRangeSmps = ranges)
        (Prog.forRange lo hi (vadFrame env))
        (fun _ s => s.handler.noises = [utf8 "快快快"] ∧ s.handler.rcvRangeSmps = ranges)
        E :=
  Prog.Triple.loop fun _ _ _ _ hs => hs

-- A pass over a new range with a frame in it.
theorem decodeRanges_underway (hnoises : c.handler.noises = [utf8 "快快快"]) (hnew : c.handler.New)
    (haudio : ¬c.handler.NoAudio) (hframes : c.handler.nframes ≠ 0)
    : Prog.Triple (fun s => s = c) (decodeRanges env) (fun _ s => s.handler.Underway)
        (fun s => s.handler.Underway) := by
  have hposts : Keeps (fun s => s.handler.Underway) (postRanges env c.handler.endSplIdx) :=
    Prog.keeps_of_respects (respects_underway.postRanges env _)
  have hadvance : Prog.Triple
      (fun s : Conn ν =>
        s.handler.noises = [utf8 "快快快"] ∧ s.handler.rcvRangeSmps = c.handler.rcvRangeSmps)
      (onHandler fun h =>
        { h with lastFrame := c.handler.nframes, lastNranges := c.handler.rcvRangeSmps.length })
      (fun _ s => s.handler.Underway)
      (fun s => s.handler.Underway) := by
    apply Prog.Triple.modify
    rintro s ⟨hkept, hstored⟩
    constructor
    . exact hkept
    . show _ ≤ s.handler.rcvRangeSmps.length
      rw [hstored]
    . show ¬∀ range ∈ s.handler.rcvRangeSmps, _
      rw [hstored]
      exact haudio
    . exact hframes
  rintro s rfl
  rw [decodeRanges_new env hnew]
  have hall := (vadFrames_stored env s.handler.rcvRangeSmps s.handler.lastFrame
    s.handler.nframes).bind fun _ => hadvance.bind fun _ => hposts
  exact hall s ⟨hnoises, rfl⟩

theorem decodeRanges_handled (hsync : Sync env vad₀ c) (hh : c.handler.Handled)
    : Prog.Triple (fun s => s = c) (decodeRanges env) (fun _ s => s.handler.Handled)
        (fun s => s.handler.Handled) := by
  by_cases hnew : c.handler.New
  . by_cases hframes : c.handler.nframes = 0
    . have hlast : c.handler.lastFrame = 0 := by
        have hle := hsync.lastFrame_le
        have hend : c.handler.endSplIdx = (c.handler.samples.length : Int) - 1 :=
          endSplIdx_eq hsync hnew
        have hall : c.handler.nframes = c.handler.samples.length / samplesPerFrame := by
          unfold nframes
          rw [hend, nframes_eq]
        omega
      rintro s rfl
      rw [Conn.decodeRanges_blank env hnew (hh.blank hlast) hframes]
      exact
        { noises := hh.noises
          nranges := Nat.le_refl _
          blank := fun heq => { hh.blank heq with }
          silent := hh.silent
          ends := hh.ends }
    . have haudio : ¬c.handler.NoAudio := fun hno => hframes (hh.nframes_eq_zero hno hnew)
      exact (decodeRanges_underway hh.noises hnew haudio hframes).conseq (fun _ hs => hs)
        (fun _ _ hs => hs.handled) (fun _ hs => hs.handled)
  . rintro s rfl
    rw [decodeRanges_old env hnew]
    exact hh

theorem callEnd_waiting : Keeps (fun s => s.handler.Waiting) (callEnd env) := by
  intro s hs
  have hend : s.handler.acts.end_ env.round = {} := by
    rw [hs.acts]
    rfl
  have hkept : ∀ acts : Acts, acts = {} → Waiting { s.handler with acts } := by
    intro acts hacts
    exact { hs with blank := fun heq => { hs.blank heq with acts := hacts }, acts := hacts }
  unfold callEnd
  rw [Prog.get_bind_apply, hs.acts]
  exact hkept _ hend

-- No segment is left to be posted.
theorem finishRecognition_waiting (curSize : Nat)
    : Keeps (fun s => s.handler.Waiting) (finishRecognition env curSize) := by
  unfold finishRecognition
  apply Prog.Triple.bind callEnd_waiting
  intro _
  apply Prog.Triple.get_bind
  intro s hs
  have here : ∀ s', s' = s → s'.handler.Waiting := by
    rintro s' rfl
    exact hs
  rw [hs.acts, hs.nsegDone]
  have hloop : Keeps (fun s => s.handler.Waiting)
      (Prog.forRange 0 ({} : Acts).segEnds.length (postFinal env curSize)) :=
    Prog.Triple.loop fun i _ hi => absurd hi (Nat.not_lt_zero i)
  apply Prog.Triple.bind (hloop.pre here)
  intro _
  apply Prog.Triple.bind (copySamples_handler Waiting _ _ _)
  intro data
  apply Prog.Triple.bind (httpaudioPost_handler Waiting _ _ _)
  intro _
  apply Prog.Triple.get_bind
  intro s' hs'
  have here' : ∀ s'', s'' = s' → s''.handler.Waiting := by
    rintro s'' rfl
    exact hs'
  apply Prog.Triple.bind ((wsWrite_handler Waiting _).pre here')
  intro _
  apply Prog.Triple.bind (wsWrite_handler Waiting _)
  intro _
  apply Prog.Triple.modify
  intro s'' hs''
  exact { hs''.reset with
    blank := fun heq => { hs''.reset.blank heq with }
    lastFrame := hs''.lastFrame
    acts := rfl
    nsegDone := hs''.nsegDone
    seginfos := hs''.seginfos }

theorem finishRecognition_handled (curSize : Nat)
    : Keeps (fun s => s.handler.Handled) (finishRecognition env curSize) := by
  intro s hh
  by_cases hlast : s.handler.lastFrame = 0
  . have hwaiting : s.handler.Waiting := { hh with toBlank := hh.blank hlast }
    exact ((finishRecognition_waiting curSize).conseq (fun _ hs => hs) (fun _ _ hs => hs.toHandled)
      (fun _ hs => hs.toHandled)) s hwaiting
  . have hkeeps : Keeps (fun s => s.handler.Underway) (finishRecognition env curSize) :=
      Prog.keeps_of_respects (respects_underway.finishRecognition env curSize)
    exact (hkeeps.conseq (fun _ hs => hs) (fun _ _ hs => hs.handled) (fun _ hs => hs.handled)) s
      (hh.underway hlast)

theorem rescore_handled : Keeps (fun s => s.handler.Handled) (rescore env) := by
  unfold rescore
  apply Prog.Triple.get_bind
  intro s hs
  apply Prog.Triple.bind (Q := fun _ s => s.handler.Handled)
  . apply (wsWrite_handler Handled _).pre
    rintro s' rfl
    exact hs
  . intro _
    apply Prog.Triple.modify
    intro s' hs'
    exact { hs' with blank := fun heq => { hs'.blank heq with } }

end ConnectionHandler

namespace Conn

variable {env : Env ν} {vad₀ : ν} {c : Conn ν}

theorem handled_reader
    : ReaderKeeps (fun c : Conn ν => c.handler.Handled) (fun c => c.handler.Handled) where
  rest _ h := h
  say _ _ _ _ h := h
  close _ h := h
  options _ _ _ _ h := { h with blank := fun heq => { h.blank heq with } }
  start _ h := { h with blank := fun heq => { h.blank heq with } }
  stop _ h := { h with blank := fun heq => { h.blank heq with } }
  data _ buffer h := h.onSpeechData buffer

theorem handled_pass (h : Sound env vad₀ c) (hh : c.handler.Handled)
    : (c.pass env).handler.Handled := by
  apply pass_keeps (I := fun s => s.handler.Handled) hh
  . intro s hs
    exact hs
  . intro _ _
    exact (ConnectionHandler.finishRecognition_handled _).leaves hh
  . intro _ _
    exact ConnectionHandler.rescore_handled.leaves hh
  . intro hgo _
    have hsync := running_sync h hgo.1 hgo.2
    exact (ConnectionHandler.decodeRanges_handled hsync hh).leaves rfl

theorem handled_run (env : Env ν) (state : Int) (vad : ν) (events : List Event)
    : ((machine env state vad).run events).handler.Handled := by
  induction events using List.reverseRecOn with
  | nil =>
    exact
      { noises := rfl
        nranges := Nat.le_refl _
        blank := fun _ => ⟨rfl, rfl, rfl, rfl⟩
        silent := fun _ => ⟨rfl, rfl⟩
        ends := by simp [machine, new] }
  | append_singleton events e ih =>
    rw [Machine.run_concat]
    have hturn : ∀ (s : Conn ν) reader terminated decodeThread, s.handler.Handled →
        ConnectionHandler.Handled
          { s with reader, terminated, handler := { s.handler with decodeThread } }.handler :=
      fun _ _ _ _ hs => { hs with blank := fun heq => { hs.blank heq with } }
    exact step_keeps handled_reader hturn ih fun _ =>
      handled_pass (sound_run env state vad events) ih

theorem vadFrames_length (env : Env ν) (lo hi : Nat) {n : Nat} {E : Conn ν → Prop}
    : Prog.Triple (fun s => s.handler.acts.acts.length = n)
        (Prog.forRange lo hi (ConnectionHandler.vadFrame env))
        (fun _ s => s.handler.acts.acts.length = n + (hi - lo)) E := by
  by_cases hle : lo ≤ hi
  . apply (Prog.Triple.forRange (I := fun k s => s.handler.acts.acts.length = n + (k - lo)) hle ?_).conseq
    . intro s hs
      rw [Nat.sub_self]
      exact hs
    . intro _ s hs
      exact hs
    . intro s hs
      exact hs
    . intro k hlo _ s hs
      show (s.handler.acts.addAct _).acts.length = _
      rw [Acts.addAct_acts, List.length_append, List.length_singleton, hs]
      omega
  . have hnone : hi - lo = 0 := Nat.sub_eq_zero_of_le (Nat.le_of_not_le hle)
    rw [Prog.forRange_empty (Nat.le_of_not_le hle), hnone]
    exact Prog.Triple.pure fun _ hs => hs

theorem posting_acts (env : Env ν) (a : Acts)
    : PostingKeeps env a (fun _ _ => True) (fun s => s.handler.acts = a) (fun s => s.handler.acts = a) where
  acts _ hs := hs
  log _ _ _ hs := hs
  percent _ _ _ _ hs := hs
  post := ConnectionHandler.httpaudioPost_handler fun h => h.acts = a
  hear _ _ hs := hs

theorem postRanges_acts (env : Env ν) (endSplIdx : Int) (a : Acts)
    : Prog.Keeps (fun s => s.handler.acts = a) (ConnectionHandler.postRanges env endSplIdx) :=
  (posting_acts env a).postRanges
    (fun _ => ConnectionHandler.wsWrite_handler (fun h => h.acts = a) _) (fun _ _ hs => hs)
    (fun _ _ => trivial) fun _ => trivial

theorem pass_decisions (env : Env ν) (hgo : c.alive = true ∧ c.decoder = .running)
    (hstate : c.handler.state = 1) (hnew : c.handler.New)
    : (c.pass env).handler.acts.acts.length
        = c.handler.acts.acts.length + (c.handler.nframes - c.handler.lastFrame) := by
  generalize hn : c.handler.acts.acts.length + (c.handler.nframes - c.handler.lastFrame) = n
  have hposts : Prog.Keeps (fun s => s.handler.acts.acts.length = n)
      (ConnectionHandler.postRanges env c.handler.endSplIdx) := by
    intro s hs
    have hsame : ∀ s' : Conn ν, s'.handler.acts = s.handler.acts → s'.handler.acts.acts.length = n := by
      intro s' hacts
      rw [hacts]
      exact hs
    exact ((postRanges_acts env _ s.handler.acts).conseq (fun _ hs' => hs') (fun _ => hsame) hsame) s rfl
  have hadvance : Prog.Keeps (fun s : Conn ν => s.handler.acts.acts.length = n)
      (ConnectionHandler.onHandler fun h =>
        { h with
          lastFrame := c.handler.nframes
          lastNranges := c.handler.rcvRangeSmps.length }) :=
    Prog.Triple.modify fun _ hs => hs
  have hloop := vadFrames_length env c.handler.lastFrame c.handler.nframes
    (n := c.handler.acts.acts.length) (E := fun s => s.handler.acts.acts.length = n)
  rw [hn] at hloop
  have hdecode := (hloop.bind fun _ => hadvance.bind fun _ => hposts) c rfl
  rw [← ConnectionHandler.decodeRanges_new env hnew] at hdecode
  rw [pass_of_state_one env hgo hstate]
  split at hdecode
  . next heq =>
    rw [heq]
    exact hdecode
  . next heq =>
    rw [heq]
    exact hdecode

def restarted (c : Conn ν) (handler : ConnectionHandler) : Conn ν :=
  { c with handler, reader := .reading, decoder := .running, terminated := false }

structure SameResults (s t : Conn ν) : Prop where
  acts : s.handler.acts = t.handler.acts
  posts : s.posts = t.posts
  msgs : s.msgs = t.msgs

/--
After `reset`, whatever comes has the results it has with a new handler. The constructor leaves
`state_` as it finds it, so the two are compared with one value there.
-/
def AsNew (env : Env ν) (c : Conn ν) : Prop :=
  ∀ ls : List Later,
    SameResults
      ((c.restarted c.handler.reset).follow env ls)
      ((c.restarted { state := c.handler.state }).follow env ls)

structure ReadyAgain (env : Env ν) (c : Conn ν) : Prop where
  asNew : c.AsNew env
  lastFrame : c.handler.reset.lastFrame = c.handler.reset.acts.acts.length
  nsegDone : c.handler.reset.nsegDone ≤ c.handler.reset.acts.segEnds.length
  ranges : ∀ range ∈ c.handler.reset.rcvRangeSmps, ∀ i,
    range.1 ≤ i → i ≤ range.2 → 0 ≤ i ∧ i < c.handler.reset.samples.length

theorem sim_reset (hh : c.handler.Handled) (hlast : c.handler.lastFrame = 0)
    (hframes : c.handler.state = 1 → c.handler.New → c.handler.nframes = 0)
    : Sim (c.restarted c.handler.reset) (c.restarted { state := c.handler.state }) := by
  have hblank := hh.reset.blank hlast
  constructor
  . have hnoises := hh.noises
    obtain ⟨hlast, _, hnseg, hsegs⟩ := hblank
    simp only [core, restarted, ConnectionHandler.reset] at *
    rw [hlast, hnseg, hsegs, hnoises]
    rfl
  . exact hh.nranges
  . exact Nat.le_refl 0
  . intro _
    exact Coupled.stale (Nat.lt_irrefl 0) hblank hframes

theorem asNew_of_blank (hh : c.handler.Handled) (hlast : c.handler.lastFrame = 0)
    (hframes : c.handler.state = 1 → c.handler.New → c.handler.nframes = 0)
    : c.AsNew env := by
  intro ls
  have hcore := ((sim_reset hh hlast hframes).follow env ls).core
  exact
    { acts := congrArg (fun c => c.handler.acts) hcore
      posts := congrArg (fun c => c.posts) hcore
      msgs := congrArg (fun c => c.msgs) hcore }

def oneFrame : Bytes :=
  List.replicate 364 0

-- After one frame the decisions that are made tell where the decode thread went on.
theorem decisions_oneFrame (env : Env ν) {h : ConnectionHandler} (hacts : h.acts = {})
    (hsamples : h.samples = []) (hnranges : h.lastNranges ≤ h.rcvRangeSmps.length)
    : ((c.restarted h).follow env [.data oneFrame, .pass]).handler.acts.acts.length
        = 1 - h.lastFrame := by
  have hnframes : (ConnectionHandler.onSpeechData oneFrame h).nframes = 1 := by
    have hlen : (ConnectionHandler.onSpeechData oneFrame h).samples.length = 160 := by
      show (h.samples ++ (int16s oneFrame).drop ConnectionHandler.header).length = 160
      rw [hsamples]
      decide +kernel
    unfold ConnectionHandler.nframes
    rw [ConnectionHandler.endSplIdx_onSpeechData, hlen]
    rfl
  have hdecisions := pass_decisions (c := (c.restarted h).later env (.data oneFrame)) env ⟨rfl, rfl⟩
    rfl (ConnectionHandler.new_onSpeechData hnranges oneFrame)
  show (((c.restarted h).later env (.data oneFrame)).pass env).handler.acts.acts.length = _
  rw [hdecisions]
  show h.acts.acts.length + ((ConnectionHandler.onSpeechData oneFrame h).nframes - h.lastFrame) = _
  rw [hnframes, hacts]
  exact Nat.zero_add _

theorem asNew_iff (hh : c.handler.Handled)
    : c.AsNew env
        ↔ c.handler.lastFrame = 0
          ∧ (c.handler.state = 1 → c.handler.New → c.handler.nframes = 0) := by
  constructor
  . intro hnew
    have hlast : c.handler.lastFrame = 0 := by
      have hacts := congrArg (fun a => a.acts.length) (hnew [.data oneFrame, .pass]).acts
      rw [decisions_oneFrame env rfl rfl hh.reset.nranges, decisions_oneFrame env rfl rfl (Nat.le_refl 0)]
        at hacts
      have : 1 - c.handler.lastFrame = 1 := hacts
      omega
    refine ⟨hlast, ?_⟩
    intro hstate hrange
    have hfresh := pass_of_old (c := c.restarted { state := c.handler.state }) env ⟨rfl, rfl⟩ hstate
      (Nat.lt_irrefl 0)
    have hacts : ((c.restarted c.handler.reset).pass env).handler.acts.acts.length
        = ((c.restarted { state := c.handler.state }).pass env).handler.acts.acts.length :=
      congrArg (fun a => a.acts.length) (hnew [.pass]).acts
    rw [hfresh, pass_decisions (c := c.restarted c.handler.reset) env ⟨rfl, rfl⟩ hstate hrange] at hacts
    have : 0 + (c.handler.nframes - c.handler.lastFrame) = 0 := hacts
    omega
  . rintro ⟨hlast, hframes⟩
    exact asNew_of_blank hh hlast hframes

theorem readyAgain_iff (env : Env ν) (state : Int) (vad : ν) (events : List Event)
    : let c := (machine env state vad).run events
      (c.ReadyAgain env ↔ c.handler.NoAudio)
        ∧ (c.AsNew env
          ↔ c.handler.lastFrame = 0
            ∧ (c.handler.state = 1 → c.handler.New → c.handler.nframes = 0)) := by
  have hh := handled_run env state vad events
  intro c
  refine ⟨?_, asNew_iff hh⟩
  constructor
  . intro hready range hmem
    by_contra hle
    have hin := hready.ranges range hmem range.1 (Int.le_refl _) (Int.not_lt.mp hle)
    exact absurd hin.2 (Int.not_lt.mpr hin.1)
  . intro hno
    obtain ⟨_, hlast⟩ := hh.silent hno
    have hblank := hh.reset.blank hlast
    exact
      { asNew := asNew_of_blank hh hlast fun _ => hh.nframes_eq_zero hno
        lastFrame := hlast
        nsegDone := Nat.le_of_eq hblank.nsegDone
        ranges := by
          intro range hmem i hlo hhi
          have := hno range hmem
          omega }

end Conn

theorem reset_keeps_marks
    : let c := session (Env.uniform 1 []) 0 () .plain
        [.data Conn.oneFrame, .pass, .stop .plain, .pass]
      c.handler.rcvRangeSmps = [(0, 159)]
        ∧ c.handler.reset.samples = []
        ∧ ((c.restarted c.handler.reset).follow (Env.uniform 1 [])
            [.data Conn.oneFrame, .pass]).handler.acts.acts = []
        ∧ ((c.restarted { state := c.handler.state }).follow (Env.uniform 1 [])
            [.data Conn.oneFrame, .pass]).handler.acts.acts = [1]
        ∧ ¬c.ReadyAgain (Env.uniform 1 []) := by
  intro c
  have hreset : ((c.restarted c.handler.reset).follow (Env.uniform 1 [])
      [.data Conn.oneFrame, .pass]).handler.acts.acts = [] := by
    decide +kernel
  have hfresh : ((c.restarted { state := c.handler.state }).follow (Env.uniform 1 [])
      [.data Conn.oneFrame, .pass]).handler.acts.acts = [1] := by
    decide +kernel
  refine ⟨by decide +kernel, by decide +kernel, hreset, hfresh, ?_⟩
  intro hready
  have hacts := (hready.asNew [.data Conn.oneFrame, .pass]).acts
  rw [← hacts, hreset] at hfresh
  cases hfresh
