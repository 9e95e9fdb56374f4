import RealtimeAsr.Websocket.Control
import RealtimeAsr.Websocket.Deployed
import RealtimeAsr.Websocket.Ranges

/-!
This module shows what the server makes of silence.
-/

variable {ν ρ : Type}

section Reader

variable {env : Env ν} {I : Conn ν → Prop}

theorem ConnectionHandler.onText_script_keeps (h : ControlKeeps I)
    (hstart : ∀ s, I s → I (startDecodeThread s))
    (hstop : ∀ s, I s → I { s with handler := { s.handler with gotEndTag := true, state := 3 } })
    (v : Option Json)
    : Prog.Keeps I (onText env v) := by
  cases v with
  | none => exact Prog.Triple.throw fun _ hs => hs
  | some value =>
    rw [onText_eq_script]
    induction textActions value with
    | nil => exact Prog.Triple.pure fun _ hs => hs
    | cons action actions ih =>
      refine Prog.Triple.bind (Q := fun _ => I) ?_ fun _ => ih
      cases action with
      | setNbest n => exact Prog.Triple.modify fun s hs => h.options s _ _ _ hs
      | setContinuousDecoding b => exact Prog.Triple.modify fun s hs => h.options s _ _ _ hs
      | onError message => exact onError_keeps h message
      | onSpeechStart => exact onSpeechStart_keeps h hstart
      | onSpeechEnd => exact Prog.Triple.modify hstop
      | asString => exact Prog.Triple.throw fun _ hs => hs

/--
As `Conn.step_keeps`, for an invariant that is kept by some data only.
-/
theorem Conn.step_keeps_of_data (h : ControlKeeps I)
    (hstart : ∀ s, I s → I (ConnectionHandler.startDecodeThread s))
    (hstop : ∀ s, I s → I { s with handler := { s.handler with gotEndTag := true, state := 3 } })
    (hturn : ∀ c reader terminated decodeThread, I c
      → I { c with reader, terminated, handler := { c.handler with decodeThread } })
    {c : Conn ν} (hc : I c) {e : Event}
    (hdata : ∀ buffer, e = .recv (.binary buffer) →
      ∀ s, I s → I { s with handler := ConnectionHandler.onSpeechData buffer s.handler })
    (hpass : e = .pass → I (c.pass env))
    : I (c.step env e) := by
  have turned (s : Conn ν) (reader : Reader) (hs : I s) : I { s with reader } :=
    hturn s reader s.terminated s.handler.decodeThread hs
  cases e with
  | accept ok =>
    show I (c.accept ok)
    unfold accept
    split
    . exact turned c _ hc
    . exact hc
  | recv m =>
    have hread : Prog.Keeps I (ConnectionHandler.readMessage env m) := by
      unfold ConnectionHandler.readMessage
      apply Prog.Triple.get_bind
      intro s hs
      have here : ∀ s', s' = s → I s' := by
        rintro s' rfl
        exact hs
      apply Prog.Triple.ite
      . intro _
        exact Prog.Triple.throw here
      . intro _
        cases m with
        | error => exact Prog.Triple.throw here
        | text v =>
          apply Prog.Triple.bind ((ConnectionHandler.onText_script_keeps h hstart hstop v).pre here)
          intro _
          apply Prog.Triple.get_bind
          intro s' hs'
          apply Prog.Triple.pure
          rintro _ rfl
          exact hs'
        | binary buffer =>
          apply Prog.Triple.ite
          . intro _
            apply Prog.Triple.bind ((ConnectionHandler.onError_keeps h _).pre here)
            intro _
            exact Prog.Triple.pure fun _ hs' => hs'
          . intro _
            apply Prog.Triple.ite
            . intro _
              exact Prog.Triple.pure here
            . intro _
              apply Prog.Triple.bind (Q := fun _ => I)
              . exact Prog.Triple.modify fun s' hs' => hdata buffer rfl s' (here s' hs')
              . intro _
                exact Prog.Triple.pure fun _ hs' => hs'
    have hleft := hread c hc
    show I (c.recv env m)
    unfold recv
    split
    . split
      . next heq =>
        rw [heq] at hleft
        exact hleft
      . next heq =>
        rw [heq] at hleft
        exact turned _ _ hleft
      . next heq =>
        rw [heq] at hleft
        exact turned _ _ hleft
    . exact hc
  | pass => exact hpass rfl
  | join =>
    show I c.join
    unfold join
    split
    . exact hturn c _ c.terminated _ hc
    . exact hc
  | destroy =>
    show I c.destroy
    unfold destroy
    split
    . exact hturn c _ _ c.handler.decodeThread hc
    . exact hc

end Reader

section Flat

/--
All samples are 0.
-/
def Flat (c : Conn ν) : Prop :=
  ∀ x ∈ c.handler.samples, x = 0

/--
The samples behind the header are 0, if the event is a message with samples.
-/
def Conn.Event.Flat (e : Conn.Event) : Prop :=
  ∀ buffer, e = .recv (.binary buffer) → ∀ x ∈ (int16s buffer).drop ConnectionHandler.header, x = 0

theorem respects_flat : PostingRespects fun s t : Conn ν => s = t ∧ Flat s where
  acts _ _ h := congrArg (fun c => c.handler.acts) h.1
  samples _ _ h := congrArg (fun c => c.handler.samples) h.1
  nsegDone _ _ h := congrArg (fun c => c.handler.nsegDone) h.1
  curResult _ _ h := congrArg (fun c => c.handler.curResult) h.1
  segs _ _ h := congrArg (fun c => c.handler.getSegsResult) h.1
  closed _ _ h := congrArg (fun c => c.closed) h.1
  posts _ _ h := congrArg (fun c => c.posts) h.1
  msgs _ _ h := congrArg (fun c => c.msgs) h.1
  log _ _ _ h := ⟨by rw [h.1], h.2⟩
  ask _ _ _ h := ⟨by rw [h.1], h.2⟩
  say _ _ _ h := ⟨by rw [h.1], h.2⟩
  hear _ _ _ h := ⟨by rw [h.1], h.2⟩
  close _ _ _ h := ⟨by rw [h.1], h.2⟩
  posted _ _ _ h := ⟨by rw [h.1], h.2⟩
  finish _ _ h := ⟨by rw [h.1], fun _ hx => absurd hx List.not_mem_nil⟩
  stop _ _ h := ⟨by rw [h.1], h.2⟩

theorem decodeRanges_flat (env : Env ν) : Prog.Keeps Flat (ConnectionHandler.decodeRanges env) := by
  apply ConnectionHandler.decodeRanges_keeps
  . exact fun _ _ hs => hs
  . exact fun _ _ _ hs => hs
  . intro endSplIdx
    exact Prog.keeps_of_respects (respects_flat.postRanges env endSplIdx)

theorem step_flat (env : Env ν) {c : Conn ν} (h : Flat c) {e : Conn.Event} (he : e.Flat)
    : Flat (c.step env e) := by
  have hcontrol : ControlKeeps (Flat (ν := ν)) := {
    say := fun _ _ _ _ hs => hs
    close := fun _ hs => hs
    options := fun _ _ _ _ hs => hs }
  refine Conn.step_keeps_of_data hcontrol (fun _ hs => hs) (fun _ hs => hs) (fun _ _ _ _ hs => hs) h ?_ ?_
  . intro buffer hbuffer s hs x hx
    exact (List.mem_append.mp hx).elim (hs x) (he buffer hbuffer x)
  . intro _
    apply Conn.pass_keeps h
    . exact fun _ hs => hs
    . intro _ _
      exact (Prog.keeps_of_respects (respects_flat.finishRecognition _ _)).leaves h
    . intro _ _
      exact (Prog.keeps_of_respects (respects_flat.rescore _)).leaves h
    . intro _ _
      exact (decodeRanges_flat env).leaves h

theorem session_flat (env : Env ν) (state : Int) (vad : ν) {events : List Conn.Event}
    (hevents : ∀ e ∈ events, e.Flat)
    : Flat ((Conn.machine env state vad).run events) := by
  induction events using List.reverseRecOn with
  | nil => exact fun _ hx => absurd hx List.not_mem_nil
  | append_singleton events e ih =>
    rw [Machine.run_concat]
    exact step_flat env (ih fun e' he' => hevents e' (List.mem_append_left _ he'))
      (hevents e (List.mem_append_right _ (List.mem_singleton_self e)))

theorem frame_of_flat {samples : List Int16} (h : ∀ x ∈ samples, x = 0) {n : Nat}
    (hn : (n + 1) * ConnectionHandler.samplesPerFrame ≤ samples.length)
    : frame samples n = List.replicate ConnectionHandler.samplesPerFrame 0 := by
  apply List.eq_replicate_iff.mpr
  constructor
  . unfold frame ConnectionHandler.samplesPerFrame at *
    rw [List.length_take, List.length_drop]
    omega
  . intro x hx
    exact h x (List.mem_of_mem_drop (List.mem_of_mem_take hx))

end Flat

section Mute

namespace Acts

theorem nacts_zeros {ds : List Int} (h : ∀ d ∈ ds, d = 0) (st : Nat) : nacts ds st = 0 := by
  apply List.count_eq_zero.mpr
  intro hone
  have hzero := h 1 (List.mem_of_mem_drop (List.mem_of_mem_take hone))
  omega

/--
Without speech no segment begins.
-/
theorem addAct_zero {a : Acts} (hacts : ∀ d ∈ a.acts, d = 0) (hsts : a.segSts = []) (hends : a.segEnds = [])
    {act : Int} (hact : act = 0)
    : (∀ d ∈ (a.addAct act).acts, d = 0) ∧ (a.addAct act).segSts = [] ∧ (a.addAct act).segEnds = [] := by
  subst hact
  have hall : ∀ d ∈ a.acts ++ [0], d = 0 := by
    intro d hd
    exact (List.mem_append.mp hd).elim (hacts d) fun heq => List.mem_singleton.mp heq
  rw [addAct_acts]
  refine ⟨hall, ?_⟩
  rcases a.addAct_segs 0 with ⟨hopens, -⟩ | ⟨hcloses, -⟩ | ⟨-, -, hsame, hsame'⟩
  . have hactive := hopens.active
    rw [nacts_zeros hall] at hactive
    exact absurd hactive (by decide)
  . have hopen := hcloses.one_open
    rw [hsts, hends] at hopen
    cases hopen
  . exact ⟨hsame.trans hsts, hsame'.trans hends⟩

end Acts

/--
Nothing was heard, and nothing is said but that.
-/
structure Mute (c : Conn (List Int)) : Prop where
  acts : ∀ d ∈ c.handler.acts.acts, d = 0
  script : ∀ d ∈ c.vad, d = 0
  starts : c.handler.acts.segSts = []
  ends : c.handler.acts.segEnds = []
  seginfos : c.handler.seginfos = []
  curResult : c.handler.curResult = []
  posts : ∀ post ∈ c.posts, post.id = .final
  sent : ∀ w ∈ c.sent, w.msg.isPartial = false ∧ ∀ text ∈ w.msg.sentence, text = []

namespace Mute

variable {env : Env (List Int)} {c : Conn (List Int)}

theorem segsResult (h : Mute c) : c.handler.getSegsResult = [] := by
  unfold ConnectionHandler.getSegsResult
  rw [h.seginfos]
  rfl

theorem say (h : Mute c) {msg : Msg} (hmsg : msg.isPartial = false ∧ ∀ text ∈ msg.sentence, text = [])
    (segs : Bytes)
    : Mute { c with sent := c.sent ++ [⟨msg, segs⟩] } where
  acts := h.acts
  script := h.script
  starts := h.starts
  ends := h.ends
  seginfos := h.seginfos
  curResult := h.curResult
  posts := h.posts
  sent w hw := by
    rcases List.mem_append.mp hw with hw | hw
    . exact h.sent w hw
    . rw [List.mem_singleton.mp hw]
      exact hmsg

theorem ask (h : Mute c) {content : Bytes} {format : String}
    : Mute { c with posts := c.posts ++ [{ content, id := .final, format }] } where
  acts := h.acts
  script := h.script
  starts := h.starts
  ends := h.ends
  seginfos := h.seginfos
  curResult := h.curResult
  sent := h.sent
  posts post hpost := by
    rcases List.mem_append.mp hpost with hpost | hpost
    . exact h.posts post hpost
    . rw [List.mem_singleton.mp hpost]

theorem callEnd : Prog.Keeps Mute (ConnectionHandler.callEnd env) := by
  unfold ConnectionHandler.callEnd
  apply Prog.Triple.get_bind
  intro s hs
  have hopen : ¬s.handler.acts.segSts.length = s.handler.acts.segEnds.length + 1 := by
    rw [hs.starts, hs.ends]
    decide
  apply Prog.Triple.ite
  . intro h
    exact absurd h hopen
  . intro _
    apply Prog.Triple.modify
    rintro s' rfl
    have hend : s'.handler.acts.end_ env.round = s'.handler.acts := if_neg hopen
    dsimp only
    rw [hend]
    exact hs

theorem copySamples (id : PostId) (st num : Nat)
    : Prog.Keeps Mute (ConnectionHandler.copySamples id st num) := by
  unfold ConnectionHandler.copySamples
  apply Prog.Triple.get_bind
  intro s hs
  apply Prog.Triple.bind (Q := fun _ => Mute)
  . apply Prog.Triple.modify
    rintro s' rfl
    exact { hs with }
  . intro _
    exact Prog.Triple.pure fun _ hs' => hs'

theorem onFinalResult
    : Prog.Keeps Mute (ConnectionHandler.onFinalResult env (ConnectionHandler.serializeResult [])) := by
  apply ConnectionHandler.wsWrite_keeps
  intro s hs
  refine hs.say ⟨rfl, fun text htext => ?_⟩ _
  exact (Option.some_inj.mp (show some [] = some text from htext)).symm

theorem finishRecognition (curSize : Nat)
    : Prog.Keeps Mute (ConnectionHandler.finishRecognition env curSize) := by
  unfold ConnectionHandler.finishRecognition
  apply Prog.Triple.bind callEnd
  intro _
  apply Prog.Triple.get_bind
  intro s hs
  rw [hs.ends, List.length_nil, Prog.forRange_empty (Nat.zero_le _)]
  have here : ∀ s', s' = s → Mute s' := by
    rintro s' rfl
    exact hs
  apply Prog.Triple.bind (Prog.Triple.pure (Q := fun _ => Mute) here)
  intro _
  apply Prog.Triple.bind (copySamples _ _ _)
  intro data
  apply Prog.Triple.bind (ConnectionHandler.httpaudioPost_keeps fun _ hs' => hs'.ask)
  intro _
  apply Prog.Triple.get_bind
  intro s' hs'
  have here' : ∀ s'', s'' = s' → Mute s'' := by
    rintro s'' rfl
    exact hs'
  rw [hs'.segsResult]
  have hfinish : Prog.Keeps Mute (ConnectionHandler.onFinish env) := by
    apply ConnectionHandler.wsWrite_keeps
    intro t ht
    exact ht.say ⟨rfl, fun text htext => by cases htext⟩ _
  apply Prog.Triple.bind (onFinalResult.pre here')
  intro _
  apply Prog.Triple.bind hfinish
  intro _
  apply Prog.Triple.modify
  intro t ht
  exact {
    ht with
    acts := fun d hd => absurd hd List.not_mem_nil
    starts := rfl
    ends := rfl
    curResult := rfl }

theorem rescore : Prog.Keeps Mute (ConnectionHandler.rescore env) := by
  unfold ConnectionHandler.rescore
  apply Prog.Triple.get_bind
  intro s hs
  have here : ∀ s', s' = s → Mute s' := by
    rintro s' rfl
    exact hs
  rw [hs.curResult]
  apply Prog.Triple.bind (onFinalResult.pre here)
  intro _
  exact Prog.Triple.modify fun t ht => { ht with }

theorem postRanges (endSplIdx : Int) : Prog.Keeps Mute (ConnectionHandler.postRanges env endSplIdx) := by
  unfold ConnectionHandler.postRanges
  apply Prog.Triple.get_bind
  intro s hs
  rw [hs.ends, List.length_nil]
  dsimp only
  rw [Prog.forRange_empty (Nat.zero_le _)]
  have here : ∀ s', s' = s → Mute s' := by
    rintro s' rfl
    exact hs
  apply Prog.Triple.bind (Prog.Triple.pure (Q := fun _ => Mute) here)
  intro _
  apply Prog.Triple.bind (Q := fun _ => Mute)
  . exact Prog.Triple.modify fun t ht => { ht with }
  . intro _
    unfold ConnectionHandler.postTemp
    apply Prog.Triple.get_bind
    intro t ht
    apply Prog.Triple.ite
    . intro hopen
      rw [ht.starts] at hopen
      exact absurd hopen.2 (by decide)
    . intro _
      apply Prog.Triple.pure
      rintro t' rfl
      exact ht

end Mute

theorem vadFrame_mute (p : Peer) (i : Nat)
    : Prog.Keeps Mute (ConnectionHandler.vadFrame (p.env scripted) i) := by
  intro c hc
  have hnext : (scripted c.vad (frame c.handler.samples i)).1 = 0
      ∧ ∀ d ∈ (scripted c.vad (frame c.handler.samples i)).2, d = 0 := by
    have hleft := hc.script
    cases hvad : c.vad with
    | nil => exact ⟨rfl, fun d hd => absurd hd List.not_mem_nil⟩
    | cons d ds =>
      rw [hvad] at hleft
      exact List.forall_mem_cons.mp hleft
  obtain ⟨hacts, hstarts, hends⟩ := Acts.addAct_zero hc.acts hc.starts hc.ends hnext.1
  exact { hc with acts := hacts, script := hnext.2, starts := hstarts, ends := hends }

theorem decodeRanges_mute (p : Peer) : Prog.Keeps Mute (ConnectionHandler.decodeRanges (p.env scripted)) := by
  apply ConnectionHandler.decodeRanges_keeps
  . exact vadFrame_mute p
  . exact fun _ _ _ hs => { hs with }
  . exact Mute.postRanges

theorem step_mute (p : Peer) {c : Conn (List Int)} (h : Mute c) (e : Conn.Event)
    : Mute (c.step (p.env scripted) e) := by
  have hsay (msg : Msg) (hsentence : msg.sentence = none)
      : msg.isPartial = false ∧ ∀ text ∈ msg.sentence, text = [] := by
    constructor
    . cases msg with
      | partialResult _ => cases hsentence
      | _ => rfl
    . rw [hsentence]
      intro _ htext
      cases htext
  have hreader : ReaderKeeps Mute Mute := {
    say := fun _ msg hsentence _ hs => hs.say (hsay msg hsentence) _
    close := fun _ hs => { hs with }
    options := fun _ _ _ _ hs => { hs with }
    rest := fun _ hs => hs
    start := fun _ hs => { hs with }
    stop := fun _ hs => { hs with }
    data := fun _ _ hs => { hs with } }
  refine Conn.step_keeps hreader (fun _ _ _ _ hs => { hs with }) h fun _ => ?_
  apply Conn.pass_keeps h
  . exact fun _ hs => { hs with }
  . intro _ _
    exact (Mute.finishRecognition _).leaves h
  . intro _ _
    exact Mute.rescore.leaves h
  . intro _ _
    exact (decodeRanges_mute p).leaves h

/--
A session whose VAD decides that nothing is speech posts no segment, and says that there was nothing.
-/
theorem session_mute (p : Peer) (state : Int) {decisions : List Int} (hdecisions : ∀ d ∈ decisions, d = 0)
    (events : List Conn.Event)
    : Mute ((Conn.machine (p.env scripted) state decisions).run events) := by
  apply Machine.run_invariant (I := Mute)
  . exact {
      acts := fun d hd => absurd hd List.not_mem_nil
      script := hdecisions
      starts := rfl
      ends := rfl
      seginfos := rfl
      curResult := rfl
      posts := fun post hpost => absurd hpost List.not_mem_nil
      sent := fun w hw => absurd hw List.not_mem_nil }
  . intro c e hs
    exact step_mute p hs e

end Mute

namespace WebRtc.VadInst

variable {c : Overflow} {r : Resampler ρ}

theorem pvadInst_quiet (memory : VadInst ρ) : (pvadInst r memory).Quiet :=
  (quiet_init Overflow.wrapping r memory.create).setMode 1

theorem Quiet.decide16khz {self : VadInst ρ} (h : self.Quiet) (hready : self.Ready)
    : self.decide16khz c r (List.replicate ConnectionHandler.samplesPerFrame 0)
        =
      (0, { self with vad := 0 }) :=
  h.process c r (by decide) (hready.accepts List.length_replicate)

end WebRtc.VadInst

namespace Server

open WebRtc (Overflow Resampler VadInst)

variable (c : Overflow) (r : Resampler ρ)

theorem heard_quiet {memory v : VadInst ρ}
    (h : Heard (VadInst.decide16khz c r)
      (fun f => f = List.replicate ConnectionHandler.samplesPerFrame 0) (VadInst.pvadInst r memory) v)
    : v.Ready ∧ v.Quiet := by
  induction h with
  | nothing => exact ⟨VadInst.pvadInst_ready memory, VadInst.pvadInst_quiet memory⟩
  | frame _ hf ih =>
    obtain ⟨hready, hquiet⟩ := ih
    rw [hf]
    refine ⟨(hready.decide16khz List.length_replicate).2, ?_⟩
    rw [hquiet.decide16khz hready]
    exact { hquiet with }

theorem mem_of_sessionOf {i : Nat} {schedule : List Event} {state : Int} {events : List Conn.Event}
    (h : sessionOf i schedule = some (state, events)) {e : Conn.Event} (he : e ∈ events)
    : .on i e ∈ schedule := by
  induction schedule with
  | nil => cases h
  | cons ev schedule ih =>
    cases ev with
    | on j e' => exact List.mem_cons_of_mem _ (ih h)
    | connect j state' =>
      by_cases hj : j = i
      . have hcons : sessionOf i (.connect j state' :: schedule)
            = some (state', schedule.filterMap (Event.own i)) := if_pos hj
        rw [hcons] at h
        cases h
        obtain ⟨ev, hev, hown⟩ := List.mem_filterMap.mp he
        cases ev with
        | connect _ _ => cases hown
        | on k e' =>
          by_cases hk : k = i
          . have hsome : (Event.on k e').own i = some e' := if_pos hk
            rw [hsome] at hown
            cases hown
            rw [← hk]
            exact List.mem_cons_of_mem _ hev
          . have hnone : (Event.on k e').own i = none := if_neg hk
            rw [hnone] at hown
            cases hown
      . have hcons : sessionOf i (.connect j state' :: schedule) = sessionOf i schedule := if_neg hj
        rw [hcons] at h
        exact List.mem_cons_of_mem _ (ih h)

section Schedule

variable {vadProcess : ν → List Int16 → Int × ν} {vad : ν} {peers : Nat → Peer} {schedule : List Event}
  (hschedule : ∀ i e, .on i e ∈ schedule → e.Flat)

include hschedule

theorem conns_flat {pre : List Event} (hpre : pre <+: schedule) {i : Nat} {conn : Conn ν}
    (hconn : conn ∈ ((machine vadProcess vad peers).run pre).conns i)
    : Flat conn := by
  obtain ⟨pre', state, events, decisions, ⟨hpre', -⟩, hsession, -, hrun⟩ :=
    session_of_run (fun _ _ => framesIn_full _) hconn
  have hevents : ∀ e ∈ events, e.Flat := by
    intro e he
    exact hschedule i e ((hpre'.trans hpre).subset (mem_of_sessionOf hsession he))
  have hflat := session_flat ((peers i).env scripted) state decisions hevents
  rw [hrun] at hflat
  exact hflat

theorem framesIn_zeros {pre : List Event} (hpre : pre <+: schedule)
    : FramesIn (fun f => f = List.replicate ConnectionHandler.samplesPerFrame 0)
        ((machine vadProcess vad peers).run pre) :=
  fun _ _ hconn _ hn => frame_of_flat (conns_flat hschedule hpre hconn) hn

end Schedule

/--
If all that the clients of the server send is silence, then on whatever connections and in whatever order
they do it, no connection posts a segment or an unfinished one, none sends a partial result, and all the
final results are empty.
-/
theorem silence_unheard (memory : VadInst ρ) (peers : Nat → Peer) {schedule : List Event}
    (hschedule : ∀ i e, .on i e ∈ schedule → e.Flat) (i : Nat)
    : ∀ conn ∈ ((main c r memory peers).run schedule).conns i,
        (∀ d ∈ conn.handler.acts.acts, d = 0)
          ∧ (∀ post ∈ conn.posts, post.id = .final)
          ∧ ∀ w ∈ conn.sent, w.msg.isPartial = false ∧ ∀ text ∈ w.msg.sentence, text = [] := by
  intro conn hconn
  obtain ⟨pre, state, events, decisions, -, -, hdecisions, hrun⟩ :=
    session_of_run (fun pre hpre => framesIn_zeros hschedule hpre) hconn
  have hzeros : ∀ d ∈ decisions, d = 0 := by
    intro d hd
    obtain ⟨v, f, hheard, hf, rfl⟩ := hdecisions d hd
    obtain ⟨hready, hquiet⟩ := heard_quiet c r hheard
    rw [hf, hquiet.decide16khz hready]
  have hmute := session_mute (peers i) state hzeros events
  rw [hrun] at hmute
  exact ⟨hmute.acts, hmute.posts, hmute.sent⟩

theorem int16s_zeros {buffer : Bytes} (h : ∀ byte ∈ buffer, byte = 0) : ∀ x ∈ int16s buffer, x = 0 := by
  fun_induction int16s buffer with
  | case1 lo hi rest ih =>
    obtain ⟨hlo, htail⟩ := List.forall_mem_cons.mp h
    obtain ⟨hhi, hrest⟩ := List.forall_mem_cons.mp htail
    refine List.forall_mem_cons.mpr ⟨?_, ih hrest⟩
    rw [hlo, hhi]
    rfl
  | case2 => exact fun x hx => absurd hx List.not_mem_nil

theorem oneFrame_flat {i j : Nat} {e : Conn.Event} (h : .on j e ∈ oneFrame i 0) : e.Flat := by
  rintro buffer rfl x hx
  have hbuffer : buffer = List.replicate 364 0 := by
    unfold oneFrame at h
    generalize List.replicate 364 (0 : UInt8) = zeros at h ⊢
    simp only [List.mem_cons, reduceCtorEq, Event.on.injEq, and_false, Conn.Event.recv.injEq,
      Incoming.binary.injEq, List.not_mem_nil, or_self, or_false, false_or] at h
    exact h.2
  rw [hbuffer] at hx
  exact int16s_zeros (fun _ hbyte => List.eq_of_mem_replicate hbyte) x (List.mem_of_mem_drop hx)

theorem silence_unheard_on_data
    : let schedule := oneFrame 0 0 ++ oneFrame 1 0
      let s := (main .wrapping .silent VadInst.zeros fun _ => quietPeer).run schedule
      (∀ i e, .on i e ∈ schedule → e.Flat)
        ∧ ∃ conn ∈ s.conns 1, conn.handler.acts.acts.length = 1
          ∧ (∀ d ∈ conn.handler.acts.acts, d = 0)
          ∧ (∀ post ∈ conn.posts, post.id = .final)
          ∧ ∀ w ∈ conn.sent, w.msg.isPartial = false ∧ ∀ text ∈ w.msg.sentence, text = [] := by
  intro schedule s
  have hschedule : ∀ i e, .on i e ∈ schedule → e.Flat :=
    fun _ _ he => (List.mem_append.mp he).elim oneFrame_flat oneFrame_flat
  have hsome : (s.conns 1).map (·.handler.acts.acts.length) = some 1 := by decide +kernel
  clear_value schedule
  obtain ⟨conn, hconn, hlen⟩ := Option.map_eq_some_iff.mp hsome
  exact ⟨hschedule, conn, hconn, hlen,
    silence_unheard .wrapping .silent VadInst.zeros _ hschedule 1 conn hconn⟩

end Server
