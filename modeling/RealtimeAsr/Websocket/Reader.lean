import RealtimeAsr.Websocket.Connection
import RealtimeAsr.Websocket.Pass

/-!
This module contains the invariant of all runs of a connection: whatever the client sends, and whenever
the decode thread makes a pass, the connection stays good and the decode thread in step.
-/

variable {ν : Type}

/--
What the receiving thread does to a connection on an error and for the options of a `start` keeps `I`.
-/
structure ControlKeeps (I : Conn ν → Prop) : Prop where
  say : ∀ c msg, msg.sentence = none → msg.isEnding = false → I c
    → I (c.emit (c.output.say ⟨msg, c.segsResult c.output⟩))
  close : ∀ c, I c → I { c with closed := true }
  options : ∀ c continuousDecoding nbest gotStartTag, I c
    → I { c with handler := { c.handler with continuousDecoding, nbest, gotStartTag } }

/--
What it does in one message, step by step, keeps `I`, and leads to `Q` where the message does not throw.
-/
structure ReaderKeeps (I Q : Conn ν → Prop) : Prop extends ControlKeeps I where
  rest : ∀ c, I c → Q c
  start : ∀ c, I c → Q (ConnectionHandler.startDecodeThread c)
  stop : ∀ c, I c → Q { c with handler := { c.handler with gotEndTag := true, state := 3 } }
  data : ∀ c buffer, I c → Q { c with handler := ConnectionHandler.onSpeechData buffer c.handler }

namespace ConnectionHandler

section Control

variable {env : Env ν} {I Q : Conn ν → Prop} (h : ControlKeeps I)

include h

theorem wsWrite_control {msg : Msg} (hmsg : msg.sentence = none) (hending : msg.isEnding = false)
    : Prog.Keeps I (wsWrite env msg) :=
  wsWrite_keeps fun s hs => h.say s msg hmsg hending hs

theorem wsClose_keeps : Prog.Keeps I (wsClose env) := by
  unfold wsClose
  apply Prog.Triple.get_bind
  intro s hs
  apply Prog.Triple.ite
  . intro _
    apply Prog.Triple.throw
    rintro s rfl
    exact hs
  . intro _
    apply Prog.Triple.modify
    rintro s rfl
    exact h.close s hs

theorem onError_keeps (message : String) : Prog.Keeps I (onError env message) := by
  unfold onError
  apply Prog.Triple.bind (wsWrite_control h rfl rfl)
  intro _
  exact wsClose_keeps h

theorem setNbest_keeps (v : Option Json) : Prog.Keeps I (setNbest env v) := by
  unfold setNbest
  split
  . exact Prog.Triple.pure fun _ hs => hs
  . exact Prog.Triple.modify fun s hs => h.options s _ _ _ hs
  . exact onError_keeps h _

theorem setContinuousDecoding_keeps (v : Option Json)
    : Prog.Keeps I (setContinuousDecoding env v) := by
  unfold setContinuousDecoding
  split
  . exact Prog.Triple.pure fun _ hs => hs
  . exact Prog.Triple.modify fun s hs => h.options s _ _ _ hs
  . exact onError_keeps h _

theorem onSpeechStart_keeps (hstart : ∀ s, I s → Q (startDecodeThread s))
    : Prog.Triple I (onSpeechStart env) (fun _ => Q) I := by
  unfold onSpeechStart
  apply Prog.Triple.bind (Q := fun _ => I)
  . exact Prog.Triple.modify fun s hs => h.options s _ _ _ hs
  . intro _
    apply Prog.Triple.bind (wsWrite_control h rfl rfl)
    intro _
    exact Prog.Triple.modify hstart

theorem onText_start_keeps (hstart : ∀ s, I s → Q (startDecodeThread s))
    {obj : List (String × Json)} (hsignal : Json.find "signal" obj = some (.string "start"))
    : Prog.Triple I (onText env (some (.object obj))) (fun _ => Q) I := by
  simp only [onText, hsignal, if_true]
  apply Prog.Triple.bind (setNbest_keeps h _)
  intro _
  apply Prog.Triple.bind (setContinuousDecoding_keeps h _)
  intro _
  exact onSpeechStart_keeps h hstart

end Control

section Reader

variable {env : Env ν} {I Q : Conn ν → Prop} (h : ReaderKeeps I Q)

include h

theorem onText_keeps (v : Option Json) : Prog.Triple I (onText env v) (fun _ => Q) I := by
  have throws : Prog.Triple I (Prog.throw : Prog (Conn ν) Unit) (fun _ => Q) I :=
    Prog.Triple.throw fun _ hs => hs
  have fails (message : String) : Prog.Triple I (onError env message) (fun _ => Q) I :=
    (onError_keeps h.toControlKeeps message).post fun _ s hs => h.rest s hs
  cases v with
  | none => exact throws
  | some value =>
    cases value with
    | object obj =>
      cases hsignal : Json.find "signal" obj with
      | none =>
        simp only [onText, hsignal]
        exact fails _
      | some value =>
        cases value with
        | string signal =>
          by_cases hstart : signal = "start"
          . rw [hstart] at hsignal
            exact onText_start_keeps h.toControlKeeps h.start hsignal
          . simp only [onText, hsignal, hstart, if_false]
            apply Prog.Triple.ite
            . intro _
              exact Prog.Triple.modify h.stop
            . intro _
              exact fails _
        | _ =>
          simp only [onText, hsignal]
          exact throws
    | _ => exact fails _

variable (env) in
theorem readMessage_keeps (m : Incoming) : Prog.Triple I (readMessage env m) (fun _ => Q) I := by
  unfold readMessage
  apply Prog.Triple.get_bind
  intro s hs
  have here : ∀ s', s' = s → I s' := by
    rintro s' rfl
    exact hs
  apply Prog.Triple.ite
  . intro _
    exact Prog.Triple.throw here
  . intro _
    cases m with
    | error => exact Prog.Triple.throw here
    | text v =>
      apply Prog.Triple.bind ((onText_keeps h v).pre here)
      intro _
      apply Prog.Triple.get_bind
      intro s' hs'
      apply Prog.Triple.pure
      rintro _ rfl
      exact hs'
    | binary buffer =>
      apply Prog.Triple.ite
      . intro _
        apply Prog.Triple.bind ((onError_keeps h.toControlKeeps _).pre here)
        intro _
        exact Prog.Triple.pure h.rest
      . intro _
        apply Prog.Triple.ite
        . intro _
          exact Prog.Triple.pure fun s' hs' => h.rest s' (here s' hs')
        . intro _
          apply Prog.Triple.bind (Q := fun _ => Q)
          . exact Prog.Triple.modify fun s' hs' => h.data s' buffer (here s' hs')
          . intro _
            exact Prog.Triple.pure fun _ hs' => hs'

end Reader

end ConnectionHandler

structure Sound (env : Env ν) (vad₀ : ν) (c : Conn ν) : Prop where
  good : Good c
  idle : c.decoder = .idle ↔ c.handler.decodeThread = .none
  joined : c.handler.decodeThread = .joined → c.reader = .returned ∨ c.reader = .destroyed
  sync : c.terminated = false → c.decoder ≠ .finished → Sync env vad₀ c

structure Busy (env : Env ν) (vad₀ : ν) (c : Conn ν) : Prop extends Sound env vad₀ c where
  reading : c.reader = .reading

namespace ConnectionHandler

variable {env : Env ν} {vad₀ : ν} {c : Conn ν}

theorem startDecodeThread_busy (h : Busy env vad₀ c) : Busy env vad₀ (startDecodeThread c) where
  good := h.good.transfer h.good.access rfl rfl rfl
  idle := by
    constructor
    . intro heq
      cases heq
    . intro heq
      cases heq
  joined := by
    intro heq
    cases heq
  sync := by
    intro h1 h2
    have hterm : c.terminated = false ∧ c.handler.decodeThread ≠ .joinable := by
      have : (c.terminated || c.handler.decodeThread == .joinable) = false := h1
      simpa using this
    have hrun : c.decoder ≠ .finished := by
      intro hfin
      have hreading := h.reading
      cases hthread : c.handler.decodeThread with
      | none =>
        rw [h.idle.mpr hthread] at hfin
        cases hfin
      | joinable => exact hterm.2 hthread
      | joined =>
        have := h.joined hthread
        rw [hreading] at this
        simp at this
    exact { h.sync hterm.1 hrun with track := { (h.sync hterm.1 hrun).track with } }
  reading := h.reading

theorem onSpeechData_sync (h : Sync env vad₀ c) (buffer : Bytes)
    : Sync env vad₀ { c with handler := onSpeechData buffer c.handler } := by
  have hroom := h.track.room
  rw [h.acts_length] at hroom
  have hsamples : (onSpeechData buffer c.handler).samples
      = c.handler.samples ++ (int16s buffer).drop header := rfl
  constructor
  . show c.handler.acts = batchActs env vad₀ (onSpeechData buffer c.handler).samples c.handler.lastFrame
    rw [hsamples, batchActs_append env vad₀ _ _ hroom]
    exact h.acts
  . show c.vad = (vadRun env vad₀ (onSpeechData buffer c.handler).samples c.handler.lastFrame).2
    rw [hsamples, vadRun_append env vad₀ _ _ hroom]
    exact h.vad
  . exact h.nseg
  . refine h.track.extend (Nat.le_refl _) (Acts.Extends.refl _) h.track.paired ?_ hsamples rfl rfl
      h.track.frames h.track.quiet
    show c.handler.acts.acts.length * _ ≤ (onSpeechData buffer c.handler).samples.length
    rw [hsamples, List.length_append]
    exact Nat.le_trans h.track.room (Nat.le_add_right _ _)
  . intro range hrange
    have : (onSpeechData buffer c.handler).rcvRangeSmps.getLast?
        = some (((onSpeechData buffer c.handler).samples.length : Int) - (int16s buffer).length + header,
          ((onSpeechData buffer c.handler).samples.length : Int) - 1) := by
      simp [onSpeechData]
    rw [this] at hrange
    cases hrange
    rfl
  . have := h.nranges
    show _ ≤ (c.handler.rcvRangeSmps ++ [_]).length
    rw [List.length_append]
    exact Nat.le_trans this (Nat.le_add_right _ _)
  . intro heq
    have := h.nranges
    have : c.handler.lastNranges = (c.handler.rcvRangeSmps ++ [_]).length := heq
    rw [List.length_append, List.length_singleton] at this
    omega
  . intro hstate
    cases hstate

theorem busy_keeps (env : Env ν) (vad₀ : ν) : ReaderKeeps (Busy env vad₀) (Busy env vad₀) where
  rest _ h := h
  say c msg hmsg hending h :=
    { good := Good.say (o := c.output) h.good msg (by
        rw [hmsg]
        intro s hs
        cases hs)
      idle := h.idle
      joined := h.joined
      sync := fun h1 h2 =>
        { h.sync h1 h2 with
          track := Track.say (o := c.output) (h.sync h1 h2).track hending }
      reading := h.reading }
  close c h :=
    { good := h.good.transfer h.good.access rfl rfl rfl
      idle := h.idle
      joined := h.joined
      sync := fun h1 h2 => { h.sync h1 h2 with track := { (h.sync h1 h2).track with } }
      reading := h.reading }
  options c _ _ _ h :=
    { good := h.good.transfer h.good.access rfl rfl rfl
      idle := h.idle
      joined := h.joined
      sync := fun h1 h2 => { h.sync h1 h2 with track := { (h.sync h1 h2).track with } }
      reading := h.reading }
  start c h := startDecodeThread_busy h
  stop c h :=
    { good := h.good.transfer h.good.access rfl rfl rfl
      idle := h.idle
      joined := h.joined
      sync := fun h1 h2 =>
        { h.sync h1 h2 with
          track := { (h.sync h1 h2).track with }
          unset := fun hstate => by cases hstate }
      reading := h.reading }
  data c buffer h :=
    { good := h.good.transfer h.good.access rfl rfl rfl
      idle := h.idle
      joined := h.joined
      sync := fun h1 h2 => onSpeechData_sync (h.sync h1 h2) buffer
      reading := h.reading }

end ConnectionHandler

namespace Conn

variable {env : Env ν} {vad₀ : ν} {c : Conn ν}

theorem sound_reader (h : Sound env vad₀ c) {reader : Reader}
    (hjoined : c.handler.decodeThread = .joined → reader = .returned ∨ reader = .destroyed)
    : Sound env vad₀ { c with reader } where
  good := h.good.transfer h.good.access rfl rfl rfl
  idle := h.idle
  joined := hjoined
  sync h1 h2 := { h.sync h1 h2 with track := { (h.sync h1 h2).track with } }

theorem busy_not_joined (h : Busy env vad₀ c) : c.handler.decodeThread ≠ .joined := by
  intro hjoined
  have := h.joined hjoined
  rw [h.reading] at this
  simp at this

theorem sound_accept (h : Sound env vad₀ c) (ok : Bool) : Sound env vad₀ (c.accept ok) := by
  unfold accept
  split
  . next haccepting =>
    apply sound_reader h
    intro hjoined
    have := h.joined hjoined
    rw [haccepting] at this
    simp at this
  . exact h

theorem sound_recv (h : Sound env vad₀ c) (m : Incoming) : Sound env vad₀ (c.recv env m) := by
  unfold recv
  split
  . next hreading =>
    have hbusy := ConnectionHandler.readMessage_keeps env (ConnectionHandler.busy_keeps env vad₀) m c
      { h with reading := hreading.2 }
    split
    . next heq =>
      rw [heq] at hbusy
      exact hbusy.toSound
    . next heq =>
      rw [heq] at hbusy
      apply sound_reader hbusy.toSound
      intro hjoined
      exact absurd hjoined (busy_not_joined hbusy)
    . next heq =>
      rw [heq] at hbusy
      apply sound_reader hbusy.toSound
      intro _
      exact Or.inl rfl
  . exact h

theorem sound_finished (h : Sound env vad₀ c) (hrun : c.decoder = .running) {s : Conn ν}
    (hgood : Good s) (hdecoder : s.decoder = .finished)
    (hthread : s.handler.decodeThread = c.handler.decodeThread) (hreader : s.reader = c.reader)
    : Sound env vad₀ s where
  good := hgood
  idle := by
    rw [hdecoder, hthread, ← h.idle, hrun]
    simp
  joined := by
    rw [hthread, hreader]
    exact h.joined
  sync _ hne := absurd hdecoder hne

theorem going_of_alive (h : c.alive = true) : c.terminated = false := by
  unfold alive at h
  simp only [Bool.and_eq_true, Bool.not_eq_true'] at h
  exact h.1

theorem running_sync (h : Sound env vad₀ c) (halive : c.alive = true) (hrun : c.decoder = .running)
    : Sync env vad₀ c := by
  apply h.sync (going_of_alive halive)
  rw [hrun]
  simp

theorem passTo_of_sound (h : Sound env vad₀ c) (halive : c.alive = true)
    (hrun : c.decoder = .running)
    : PassTo env vad₀ c (c.pass env) :=
  pass_to h.good (running_sync h halive hrun) halive hrun

theorem sound_pass (h : Sound env vad₀ c) : Sound env vad₀ (c.pass env) := by
  by_cases hrun : c.alive ∧ c.decoder = .running
  . have hto := passTo_of_sound h hrun.1 hrun.2
    generalize c.pass env = s at hto ⊢
    cases hto with
    | skipped => exact h
    | decoded _ hkept hgood hsync' =>
      exact
        { good := hgood
          idle := by
            rw [hkept.decoder, hkept.decodeThread]
            exact h.idle
          joined := by
            rw [hkept.decodeThread, hkept.reader]
            exact h.joined
          sync := fun _ _ => hsync' }
    | finished _ _ hgood => exact sound_finished h hrun.2 hgood rfl rfl rfl
    | rescored _ hgood => exact sound_finished h hrun.2 hgood rfl rfl rfl
    | failed hkept hgood =>
      exact sound_finished h hrun.2 (good_finished hgood) rfl hkept.decodeThread hkept.reader
  . unfold pass
    rw [if_neg hrun]
    exact h

theorem sound_join (h : Sound env vad₀ c) : Sound env vad₀ c.join := by
  unfold join
  split
  . next hcond =>
    exact
      { good := h.good.transfer h.good.access rfl rfl rfl
        idle := by
          show c.decoder = .idle ↔ Handle.joined = .none
          rw [hcond.2.2]
          simp
        joined := fun _ => Or.inl rfl
        sync := fun _ hne => absurd hcond.2.2 hne }
  . exact h

theorem sound_destroy (h : Sound env vad₀ c) : Sound env vad₀ c.destroy := by
  unfold destroy
  split
  . next hcond =>
    have hterm := going_of_alive hcond.1
    exact
      { good := h.good.transfer h.good.access rfl rfl rfl
        idle := h.idle
        joined := fun _ => Or.inr rfl
        sync := fun _ hne => { h.sync hterm hne with track := { (h.sync hterm hne).track with } } }
  . exact h

theorem sound_step (h : Sound env vad₀ c) (e : Event) : Sound env vad₀ (c.step env e) := by
  cases e with
  | accept ok => exact sound_accept h ok
  | recv m => exact sound_recv h m
  | pass => exact sound_pass h
  | join => exact sound_join h
  | destroy => exact sound_destroy h

/--
An invariant that the receiving thread keeps, and which is not about the life of the threads, is kept in
every event that is not a pass.
-/
theorem step_keeps {I : Conn ν → Prop} (hreader : ReaderKeeps I I)
    (hturn : ∀ c reader terminated decodeThread, I c
      → I { c with reader, terminated, handler := { c.handler with decodeThread } })
    (h : I c) {e : Event} (hpass : e = .pass → I (c.pass env))
    : I (c.step env e) := by
  have turned : ∀ s : Conn ν, ∀ reader, I s → I { s with reader } :=
    fun s reader hs => hturn s reader s.terminated s.handler.decodeThread hs
  cases e with
  | accept ok =>
    show I (c.accept ok)
    unfold accept
    split
    . exact turned c _ h
    . exact h
  | recv m =>
    show I (c.recv env m)
    unfold recv
    split
    . have hread := ConnectionHandler.readMessage_keeps env hreader m c h
      split
      . next heq =>
        rw [heq] at hread
        exact hread
      . next heq =>
        rw [heq] at hread
        exact turned _ _ hread
      . next heq =>
        rw [heq] at hread
        exact turned _ _ hread
    . exact h
  | pass => exact hpass rfl
  | join =>
    show I c.join
    unfold join
    split
    . exact hturn c _ c.terminated _ h
    . exact h
  | destroy =>
    show I c.destroy
    unfold destroy
    split
    . exact hturn c _ _ c.handler.decodeThread h
    . exact h

theorem sound_new (env : Env ν) (state : Int) (vad : ν) : Sound env vad (new state vad) where
  good :=
    { access := by simp [new]
      sorted := List.Pairwise.nil
      stable := by simp [new]
      extended := List.Pairwise.nil }
  idle := by simp [new]
  joined := by simp [new]
  sync _ _ :=
    { acts := rfl
      vad := rfl
      nseg := rfl
      track :=
        { paired := Acts.Paired.empty
          room := by simp [new]
          posts := rfl
          bounds := rfl
          infos := fun _ _ => rfl
          frames := rfl
          quiet := by simp [Quiet, new] }
      ranges := by simp [new]
      nranges := Nat.le_refl _
      caught := by simp [new]
      unset := fun _ => rfl }

theorem sound_run (env : Env ν) (state : Int) (vad : ν) (events : List Event)
    : Sound env vad ((machine env state vad).run events) := by
  apply Machine.run_invariant
  . exact sound_new env state vad
  . intro c e h
    exact sound_step h e

end Conn
