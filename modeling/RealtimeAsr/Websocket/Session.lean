import RealtimeAsr.Websocket.Reader
import Mathlib.Data.List.DropRight

/-!
This module contains sessions with one `start`: what a binary message, an `end` and a pass do while the
decode thread is running, and what the buffer and the fields hold as a function of the calls so far.
-/

variable {ν : Type}

namespace Call

def ended : List Call → Bool
  | [] => false
  | .stop _ :: _ => true
  | .data _ :: calls => ended calls
  | .pass :: calls => ended calls

def received : List Call → Bool
  | [] => false
  | .stop _ :: _ => false
  | .data _ :: _ => true
  | .pass :: calls => received calls

/--
The samples received, nothing is read after an `end`.
-/
def audio : List Call → List Int16
  | [] => []
  | .stop _ :: _ => []
  | .data buffer :: calls => (int16s buffer).drop ConnectionHandler.header ++ audio calls
  | .pass :: calls => audio calls

def stateAfter (state : Int) (calls : List Call) : Int :=
  if ended calls then 3 else if received calls then 1 else state

def isPass : Call → Bool
  | .pass => true
  | _ => false

def seen (calls : List Call) : List Call :=
  calls.rdropWhile fun call => !call.isPass

theorem ended_append (p q : List Call) : ended (p ++ q) = (ended p || ended q) := by
  induction p with
  | nil => simp [ended]
  | cons c p ih =>
    cases c with
    | data buffer => exact ih
    | stop v => simp [ended]
    | pass => exact ih

theorem received_append (p q : List Call)
    : received (p ++ q) = (received p || (!ended p && received q)) := by
  induction p with
  | nil => simp [received, ended]
  | cons c p ih =>
    cases c with
    | data buffer => simp [received]
    | stop v => simp [received, ended]
    | pass => exact ih

theorem audio_append (p q : List Call)
    : audio (p ++ q) = audio p ++ if ended p then [] else audio q := by
  induction p with
  | nil => simp [audio, ended]
  | cons c p ih =>
    cases c with
    | data buffer =>
      show _ ++ audio (p ++ q) = (_ ++ audio p) ++ if ended p then [] else audio q
      rw [ih, List.append_assoc]
    | stop v => simp [audio, ended]
    | pass => exact ih

theorem audio_nil_of_not_received {p : List Call} (h : received p = false) : audio p = [] := by
  induction p with
  | nil => rfl
  | cons c p ih =>
    cases c with
    | data buffer => cases h
    | stop v => rfl
    | pass => exact ih h

@[simp]
theorem seen_concat_pass (p : List Call) : seen (p ++ [.pass]) = p ++ [.pass] := by
  apply List.rdropWhile_concat_neg
  simp [isPass]

@[simp]
theorem seen_concat_data (p : List Call) (buffer : Bytes)
    : seen (p ++ [.data buffer]) = seen p := by
  apply List.rdropWhile_concat_pos
  rfl

@[simp]
theorem seen_concat_stop (p : List Call) (v : EndMsg) : seen (p ++ [.stop v]) = seen p := by
  apply List.rdropWhile_concat_pos
  rfl

@[simp]
theorem audio_concat_pass (p : List Call) : audio (p ++ [.pass]) = audio p := by
  rw [audio_append]
  simp [audio]

@[simp]
theorem audio_concat_stop (p : List Call) (v : EndMsg) : audio (p ++ [.stop v]) = audio p := by
  rw [audio_append]
  simp [audio]

@[simp]
theorem stateAfter_concat_pass (state : Int) (p : List Call)
    : stateAfter state (p ++ [.pass]) = stateAfter state p := by
  unfold stateAfter
  rw [ended_append, received_append]
  simp [ended, received]

end Call

theorem recv_not_reading (env : Env ν) {c : Conn ν} (h : c.reader ≠ .reading) (m : Incoming)
    : c.recv env m = c := by
  unfold Conn.recv
  rw [if_neg]
  exact fun hreading => h hreading.2

structure Running (state : Int) (calls : List Call) (c : Conn ν) : Prop where
  decoder : c.decoder = .running
  terminated : c.terminated = false
  closed : c.closed = false
  started : c.handler.gotStartTag = true
  going : c.handler.stopRecognition = false
  thread : c.handler.decodeThread = .joinable
  reader : c.reader = if Call.ended calls then .joining else .reading
  state : c.handler.state = Call.stateAfter state calls
  samples : c.handler.samples = Call.audio calls
  frames : c.handler.lastFrame
    = (Call.audio (Call.seen calls)).length / ConnectionHandler.samplesPerFrame

namespace Running

variable {env : Env ν} {vad₀ : ν} {state : Int} {calls : List Call} {c : Conn ν}

theorem alive (h : Running state calls c) : c.alive = true := by
  have hreader := h.reader
  unfold Conn.alive
  rw [h.terminated]
  split at hreader
  . simp [hreader]
  . simp [hreader]

theorem reading (h : Running state calls c) (hended : Call.ended calls = false)
    : c.reader = .reading := by
  rw [h.reader, hended]
  rfl

theorem recv_ended (h : Running state calls c) (hended : Call.ended calls = true) (m : Incoming)
    : c.recv env m = c := by
  apply recv_not_reading
  rw [h.reader, hended]
  simp

theorem recv_data (h : Running state calls c) (hended : Call.ended calls = false) (buffer : Bytes)
    : c.recv env (.binary buffer)
        =
      { c with handler := ConnectionHandler.onSpeechData buffer c.handler } := by
  have hread : ConnectionHandler.readMessage env (.binary buffer) c
      = (some true, { c with handler := ConnectionHandler.onSpeechData buffer c.handler }) := by
    unfold ConnectionHandler.readMessage
    rw [Prog.get_bind_apply, if_neg (by rw [h.closed]; simp)]
    dsimp only
    rw [if_neg (by rw [h.started]; simp), if_neg (by rw [h.going]; simp)]
    rfl
  unfold Conn.recv
  rw [if_pos ⟨h.alive, h.reading hended⟩, hread]

theorem onText_end (v : EndMsg)
    : ConnectionHandler.onText env (some v.val) = ConnectionHandler.onSpeechEnd := by
  obtain ⟨v, hv⟩ := v
  cases v with
  | object obj =>
    cases hsignal : Json.find "signal" obj with
    | none => simp [Json.isEnd, hsignal] at hv
    | some value =>
      cases value with
      | string signal =>
        have : signal = "end" := by simpa [Json.isEnd, hsignal] using hv
        simp [ConnectionHandler.onText, hsignal, this]
      | _ => simp [Json.isEnd, hsignal] at hv
  | _ => simp [Json.isEnd] at hv

theorem recv_stop (h : Running state calls c) (hended : Call.ended calls = false) (v : EndMsg)
    : c.recv env (.text (some v.val))
        =
      { c with
        handler := { c.handler with gotEndTag := true, state := 3 }
        reader := .joining } := by
  have hread : ConnectionHandler.readMessage env (.text (some v.val)) c
      = (some false, { c with handler := { c.handler with gotEndTag := true, state := 3 } }) := by
    unfold ConnectionHandler.readMessage
    rw [Prog.get_bind_apply, if_neg (by rw [h.closed]; simp)]
    dsimp only
    rw [onText_end]
    rfl
  unfold Conn.recv
  rw [if_pos ⟨h.alive, h.reading hended⟩, hread]
  dsimp only
  rw [h.thread]
  rfl

theorem step_data (h : Running state calls c) (buffer : Bytes)
    : Running state (calls ++ [.data buffer]) (c.recv env (.binary buffer)) := by
  cases hended : Call.ended calls with
  | true =>
    rw [h.recv_ended hended]
    exact
      { h with
        reader := by
          rw [h.reader, Call.ended_append, hended]
          rfl
        state := by
          rw [h.state]
          simp [Call.stateAfter, Call.ended_append, hended]
        samples := by
          rw [h.samples, Call.audio_append, hended]
          simp
        frames := by
          rw [h.frames, Call.seen_concat_data] }
  | false =>
    rw [h.recv_data hended]
    exact
      { h with
        reader := by
          rw [Call.ended_append, hended]
          exact h.reading hended
        state := by
          simp [Call.stateAfter, Call.ended_append, Call.received_append, hended, Call.ended,
            Call.received, ConnectionHandler.onSpeechData]
        samples := by
          rw [Call.audio_append, hended, ← h.samples]
          simp [Call.audio, ConnectionHandler.onSpeechData]
        frames := by
          rw [Call.seen_concat_data, ← h.frames]
          rfl }

theorem step_stop (h : Running state calls c) (v : EndMsg)
    : Running state (calls ++ [.stop v]) (c.recv env (.text (some v.val))) := by
  cases hended : Call.ended calls with
  | true =>
    rw [h.recv_ended hended]
    exact
      { h with
        reader := by
          rw [h.reader, Call.ended_append, hended]
          rfl
        state := by
          rw [h.state]
          simp [Call.stateAfter, Call.ended_append, hended]
        samples := by
          rw [h.samples, Call.audio_concat_stop]
        frames := by
          rw [h.frames, Call.seen_concat_stop] }
  | false =>
    rw [h.recv_stop hended]
    exact
      { h with
        reader := by simp [Call.ended_append, Call.ended]
        state := by simp [Call.stateAfter, Call.ended_append, Call.ended]
        samples := by
          rw [Call.audio_concat_stop, ← h.samples]
        frames := by
          rw [Call.seen_concat_stop, ← h.frames] }

theorem sync (h : Running state calls c) (hsound : Sound env vad₀ c) : Sync env vad₀ c := by
  apply hsound.sync h.terminated
  rw [h.decoder]
  simp

theorem step_pass (h : Running state calls c) (hsound : Sound env vad₀ c)
    (hrun : (c.pass env).decoder = .running)
    : Running state (calls ++ [.pass]) (c.pass env) := by
  have hto := Conn.passTo_of_sound hsound h.alive h.decoder
  generalize c.pass env = s at hto hrun ⊢
  have hended : Call.ended (calls ++ [.pass]) = Call.ended calls := by
    rw [Call.ended_append]
    simp [Call.ended]
  cases hto with
  | skipped h3 h2 h1 =>
    have hnone : Call.audio calls = [] := by
      apply Call.audio_nil_of_not_received
      have hstate := h.state
      unfold Call.stateAfter at hstate
      split at hstate
      . exact absurd hstate h3
      . next hended =>
        split at hstate
        . exact absurd hstate h1
        . next hreceived => simpa using hreceived
    exact
      { h with
        reader := by
          rw [hended]
          exact h.reader
        state := by
          rw [Call.stateAfter_concat_pass]
          exact h.state
        samples := by
          rw [Call.audio_concat_pass]
          exact h.samples
        frames := by
          have hle := (h.sync hsound).lastFrame_le
          rw [h.samples, hnone] at hle
          rw [Call.seen_concat_pass, Call.audio_concat_pass, hnone]
          exact Nat.le_zero.mp hle }
  | decoded hstate hkept _ _ hframe =>
    exact
      { decoder := hrun
        terminated := hkept.terminated.trans h.terminated
        closed := hkept.closed.trans h.closed
        started := hkept.gotStartTag.trans h.started
        going := hkept.stopRecognition.trans h.going
        thread := hkept.decodeThread.trans h.thread
        reader := by
          rw [hended, hkept.reader]
          exact h.reader
        state := by
          rw [Call.stateAfter_concat_pass, hkept.state]
          exact h.state
        samples := by
          rw [Call.audio_concat_pass, hkept.samples]
          exact h.samples
        frames := by
          rw [Call.seen_concat_pass, Call.audio_concat_pass, hframe, h.samples] }
  | finished => cases hrun
  | rescored => cases hrun
  | failed => cases hrun

end Running

/--
Where a session with one `start` can be: the start failed, the decode thread runs, or it has ended.
-/
inductive Stage (state : Int) (calls : List Call) (c : Conn ν) : Prop where
  | dead (hdecoder : c.decoder = .idle) (hreader : c.reader = .returned) (hsent : c.sent = [])
  | running (h : Running state calls c)
  | finished (hdecoder : c.decoder = .finished) (hstarted : c.handler.gotStartTag = true)

section Start

variable (env : Env ν) (c : Conn ν)

theorem setNbest_start {v : Option Json}
    (h : (match v with
      | none => true
      | some (.int64 _) => true
      | some _ => false) = true)
    : ∃ nbest, ConnectionHandler.setNbest env v c
        =
      (some (), { c with handler := { c.handler with nbest } }) := by
  split at h
  . exact ⟨_, rfl⟩
  . exact ⟨_, rfl⟩
  . cases h

theorem setContinuousDecoding_start {v : Option Json}
    (h : (match v with
      | none => true
      | some (.bool _) => true
      | some _ => false) = true)
    : ∃ continuousDecoding, ConnectionHandler.setContinuousDecoding env v c
        =
      (some (), { c with handler := { c.handler with continuousDecoding } }) := by
  split at h
  . exact ⟨_, rfl⟩
  . exact ⟨_, rfl⟩
  . cases h

theorem onText_start (v : StartMsg)
    : ∃ nbest continuousDecoding, ConnectionHandler.onText env (some v.val) c
        =
      ConnectionHandler.onSpeechStart env
        { c with handler := { c.handler with nbest, continuousDecoding } } := by
  obtain ⟨v, hv⟩ := v
  cases v with
  | object obj =>
    simp only [Json.isStart, Bool.and_eq_true] at hv
    obtain ⟨⟨hsignal, hnbest⟩, hcontinuous⟩ := hv
    cases hfind : Json.find "signal" obj with
    | none => simp [hfind] at hsignal
    | some value =>
      cases value with
      | string signal =>
        have hstart : signal = "start" := by simpa [hfind] using hsignal
        obtain ⟨nbest, hnbest⟩ := setNbest_start env c hnbest
        obtain ⟨continuousDecoding, hcontinuous⟩ := setContinuousDecoding_start env
          { c with handler := { c.handler with nbest } } hcontinuous
        refine ⟨nbest, continuousDecoding, ?_⟩
        simp only [ConnectionHandler.onText, hfind, hstart, if_true]
        rw [Prog.bind_apply, hnbest]
        dsimp only
        rw [Prog.bind_apply, hcontinuous]
      | _ => simp [hfind] at hsignal
  | _ => cases hv

theorem onSpeechStart_apply
    : ConnectionHandler.onSpeechStart env c
        =
      let c := { c with handler := { c.handler with gotStartTag := true } }
      if c.canWrite env c.output .serverReady then
        (some (), ConnectionHandler.startDecodeThread
          (c.emit (c.output.say ⟨.serverReady, c.segsResult c.output⟩)))
      else
        (none, c) := by
  have hwrite := ConnectionHandler.wsWrite_emit env
    { c with handler := { c.handler with gotStartTag := true } }
    { c with handler := { c.handler with gotStartTag := true } }.output .serverReady
  unfold ConnectionHandler.onSpeechStart ConnectionHandler.onHandler
  rw [Prog.modify_bind_apply, Prog.bind_apply]
  rw [Conn.emit_output] at hwrite
  rw [hwrite]
  dsimp only
  split
  . next heq =>
    split at heq
    . next hcan =>
      cases heq
      rw [if_pos hcan]
      rfl
    . cases heq
  . next heq =>
    split at heq
    . cases heq
    . next hcan =>
      cases heq
      rw [if_neg hcan]

def begun (state : Int) (nbest : Int) (continuousDecoding : Bool) (vad : ν) : Conn ν where
  handler :=
    { continuousDecoding, nbest, state, gotStartTag := true, decodeThread := .joinable }
  vad
  reader := .reading
  decoder := .running
  sent := [⟨.serverReady, []⟩]

theorem begun_running (state : Int) (nbest : Int) (continuousDecoding : Bool) (vad : ν)
    : Running state [] (begun state nbest continuousDecoding vad) where
  decoder := rfl
  terminated := rfl
  closed := rfl
  started := rfl
  going := rfl
  thread := rfl
  reader := rfl
  state := rfl
  samples := rfl
  frames := rfl

theorem session_nil (state : Int) (vad : ν) (start : StartMsg)
    : (env.write [] .serverReady = true
          ∧ ∃ nbest continuousDecoding,
              session env state vad start [] = begun state nbest continuousDecoding vad)
        ∨
      (env.write [] .serverReady = false
          ∧ (session env state vad start []).decoder = .idle
          ∧ (session env state vad start []).reader = .returned
          ∧ (session env state vad start []).sent = []) := by
  let c₀ : Conn ν := { Conn.new state vad with reader := .reading }
  have hsession : session env state vad start [] = c₀.recv env (.text (some start.val)) := rfl
  obtain ⟨nbest, continuousDecoding, htext⟩ := onText_start env c₀ start
  have hread : ConnectionHandler.readMessage env (.text (some start.val)) c₀
      = (ConnectionHandler.onText env (some start.val) >>= fun _ =>
          Prog.get >>= fun c => pure !c.handler.gotEndTag) c₀ := rfl
  rw [Prog.bind_apply, htext, onSpeechStart_apply] at hread
  dsimp only at hread
  rw [hsession]
  unfold Conn.recv
  rw [if_pos ⟨rfl, rfl⟩, hread]
  by_cases hwrite : env.write [] .serverReady = true
  . left
    rw [if_pos ⟨rfl, hwrite⟩]
    exact ⟨hwrite, nbest, continuousDecoding, rfl⟩
  . right
    rw [if_neg fun hcan => hwrite hcan.2]
    exact ⟨by simpa using hwrite, rfl, rfl, rfl⟩

end Start

theorem session_concat (env : Env ν) (state : Int) (vad : ν) (start : StartMsg) (calls : List Call)
    (call : Call)
    : session env state vad start (calls ++ [call])
        =
      (session env state vad start calls).step env call.event := by
  unfold session sessionEvents
  rw [List.map_append, List.map_singleton, ← List.cons_append, ← List.cons_append,
    Machine.run_concat]
  rfl

theorem session_sound (env : Env ν) (state : Int) (vad : ν) (start : StartMsg) (calls : List Call)
    : Sound env vad (session env state vad start calls) :=
  Conn.sound_run env state vad _

theorem pass_not_running (env : Env ν) (c : Conn ν) (h : c.decoder ≠ .running) : c.pass env = c := by
  unfold Conn.pass
  rw [if_neg]
  exact fun hrun => h hrun.2

-- After a `start` binary messages and an `end` write nothing, and leave the decode thread alone.
theorem readMessage_started (env : Env ν) (c : Conn ν) (hstarted : c.handler.gotStartTag = true)
    (call : Call) (hcall : call.isPass = false)
    : ∃ handler reader, c.step env call.event = { c with handler, reader }
        ∧ handler.gotStartTag = true := by
  cases call with
  | pass => cases hcall
  | data buffer =>
    show ∃ handler reader, c.recv env (.binary buffer) = _ ∧ _
    unfold Conn.recv
    split
    . unfold ConnectionHandler.readMessage
      rw [Prog.get_bind_apply]
      by_cases hclosed : c.closed = true
      . rw [if_pos hclosed]
        exact ⟨_, _, rfl, hstarted⟩
      . rw [if_neg hclosed]
        dsimp only
        rw [if_neg (by rw [hstarted]; simp)]
        by_cases hstop : c.handler.stopRecognition = true
        . rw [if_pos hstop]
          exact ⟨_, _, rfl, hstarted⟩
        . rw [if_neg hstop]
          exact ⟨_, _, rfl, hstarted⟩
    . exact ⟨_, _, rfl, hstarted⟩
  | stop v =>
    show ∃ handler reader, c.recv env (.text (some v.val)) = _ ∧ _
    unfold Conn.recv
    split
    . unfold ConnectionHandler.readMessage
      rw [Prog.get_bind_apply]
      by_cases hclosed : c.closed = true
      . rw [if_pos hclosed]
        exact ⟨_, _, rfl, hstarted⟩
      . rw [if_neg hclosed]
        dsimp only
        rw [Running.onText_end]
        exact ⟨_, _, rfl, hstarted⟩
    . exact ⟨_, _, rfl, hstarted⟩

theorem step_dead (env : Env ν) {c : Conn ν} (hdecoder : c.decoder = .idle)
    (hreader : c.reader = .returned) (call : Call)
    : c.step env call.event = c := by
  have hnot : c.reader ≠ .reading := by
    rw [hreader]
    simp
  cases call with
  | data buffer => exact recv_not_reading env hnot _
  | stop v => exact recv_not_reading env hnot _
  | pass =>
    apply pass_not_running
    rw [hdecoder]
    simp

theorem step_finished (env : Env ν) {c : Conn ν} (hdecoder : c.decoder = .finished)
    (hstarted : c.handler.gotStartTag = true) (call : Call)
    : ∃ handler reader, c.step env call.event = { c with handler, reader }
        ∧ handler.gotStartTag = true := by
  cases hcall : call.isPass with
  | true =>
    cases call with
    | pass =>
      have hsame : c.pass env = c := pass_not_running env c (by rw [hdecoder]; simp)
      exact ⟨c.handler, c.reader, hsame, hstarted⟩
    | data buffer => cases hcall
    | stop v => cases hcall
  | false => exact readMessage_started env c hstarted call hcall

theorem Running.finished_pass {env : Env ν} {vad₀ : ν} {state : Int} {calls : List Call} {c : Conn ν}
    (h : Running state calls c) (hsound : Sound env vad₀ c)
    (hrun : (c.pass env).decoder ≠ .running)
    : (c.pass env).decoder = .finished ∧ (c.pass env).handler.gotStartTag = true := by
  have hto := Conn.passTo_of_sound hsound h.alive h.decoder
  generalize c.pass env = s at hto hrun ⊢
  cases hto with
  | skipped => exact absurd h.decoder hrun
  | decoded _ hkept => exact absurd (hkept.decoder.trans h.decoder) hrun
  | finished => exact ⟨rfl, h.started⟩
  | rescored => exact ⟨rfl, h.started⟩
  | failed hkept => exact ⟨rfl, hkept.gotStartTag.trans h.started⟩

theorem Stage.step {env : Env ν} {vad₀ : ν} {state : Int} {calls : List Call} {c : Conn ν}
    (h : Stage state calls c) (hsound : Sound env vad₀ c) (call : Call)
    : Stage state (calls ++ [call]) (c.step env call.event) := by
  cases h with
  | dead hdecoder hreader hsent =>
    rw [step_dead env hdecoder hreader]
    exact Stage.dead hdecoder hreader hsent
  | running h =>
    cases call with
    | data buffer => exact Stage.running (h.step_data buffer)
    | stop v => exact Stage.running (h.step_stop v)
    | pass =>
      show Stage state (calls ++ [.pass]) (c.pass env)
      by_cases hrun : (c.pass env).decoder = .running
      . exact Stage.running (h.step_pass hsound hrun)
      . have hfinished := h.finished_pass hsound hrun
        exact Stage.finished hfinished.1 hfinished.2
  | finished hdecoder hstarted =>
    obtain ⟨handler, reader, heq, hstarted'⟩ := step_finished env hdecoder hstarted call
    rw [heq]
    exact Stage.finished hdecoder hstarted'

theorem stage_session (env : Env ν) (state : Int) (vad : ν) (start : StartMsg) (calls : List Call)
    : Stage state calls (session env state vad start calls) := by
  induction calls using List.reverseRecOn with
  | nil =>
    cases session_nil env state vad start with
    | inl h =>
      obtain ⟨_, nbest, continuousDecoding, heq⟩ := h
      rw [heq]
      exact Stage.running (begun_running _ _ _ _)
    | inr h => exact Stage.dead h.2.1 h.2.2.1 h.2.2.2
  | append_singleton calls call ih =>
    rw [session_concat]
    exact ih.step (session_sound env state vad start calls) call

theorem running_session {env : Env ν} {state : Int} {vad : ν} {start : StartMsg} {calls : List Call}
    (hrun : (session env state vad start calls).decoder = .running)
    : Running state calls (session env state vad start calls)
        ∧ Sync env vad (session env state vad start calls) := by
  cases stage_session env state vad start calls with
  | dead hdecoder =>
    rw [hrun] at hdecoder
    cases hdecoder
  | running h => exact ⟨h, h.sync (session_sound env state vad start calls)⟩
  | finished hdecoder =>
    rw [hrun] at hdecoder
    cases hdecoder

theorem session_pass {env : Env ν} {state : Int} {vad : ν} {start : StartMsg} {calls : List Call}
    (hrun : (session env state vad start calls).decoder = .running)
    : Conn.PassTo env vad (session env state vad start calls)
        ((session env state vad start calls).pass env) :=
  Conn.passTo_of_sound (session_sound env state vad start calls) (running_session hrun).1.alive hrun

theorem Stage.running_of_step {env : Env ν} {state : Int} {calls : List Call} {c : Conn ν}
    (h : Stage state calls c) {call : Call} (hrun : (c.step env call.event).decoder = .running)
    : c.decoder = .running := by
  cases h with
  | dead hdecoder hreader =>
    rw [step_dead env hdecoder hreader] at hrun
    exact hrun
  | running h => exact h.decoder
  | finished hdecoder hstarted =>
    obtain ⟨handler, reader, heq, _⟩ := step_finished env hdecoder hstarted call
    rw [heq] at hrun
    exact hrun

theorem running_of_append {env : Env ν} {state : Int} {vad : ν} {start : StartMsg} {p : List Call}
    (q : List Call) (hrun : (session env state vad start (p ++ q)).decoder = .running)
    : (session env state vad start p).decoder = .running := by
  induction q using List.reverseRecOn with
  | nil =>
    rw [List.append_nil] at hrun
    exact hrun
  | append_singleton q call ih =>
    apply ih
    rw [← List.append_assoc, session_concat] at hrun
    exact (stage_session env state vad start (p ++ q)).running_of_step hrun
