import RealtimeAsr.Websocket.Session

/-!
This module contains the output protocol of a session: what the decode thread sends, and exactly when
the value that `state_` was constructed with breaks it.
-/

variable {ν : Type}

def Msg.fromDecoder : Msg → Bool
  | .partialResult _ => true
  | .finalResult _ => true
  | .speechEnd => true
  | _ => false

/--
Partial results, and after an `end` possibly one final result directly followed by the speech end.
-/
def Protocol (ended : Bool) (msgs : List Msg) : Prop :=
  ∃ partials,
    (∀ m ∈ partials, m.isPartial = true)
      ∧ (msgs = partials
          ∨ (ended = true ∧ ∃ nbest, msgs = partials ++ [.finalResult nbest, .speechEnd]))

def emptyPost : Post where
  content := []
  id := .final
  format := "whole_pcm"

/--
The decode thread makes a pass before any message has set `state_`, and takes the value it happens to
hold for an ended or a rescored session.
-/
def EarlyFinal (env : Env ν) (state : Int) (calls : List Call) : Prop :=
  calls.head? = some .pass ∧ (state = 2 ∨ (state = 3 ∧ env.post [] emptyPost ≠ none))

namespace Protocol

theorem mono {ended ended' : Bool} {msgs : List Msg} (h : Protocol ended msgs)
    (hle : ended = true → ended' = true)
    : Protocol ended' msgs := by
  obtain ⟨partials, hpartials, hmsgs⟩ := h
  refine ⟨partials, hpartials, ?_⟩
  cases hmsgs with
  | inl heq => exact Or.inl heq
  | inr heq => exact Or.inr ⟨hle heq.1, heq.2⟩

def decoderMsgs (c : Conn ν) : List Msg :=
  c.msgs.filter Msg.fromDecoder

theorem quiet_partial {sent : List Written} (h : ∀ w ∈ sent, w.msg.isEnding = false)
    : ∀ m ∈ (sent.map (·.msg)).filter Msg.fromDecoder, m.isPartial = true := by
  intro m hm
  rw [List.mem_filter, List.mem_map] at hm
  obtain ⟨⟨w, hw, rfl⟩, hfrom⟩ := hm
  have hending := h w hw
  cases hmsg : w.msg with
  | partialResult nbest => rfl
  | finalResult nbest =>
    rw [hmsg] at hending
    cases hending
  | speechEnd =>
    rw [hmsg] at hending
    cases hending
  | serverReady =>
    rw [hmsg] at hfrom
    cases hfrom
  | failed message =>
    rw [hmsg] at hfrom
    cases hfrom

theorem of_quiet {c : Conn ν} (h : Quiet c) (ended : Bool) : Protocol ended (decoderMsgs c) :=
  ⟨_, quiet_partial h, Or.inl rfl⟩

theorem of_finished {env : Env ν} {c : Conn ν} {o : Output} (h : ∀ w ∈ o.sent, w.msg.isEnding = false)
    : Protocol true (decoderMsgs (c.finishedWith env o)) := by
  refine ⟨_, quiet_partial h, Or.inr ⟨rfl, ?_⟩⟩
  refine ⟨ConnectionHandler.serializeResult ((c.ended env).segsResult o), ?_⟩
  show (((o.sent ++ [_]) ++ [_]).map Written.msg).filter Msg.fromDecoder = _
  rw [List.map_append, List.map_append, List.filter_append, List.filter_append, List.append_assoc]
  rfl

theorem not_of_final {msgs : List Msg} {n : Nbest} (h : .finalResult n ∈ msgs)
    : ¬Protocol false msgs := by
  rintro ⟨partials, hpartials, heq | ⟨hended, _⟩⟩
  . rw [heq] at h
    cases hpartials _ h
  . cases hended

end Protocol

namespace ConnectionHandler

variable {env : Env ν} (hw : env.Writes) (nbest : Int) (continuousDecoding : Bool) (vad : ν)

include hw

theorem begun_pass_two
    : ((begun 2 nbest continuousDecoding vad).pass env).msgs = [.serverReady, .finalResult ⟨[]⟩] := by
  let c := begun 2 nbest continuousDecoding vad
  have hrescore : rescore env c
      = (onFinalResult env ⟨[]⟩ >>= fun _ =>
          onHandler fun h => { h with stopRecognition := true }) c := rfl
  have hwrite := wsWrite_emit env c c.output (.finalResult ⟨[]⟩)
  rw [Conn.emit_output, if_pos ⟨rfl, hw _ _⟩] at hwrite
  rw [Prog.bind_apply, onFinalResult, hwrite] at hrescore
  have hdecode : decodeThreadFunc env c = (rescore env >>= fun _ => pure false) c := rfl
  rw [Prog.bind_apply, hrescore] at hdecode
  unfold Conn.pass
  rw [if_pos ⟨rfl, rfl⟩, hdecode]
  rfl

theorem begun_pass_three
    : ((begun 3 nbest continuousDecoding vad).pass env).msgs
        =
      match env.post [] emptyPost with
      | none => [.serverReady]
      | some _ => [.serverReady, .finalResult ⟨[]⟩, .speechEnd] := by
  let c := begun 3 nbest continuousDecoding vad
  let o := c.output.log (.slice .final 0 0 0)
  have hfinish : finishRecognition env 0 c
      = (httpaudioPost env [] .final "whole_pcm" >>= fun _ =>
          Prog.get >>= fun c => sayResults env c) (c.emit o) := rfl
  rw [Prog.bind_apply, httpaudioPost_emit] at hfinish
  have hdecode : decodeThreadFunc env c = (finishRecognition env 0 >>= fun _ => pure false) c := rfl
  rw [Prog.bind_apply] at hdecode
  unfold Conn.pass
  rw [if_pos ⟨rfl, rfl⟩, hdecode, hfinish]
  have hasked : env.post o.posts { content := [], id := .final, format := "whole_pcm" }
      = env.post [] emptyPost := rfl
  rw [hasked]
  cases hpost : env.post [] emptyPost with
  | none => rfl
  | some result =>
    dsimp only
    rw [Prog.get_bind_apply, sayResults_emit ⟨rfl, hw _ _⟩ ⟨rfl, hw _ _⟩]
    rfl

end ConnectionHandler

section Session

variable {env : Env ν} {state : Int} {vad : ν} {start : StartMsg} {calls : List Call}

theorem session_begun (hw : env.Writes) (state : Int) (vad : ν) (start : StartMsg)
    : ∃ nbest continuousDecoding, session env state vad start []
        =
      begun state nbest continuousDecoding vad := by
  obtain ⟨_, hbegun⟩ | ⟨hwrite, _⟩ := session_nil env state vad start
  . exact hbegun
  . rw [hw] at hwrite
    cases hwrite

theorem head_of_not_received (hended : Call.ended calls = false)
    (hreceived : Call.received calls = false)
    : calls = [] ∨ calls.head? = some .pass := by
  cases calls with
  | nil => exact Or.inl rfl
  | cons call calls =>
    cases call with
    | data buffer => cases hreceived
    | stop v => cases hended
    | pass => exact Or.inr rfl

theorem not_set {p : List Call} {value : Int} (hvalue : value ≠ 1)
    (hended : Call.ended p = false) (hstate : Call.stateAfter state p = value)
    : Call.received p = false ∧ state = value := by
  unfold Call.stateAfter at hstate
  rw [hended] at hstate
  simp only [Bool.false_eq_true, if_false] at hstate
  split at hstate
  . exact absurd hstate.symm hvalue
  . next hreceived => exact ⟨by simpa using hreceived, hstate⟩

theorem pass_ends {p : List Call} (hrunning : Running state p (session env state vad start p))
    (hstate : Call.stateAfter state p = 3)
    : (session env state vad start (p ++ [.pass])).decoder ≠ .running := by
  have hto := session_pass hrunning.decoder
  have h3 := hrunning.state.trans hstate
  rw [session_concat]
  show ((session env state vad start p).pass env).decoder ≠ .running
  generalize (session env state vad start p).pass env = s at hto ⊢
  cases hto with
  | skipped hne => exact absurd h3 hne
  | decoded h1 =>
    rw [h3] at h1
    cases h1
  | finished => simp [Conn.finishedWith]
  | rescored h2 =>
    rw [h3] at h2
    cases h2
  | failed => simp

theorem nil_of_early {p : List Call} (hrunning : Running state p (session env state vad start p))
    (hended : Call.ended p = false) (hstate : Call.stateAfter state p = 3)
    : p = [] := by
  obtain ⟨hreceived, hinit⟩ := not_set (by decide) hended hstate
  cases p with
  | nil => rfl
  | cons call p =>
    cases head_of_not_received hended hreceived with
    | inl h => cases h
    | inr hhead =>
      rw [List.head?_cons, Option.some.injEq] at hhead
      rw [hhead] at hrunning
      have hone : (session env state vad start [.pass]).decoder = .running :=
        running_of_append p hrunning.decoder
      have hnil : (session env state vad start []).decoder = .running :=
        running_of_append [.pass] hone
      exact absurd hone (pass_ends (running_session hnil).1 hinit)

theorem protocol_pass {p : List Call} (hw : env.Writes)
    (hearly : ¬EarlyFinal env state (p ++ [.pass]))
    (hrunning : Running state p (session env state vad start p))
    : Protocol (Call.ended p)
        (Protocol.decoderMsgs ((session env state vad start p).pass env)) := by
  have hsync := (running_session hrunning.decoder).2
  have hto := session_pass hrunning.decoder
  generalize hs : (session env state vad start p).pass env = s at hto ⊢
  cases hto with
  | skipped => exact Protocol.of_quiet hsync.track.quiet _
  | decoded _ _ _ hsync' => exact Protocol.of_quiet hsync'.track.quiet _
  | failed _ _ hquiet => exact Protocol.of_quiet (hquiet hrunning.closed hw) _
  | finished h3 htrack =>
    cases hended : Call.ended p with
    | true => exact Protocol.of_finished htrack.quiet
    | false =>
      -- Only the very first pass can find a 3 that no `end` has set, and its request throws.
      have hstate := hrunning.state.symm.trans h3
      have hnil := nil_of_early hrunning hended hstate
      subst hnil
      have hinit := (not_set (by decide) hended hstate).2
      have hpost : env.post [] emptyPost = none := by
        by_contra hne
        exact hearly ⟨rfl, Or.inr ⟨hinit, hne⟩⟩
      obtain ⟨nbest, continuousDecoding, hbegun⟩ := session_begun hw state vad start
      have hmsgs := ConnectionHandler.begun_pass_three hw nbest continuousDecoding vad
      rw [hpost, ← hinit, ← hbegun, hs] at hmsgs
      refine ⟨[], by simp, Or.inl ?_⟩
      unfold Protocol.decoderMsgs
      rw [hmsgs]
      rfl
  -- Nothing sets `state_` to 2, so this is an early pass.
  | rescored h2 =>
    have hstate := hrunning.state.symm.trans h2
    cases hended : Call.ended p with
    | true =>
      rw [Call.stateAfter, hended] at hstate
      cases hstate
    | false =>
      obtain ⟨hreceived, hinit⟩ := not_set (by decide) hended hstate
      exfalso
      apply hearly
      refine ⟨?_, Or.inl hinit⟩
      cases head_of_not_received hended hreceived with
      | inl hnil =>
        rw [hnil]
        rfl
      | inr hhead => rw [List.head?_append, hhead, Option.some_or]

theorem protocol_of_not_early (hw : env.Writes) (hearly : ¬EarlyFinal env state calls) (p : List Call)
    (hp : p <+: calls)
    : Protocol (Call.ended p) (Protocol.decoderMsgs (session env state vad start p)) := by
  induction p using List.reverseRecOn with
  | nil =>
    obtain ⟨nbest, continuousDecoding, hbegun⟩ := session_begun hw state vad start
    rw [hbegun]
    exact ⟨[], by simp, Or.inl rfl⟩
  | append_singleton p call ih =>
    have ih := ih ((List.prefix_append _ _).trans hp)
    have hmono : Call.ended p = true → Call.ended (p ++ [call]) = true := by
      intro h
      rw [Call.ended_append, h]
      rfl
    apply Protocol.mono _ hmono
    rw [session_concat]
    cases stage_session env state vad start p with
    | dead hdecoder hreader =>
      rw [step_dead env hdecoder hreader]
      exact ih
    | finished hdecoder hstarted =>
      obtain ⟨handler, reader, heq, _⟩ := step_finished env hdecoder hstarted call
      rw [heq]
      exact ih
    | running hrunning =>
      cases hcall : call.isPass with
      | false =>
        obtain ⟨handler, reader, heq, _⟩ := readMessage_started env _ hrunning.started call hcall
        rw [heq]
        exact ih
      | true =>
        cases call with
        | pass =>
          apply protocol_pass hw _ hrunning
          rintro ⟨hhead, hstate⟩
          apply hearly
          refine ⟨?_, hstate⟩
          obtain ⟨rest, rfl⟩ := hp
          rw [List.head?_append, hhead, Option.some_or]
        | data buffer => cases hcall
        | stop v => cases hcall

end Session

/--
A session keeps to the output protocol unless the decode thread makes an early pass on a `state_` that
happens to hold 2, or 3.
-/
theorem protocol_iff (env : Env ν) (hw : env.Writes) (state : Int) (vad : ν) (start : StartMsg)
    (calls : List Call)
    : (∀ p, p <+: calls →
          Protocol (Call.ended p)
            ((session env state vad start p).msgs.filter Msg.fromDecoder))
        ↔
      ¬EarlyFinal env state calls := by
  constructor
  . rintro h ⟨hhead, hstate⟩
    have hprefix : [.pass] <+: calls := by
      cases calls with
      | nil => cases hhead
      | cons call calls =>
        rw [List.head?_cons, Option.some.injEq] at hhead
        rw [hhead]
        exact ⟨calls, rfl⟩
    have hprotocol := h [.pass] hprefix
    obtain ⟨nbest, continuousDecoding, hbegun⟩ := session_begun hw state vad start
    rw [← List.nil_append [Call.pass], session_concat, hbegun] at hprotocol
    refine Protocol.not_of_final (n := ⟨[]⟩) ?_ hprotocol
    show _ ∈ ((begun state nbest continuousDecoding vad).pass env).msgs.filter Msg.fromDecoder
    cases hstate with
    | inl h2 =>
      rw [h2, ConnectionHandler.begun_pass_two hw]
      decide
    | inr h3 =>
      obtain ⟨h3, hpost⟩ := h3
      rw [h3, ConnectionHandler.begun_pass_three hw]
      cases hresult : env.post [] emptyPost with
      | none => exact absurd hresult hpost
      | some result =>
        simp [Msg.fromDecoder]
  . intro hearly p hp
    exact protocol_of_not_early hw hearly p hp

theorem protocol_fails
    : (Env.uniform 0 []).Writes
        ∧ ¬Protocol (Call.ended [.pass])
            ((session (Env.uniform 0 []) 2 () .plain [.pass]).msgs.filter Msg.fromDecoder) := by
  have hmsgs : (session (Env.uniform 0 []) 2 () .plain [.pass]).msgs.filter Msg.fromDecoder
      = [.finalResult ⟨[]⟩] := rfl
  refine ⟨Env.uniform_writes 0 [], ?_⟩
  rw [hmsgs]
  exact Protocol.not_of_final List.mem_cons_self

theorem protocol_iff_on_data
    : let calls : List Call := [.data (List.replicate 364 0), .pass, .stop .plain, .pass]
      ¬EarlyFinal (Env.uniform 1 []) 2 calls
        ∧ (session (Env.uniform 1 []) 2 () .plain calls).msgs.filter Msg.fromDecoder
          = [.finalResult ⟨[]⟩, .speechEnd]
        ∧ ∀ p, p <+: calls →
            Protocol (Call.ended p)
              ((session (Env.uniform 1 []) 2 () .plain p).msgs.filter Msg.fromDecoder) := by
  intro calls
  have hearly : ¬EarlyFinal (Env.uniform 1 []) 2 calls := fun h => by cases h.1
  have hprotocol := (protocol_iff (Env.uniform 1 []) (Env.uniform_writes 1 []) 2 () .plain calls).mpr hearly
  exact ⟨hearly, by decide +kernel, hprotocol⟩
