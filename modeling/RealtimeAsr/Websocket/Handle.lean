import RealtimeAsr.Websocket.Reader

/-!
This module contains the life of the decode-thread handle: when a connection brings the process down by
dropping a thread that is still joinable.
-/

variable {ν : Type}

def Conn.ErrorSent (env : Env ν) (c : Conn ν) (message : String) : Prop :=
  env.write c.msgs (.failed message) = true ∧ env.close (c.msgs ++ [.failed message]) = true

def FatalText (env : Env ν) (c : Conn ν) : Option Json → Prop
  | none => True
  | some (.object obj) =>
    match Json.find "signal" obj with
    | some (.string signal) =>
      signal = "start"
        ∨ (signal ≠ "end" ∧ ¬c.ErrorSent env "Unexpected signal type")
    | some _ => True
    | none => ¬c.ErrorSent env "Wrong message header"
  | some _ => ¬c.ErrorSent env "Wrong protocol"

/--
What the receiving thread must not read as long as the decode thread is not joined: a failed read, a
fatal text, or anything at all on a stream that `OnError` has closed.
-/
def Fatal (env : Env ν) (c : Conn ν) : Incoming → Prop
  | .error => True
  | .text v => c.closed = true ∨ FatalText env c v
  | .binary _ =>
    c.closed = true
      ∨ (c.handler.gotStartTag = false
          ∧ ¬c.ErrorSent env "Start signal is expected before binary data")

def Calm (env : Env ν) (c : Conn ν) : Conn.Event → Prop
  | .recv m =>
    c.alive = true → c.reader = .reading → c.handler.decodeThread = .joinable → ¬Fatal env c m
  | _ => True

structure SameThread (c s : Conn ν) : Prop where
  thread : s.handler.decodeThread = c.handler.decodeThread
  terminated : s.terminated = c.terminated
  reader : s.reader = c.reader

namespace ConnectionHandler

variable {env : Env ν} {c : Conn ν}

def Restarted (c s : Conn ν) : Prop :=
  s.handler.decodeThread = .joinable
    ∧ s.terminated = (c.terminated || c.handler.decodeThread == .joinable)
    ∧ s.reader = c.reader

theorem sameThread_control (c : Conn ν) : ControlKeeps (SameThread c) where
  say _ _ _ _ hs := { hs with }
  close _ hs := { hs with }
  options _ _ _ _ hs := { hs with }

theorem restarted_of_same {s : Conn ν} (hs : SameThread c s) : Restarted c (startDecodeThread s) := by
  refine ⟨rfl, ?_, hs.reader⟩
  show (s.terminated || s.handler.decodeThread == .joinable) = _
  rw [hs.terminated, hs.thread]

theorem sameThread_reader (c : Conn ν)
    : ReaderKeeps (SameThread c) (fun s => SameThread c s ∨ Restarted c s) where
  toControlKeeps := sameThread_control c
  rest _ hs := Or.inl hs
  start _ hs := Or.inr (restarted_of_same hs)
  stop _ hs := Or.inl { hs with }
  data _ _ hs := Or.inl { hs with }

theorem onError_cases (env : Env ν) (c : Conn ν) (message : String)
    : ∃ sent closed,
        (c.closed = false ∧ c.ErrorSent env message ∧ closed = true
            ∧ onError env message c = (some (), { c with sent, closed }))
          ∨ (¬(c.closed = false ∧ c.ErrorSent env message)
            ∧ onError env message c = (none, { c with sent, closed })) := by
  have hwrite := wsWrite_emit env c c.output (.failed message)
  rw [Conn.emit_output] at hwrite
  unfold onError
  rw [Prog.bind_apply, hwrite]
  by_cases hcan : c.canWrite env c.output (.failed message)
  . let s := c.emit (c.output.say ⟨.failed message, c.segsResult c.output⟩)
    have hmsgs : s.msgs = c.msgs ++ [.failed message] := by
      show (c.sent ++ [_]).map _ = c.sent.map _ ++ [_]
      rw [List.map_append]
      rfl
    rw [if_pos hcan]
    dsimp only
    unfold wsClose
    rw [Prog.get_bind_apply, hmsgs]
    by_cases hclose : env.close (c.msgs ++ [.failed message]) = true
    . rw [if_neg]
      . exact ⟨s.sent, true, Or.inl ⟨hcan.1, ⟨hcan.2, hclose⟩, rfl, rfl⟩⟩
      . rintro (h | h)
        . rw [show (c.emit _).closed = c.closed from rfl, hcan.1] at h
          cases h
        . rw [hclose] at h
          cases h
    . rw [if_pos (Or.inr (by simpa using hclose))]
      exact ⟨s.sent, s.closed, Or.inr ⟨fun h => hclose h.2.2, rfl⟩⟩
  . rw [if_neg hcan]
    exact ⟨c.sent, c.closed, Or.inr ⟨fun h => hcan ⟨h.1, h.2.1⟩, rfl⟩⟩

theorem onError_sent (hclosed : c.closed = false) {message : String} (h : c.ErrorSent env message)
    : ∃ s, onError env message c = (some (), s) ∧ SameThread c s := by
  obtain ⟨_, _, ⟨_, _, _, heq⟩ | ⟨hnot, _⟩⟩ := onError_cases env c message
  . exact ⟨_, heq, ⟨rfl, rfl, rfl⟩⟩
  . exact absurd ⟨hclosed, h⟩ hnot

theorem onError_throws {message : String}
    (h : ¬c.ErrorSent env message)
    : ∃ s, onError env message c = (none, s) ∧ SameThread c s := by
  obtain ⟨_, _, ⟨_, hsent, _⟩ | ⟨_, heq⟩⟩ := onError_cases env c message
  . exact absurd hsent h
  . exact ⟨_, heq, ⟨rfl, rfl, rfl⟩⟩

theorem onText_calm (hclosed : c.closed = false) {v : Option Json} (h : ¬FatalText env c v)
    : ∃ s, onText env v c = (some (), s) ∧ SameThread c s := by
  unfold FatalText at h
  unfold onText
  split at h
  . exact absurd trivial h
  . next obj =>
    split at h
    . next signal hsignal =>
      rw [not_or, not_and, not_not] at h
      simp only [hsignal, h.1, if_false]
      by_cases hend : signal = "end"
      . simp only [hend, if_true]
        exact ⟨_, rfl, ⟨rfl, rfl, rfl⟩⟩
      . simp only [hend, if_false]
        exact onError_sent hclosed (h.2 hend)
    . exact absurd trivial h
    . next hsignal =>
      simp only [hsignal]
      exact onError_sent hclosed (not_not.mp h)
  . next v hobject =>
    cases v with
    | object obj => exact absurd rfl (hobject obj)
    | _ => exact onError_sent hclosed (not_not.mp h)

theorem onText_fatal (hthread : c.handler.decodeThread = .joinable)
    {v : Option Json} (h : FatalText env c v)
    : (∃ s, onText env v c = (none, s) ∧ SameThread c s)
        ∨ ∃ s, onText env v c = (some (), s) ∧ s.terminated = true := by
  unfold FatalText at h
  split at h
  . exact Or.inl ⟨c, rfl, ⟨rfl, rfl, rfl⟩⟩
  . next obj =>
    split at h
    . next signal hsignal =>
      by_cases hstart : signal = "start"
      . rw [hstart] at hsignal
        have hspec : Prog.Triple (SameThread c) (onText env (some (.object obj)))
            (fun _ => Restarted c) (SameThread c) :=
          onText_start_keeps (sameThread_control c) (fun _ => restarted_of_same) hsignal
        have htriple := hspec c ⟨rfl, rfl, rfl⟩
        split at htriple
        . next s heq =>
          right
          refine ⟨s, heq, ?_⟩
          rw [htriple.2.1, hthread]
          simp
        . next s heq => exact Or.inl ⟨s, heq, htriple⟩
      . left
        have hend := h.resolve_left hstart
        simp only [onText, hsignal, hstart, hend.1, if_false]
        exact onError_throws hend.2
    . next value hstring hsignal =>
      left
      refine ⟨c, ?_, ⟨rfl, rfl, rfl⟩⟩
      cases value with
      | string signal => exact absurd rfl (hstring signal)
      | _ =>
        simp only [onText, hsignal]
        rfl
    . next hsignal =>
      left
      simp only [onText, hsignal]
      exact onError_throws h
  . next v hobject =>
    left
    cases v with
    | object obj => exact absurd rfl (hobject obj)
    | _ => exact onError_throws h

theorem readMessage_calm {m : Incoming} (h : ¬Fatal env c m)
    : ∃ b s, readMessage env m c = (some b, s) ∧ SameThread c s := by
  cases m with
  | error => exact absurd trivial h
  | text v =>
    unfold Fatal at h
    rw [not_or, Bool.not_eq_true] at h
    obtain ⟨s, heq, hsame⟩ := onText_calm h.1 h.2
    unfold readMessage
    rw [Prog.get_bind_apply, if_neg (by rw [h.1]; simp)]
    dsimp only
    rw [Prog.bind_apply, heq]
    exact ⟨_, s, rfl, hsame⟩
  | binary buffer =>
    unfold Fatal at h
    rw [not_or, Bool.not_eq_true] at h
    unfold readMessage
    rw [Prog.get_bind_apply, if_neg (by rw [h.1]; simp)]
    dsimp only
    by_cases hstart : c.handler.gotStartTag = false
    . have hsent := not_not.mp fun hn => h.2 ⟨hstart, hn⟩
      obtain ⟨s, heq, hsame⟩ := onError_sent h.1 hsent
      rw [if_pos hstart, Prog.bind_apply, heq]
      exact ⟨true, s, rfl, hsame⟩
    . rw [if_neg hstart]
      by_cases hstop : c.handler.stopRecognition = true
      . rw [if_pos hstop]
        exact ⟨false, c, rfl, ⟨rfl, rfl, rfl⟩⟩
      . rw [if_neg hstop]
        exact ⟨true, _, rfl, ⟨rfl, rfl, rfl⟩⟩

theorem readMessage_fatal {m : Incoming} (hthread : c.handler.decodeThread = .joinable)
    (h : Fatal env c m)
    : (∃ s, readMessage env m c = (none, s) ∧ SameThread c s)
        ∨ ∃ b s, readMessage env m c = (some b, s) ∧ s.terminated = true := by
  by_cases hclosed : c.closed = true
  . left
    refine ⟨c, ?_, ⟨rfl, rfl, rfl⟩⟩
    unfold readMessage
    rw [Prog.get_bind_apply, if_pos hclosed]
    rfl
  . have hopen : c.closed = false := by simpa using hclosed
    unfold readMessage
    rw [Prog.get_bind_apply, if_neg hclosed]
    cases m with
    | error => exact Or.inl ⟨c, rfl, ⟨rfl, rfl, rfl⟩⟩
    | text v =>
      dsimp only
      obtain ⟨s, heq, hsame⟩ | ⟨s, heq, hterm⟩ := onText_fatal hthread (h.resolve_left hclosed)
      . left
        rw [Prog.bind_apply, heq]
        exact ⟨s, rfl, hsame⟩
      . right
        rw [Prog.bind_apply, heq]
        exact ⟨_, s, rfl, hterm⟩
    | binary buffer =>
      left
      obtain ⟨hstart, hnot⟩ := h.resolve_left hclosed
      obtain ⟨s, heq, hsame⟩ := onError_throws hnot
      dsimp only
      rw [if_pos hstart, Prog.bind_apply, heq]
      exact ⟨s, rfl, hsame⟩

end ConnectionHandler

namespace Conn

variable {env : Env ν} {vad₀ : ν} {c : Conn ν}

structure Held (c : Conn ν) : Prop where
  terminated : c.terminated = false
  held : c.handler.decodeThread = .joinable → c.reader = .reading ∨ c.reader = .joining

theorem pass_same (h : Sound env vad₀ c) : SameThread c (c.pass env) := by
  by_cases hrun : c.alive ∧ c.decoder = .running
  . have hto := passTo_of_sound h hrun.1 hrun.2
    generalize c.pass env = s at hto ⊢
    cases hto with
    | skipped => exact ⟨rfl, rfl, rfl⟩
    | decoded _ hkept => exact ⟨hkept.decodeThread, hkept.terminated, hkept.reader⟩
    | finished => exact ⟨rfl, rfl, rfl⟩
    | rescored => exact ⟨rfl, rfl, rfl⟩
    | failed hkept => exact ⟨hkept.decodeThread, hkept.terminated, hkept.reader⟩
  . unfold pass
    rw [if_neg hrun]
    exact ⟨rfl, rfl, rfl⟩

theorem held_read {s : Conn ν} (hterm : s.terminated = false) (hreading : s.reader = .reading)
    (goOn : Bool)
    : Held (match (some goOn, s) with
        | (some true, c) => c
        | (some false, c) =>
          { c with reader := if c.handler.decodeThread = .none then .returned else .joining }
        | (none, c) => { c with reader := .returned }) := by
  cases goOn with
  | true => exact ⟨hterm, fun _ => Or.inl hreading⟩
  | false =>
    refine ⟨hterm, ?_⟩
    intro hjoinable
    right
    show (if s.handler.decodeThread = .none then Reader.returned else .joining) = .joining
    rw [if_neg]
    rw [show s.handler.decodeThread = .joinable from hjoinable]
    simp

theorem held_recv (h : Held c) {m : Incoming} (hcalm : Calm env c (.recv m)) : Held (c.recv env m) := by
  unfold recv
  split
  . next hcond =>
    -- Without a joinable thread any message will do: it can start one but has none to drop.
    by_cases hthread : c.handler.decodeThread = .joinable
    . obtain ⟨b, s, heq, hsame⟩ := ConnectionHandler.readMessage_calm (hcalm hcond.1 hcond.2 hthread)
      rw [heq]
      exact held_read (hsame.terminated.trans h.terminated) (hsame.reader.trans hcond.2) b
    . have hspec := ConnectionHandler.readMessage_keeps env
        (ConnectionHandler.sameThread_reader c) m c ⟨rfl, rfl, rfl⟩
      generalize ConnectionHandler.readMessage env m c = result at hspec ⊢
      obtain ⟨goOn, s⟩ := result
      cases goOn with
      | some goOn =>
        cases hspec with
        | inl hsame =>
          exact held_read (hsame.terminated.trans h.terminated) (hsame.reader.trans hcond.2) goOn
        | inr hrestarted =>
          refine held_read ?_ (hrestarted.2.2.trans hcond.2) goOn
          rw [hrestarted.2.1, h.terminated]
          simpa using hthread
      | none =>
        have hsame : SameThread c s := hspec
        refine ⟨hsame.terminated.trans h.terminated, ?_⟩
        intro hjoinable
        exact absurd (hsame.thread.symm.trans hjoinable) hthread
  . exact h

theorem held_step (hsound : Sound env vad₀ c) (h : Held c) {e : Event} (hcalm : Calm env c e)
    : Held (c.step env e) := by
  cases e with
  | accept ok =>
    show Held (c.accept ok)
    unfold accept
    split
    . next haccepting =>
      refine ⟨h.terminated, ?_⟩
      intro hjoinable
      have := h.held hjoinable
      rw [haccepting] at this
      simp at this
    . exact h
  | recv m => exact held_recv h hcalm
  | pass =>
    have hsame := pass_same hsound
    refine ⟨hsame.terminated.trans h.terminated, ?_⟩
    intro hjoinable
    show (c.pass env).reader = _ ∨ (c.pass env).reader = _
    rw [hsame.reader]
    exact h.held (hsame.thread.symm.trans hjoinable)
  | join =>
    show Held c.join
    unfold join
    split
    . refine ⟨h.terminated, ?_⟩
      intro hjoinable
      cases hjoinable
    . exact h
  | destroy =>
    show Held c.destroy
    unfold destroy
    split
    . next hcond =>
      have hnot : c.handler.decodeThread ≠ .joinable := by
        intro hjoinable
        have := h.held hjoinable
        rw [hcond.2] at this
        simp at this
      refine ⟨?_, ?_⟩
      . simpa using hnot
      . intro hjoinable
        exact absurd hjoinable hnot
    . exact h

theorem fatal_recv {m : Incoming} (halive : c.alive = true) (hreading : c.reader = .reading)
    (hthread : c.handler.decodeThread = .joinable) (hfatal : Fatal env c m)
    : ((c.recv env m).step env .destroy).terminated = true := by
  have hkeep : ∀ s : Conn ν, s.terminated = true → (s.step env .destroy).terminated = true := by
    intro s hs
    show s.destroy.terminated = true
    unfold destroy
    rw [if_neg]
    . exact hs
    . rintro ⟨hs', _⟩
      simp [alive, hs] at hs'
  unfold recv
  rw [if_pos ⟨halive, hreading⟩]
  obtain ⟨s, heq, hsame⟩ | ⟨b, s, heq, hterm⟩ := ConnectionHandler.readMessage_fatal hthread hfatal
  . rw [heq]
    have hterm := hsame.terminated.trans (going_of_alive halive)
    show (destroy { s with reader := .returned }).terminated = true
    unfold destroy
    rw [if_pos]
    . show (s.handler.decodeThread == .joinable) = true
      rw [hsame.thread, hthread]
      rfl
    . refine ⟨?_, rfl⟩
      simp [alive, hterm]
  . rw [heq]
    apply hkeep
    cases b with
    | true => exact hterm
    | false => exact hterm

theorem never_terminates_iff (env : Env ν) (state : Int) (vad : ν) (events : List Event)
    : (∀ p, p <+: events → ((machine env state vad).run (p ++ [.destroy])).terminated = false)
        ↔
      ∀ p e, p ++ [e] <+: events → Calm env ((machine env state vad).run p) e := by
  constructor
  . intro h p e hp
    cases e with
    | recv m =>
      intro halive hreading hthread hfatal
      have hterm := h (p ++ [.recv m]) hp
      rw [Machine.run_concat, Machine.run_concat] at hterm
      have : true = false := (fatal_recv halive hreading hthread hfatal).symm.trans hterm
      cases this
    | _ => trivial
  -- A step leaves the handle held, and a held handle is not dropped by the destructor.
  . intro h p hp
    have hheld : Held ((machine env state vad).run p) := by
      induction p using List.reverseRecOn with
      | nil => exact ⟨rfl, by simp [machine, new]⟩
      | append_singleton p e ih =>
        rw [Machine.run_concat]
        exact held_step (sound_run env state vad p) (ih ((List.prefix_append _ _).trans hp))
          (h p e hp)
    rw [Machine.run_concat]
    exact (held_step (sound_run env state vad p) hheld (e := .destroy) trivial).terminated

theorem client_terminates
    : let start : Event := .recv (.text (some StartMsg.plain.val))
      ((machine (Env.uniform 0 []) 0 ()).run
            [.accept true, start, .recv .error, .destroy]).terminated = true
        ∧ ((machine (Env.uniform 0 []) 0 ()).run [.accept true, start, start]).terminated = true := by
  intro start
  exact ⟨rfl, rfl⟩

end Conn
