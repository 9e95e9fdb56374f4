import RealtimeAsr.Webrtc.Silence
import RealtimeAsr.Websocket.Shared

/-!
This module contains the server of `bin/server.cc` with its VAD, and shows which decisions its connections
get from it.
-/

variable {ν ρ : Type}

theorem ConnectionHandler.decodeRanges_keeps {env : Env ν} {I : Conn ν → Prop}
    (hframe : ∀ i, Prog.Keeps I (vadFrame env i))
    (hadvance : ∀ c lastFrame lastNranges, I c → I { c with handler := { c.handler with lastFrame, lastNranges } })
    (hpost : ∀ endSplIdx, Prog.Keeps I (postRanges env endSplIdx))
    : Prog.Keeps I (decodeRanges env) := by
  intro c hc
  by_cases hnew : c.handler.New
  . have hloop : Prog.Keeps I (Prog.forRange c.handler.lastFrame c.handler.nframes (vadFrame env)) :=
      Prog.Triple.loop fun i _ _ => hframe i
    have hafter : Prog.Keeps I (onHandler fun h =>
        { h with lastFrame := c.handler.nframes, lastNranges := c.handler.rcvRangeSmps.length }) :=
      Prog.Triple.modify fun s hs => hadvance s _ _ hs
    rw [decodeRanges_new _ hnew]
    exact hloop.bind (fun _ => hafter.bind fun _ => hpost _) c hc
  . rw [decodeRanges_old _ hnew]
    exact hc

section Given

open Prog (Respects)

def DecidedIn (P : Int → Prop) (c : Conn (List Int)) : Prop :=
  (∀ d ∈ c.handler.acts.acts, P d) ∧ ∀ d ∈ c.vad, P d

variable {P : Int → Prop} {env : Env (List Int)}

theorem respects_decidedIn (P : Int → Prop) : PostingRespects fun s t => s = t ∧ DecidedIn P s where
  acts _ _ h := congrArg (fun c => c.handler.acts) h.1
  samples _ _ h := congrArg (fun c => c.handler.samples) h.1
  nsegDone _ _ h := congrArg (fun c => c.handler.nsegDone) h.1
  curResult _ _ h := congrArg (fun c => c.handler.curResult) h.1
  segs _ _ h := congrArg (fun c => c.handler.getSegsResult) h.1
  closed _ _ h := congrArg (fun c => c.closed) h.1
  posts _ _ h := congrArg (fun c => c.posts) h.1
  msgs _ _ h := congrArg (fun c => c.msgs) h.1
  log _ _ _ h := ⟨by rw [h.1], h.2⟩
  ask _ _ _ h := ⟨by rw [h.1], h.2⟩
  say _ _ _ h := ⟨by rw [h.1], h.2⟩
  hear _ _ _ h := ⟨by rw [h.1], h.2⟩
  close s _ r h := by
    refine ⟨by rw [h.1], fun d hd => h.2.1 d ?_, h.2.2⟩
    rw [← Acts.end_acts r s.handler.acts]
    exact hd
  posted _ _ _ h := ⟨by rw [h.1], h.2⟩
  finish _ _ h := ⟨by rw [h.1], fun d hd => absurd hd List.not_mem_nil, h.2.2⟩
  stop _ _ h := ⟨by rw [h.1], h.2⟩

theorem vadFrame_decidedIn (hzero : P 0) (p : Peer) (i : Nat)
    : Prog.Keeps (DecidedIn P) (ConnectionHandler.vadFrame (p.env scripted) i) := by
  intro c hc
  have hnext : P (scripted c.vad (frame c.handler.samples i)).1
      ∧ ∀ d ∈ (scripted c.vad (frame c.handler.samples i)).2, P d := by
    have hleft := hc.2
    cases hvad : c.vad with
    | nil => exact ⟨hzero, fun d hd => absurd hd List.not_mem_nil⟩
    | cons d ds =>
      rw [hvad] at hleft
      exact List.forall_mem_cons.mp hleft
  refine ⟨fun d hd => ?_, hnext.2⟩
  have hacts : d ∈ (c.handler.acts.addAct (scripted c.vad (frame c.handler.samples i)).1).acts := hd
  rw [Acts.addAct_acts, List.mem_append, List.mem_singleton] at hacts
  exact hacts.elim (hc.1 d) fun heq => heq ▸ hnext.1

theorem decodeRanges_decidedIn (hzero : P 0) (p : Peer)
    : Prog.Keeps (DecidedIn P) (ConnectionHandler.decodeRanges (p.env scripted)) := by
  apply ConnectionHandler.decodeRanges_keeps
  . exact vadFrame_decidedIn hzero p
  . exact fun _ _ _ hs => hs
  . intro endSplIdx
    exact Prog.keeps_of_respects ((respects_decidedIn P).postRanges (p.env scripted) endSplIdx)

theorem step_decidedIn (hzero : P 0) (p : Peer) {c : Conn (List Int)} (h : DecidedIn P c) (e : Conn.Event)
    : DecidedIn P (c.step (p.env scripted) e) := by
  have hreader : ReaderKeeps (DecidedIn (P := P)) (DecidedIn P) := {
    say := fun _ _ _ _ hs => hs
    close := fun _ hs => hs
    options := fun _ _ _ _ hs => hs
    rest := fun _ hs => hs
    start := fun _ hs => hs
    stop := fun _ hs => hs
    data := fun _ _ hs => hs }
  refine Conn.step_keeps hreader (fun _ _ _ _ hs => hs) h fun _ => ?_
  apply Conn.pass_keeps h
  . exact fun _ hs => hs
  . intro _ _
    exact (Prog.keeps_of_respects ((respects_decidedIn P).finishRecognition _ _)).leaves h
  . intro _ _
    exact (Prog.keeps_of_respects ((respects_decidedIn P).rescore _)).leaves h
  . intro _ _
    exact (decodeRanges_decidedIn hzero p).leaves h

theorem session_decidedIn (hzero : P 0) (p : Peer) (state : Int) {decisions : List Int}
    (hdecisions : ∀ d ∈ decisions, P d) (events : List Conn.Event)
    : DecidedIn P ((Conn.machine (p.env scripted) state decisions).run events) := by
  apply Machine.run_invariant (I := DecidedIn P)
  . exact ⟨fun _ hd => absurd hd List.not_mem_nil, hdecisions⟩
  . intro c e hs
    exact step_decidedIn hzero p hs e

end Given

namespace WebRtc.VadInst

variable (c : Overflow) (r : Resampler ρ)

def pvadInst (memory : VadInst ρ) : VadInst ρ :=
  ((memory.create.initCore r.reset).2.setMode 1).2

/--
The call of `WebRtcVad_Process` in `DecodeThreadFunc`.
-/
def decide16khz (self : VadInst ρ) (frame : List Int16) : Int × VadInst ρ :=
  self.process c r.resample48khzTo8khz 16000 frame

variable {c r}

structure Ready (inst : VadInst ρ) : Prop where
  initialized : inst.initFlag = kInitCheck
  tracks : ∃ s, inst.Tracks s

theorem pvadInst_ready (memory : VadInst ρ) : (pvadInst r memory).Ready where
  initialized := setMode_initFlag _ 1
  tracks := ⟨_, (tracks_init Overflow.wrapping r memory.create).setMode 1⟩

theorem Ready.accepts {self : VadInst ρ} (h : self.Ready) {frame : List Int16}
    (hframe : frame.length = ConnectionHandler.samplesPerFrame)
    : self.Accepts 16000 frame := by
  refine ⟨h.initialized, ?_⟩
  rw [hframe]
  decide

theorem Ready.decide16khz {self : VadInst ρ} (h : self.Ready) {frame : List Int16}
    (hframe : frame.length = ConnectionHandler.samplesPerFrame)
    : ((self.decide16khz c r frame).1 = 0 ∨ (self.decide16khz c r frame).1 = 1)
        ∧ (self.decide16khz c r frame).2.Ready := by
  obtain ⟨s, hs⟩ := h.tracks
  obtain ⟨hresult, htracks⟩ := hs.process c r (h.accepts hframe)
  refine ⟨?_, (process_initFlag c r self 16000 frame).trans h.initialized, _, htracks⟩
  show (self.process c r.resample48khzTo8khz 16000 frame).1 = 0
    ∨ (self.process c r.resample48khzTo8khz 16000 frame).1 = 1
  rw [hresult]
  split
  . exact Or.inr rfl
  . exact Or.inl rfl

end WebRtc.VadInst

namespace Server

open WebRtc (Overflow Resampler VadInst)

variable (c : Overflow) (r : Resampler ρ)

/--
The server that `main` starts.
-/
def main (memory : VadInst ρ) (peers : Nat → Peer) : Machine (Server (VadInst ρ)) Event :=
  machine (VadInst.decide16khz c r) (VadInst.pvadInst r memory) peers

theorem heard_ready {memory v : VadInst ρ}
    (h : Heard (VadInst.decide16khz c r) (fun f => f.length = ConnectionHandler.samplesPerFrame)
      (VadInst.pvadInst r memory) v)
    : v.Ready := by
  induction h with
  | nothing => exact VadInst.pvadInst_ready memory
  | frame _ hf ih => exact (ih.decide16khz hf).2

/--
In every run of the server, and however many connections use its VAD in turns, all decisions that a
connection has are 0 or 1: no call of the VAD fails.
-/
theorem decisions_binary (memory : VadInst ρ) (peers : Nat → Peer) (schedule : List Event) (i : Nat)
    : ∀ conn ∈ ((main c r memory peers).run schedule).conns i,
        ∀ d ∈ conn.handler.acts.acts, d = 0 ∨ d = 1 := by
  intro conn hconn
  obtain ⟨pre, state, events, decisions, -, -, hdecisions, hrun⟩ :=
    session_of_run (fun _ _ => framesIn_full _) hconn
  have hbinary : ∀ d ∈ decisions, d = 0 ∨ d = 1 := by
    intro d hd
    obtain ⟨v, f, hheard, hf, rfl⟩ := hdecisions d hd
    exact ((heard_ready c r hheard).decide16khz hf).1
  have hdecided := session_decidedIn (P := fun d => d = 0 ∨ d = 1) (Or.inl rfl) (peers i) state hbinary
    events
  rw [hrun] at hdecided
  exact hdecided.1

theorem decisions_binary_on_data
    : let schedule := oneFrame 0 0 ++ oneFrame 1 0
      let s := (main .wrapping .silent VadInst.zeros fun _ => quietPeer).run schedule
      ∃ conn ∈ s.conns 1, ∃ d ∈ conn.handler.acts.acts, d = 0 ∨ d = 1 := by
  intro schedule s
  have hsome : (s.conns 1).map (·.handler.acts.acts) = some [0] := by decide +kernel
  clear_value schedule
  obtain ⟨conn, hconn, hacts⟩ := Option.map_eq_some_iff.mp hsome
  have hd : 0 ∈ conn.handler.acts.acts := by
    rw [hacts]
    exact List.mem_singleton_self 0
  exact ⟨conn, hconn, 0, hd, decisions_binary .wrapping .silent VadInst.zeros _ schedule 1 conn hconn 0 hd⟩

end Server
