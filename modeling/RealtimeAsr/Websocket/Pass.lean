import RealtimeAsr.Websocket.Posting

/-!
This module contains the specification of one pass of the decode thread: a pass of the `state_ == 1`
branch brings the connection in step with the samples it finds, and the `state_ == 3` branch posts what
is left and ends the session.
-/

variable {ν : Type}

/--
The decode thread is in step with the first `last_frame_` frames, and posted the first `k` segments.
-/
structure InStep (env : Env ν) (vad₀ : ν) (k : Nat) (c : Conn ν) : Prop where
  acts : c.handler.acts = batchActs env vad₀ c.handler.samples c.handler.lastFrame
  vad : c.vad = (vadRun env vad₀ c.handler.samples c.handler.lastFrame).2
  nseg : c.handler.nsegDone = k
  track : Track env k c
  ranges : ∀ range ∈ c.handler.rcvRangeSmps.getLast?,
    range.2 = (c.handler.samples.length : Int) - 1
  nranges : c.handler.lastNranges ≤ c.handler.rcvRangeSmps.length
  caught : c.handler.lastNranges = c.handler.rcvRangeSmps.length →
    c.handler.lastFrame = c.handler.samples.length / ConnectionHandler.samplesPerFrame
  unset : c.handler.state = 2 → c.handler.seginfos = []

abbrev Sync (env : Env ν) (vad₀ : ν) (c : Conn ν) : Prop :=
  InStep env vad₀ c.handler.acts.segEnds.length c

namespace InStep

variable {env : Env ν} {vad₀ : ν} {k : Nat} {c : Conn ν}

theorem acts_length (h : InStep env vad₀ k c)
    : c.handler.acts.acts.length = c.handler.lastFrame := by
  rw [h.acts, batchActs_acts, vadRun_length]

theorem lastFrame_le (h : InStep env vad₀ k c)
    : c.handler.lastFrame ≤ c.handler.samples.length / ConnectionHandler.samplesPerFrame := by
  rw [← h.acts_length, Nat.le_div_iff_mul_le (by decide)]
  exact h.track.room

end InStep

namespace Conn

/--
The part of a connection that a pass of the `state_ == 1` branch does not touch.
-/
def skeleton (c : Conn ν) : Conn Unit where
  handler := { c.handler with acts := {}, seginfos := [], lastFrame := 0, lastNranges := 0, nsegDone := 0 }
  vad := ()
  reader := c.reader
  decoder := c.decoder
  closed := c.closed
  terminated := c.terminated

def Kept (c s : Conn ν) : Prop :=
  s.skeleton = c.skeleton

namespace Kept

variable {c s : Conn ν} (h : c.Kept s)

include h

theorem samples : s.handler.samples = c.handler.samples :=
  congrArg (fun c => c.handler.samples) h

theorem state : s.handler.state = c.handler.state :=
  congrArg (fun c => c.handler.state) h

theorem gotStartTag : s.handler.gotStartTag = c.handler.gotStartTag :=
  congrArg (fun c => c.handler.gotStartTag) h

theorem stopRecognition : s.handler.stopRecognition = c.handler.stopRecognition :=
  congrArg (fun c => c.handler.stopRecognition) h

theorem decodeThread : s.handler.decodeThread = c.handler.decodeThread :=
  congrArg (fun c => c.handler.decodeThread) h

theorem reader : s.reader = c.reader :=
  congrArg (fun c => c.reader) h

theorem decoder : s.decoder = c.decoder :=
  congrArg (fun c => c.decoder) h

theorem closed : s.closed = c.closed :=
  congrArg (fun c => c.closed) h

theorem terminated : s.terminated = c.terminated :=
  congrArg (fun c => c.terminated) h

end Kept

def decide (c : Conn ν) (acts : Acts) (vad : ν) (access : List Access) : Conn ν :=
  { c with vad, access, handler := { c.handler with acts } }

def posted (c : Conn ν) (nsegDone : Nat) : Conn ν :=
  { c with handler := { c.handler with nsegDone } }

def Decided (env : Env ν) (vad₀ : ν) (k : Nat) (c : Conn ν) (i : Nat) (s : Conn ν) : Prop :=
  ∃ access,
    s = c.decide (batchActs env vad₀ c.handler.samples i) (vadRun env vad₀ c.handler.samples i).2 access
      ∧ Good s
      ∧ Track env k s
      ∧ k ≤ s.handler.acts.segEnds.length

end Conn

namespace ConnectionHandler

variable {env : Env ν} {vad₀ : ν} {c : Conn ν} {k : Nat}

theorem vadFrame_decide (acts : Acts) (vad : ν) (access : List Access) (i : Nat)
    : vadFrame env i (c.decide acts vad access)
        =
      (some (), c.decide
        (acts.addAct (env.vadProcess vad (frame c.handler.samples i)).1)
        (env.vadProcess vad (frame c.handler.samples i)).2
        (access ++ [.frame i c.handler.samples.length])) := rfl

theorem vadFrame_track {i : Nat} (hi : (i + 1) * samplesPerFrame ≤ c.handler.samples.length)
    {E : Conn ν → Prop}
    : Prog.Triple (c.Decided env vad₀ k i) (vadFrame env i) (fun _ => c.Decided env vad₀ k (i + 1))
        E := by
  rintro s ⟨access, rfl, hgood, htrack, hk⟩
  have hacts := Acts.Extends.addAct (batchActs env vad₀ c.handler.samples i)
    (env.vadProcess (vadRun env vad₀ c.handler.samples i).2 (frame c.handler.samples i)).1
  rw [vadFrame_decide]
  rw [← batchActs_succ] at hacts ⊢
  refine ⟨_, rfl, ?_, ?_, ?_⟩
  . refine hgood.transfer ?_ rfl rfl rfl
    apply Good.concat_ok hgood.access
    show 160 * i + 159 < c.handler.samples.length
    unfold samplesPerFrame at hi
    omega
  . refine htrack.extend hk ?_ ?_ ?_ (List.append_nil _).symm rfl rfl ?_ htrack.quiet
    . exact hacts
    . exact batchActs_paired _ _ _ _
    . show (batchActs env vad₀ c.handler.samples (i + 1)).acts.length * _ ≤ _
      rw [batchActs_acts, vadRun_length]
      exact hi
    . have hframes : access.filterMap Access.frame?
          = List.range (batchActs env vad₀ c.handler.samples i).acts.length := htrack.frames
      show (access ++ [_]).filterMap _
        = List.range (batchActs env vad₀ c.handler.samples (i + 1)).acts.length
      rw [batchActs_acts, vadRun_length] at hframes ⊢
      rw [List.filterMap_append, hframes, List.range_succ]
      rfl
  . exact Nat.le_trans hk hacts.segEnds.length_le

theorem endSplIdx_eq (h : InStep env vad₀ k c)
    (hnew : c.handler.rcvRangeSmps.length > c.handler.lastNranges)
    : (c.handler.rcvRangeSmps.getD (c.handler.rcvRangeSmps.length - 1) (0, 0)).2
        =
      (c.handler.samples.length : Int) - 1 := by
  apply h.ranges
  rw [List.getLast?_eq_getElem?, List.getD_eq_getElem?_getD, Option.mem_def]
  rw [List.getElem?_eq_getElem (by omega)]
  rfl

theorem nframes_eq (n : Nat)
    : (((n : Int) - 1 + 1).tdiv samplesPerFrame).toNat = n / samplesPerFrame := by
  rw [Int.sub_add_cancel, Int.tdiv_eq_ediv_of_nonneg (by omega)]
  unfold samplesPerFrame
  omega

theorem postRanges_spec (hgood : Good c) (h : InStep env vad₀ k c)
    (hk : k ≤ c.handler.acts.segEnds.length)
    (hall : c.handler.lastFrame = c.handler.samples.length / samplesPerFrame)
    (hset : c.handler.state ≠ 2)
    : Prog.Triple (fun s => s = c)
        (do
          Prog.forRange c.handler.nsegDone c.handler.acts.segEnds.length
            (postPartial env c.handler.samples.length)
          onHandler fun h => { h with nsegDone := c.handler.acts.segEnds.length }
          postTemp env ((c.handler.samples.length : Int) - 1))
        (fun _ s =>
          c.Kept s ∧ Good s ∧ Sync env vad₀ s ∧ s.handler.lastFrame = c.handler.lastFrame)
        (fun s => c.Kept s ∧ Good s ∧ Quiet s ∧ c.Blames env) := by
  -- All posting code runs on `c` or, behind the loop, on `c'`, with an output that grows.
  generalize hc' : c.posted c.handler.acts.segEnds.length = c'
  have hlen : c'.handler.acts.acts.length = c'.handler.samples.length / samplesPerFrame := by
    rw [← hc']
    exact h.acts_length.trans hall
  rw [h.nseg]
  apply Prog.Triple.bind (Q := fun _ => c.Reached env c.handler.acts.segEnds.length)
  . apply (Prog.Triple.forRange (I := fun i => c.Reached env i) hk
      (fun i _ hi => postPartial_track hi)).conseq
    . rintro s rfl
      exact ⟨s.output, rfl, hgood, h.track⟩
    . intro _ s hs
      exact hs
    . rintro s ⟨o, rfl, hgood, hfailed⟩
      exact ⟨rfl, hgood, hfailed⟩
  . intro _
    apply Prog.Triple.bind (Q := fun _ => c'.Reached env c.handler.acts.segEnds.length)
    . apply Prog.Triple.modify
      rintro s ⟨o, rfl, hgood, htrack⟩
      refine ⟨o, ?_, ?_, ?_⟩
      . rw [← hc']
        rfl
      . exact hgood.transfer hgood.access rfl rfl rfl
      . exact { htrack with }
    . intro _
      subst hc'
      apply (postTemp_track rfl hlen).conseq
      . intro s hs
        exact hs
      . rintro _ s ⟨o, rfl, hgood, htrack⟩
        refine ⟨rfl, hgood, ?_, rfl⟩
        exact { h with
          nseg := rfl
          track := htrack
          unset := fun h2 => absurd h2 hset }
      . rintro s ⟨o, rfl, hgood, hfailed⟩
        exact ⟨rfl, hgood, hfailed⟩

theorem vadFrames_spec (hgood : Good c) (h : Sync env vad₀ c) {E : Conn ν → Prop}
    : Prog.Triple (fun s => s = c)
        (Prog.forRange c.handler.lastFrame (c.handler.samples.length / samplesPerFrame) (vadFrame env))
        (fun _ => c.Decided env vad₀ c.handler.acts.segEnds.length
          (c.handler.samples.length / samplesPerFrame))
        E := by
  have hroom := Nat.div_mul_le_self c.handler.samples.length samplesPerFrame
  apply Prog.Triple.pre (P := c.Decided env vad₀ c.handler.acts.segEnds.length c.handler.lastFrame)
  . apply Prog.Triple.forRange h.lastFrame_le
    intro i _ hi
    apply vadFrame_track
    exact Nat.le_trans (Nat.mul_le_mul_right _ hi) hroom
  . rintro s rfl
    refine ⟨s.access, ?_, hgood, h.track, Nat.le_refl _⟩
    rw [← h.acts, ← h.vad]
    rfl

theorem advance_spec {n : Nat} (h : InStep env vad₀ k c) (hset : c.handler.state ≠ 2)
    (hn : c.handler.samples.length / samplesPerFrame = n) {E : Conn ν → Prop}
    : Prog.Triple (c.Decided env vad₀ k n)
        (onHandler fun h => { h with lastFrame := n, lastNranges := c.handler.rcvRangeSmps.length })
        (fun _ s =>
          c.Kept s
            ∧ Good s
            ∧ InStep env vad₀ k s
            ∧ k ≤ s.handler.acts.segEnds.length
            ∧ s.handler.lastFrame = n)
        E := by
  apply Prog.Triple.modify
  rintro s ⟨access, rfl, hgood, htrack, hle⟩
  refine ⟨rfl, hgood.transfer hgood.access rfl rfl rfl, ?_, hle, rfl⟩
  exact
    { acts := rfl
      vad := rfl
      nseg := h.nseg
      track := { htrack with }
      ranges := h.ranges
      nranges := Nat.le_refl _
      caught := fun _ => hn.symm
      unset := fun h2 => absurd h2 hset }

theorem decodeRanges_spec (hgood : Good c) (h : Sync env vad₀ c) (hset : c.handler.state ≠ 2)
    : Prog.Triple (fun s => s = c) (decodeRanges env)
        (fun _ s =>
          c.Kept s
            ∧ Good s
            ∧ Sync env vad₀ s
            ∧ s.handler.lastFrame = c.handler.samples.length / samplesPerFrame)
        (fun s => c.Kept s ∧ Good s ∧ Quiet s ∧ c.Blames env) := by
  unfold decodeRanges
  apply Prog.Triple.get_bind
  rintro s rfl
  apply Prog.Triple.ite
  . intro hnew
    rw [endSplIdx_eq h hnew]
    dsimp only
    rw [nframes_eq]
    apply Prog.Triple.bind (vadFrames_spec hgood h)
    intro _
    apply Prog.Triple.bind (advance_spec h hset rfl)
    intro _
    apply Prog.Triple.get_bind
    rintro s' ⟨hkept, hgood, hstep, hle, hframe⟩
    rw [← hkept.samples]
    have hall : s'.handler.lastFrame = s'.handler.samples.length / samplesPerFrame := by
      rw [hframe, hkept.samples]
    have hset' : s'.handler.state ≠ 2 := by
      rw [hkept.state]
      exact hset
    apply (postRanges_spec hgood hstep hle hall hset').conseq
    . intro s'' hs
      exact hs
    . rintro _ s'' ⟨hkept', hgood', hsync, hframe'⟩
      exact ⟨hkept'.trans hkept, hgood', hsync, hframe'.trans hall⟩
    . rintro s'' ⟨hkept', hgood', hquiet, hblames⟩
      refine ⟨hkept'.trans hkept, hgood', hquiet, ?_⟩
      unfold Conn.Blames at *
      rw [← hkept.closed]
      exact hblames
  . intro hold
    apply Prog.Triple.pure
    rintro s rfl
    -- Without a new range all complete frames are decided already.
    have hcaught := h.caught (by have := h.nranges; omega)
    exact ⟨rfl, hgood, h, hcaught⟩

end ConnectionHandler

namespace Conn

def ended (env : Env ν) (c : Conn ν) : Conn ν :=
  { c with handler := { c.handler with acts := c.handler.acts.end_ env.round } }

def stopped (c : Conn ν) : Conn ν :=
  { c with handler := { c.handler.reset with stopRecognition := true } }

end Conn

namespace ConnectionHandler

variable {env : Env ν} {vad₀ : ν} {c : Conn ν} {k : Nat}

theorem ended_track (h : Track env k c) (hk : k ≤ c.handler.acts.segEnds.length)
    : Track env k (c.ended env) := by
  have hacts : (c.handler.acts.end_ env.round).acts = c.handler.acts.acts := by simp
  refine h.extend hk (Acts.Extends.end_ _ _) (h.paired.end_ _) ?_ (List.append_nil _).symm rfl rfl ?_
    h.quiet
  . show (c.handler.acts.end_ env.round).acts.length * _ ≤ _
    rw [hacts]
    exact h.room
  . show _ = List.range (c.handler.acts.end_ env.round).acts.length
    rw [hacts]
    exact h.frames

theorem callEnd_track (hgood : Good c) (h : Track env k c) (hk : k ≤ c.handler.acts.segEnds.length)
    {E : Conn ν → Prop}
    : Prog.Triple (fun s => s = c) (callEnd env) (fun _ => (c.ended env).Reached env k) E := by
  unfold callEnd
  apply Prog.Triple.get_bind
  rintro s rfl
  dsimp only
  apply Prog.Triple.ite
  . intro hone
    have hok : (Access.percent (s.handler.acts.segSts.getLastD 0) (s.handler.acts.acts.length - 1)
        s.handler.acts.acts.length).Ok := by
      have hlt := h.paired.start_lt_length (i := s.handler.acts.segEnds.length) (by omega)
      rw [Acts.getLastD_eq_getD hone]
      constructor
      . omega
      . omega
    apply Prog.Triple.bind (Q := fun _ s' => s' = s.emit (s.output.log (.percent
      (s.handler.acts.segSts.getLastD 0) (s.handler.acts.acts.length - 1)
      s.handler.acts.acts.length)))
    . apply Prog.Triple.modify
      rintro s' rfl
      rfl
    . intro _
      apply Prog.Triple.modify
      rintro s' rfl
      have hgood' := Good.log (o := s.output) hgood hok
      have htrack' := ended_track (Track.log (o := s.output) h (a := .percent
        (s.handler.acts.segSts.getLastD 0) (s.handler.acts.acts.length - 1)
        s.handler.acts.acts.length) rfl) hk
      exact ⟨_, rfl, hgood'.transfer hgood'.access rfl rfl rfl, htrack'⟩
  . intro _
    apply Prog.Triple.modify
    rintro s rfl
    exact ⟨s.output, rfl, hgood.transfer hgood.access rfl rfl rfl, ended_track h hk⟩

theorem canWrite_of_writes {o : Output} {msg : Msg} (hclosed : c.closed = false) (hw : env.Writes)
    : c.canWrite env o msg :=
  ⟨hclosed, hw _ _⟩

def sayResults (env : Env ν) (c : Conn ν) : Prog (Conn ν) Unit := do
  onFinalResult env (serializeResult c.handler.getSegsResult)
  onFinish env
  onHandler fun h => { h.reset with stopRecognition := true }

def withResults (c : Conn ν) (o : Output) : Output :=
  let segs := c.segsResult o
  (o.say ⟨.finalResult (serializeResult segs), segs⟩).say ⟨.speechEnd, segs⟩

theorem sayResults_emit {o : Output}
    (h1 : c.canWrite env o (.finalResult (serializeResult (c.segsResult o))))
    (h2 : c.canWrite env (o.say ⟨.finalResult (serializeResult (c.segsResult o)), c.segsResult o⟩)
      .speechEnd)
    : sayResults env (c.emit o) (c.emit o) = (some (), (c.emit (withResults c o)).stopped) := by
  have h1' : c.canWrite env o
      (.finalResult (serializeResult (c.emit o).handler.getSegsResult)) := h1
  unfold sayResults
  rw [Prog.bind_apply, onFinalResult, wsWrite_emit, if_pos h1']
  dsimp only
  rw [Prog.bind_apply, onFinish, wsWrite_emit]
  exact if_pos h2 ▸ rfl

theorem sayResults_spec {o : Output} (hgood : Good (c.emit o))
    : Prog.Triple (fun s => s = c.emit o) (sayResults env (c.emit o))
        (fun _ s => s = (c.emit (withResults c o)).stopped ∧ Good s)
        (fun s => c.Emits Good s ∧ (c.closed = false → env.Writes → Quiet s) ∧ c.Blames env) := by
  rintro s rfl
  have hgood1 := hgood.say (.finalResult (serializeResult (c.segsResult o))) (by
    intro s hs
    cases hs
    exact List.prefix_refl _)
  by_cases h1 : c.canWrite env o (.finalResult (serializeResult (c.segsResult o)))
  . by_cases h2 : c.canWrite env
        (o.say ⟨.finalResult (serializeResult (c.segsResult o)), c.segsResult o⟩) .speechEnd
    . have hgood2 := hgood1.say .speechEnd (by
        intro s hs
        cases hs)
      rw [sayResults_emit h1 h2]
      exact ⟨rfl, hgood2.transfer hgood2.access rfl rfl rfl⟩
    . have h1' : c.canWrite env o
          (.finalResult (serializeResult (c.emit o).handler.getSegsResult)) := h1
      unfold sayResults
      rw [Prog.bind_apply, onFinalResult, wsWrite_emit, if_pos h1']
      dsimp only
      rw [Prog.bind_apply, onFinish, wsWrite_emit]
      refine if_neg h2 ▸ ⟨⟨_, rfl, hgood1⟩, fun hclosed hw => ?_, blames_write h2⟩
      exact absurd (canWrite_of_writes hclosed hw) h2
  . have h1' : ¬c.canWrite env o
        (.finalResult (serializeResult (c.emit o).handler.getSegsResult)) := h1
    unfold sayResults
    rw [Prog.bind_apply, onFinalResult, wsWrite_emit, if_neg h1']
    exact ⟨⟨o, rfl, hgood⟩, fun hclosed hw => absurd (canWrite_of_writes hclosed hw) h1,
      blames_write h1⟩

theorem finishRecognition_spec (hgood : Good c) (h : Sync env vad₀ c)
    : Prog.Triple (fun s => s = c) (finishRecognition env c.handler.samples.length)
        (fun _ s => ∃ o,
          Track env (c.ended env).handler.acts.segEnds.length ((c.ended env).emit o)
            ∧ s = ((c.ended env).emit (withResults (c.ended env) o)).stopped
            ∧ Good s)
        (fun s =>
          c.Kept s ∧ Good s ∧ (c.closed = false → env.Writes → Quiet s) ∧ c.Blames env) := by
  have hkept : ∀ s, (c.ended env).Failed env s
      → c.Kept s ∧ Good s ∧ (c.closed = false → env.Writes → Quiet s) ∧ c.Blames env := by
    rintro s ⟨o, rfl, hgood, hquiet, hblames⟩
    exact ⟨rfl, hgood, fun _ _ => hquiet, hblames⟩
  generalize hK : (c.ended env).handler.acts.segEnds.length = K
  have hle : c.handler.acts.segEnds.length ≤ K := by
    rw [← hK]
    exact (Acts.Extends.end_ env.round c.handler.acts).segEnds.length_le
  unfold finishRecognition
  apply Prog.Triple.bind (Q := fun _ => (c.ended env).Reached env c.handler.acts.segEnds.length)
  . exact callEnd_track hgood h.track (Nat.le_refl _)
  . intro _
    apply Prog.Triple.get_bind
    rintro s ⟨o, rfl, hgood, htrack⟩
    apply Prog.Triple.bind (Q := fun _ => (c.ended env).Reached env K)
    . rw [show ((c.ended env).emit o).handler.nsegDone = c.handler.acts.segEnds.length from h.nseg]
      show Prog.Triple _ (Prog.forRange _ (c.ended env).handler.acts.segEnds.length _) _ _
      rw [hK]
      apply (Prog.Triple.forRange (I := fun i => (c.ended env).Reached env i) hle
        (fun i _ hi => postFinal_track (by rw [hK]; exact hi))).conseq
      . rintro s rfl
        exact ⟨o, rfl, hgood, htrack⟩
      . intro _ s hs
        exact hs
      . exact hkept
    . intro _
      apply Prog.Triple.bind (Q := fun _ => (c.ended env).Reached env K)
      . apply (copySamples_track _).throws hkept
        show 0 + _ ≤ _
        rw [Nat.zero_add]
        exact Nat.le_refl _
      . intro data
        apply Prog.Triple.bind (Q := fun _ => (c.ended env).Reached env K)
        . exact (httpaudioPost_track data "whole_pcm" rfl).throws hkept
        . intro _
          apply Prog.Triple.get_bind
          rintro s ⟨o, rfl, hgood, htrack⟩
          apply (sayResults_spec hgood).conseq (fun _ hs => hs)
          . rintro _ s ⟨hs, hgood'⟩
            exact ⟨o, htrack, hs, hgood'⟩
          . rintro s ⟨⟨o, rfl, hgood'⟩, hfailed⟩
            exact ⟨rfl, hgood', hfailed⟩

theorem rescore_spec (hgood : Good c) (h : Sync env vad₀ c) (hstate : c.handler.state = 2)
    : Prog.Triple (fun s => s = c) (rescore env)
        (fun _ s =>
          let final : Written := ⟨.finalResult (serializeResult c.handler.curResult), []⟩
          s = { c.emit (c.output.say final) with
              handler := { c.handler with stopRecognition := true } }
            ∧ Good s)
        (fun s =>
          c.Kept s ∧ Good s ∧ (c.closed = false → env.Writes → Quiet s) ∧ c.Blames env) := by
  have hsegs : c.segsResult c.output = [] := by
    show c.handler.getSegsResult = []
    rw [getSegsResult_eq, h.unset hstate]
    rfl
  unfold rescore
  apply Prog.Triple.get_bind
  rintro s rfl
  rintro s' rfl
  rw [Prog.bind_apply, onFinalResult]
  have hwrite := wsWrite_emit env s' s'.output (.finalResult (serializeResult s'.handler.curResult))
  rw [Conn.emit_output] at hwrite
  rw [hwrite, hsegs]
  by_cases hcan : s'.canWrite env s'.output (.finalResult (serializeResult s'.handler.curResult))
  . have hgood' := Good.say (o := s'.output) hgood
      (.finalResult (serializeResult s'.handler.curResult)) (by
        intro s _
        rw [hsegs]
        exact List.nil_prefix)
    rw [if_pos hcan]
    rw [hsegs] at hgood'
    exact ⟨rfl, hgood'.transfer hgood'.access rfl rfl rfl⟩
  . rw [if_neg hcan]
    exact ⟨rfl, hgood, fun hclosed hw => absurd (canWrite_of_writes hclosed hw) hcan,
      blames_write hcan⟩

end ConnectionHandler

namespace Conn

variable {env : Env ν} {vad₀ : ν} {c : Conn ν}

def finishedWith (env : Env ν) (c : Conn ν) (o : Output) : Conn ν :=
  { ((c.ended env).emit (ConnectionHandler.withResults (c.ended env) o)).stopped with
    decoder := .finished }

def rescoredWith (c : Conn ν) : Conn ν :=
  let final : Written :=
    ⟨.finalResult (ConnectionHandler.serializeResult c.handler.curResult), []⟩
  { c.emit (c.output.say final) with
    handler := { c.handler with stopRecognition := true }
    decoder := .finished }

inductive PassTo (env : Env ν) (vad₀ : ν) (c : Conn ν) : Conn ν → Prop where
  | skipped (h3 : c.handler.state ≠ 3) (h2 : c.handler.state ≠ 2) (h1 : c.handler.state ≠ 1) :
      PassTo env vad₀ c c
  | decoded {s} (hstate : c.handler.state = 1) (hkept : c.Kept s) (hgood : Good s)
      (hsync : Sync env vad₀ s)
      (hframe : s.handler.lastFrame = c.handler.samples.length / ConnectionHandler.samplesPerFrame) :
      PassTo env vad₀ c s
  | finished {o} (hstate : c.handler.state = 3)
      (htrack : Track env (c.ended env).handler.acts.segEnds.length ((c.ended env).emit o))
      (hgood : Good (c.finishedWith env o)) : PassTo env vad₀ c (c.finishedWith env o)
  | rescored (hstate : c.handler.state = 2) (hgood : Good c.rescoredWith) :
      PassTo env vad₀ c c.rescoredWith
  | failed {s} (hkept : c.Kept s) (hgood : Good s)
      (hquiet : c.closed = false → env.Writes → Quiet s) (hblames : c.Blames env) :
      PassTo env vad₀ c { s with decoder := .finished }

theorem good_finished {s : Conn ν} (h : Good s) : Good { s with decoder := .finished } :=
  h.transfer h.access rfl rfl rfl

theorem decodeThreadFunc_spec (hgood : Good c) (h : Sync env vad₀ c)
    : Prog.Triple (fun s => s = c) (ConnectionHandler.decodeThreadFunc env)
        (fun goOn s => PassTo env vad₀ c (if goOn then s else { s with decoder := .finished }))
        (fun s => PassTo env vad₀ c { s with decoder := .finished }) := by
  unfold ConnectionHandler.decodeThreadFunc
  apply Prog.Triple.get_bind
  rintro s rfl
  apply Prog.Triple.ite
  . intro h3
    apply Prog.Triple.bind ((ConnectionHandler.finishRecognition_spec hgood h).conseq
      (fun _ hs => hs) (fun _ _ hs => hs) ?_)
    . intro _
      apply Prog.Triple.pure
      rintro s' ⟨o, htrack, rfl, hgood'⟩
      exact PassTo.finished h3 htrack (good_finished hgood')
    . rintro s' ⟨hkept, hgood', hquiet, hblames⟩
      exact PassTo.failed hkept hgood' hquiet hblames
  . intro h3
    apply Prog.Triple.ite
    . intro h2
      apply Prog.Triple.bind ((ConnectionHandler.rescore_spec hgood h h2).conseq
        (fun _ hs => hs) (fun _ _ hs => hs) ?_)
      . intro _
        apply Prog.Triple.pure
        rintro s' ⟨rfl, hgood'⟩
        exact PassTo.rescored h2 (good_finished hgood')
      . rintro s' ⟨hkept, hgood', hquiet, hblames⟩
        exact PassTo.failed hkept hgood' hquiet hblames
    . intro h2
      apply Prog.Triple.ite
      . intro h1
        apply Prog.Triple.bind ((ConnectionHandler.decodeRanges_spec hgood h h2).conseq
          (fun _ hs => hs) (fun _ _ hs => hs) ?_)
        . intro _
          apply Prog.Triple.pure
          rintro s' ⟨hkept, hgood', hsync, hframe⟩
          exact PassTo.decoded h1 hkept hgood' hsync hframe
        . rintro s' ⟨hkept, hgood', hquiet, hblames⟩
          exact PassTo.failed hkept hgood' (fun _ _ => hquiet) hblames
      . intro h1
        apply Prog.Triple.pure
        rintro s rfl
        exact PassTo.skipped h3 h2 h1

theorem pass_to (hgood : Good c) (h : Sync env vad₀ c) (halive : c.alive)
    (hrun : c.decoder = .running)
    : PassTo env vad₀ c (c.pass env) := by
  have hspec := decodeThreadFunc_spec hgood h c rfl
  unfold pass
  rw [if_pos ⟨halive, hrun⟩]
  split
  . next heq =>
    rw [heq] at hspec
    exact hspec
  . next heq =>
    rw [heq] at hspec
    exact hspec
  . next heq =>
    rw [heq] at hspec
    exact hspec

end Conn
