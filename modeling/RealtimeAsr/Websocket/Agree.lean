import RealtimeAsr.Websocket.Relations
import RealtimeAsr.Websocket.Connection

/-!
This module shows that two connections which differ only in the ranges they have dealt with do the same
from then on, whatever data comes and whenever the decode thread makes a pass.
-/

variable {ν : Type}

inductive Later where
  | data (buffer : Bytes)
  | stop
  | pass

namespace ConnectionHandler

def New (h : ConnectionHandler) : Prop :=
  h.rcvRangeSmps.length > h.lastNranges

def endSplIdx (h : ConnectionHandler) : Int :=
  (h.rcvRangeSmps.getD (h.rcvRangeSmps.length - 1) (0, 0)).2

def nframes (h : ConnectionHandler) : Nat :=
  ((h.endSplIdx + 1).tdiv samplesPerFrame).toNat

theorem new_onSpeechData {h : ConnectionHandler} (hle : h.lastNranges ≤ h.rcvRangeSmps.length)
    (buffer : Bytes)
    : (onSpeechData buffer h).New := by
  show (h.rcvRangeSmps ++ [_]).length > h.lastNranges
  rw [List.length_append, List.length_singleton]
  omega

theorem endSplIdx_onSpeechData (h : ConnectionHandler) (buffer : Bytes)
    : (onSpeechData buffer h).endSplIdx = ((onSpeechData buffer h).samples.length : Int) - 1 := by
  unfold endSplIdx onSpeechData
  simp

theorem decodeRanges_new (env : Env ν) {c : Conn ν} (hnew : c.handler.New)
    : decodeRanges env c
        =
      (Prog.forRange c.handler.lastFrame c.handler.nframes (vadFrame env) >>= fun _ =>
        onHandler (fun h =>
          { h with lastFrame := c.handler.nframes, lastNranges := c.handler.rcvRangeSmps.length })
            >>= fun _ => postRanges env c.handler.endSplIdx) c := by
  unfold New at hnew
  unfold decodeRanges
  rw [Prog.get_bind_apply, if_pos hnew]
  rfl

theorem decodeRanges_old (env : Env ν) {c : Conn ν} (hold : ¬c.handler.New)
    : decodeRanges env c = (some (), c) := by
  unfold New at hold
  unfold decodeRanges
  rw [Prog.get_bind_apply, if_neg hold]
  rfl

structure Blank (h : ConnectionHandler) : Prop where
  lastFrame : h.lastFrame = 0
  acts : h.acts = {}
  nsegDone : h.nsegDone = 0
  seginfos : h.seginfos = []

end ConnectionHandler

namespace Conn

def later (env : Env ν) (c : Conn ν) : Later → Conn ν
  | .data buffer => { c with handler := ConnectionHandler.onSpeechData buffer c.handler }
  | .stop => { c with handler := { c.handler with gotEndTag := true, state := 3 } }
  | .pass => c.pass env

def follow (env : Env ν) (c : Conn ν) (ls : List Later) : Conn ν :=
  ls.foldl (later env) c

/--
The connection without the ranges, and without what the decode thread does not look at.
-/
def core (c : Conn ν) : Conn ν :=
  { c with
    handler := { c.handler with
      continuousDecoding := false
      nbest := 1
      gotStartTag := false
      gotEndTag := false
      stopRecognition := false
      decodeThread := .none
      rcvRangeSmps := []
      lastNranges := 0 } }

structure Agree (p q : List (Int × Int) × Nat) (s t : Conn ν) : Prop where
  core : s.core = t.core
  left : (s.handler.rcvRangeSmps, s.handler.lastNranges) = p
  right : (t.handler.rcvRangeSmps, t.handler.lastNranges) = q

variable {p q : List (Int × Int) × Nat}

theorem respects_agree (p q : List (Int × Int) × Nat) : PostingRespects (Agree (ν := ν) p q) where
  acts _ _ h := congrArg (fun c => c.handler.acts) h.core
  samples _ _ h := congrArg (fun c => c.handler.samples) h.core
  nsegDone _ _ h := congrArg (fun c => c.handler.nsegDone) h.core
  curResult _ _ h := congrArg (fun c => c.handler.curResult) h.core
  segs _ _ h := congrArg (fun c => c.handler.getSegsResult) h.core
  closed _ _ h := congrArg (fun c => c.closed) h.core
  posts _ _ h := congrArg (fun c => c.posts) h.core
  msgs _ _ h := congrArg (fun c => c.msgs) h.core
  log _ _ a h := ⟨congrArg (fun c => { c with access := c.access ++ [a] }) h.core, h.left, h.right⟩
  ask _ _ post h := ⟨congrArg (fun c => { c with posts := c.posts ++ [post] }) h.core, h.left, h.right⟩
  say _ _ w h := ⟨congrArg (fun c => { c with sent := c.sent ++ [w] }) h.core, h.left, h.right⟩
  hear _ _ info h :=
    ⟨congrArg (fun c =>
      { c with handler := { c.handler with seginfos := c.handler.seginfos ++ [info] } }) h.core,
      h.left, h.right⟩
  close _ _ r h :=
    ⟨congrArg (fun c => { c with handler := { c.handler with acts := c.handler.acts.end_ r } }) h.core,
      h.left, h.right⟩
  posted _ _ nsegDone h :=
    ⟨congrArg (fun c => { c with handler := { c.handler with nsegDone } }) h.core, h.left, h.right⟩
  finish _ _ h := ⟨congrArg (fun c => { c with handler := c.handler.reset }) h.core, h.left, h.right⟩
  stop _ _ h := ⟨h.core, h.left, h.right⟩

theorem vadFrame_agree (env : Env ν) (i : Nat)
    : Prog.Respects (Agree p q) (ConnectionHandler.vadFrame env i) := by
  intro s t h
  refine ⟨rfl, ?_, h.left, h.right⟩
  have hcore := congrArg (fun c : Conn ν =>
    { c with
      vad := (env.vadProcess c.vad (frame c.handler.samples i)).2
      access := c.access ++ [Access.frame i c.handler.samples.length]
      handler := { c.handler with
        acts := c.handler.acts.addAct (env.vadProcess c.vad (frame c.handler.samples i)).1 } }) h.core
  exact hcore

theorem vadFrames_returns (env : Env ν) (lo hi : Nat) (c : Conn ν)
    : ∃ s, Prog.forRange lo hi (ConnectionHandler.vadFrame env) c = (some (), s) := by
  have hloop : Prog.Triple (fun _ => True) (Prog.forRange lo hi (ConnectionHandler.vadFrame env))
      (fun _ _ => True) (fun _ => False) :=
    Prog.Triple.loop fun _ _ _ _ _ => trivial
  have hloop := hloop c trivial
  generalize Prog.forRange lo hi (ConnectionHandler.vadFrame env) c = r at hloop ⊢
  obtain ⟨_ | _, s⟩ := r
  . exact hloop.elim
  . exact ⟨s, rfl⟩

theorem advance_agree {s t : Conn ν} (h : Agree p q s t) (lastFrame : Nat)
    : Agree (p.1, p.1.length) (q.1, q.1.length)
        { s with handler := { s.handler with lastFrame, lastNranges := p.1.length } }
        { t with handler := { t.handler with lastFrame, lastNranges := q.1.length } } where
  core := congrArg (fun c => { c with handler := { c.handler with lastFrame } }) h.core
  left := by
    rw [← h.left]
  right := by
    rw [← h.right]

theorem decodeRanges_agree (env : Env ν) {s t : Conn ν} (hcore : s.core = t.core)
    (hs : s.handler.New) (ht : t.handler.New) (hend : s.handler.endSplIdx = t.handler.endSplIdx)
    : (ConnectionHandler.decodeRanges env s).1 = (ConnectionHandler.decodeRanges env t).1
        ∧ Agree (s.handler.rcvRangeSmps, s.handler.rcvRangeSmps.length)
          (t.handler.rcvRangeSmps, t.handler.rcvRangeSmps.length)
          (ConnectionHandler.decodeRanges env s).2 (ConnectionHandler.decodeRanges env t).2 := by
  have hagree : Agree (s.handler.rcvRangeSmps, s.handler.lastNranges)
      (t.handler.rcvRangeSmps, t.handler.lastNranges) s t := ⟨hcore, rfl, rfl⟩
  have hframe : s.handler.lastFrame = t.handler.lastFrame :=
    congrArg (fun c => c.handler.lastFrame) hcore
  have hnframes : s.handler.nframes = t.handler.nframes := by
    unfold ConnectionHandler.nframes
    rw [hend]
  rw [ConnectionHandler.decodeRanges_new env hs, ConnectionHandler.decodeRanges_new env ht, hend,
    hframe, hnframes]
  have hloop : Prog.Respects (Agree (s.handler.rcvRangeSmps, s.handler.lastNranges)
      (t.handler.rcvRangeSmps, t.handler.lastNranges))
      (Prog.forRange t.handler.lastFrame t.handler.nframes (ConnectionHandler.vadFrame env)) :=
    Prog.Respects.forRange (vadFrame_agree env)
  have hloop := hloop s t hagree
  obtain ⟨s', hs'⟩ := vadFrames_returns env t.handler.lastFrame t.handler.nframes s
  obtain ⟨t', ht'⟩ := vadFrames_returns env t.handler.lastFrame t.handler.nframes t
  rw [hs', ht'] at hloop
  rw [Prog.bind_apply, Prog.bind_apply, hs', ht']
  exact (respects_agree _ _).postRanges env _ _ _ (advance_agree hloop.2 t.handler.nframes)

theorem postRanges_blank (env : Env ν) (endSplIdx : Int) {c : Conn ν} (hblank : c.handler.Blank)
    : ConnectionHandler.postRanges env endSplIdx c = (some (), c) := by
  have hposted : { c with handler := { c.handler with nsegDone := 0 } } = c := by
    calc { c with handler := { c.handler with nsegDone := 0 } }
      _ = { c with handler := { c.handler with nsegDone := c.handler.nsegDone } } := by
        rw [hblank.nsegDone]
      _ = c := rfl
  have htemp : ConnectionHandler.postTemp env endSplIdx c = (some (), c) := by
    unfold ConnectionHandler.postTemp
    rw [Prog.get_bind_apply, hblank.acts]
    rfl
  unfold ConnectionHandler.postRanges
  rw [Prog.get_bind_apply, hblank.acts, hblank.nsegDone]
  show ConnectionHandler.postTemp env endSplIdx
    { c with handler := { c.handler with nsegDone := 0 } } = _
  rw [hposted, htemp]

theorem pass_of_old (env : Env ν) {c : Conn ν} (hgo : c.alive = true ∧ c.decoder = .running)
    (hstate : c.handler.state = 1) (hold : ¬c.handler.New)
    : c.pass env = c := by
  rw [pass_of_state_one env hgo hstate, ConnectionHandler.decodeRanges_old env hold]

theorem decodeRanges_blank (env : Env ν) {c : Conn ν} (hnew : c.handler.New)
    (hblank : c.handler.Blank) (hframes : c.handler.nframes = 0)
    : ConnectionHandler.decodeRanges env c
        =
      (some (),
        { c with handler := { c.handler with lastNranges := c.handler.rcvRangeSmps.length } }) := by
  have hadvance
      : { c with handler :=
          { c.handler with lastFrame := 0, lastNranges := c.handler.rcvRangeSmps.length } }
        = { c with handler := { c.handler with lastNranges := c.handler.rcvRangeSmps.length } } := by
    rw [← hblank.lastFrame]
  rw [ConnectionHandler.decodeRanges_new env hnew, hframes, hblank.lastFrame,
    Prog.forRange_empty (Nat.le_refl 0)]
  show ConnectionHandler.postRanges env _ { c with handler :=
    { c.handler with lastFrame := 0, lastNranges := c.handler.rcvRangeSmps.length } } = _
  rw [hadvance]
  exact postRanges_blank env _ { hblank with }

/--
Either both have a new range or none has, and it ends at the same sample. Or only the one on the left
has, but there is not a frame in it.
-/
inductive Coupled (h k : ConnectionHandler) : Prop where
  | same (hnew : h.New ↔ k.New) (hend : h.New → h.endSplIdx = k.endSplIdx)
  | stale (hold : ¬k.New) (hblank : h.Blank) (hframes : h.state = 1 → h.New → h.nframes = 0)

structure Sim (s t : Conn ν) : Prop where
  core : s.core = t.core
  left : s.handler.lastNranges ≤ s.handler.rcvRangeSmps.length
  right : t.handler.lastNranges ≤ t.handler.rcvRangeSmps.length
  coupled : s.decoder = .running → Coupled s.handler t.handler

namespace Sim

variable {env : Env ν} {s t : Conn ν}

theorem going (h : Sim s t)
    : (s.alive = true ∧ s.decoder = .running) ↔ (t.alive = true ∧ t.decoder = .running) := by
  have halive : s.alive = t.alive := congrArg (fun c => c.alive) h.core
  have hdecoder : s.decoder = t.decoder := congrArg (fun c => c.decoder) h.core
  rw [halive, hdecoder]

theorem state (h : Sim s t) : s.handler.state = t.handler.state :=
  congrArg (fun c => c.handler.state) h.core

theorem data (h : Sim s t) (buffer : Bytes)
    : Sim (s.later env (.data buffer)) (t.later env (.data buffer)) := by
  have hsamples : s.handler.samples = t.handler.samples :=
    congrArg (fun c => c.handler.samples) h.core
  have hleft := h.left
  have hright := h.right
  constructor
  . exact congrArg (fun c : Conn ν =>
      { c with
        handler := { c.handler with
          samples := c.handler.samples ++ (int16s buffer).drop ConnectionHandler.header
          state := 1 } }) h.core
  . show _ ≤ (s.handler.rcvRangeSmps ++ [_]).length
    rw [List.length_append]
    exact Nat.le_trans hleft (Nat.le_add_right _ _)
  . show _ ≤ (t.handler.rcvRangeSmps ++ [_]).length
    rw [List.length_append]
    exact Nat.le_trans hright (Nat.le_add_right _ _)
  . intro _
    apply Coupled.same
    . exact iff_of_true (ConnectionHandler.new_onSpeechData hleft buffer)
        (ConnectionHandler.new_onSpeechData hright buffer)
    . intro _
      show (ConnectionHandler.onSpeechData buffer _).endSplIdx
        = (ConnectionHandler.onSpeechData buffer _).endSplIdx
      rw [ConnectionHandler.endSplIdx_onSpeechData, ConnectionHandler.endSplIdx_onSpeechData]
      show ((s.handler.samples ++ _).length : Int) - 1 = ((t.handler.samples ++ _).length : Int) - 1
      rw [hsamples]

theorem stop (h : Sim s t) : Sim (s.later env .stop) (t.later env .stop) := by
  refine ⟨congrArg (fun c => { c with handler := { c.handler with state := 3 } }) h.core, h.left,
    h.right, ?_⟩
  intro hrun
  cases h.coupled hrun with
  | same hnew hend => exact .same hnew hend
  | stale hold hblank hframes =>
    refine .stale hold ⟨hblank.lastFrame, hblank.acts, hblank.nsegDone, hblank.seginfos⟩ ?_
    intro hstate
    cases hstate

-- A pass that ends the thread leaves nothing to be coupled.
theorem finished {s' t' : Conn ν} {r : Prog (Conn ν) Unit} (h : Sim s t)
    (hr : ∀ p q, Prog.Respects (Agree p q) r) (hs : (r s).2 = s') (ht : (r t).2 = t')
    : Sim { s' with decoder := .finished } { t' with decoder := .finished } := by
  have hagree := (hr _ _ s t ⟨h.core, rfl, rfl⟩).2
  rw [hs, ht] at hagree
  have hleft := hagree.left
  have hright := hagree.right
  rw [Prod.mk.injEq] at hleft hright
  refine ⟨congrArg (fun c => { c with decoder := .finished }) hagree.core, ?_, ?_, ?_⟩
  . show s'.handler.lastNranges ≤ s'.handler.rcvRangeSmps.length
    rw [hleft.1, hleft.2]
    exact h.left
  . show t'.handler.lastNranges ≤ t'.handler.rcvRangeSmps.length
    rw [hright.1, hright.2]
    exact h.right
  . intro hrun
    cases hrun

-- A pass over new ranges ends with all of them dealt with.
theorem decoded (h : Sim s t) (hgo : s.alive = true ∧ s.decoder = .running)
    (hstate : s.handler.state = 1) (hs : s.handler.New) (ht : t.handler.New)
    (hend : s.handler.endSplIdx = t.handler.endSplIdx)
    : Sim (s.pass env) (t.pass env) := by
  have hgo' := h.going.mp hgo
  have hstate' : t.handler.state = 1 := by
    rwa [← h.state]
  obtain ⟨hres, hagree⟩ := decodeRanges_agree env h.core hs ht hend
  rw [pass_of_state_one env hgo hstate, pass_of_state_one env hgo' hstate']
  revert hres hagree
  generalize ConnectionHandler.decodeRanges env s = rs
  generalize ConnectionHandler.decodeRanges env t = rt
  obtain ⟨r, s'⟩ := rs
  obtain ⟨_, t'⟩ := rt
  rintro rfl hagree
  have hleft : s'.handler.lastNranges = s'.handler.rcvRangeSmps.length := by
    have := hagree.left
    rw [Prod.mk.injEq] at this
    rw [this.1, this.2]
  have hright : t'.handler.lastNranges = t'.handler.rcvRangeSmps.length := by
    have := hagree.right
    rw [Prod.mk.injEq] at this
    rw [this.1, this.2]
  cases r with
  | none =>
    refine ⟨congrArg (fun c => { c with decoder := .finished }) hagree.core, Nat.le_of_eq hleft,
      Nat.le_of_eq hright, ?_⟩
    intro hrun
    cases hrun
  | some _ =>
    refine ⟨hagree.core, Nat.le_of_eq hleft, Nat.le_of_eq hright, ?_⟩
    intro _
    apply Coupled.same
    . exact iff_of_false (Nat.not_lt_of_le (Nat.le_of_eq hleft.symm))
        (Nat.not_lt_of_le (Nat.le_of_eq hright.symm))
    . intro hnew
      exact absurd hleft (Nat.ne_of_lt hnew)

theorem pass (h : Sim s t) : Sim (s.pass env) (t.pass env) := by
  have hstate := h.state
  by_cases hgo : s.alive = true ∧ s.decoder = .running
  . have hgo' := h.going.mp hgo
    by_cases h3 : s.handler.state = 3
    . have hlen : s.handler.samples.length = t.handler.samples.length :=
        congrArg (fun c => c.handler.samples.length) h.core
      rw [pass_of_state_three env hgo h3, pass_of_state_three env hgo' (hstate ▸ h3), hlen]
      exact h.finished (fun p q => (respects_agree p q).finishRecognition env _) rfl rfl
    . by_cases h2 : s.handler.state = 2
      . rw [pass_of_state_two env hgo h2, pass_of_state_two env hgo' (hstate ▸ h2)]
        exact h.finished (fun p q => (respects_agree p q).rescore env) rfl rfl
      . by_cases h1 : s.handler.state = 1
        . cases h.coupled hgo.2 with
          | same hnew hend =>
            by_cases hs : s.handler.New
            . exact h.decoded hgo h1 hs (hnew.mp hs) (hend hs)
            . rw [pass_of_old env hgo h1 hs, pass_of_old env hgo' (hstate ▸ h1) (mt hnew.mpr hs)]
              exact h
          | stale hold hblank hframes =>
            rw [pass_of_old env hgo' (hstate ▸ h1) hold]
            by_cases hs : s.handler.New
            . rw [pass_of_state_one env hgo h1, decodeRanges_blank env hs hblank (hframes h1 hs)]
              refine ⟨h.core, Nat.le_refl _, h.right, ?_⟩
              intro _
              apply Coupled.same
              . exact iff_of_false (Nat.lt_irrefl _) hold
              . intro hnew
                exact absurd hnew (Nat.lt_irrefl _)
            . rw [pass_of_old env hgo h1 hs]
              exact h
        . rw [pass_of_no_state env hgo h3 h2 h1,
            pass_of_no_state env hgo' (hstate ▸ h3) (hstate ▸ h2) (hstate ▸ h1)]
          exact h
  . have hgo' := mt h.going.mpr hgo
    unfold Conn.pass
    rw [if_neg hgo, if_neg hgo']
    exact h

theorem later (h : Sim s t) (l : Later) : Sim (s.later env l) (t.later env l) := by
  cases l with
  | data buffer => exact h.data buffer
  | stop => exact h.stop
  | pass => exact h.pass

theorem follow (h : Sim s t) (env : Env ν) (ls : List Later) : Sim (s.follow env ls) (t.follow env ls) := by
  induction ls generalizing s t with
  | nil => exact h
  | cons l ls ih => exact ih (h.later l)

end Sim

end Conn
