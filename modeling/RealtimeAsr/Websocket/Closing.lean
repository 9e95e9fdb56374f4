import RealtimeAsr.Websocket.LongBlock

/-!
This module shows which of the segments that `end` closes are posted by the loop behind it: the two
do not ask for the same length, nor for the same activity.
-/

variable {ν : Type}

def Filed (ps : List Post) (c : Conn ν) : Prop :=
  c.posts.filter (·.id.isSeg) = ps

namespace ConnectionHandler

variable {env : Env ν} {vad₀ : ν} {c : Conn ν} {k : Nat} {ps : List Post}

theorem copySamples_filed (id : PostId) (st num : Nat)
    : Prog.Keeps (Filed ps) (copySamples (ν := ν) id st num) := by
  intro s hs
  exact hs

theorem httpaudioPost_filed (content : Bytes) {id : PostId} (format : String)
    (hid : id.isSeg = false)
    : Prog.Keeps (Filed ps) (httpaudioPost env content id format) := by
  apply httpaudioPost_keeps
  intro s hs
  show (s.posts ++ [_]).filter _ = ps
  rw [List.filter_append, List.filter_singleton, hid, cond_false, List.append_nil]
  exact hs

theorem wsWrite_filed (msg : Msg) : Prog.Keeps (Filed ps) (wsWrite env msg) :=
  wsWrite_keeps fun _ hs => hs

-- The request is made before it can throw.
theorem postFinal_filed (env : Env ν) (hk : k < c.handler.acts.segEnds.length)
    : Prog.Triple (c.Reached env k)
        (postFinal env c.handler.samples.length k)
        (fun _ => Filed (segPosts env.round c.handler.acts c.handler.samples (k + 1)))
        (Filed (segPosts env.round c.handler.acts c.handler.samples (k + 1))) := by
  unfold postFinal
  apply Prog.Triple.bind (Q := fun _ =>
    Filed (segPosts env.round c.handler.acts c.handler.samples (k + 1)))
  . rintro s ⟨o, rfl, hgood, htrack⟩
    obtain ⟨hst, hen⟩ := seg_within htrack hk
    have hposts : o.posts.filter (·.id.isSeg)
        = segPosts env.round c.handler.acts c.handler.samples k := htrack.posts
    cases hseg : segPost env.round c.handler.acts c.handler.samples k with
    | none =>
      rw [postSeg_none env c o hst hen hseg]
      show o.posts.filter _ = _
      rw [hposts, segPosts, segWalk_none _ _ hseg]
    | some post =>
      have hasked : (o.posts ++ [post]).filter (·.id.isSeg)
          = segPosts env.round c.handler.acts c.handler.samples (k + 1) := by
        rw [List.filter_append, hposts, List.filter_singleton,
          isSeg_of_id (segPost_id _ _ _ hseg), segPosts, segWalk_some _ _ hseg]
        rfl
      cases hpost : env.post o.posts post with
      | none =>
        rw [postSeg_throw env c o hst hen hseg hpost]
        exact hasked
      | some result =>
        rw [postSeg_some env c o hst hen hseg hpost]
        exact hasked
  . intro _
    exact Prog.Triple.pure fun s hs => hs

theorem finishRecognition_filed (hgood : Good c) (h : Sync env vad₀ c)
    : Prog.Triple (fun s => s = c) (finishRecognition env c.handler.samples.length)
        (fun _ => Filed (segPosts env.round (c.ended env).handler.acts c.handler.samples
          (c.ended env).handler.acts.segEnds.length))
        (Filed (segPosts env.round (c.ended env).handler.acts c.handler.samples
          (c.ended env).handler.acts.segEnds.length)) := by
  generalize hps : segPosts env.round _ _ _ = ps
  unfold finishRecognition
  apply Prog.Triple.bind (callEnd_track hgood h.track (Nat.le_refl _))
  intro _
  apply Prog.Triple.get_bind
  rintro s ⟨o, rfl, hgood', htrack⟩
  apply Prog.Triple.bind (Q := fun _ => Filed ps)
  . rw [show ((c.ended env).emit o).handler.nsegDone = c.handler.acts.segEnds.length from h.nseg]
    show Prog.Triple _ (Prog.forRange _ (c.ended env).handler.acts.segEnds.length _) _ _
    -- `end` closes at most one segment, so the loop makes at most one pass.
    obtain ⟨_, hends⟩ | ⟨_, hends⟩ := Acts.end_segEnds env.round c.handler.acts
    . have hone : (c.ended env).handler.acts.segEnds.length
          = c.handler.acts.segEnds.length + 1 := by
        show (c.handler.acts.end_ env.round).segEnds.length = _
        rw [hends, List.length_append, List.length_singleton]
      have hlt : c.handler.acts.segEnds.length < (c.ended env).handler.acts.segEnds.length := by
        omega
      rw [hone] at hps ⊢
      have hloop := postFinal_filed env hlt
      rw [show (c.ended env).handler.samples = c.handler.samples from rfl, hps] at hloop
      unfold Prog.forRange
      rw [Nat.add_sub_cancel_left]
      apply Prog.Triple.bind
      . apply Prog.Triple.pre hloop
        rintro s rfl
        exact ⟨o, rfl, hgood', htrack⟩
      . intro _
        exact Prog.Triple.pure fun s hs => hs
    . have hnone : (c.ended env).handler.acts.segEnds.length = c.handler.acts.segEnds.length := by
        show (c.handler.acts.end_ env.round).segEnds.length = _
        rw [hends]
      rw [hnone] at hps ⊢
      unfold Prog.forRange
      rw [Nat.sub_self]
      apply Prog.Triple.pure
      rintro s rfl
      rw [← hps]
      exact htrack.posts
  . intro _
    apply Prog.Triple.bind (copySamples_filed _ _ _)
    intro data
    apply Prog.Triple.bind (httpaudioPost_filed data "whole_pcm" rfl)
    intro _
    apply Prog.Triple.get_bind
    intro s hs
    have here : ∀ s', s' = s → Filed ps s' := by
      rintro s' rfl
      exact hs
    apply Prog.Triple.bind ((wsWrite_filed _).pre here)
    intro _
    apply Prog.Triple.bind (wsWrite_filed _)
    intro _
    exact Prog.Triple.modify fun s hs => hs

end ConnectionHandler

theorem Conn.final_pass_filed {env : Env ν} {vad₀ : ν} {c : Conn ν} (hgood : Good c)
    (h : Sync env vad₀ c) (halive : c.alive = true) (hrun : c.decoder = .running)
    (hstate : c.handler.state = 3)
    : let a := c.handler.acts.end_ env.round
      Filed (segPosts env.round a c.handler.samples a.segEnds.length) (c.pass env) := by
  have hfinish := ConnectionHandler.finishRecognition_filed hgood h c rfl
  dsimp only
  rw [Conn.pass_of_state_three env ⟨halive, hrun⟩ hstate]
  generalize ConnectionHandler.finishRecognition env c.handler.samples.length c = r at hfinish ⊢
  obtain ⟨_ | _, s⟩ := r
  . exact hfinish
  . exact hfinish

namespace Conn

theorem asked_iff_of_filed {c : Conn ν} {r : Rounding} {a : Acts} {samples : List Int16} {k : Nat}
    (h : Filed (segPosts r a samples k) c) (i : Nat)
    : c.Asked i ↔ i < k ∧ (segPost r a samples i).isSome := by
  rw [← mem_segPosts, ← h]
  unfold Asked
  constructor
  . rintro ⟨post, hmem, hid⟩
    exact ⟨post, List.mem_filter.mpr ⟨hmem, isSeg_of_id hid⟩, hid⟩
  . rintro ⟨post, hmem, hid⟩
    exact ⟨post, (List.mem_filter.mp hmem).1, hid⟩

-- The bounds test does not reject a segment that `end` closed, only its length and its activity can.
theorem closed_asked_iff {env : Env ν} {vad₀ : ν} {c : Conn ν} (h : Sound env vad₀ c)
    (halive : c.alive = true) (hrun : c.decoder = .running) (hstate : c.handler.state = 3)
    (hcloses : c.handler.acts.EndCloses env.round)
    : let a := c.handler.acts.end_ env.round
      let i := c.handler.acts.segEnds.length
      (c.pass env).Asked i
        ↔
      a.actPercent env.round (a.segSts.getD i 0) (a.segEnds.getD i 0)
            > ConnectionHandler.minActPercent env.round
          ∧ (a.segEnds.getD i 0 : Int) - a.segSts.getD i 0 > ConnectionHandler.minSpeakNframes := by
  intro a i
  have hsync := running_sync h halive hrun
  have hends : a.segEnds = c.handler.acts.segEnds ++ [c.handler.acts.acts.length - 1] := by
    obtain ⟨_, hends⟩ | ⟨hopen, _⟩ := Acts.end_segEnds env.round c.handler.acts
    . exact hends
    . exact absurd hcloses hopen
  have hi : i < a.segEnds.length := by
    rw [hends, List.length_append, List.length_singleton]
    exact Nat.lt_succ_self _
  have hroom : a.acts.length * ConnectionHandler.samplesPerFrame ≤ c.handler.samples.length := by
    show (c.handler.acts.end_ env.round).acts.length * _ ≤ _
    rw [Acts.end_acts]
    exact hsync.track.room
  have hwithin := seg_room (hsync.track.paired.end_ env.round) hroom hi
  have hfiled := final_pass_filed h.good hsync halive hrun hstate
  rw [asked_iff_of_filed hfiled i, segPost_isSome]
  constructor
  . rintro ⟨_, _, hpass⟩
    exact hpass
  . intro hpass
    exact ⟨hi, ⟨Nat.lt_trans hwithin.1 hwithin.2, hwithin.2⟩, hpass⟩

/--
A segment that `end` closes has at least 100 frames behind its first one and is active in more than
half of its frames. It is posted by the loop behind it if and only if it has more than
`MIN_SPEAK_NFRAMES` and is more active than `MIN_ACT_PERCENT`.
-/
theorem closed_segment_posted_iff (env : Env ν) (state : Int) (vad : ν) (events : List Event)
    (halive : ((machine env state vad).run events).alive = true)
    (hrun : ((machine env state vad).run events).decoder = .running)
    (hstate : ((machine env state vad).run events).handler.state = 3)
    (hopen : let acts := ((machine env state vad).run events).handler.acts
      acts.segSts.length = acts.segEnds.length + 1)
    (hcloses : let acts := ((machine env state vad).run events).handler.acts
      (acts.end_ env.round).segEnds.length = acts.segSts.length)
    : let c := (machine env state vad).run events
      let a := c.handler.acts.end_ env.round
      let i := c.handler.acts.segEnds.length
      ∃ s e : Nat,
        a.segSts[i]? = some s
          ∧ a.segEnds[i]? = some e
          ∧ (100 ≤ (e : Int) - s ∧ a.actPercent env.round s e > 1 / 2)
          ∧ ¬c.Asked i
          ∧ ((c.pass env).Asked i
              ↔ (e : Int) - s > ConnectionHandler.minSpeakNframes
                ∧ a.actPercent env.round s e > ConnectionHandler.minActPercent env.round) := by
  intro c a i
  have hsound : Sound env vad c := sound_run env state vad events
  have hsync := running_sync hsound halive hrun
  have hclosed : c.handler.acts.EndCloses env.round
      ∧ a.segEnds = c.handler.acts.segEnds ++ [c.handler.acts.acts.length - 1] := by
    obtain h | ⟨_, hends⟩ := Acts.end_segEnds env.round c.handler.acts
    . exact h
    . have hsame : c.handler.acts.segEnds.length = c.handler.acts.segSts.length := by
        rw [← hends]
        exact hcloses
      have : c.handler.acts.segSts.length = c.handler.acts.segEnds.length + 1 := hopen
      omega
  obtain ⟨hcloses, hends⟩ := hclosed
  have hposted := closed_asked_iff hsound halive hrun hstate hcloses
  have hst : a.segSts[i]? = some (c.handler.acts.segSts.getLastD 0) := by
    have hlt : i < c.handler.acts.segSts.length := by
      rw [hcloses.one_open]
      exact Nat.lt_succ_self _
    show (c.handler.acts.end_ env.round).segSts[i]? = _
    rw [Acts.end_segSts, Acts.getLastD_eq_getD hcloses.one_open, List.getD_eq_getElem?_getD,
      List.getElem?_eq_getElem hlt]
    rfl
  have hend : a.segEnds[i]? = some (c.handler.acts.acts.length - 1) := by
    rw [hends]
    exact List.getElem?_concat_length
  have hactive : a.actPercent env.round = c.handler.acts.actPercent env.round := by
    funext s e
    unfold Acts.actPercent
    rw [Acts.end_acts]
  refine ⟨_, _, hst, hend, ⟨?_, ?_⟩, ?_, ?_⟩
  . have := hcloses.long
    omega
  . rw [hactive]
    exact hcloses.active
  . rw [asked_iff_of_filed (show Filed _ c from hsync.track.posts) i]
    rintro ⟨hlt, _⟩
    exact absurd hlt (Nat.lt_irrefl _)
  . dsimp only at hposted
    rw [List.getD_eq_getElem?_getD, List.getD_eq_getElem?_getD, hst, hend] at hposted
    exact hposted.trans and_comm

end Conn

def firstNinety (n : Nat) : Int :=
  if n < 90 then 1 else 0

theorem firstNinety_acts
    : let a := ({} : Acts).feed ((List.range 150).map firstNinety)
      a.segSts = [14]
        ∧ a.segEnds = []
        ∧ (a.end_ .exact).segEnds = [149]
        ∧ Acts.actSum (a.end_ .exact).acts 14 149 = 76 := by
  decide +kernel

theorem allActive_acts
    : let a := ({} : Acts).feed ((List.range 115).map fun _ => 1)
      a.segSts = [14]
        ∧ a.segEnds = []
        ∧ (a.end_ .exact).segEnds = [114]
        ∧ Acts.actSum (a.end_ .exact).acts 14 114 = 100 := by
  decide +kernel

-- A recording in one message, with one segment that only `end` closes.
theorem oneMessage_closed {decisions : Nat → Int} {n s e : Nat}
    (hsts : (({} : Acts).feed ((List.range n).map decisions)).segSts = [s])
    (hends : (({} : Acts).feed ((List.range n).map decisions)).segEnds = [])
    (hend : ((({} : Acts).feed ((List.range n).map decisions)).end_ .exact).segEnds = [e])
    : let env := Env.scripted decisions
      let c := session env 0 0 .plain (oneMessage n)
      let a := c.handler.acts.end_ env.round
      (c.alive = true ∧ c.decoder = .running ∧ c.handler.state = 3)
        ∧ (c.handler.acts.segSts = [s] ∧ c.handler.acts.segEnds = [])
        ∧ a.segEnds = [e]
        ∧ ((c.pass env).Asked 0
            ↔ a.actPercent env.round s e > ConnectionHandler.minActPercent env.round
              ∧ (e : Int) - s > ConnectionHandler.minSpeakNframes) := by
  obtain ⟨hrunning, _⟩ := running_session (oneMessage_running decisions n)
  have hsound := session_sound (Env.scripted decisions) 0 0 .plain (oneMessage n)
  have hstate := hrunning.state
  rw [← oneMessage_acts] at hsts hends hend
  dsimp only
  generalize session (Env.scripted decisions) 0 0 .plain (oneMessage n) = c at *
  have hround : (Env.scripted decisions).round = .exact := rfl
  have hcloses : c.handler.acts.EndCloses (Env.scripted decisions).round := by
    obtain ⟨hcloses, _⟩ | ⟨_, hsame⟩ := Acts.end_segEnds (Env.scripted decisions).round c.handler.acts
    . exact hcloses
    . rw [hround, hend, hends] at hsame
      cases hsame
  have hasked := Conn.closed_asked_iff hsound hrunning.alive hrunning.decoder hstate hcloses
  refine ⟨⟨hrunning.alive, hrunning.decoder, hstate⟩, ⟨hsts, hends⟩, hend, ?_⟩
  dsimp only at hasked
  rw [Acts.end_segSts, hround, hend, hends, hsts] at hasked
  exact hasked

theorem closed_segment_not_posted
    : (∃ (decisions : Nat → Int) (n s e : Nat),
        let env := Env.scripted decisions
        let c := session env 0 0 .plain (oneMessage n)
        let a := c.handler.acts.end_ env.round
        (c.alive = true ∧ c.decoder = .running ∧ c.handler.state = 3)
          ∧ (c.handler.acts.segSts = [s] ∧ c.handler.acts.segEnds = [])
          ∧ a.segEnds = [e]
          ∧ (e : Int) - s > ConnectionHandler.minSpeakNframes
          ∧ ¬(c.pass env).Asked 0)
      ∧
      (∃ (decisions : Nat → Int) (n s e : Nat),
        let env := Env.scripted decisions
        let c := session env 0 0 .plain (oneMessage n)
        let a := c.handler.acts.end_ env.round
        (c.alive = true ∧ c.decoder = .running ∧ c.handler.state = 3)
          ∧ (c.handler.acts.segSts = [s] ∧ c.handler.acts.segEnds = [])
          ∧ a.segEnds = [e]
          ∧ a.actPercent env.round s e > ConnectionHandler.minActPercent env.round
          ∧ ¬(c.pass env).Asked 0) := by
  constructor
  . obtain ⟨hsts, hends, hend, hsum⟩ := firstNinety_acts
    obtain ⟨hrunning, hacts, hclosed, hasked⟩ := oneMessage_closed hsts hends hend
    refine ⟨firstNinety, 150, 14, 149, hrunning, hacts, hclosed, by decide, ?_⟩
    intro hposted
    have hactive := (hasked.mp hposted).1
    rw [oneMessage_acts] at hactive
    unfold Acts.actPercent Acts.percent ConnectionHandler.minActPercent at hactive
    rw [show (Env.scripted firstNinety).round = .exact from rfl, hsum] at hactive
    simp only [Rounding.exact_float] at hactive
    norm_num at hactive
  . obtain ⟨hsts, hends, hend, hsum⟩ := allActive_acts
    obtain ⟨hrunning, hacts, hclosed, hasked⟩ := oneMessage_closed hsts hends hend
    refine ⟨fun _ => 1, 115, 14, 114, hrunning, hacts, hclosed, ?_, ?_⟩
    . rw [oneMessage_acts]
      unfold Acts.actPercent Acts.percent ConnectionHandler.minActPercent
      rw [show (Env.scripted fun _ => 1).round = .exact from rfl, hsum]
      simp only [Rounding.exact_float]
      norm_num
    . intro hposted
      exact absurd (hasked.mp hposted).2 (by decide)

theorem Conn.closed_segment_posted_on_data
    : let env := Env.scripted fun _ => 1
      let c := session env 0 0 .plain (oneMessage 150)
      let a := c.handler.acts.end_ env.round
      let i := c.handler.acts.segEnds.length
      ∃ s e : Nat,
        a.segSts[i]? = some s
          ∧ a.segEnds[i]? = some e
          ∧ (100 ≤ (e : Int) - s ∧ a.actPercent env.round s e > 1 / 2)
          ∧ ¬c.Asked i
          ∧ ((c.pass env).Asked i
              ↔ (e : Int) - s > ConnectionHandler.minSpeakNframes
                ∧ a.actPercent env.round s e > ConnectionHandler.minActPercent env.round) := by
  have hacts : let a := ({} : Acts).feed ((List.range 150).map fun _ => 1)
      a.segSts = [14] ∧ a.segEnds = [] ∧ (a.end_ .exact).segEnds = [149] := by
    decide +kernel
  obtain ⟨hsts, hends, hend⟩ := hacts
  have hsession := oneMessage_closed hsts hends hend
  have hopen : ∀ {segSts segEnds : List Nat}, segSts = [14] → segEnds = []
      → segSts.length = segEnds.length + 1 := by
    rintro _ _ rfl rfl
    rfl
  have hcloses : ∀ {segSts segEnds : List Nat}, segSts = [14] → segEnds = [149]
      → segEnds.length = segSts.length := by
    rintro _ _ rfl rfl
    rfl
  unfold session at hsession ⊢
  obtain ⟨⟨halive, hrun, hstate⟩, ⟨hsts, hends⟩, hend, _⟩ := hsession
  exact closed_segment_posted_iff (Env.scripted fun _ => 1) 0 0
    (sessionEvents .plain (oneMessage 150)) halive hrun hstate
    (hopen hsts hends) (hcloses hsts hend)
