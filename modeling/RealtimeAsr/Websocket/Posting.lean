import RealtimeAsr.Websocket.Invariant
import RealtimeAsr.Websocket.Relations

/-!
This module contains the specifications of the posting code: it takes a connection from segment to
segment, and even when a request or a write throws the connection stays good.
-/

variable {ν : Type}

namespace ConnectionHandler

section Outside

-- A request is made before it can throw, and a message that throws is not sent.
variable {env : Env ν} {I : Conn ν → Prop}

theorem httpaudioPost_keeps {content : Bytes} {id : PostId} {format : String}
    (hask : ∀ s, I s → I { s with posts := s.posts ++ [{ content, id, format }] })
    : Prog.Keeps I (httpaudioPost env content id format) := by
  unfold httpaudioPost
  apply Prog.Triple.get_bind
  intro s hs
  apply Prog.Triple.bind (Q := fun _ => I)
  . apply Prog.Triple.modify
    rintro s' rfl
    exact hask s' hs
  . intro _
    split
    . exact Prog.Triple.pure fun _ hs' => hs'
    . exact Prog.Triple.throw fun _ hs' => hs'

theorem wsWrite_keeps {msg : Msg}
    (hsay : ∀ s, I s → I { s with sent := s.sent ++ [⟨msg, s.handler.getSegsResult⟩] })
    : Prog.Keeps I (wsWrite env msg) := by
  unfold wsWrite
  apply Prog.Triple.get_bind
  intro s hs
  apply Prog.Triple.ite
  . intro _
    apply Prog.Triple.throw
    rintro s' rfl
    exact hs
  . intro _
    apply Prog.Triple.modify
    rintro s' rfl
    exact hsay s' hs

end Outside

end ConnectionHandler

/--
What the posting code does, step by step, keeps `I` or throws into `E`: it posts to the recogniser, and
calls `act_percent` on ranges in `R`.
-/
structure PostingKeeps (env : Env ν) (a : Acts) (R : Nat → Nat → Prop) (I E : Conn ν → Prop)
    : Prop where
  acts : ∀ s, I s → s.handler.acts = a
  log : ∀ s acc, (∀ st en nacts, acc ≠ .percent st en nacts) → I s
    → I { s with access := s.access ++ [acc] }
  percent : ∀ s st en, R st en → I s
    → I { s with access := s.access ++ [.percent st en a.acts.length] }
  post : ∀ content id format,
    Prog.Triple I (ConnectionHandler.httpaudioPost env content id format) (fun _ => I) E
  hear : ∀ s info, I s → I (s.emit (s.output.hear info))

namespace PostingKeeps

open ConnectionHandler

variable {env : Env ν} {a : Acts} {R : Nat → Nat → Prop} {I E : Conn ν → Prop}
  (h : PostingKeeps env a R I E)

include h

theorem logAccess {acc : Access} (hacc : ∀ st en nacts, acc ≠ .percent st en nacts)
    : Prog.Triple I (logAccess acc) (fun _ => I) E :=
  Prog.Triple.modify fun s hs => h.log s acc hacc hs

theorem callActPercent {st en : Nat} (hR : R st en)
    : Prog.Triple I (callActPercent env st en) (fun _ => I) E := by
  intro s hs
  rw [callActPercent_apply, h.acts s hs]
  exact h.percent s st en hR hs

theorem copySamples (id : PostId) (st num : Nat)
    : Prog.Triple I (copySamples id st num) (fun _ => I) E := by
  intro s hs
  exact h.log s _ (fun _ _ _ heq => by cases heq) hs

omit h in
theorem pure {α : Type} (r : α) : Prog.Triple I (Pure.pure r) (fun _ => I) E :=
  Prog.Triple.pure fun _ hs => hs

theorem postSeg (num : Nat) {i : Nat} (hR : R (a.segSts.getD i 0) (a.segEnds.getD i 0))
    : Prog.Triple I (postSeg env num i) (fun _ => I) E := by
  unfold ConnectionHandler.postSeg
  apply Prog.Triple.get_bind
  intro s hs
  have here : ∀ s', s' = s → I s' := by
    rintro s' rfl
    exact hs
  rw [h.acts s hs]
  dsimp only
  apply Prog.Triple.ite
  . intro _
    apply Prog.Triple.bind ((h.callActPercent hR).pre here)
    intro perct
    apply Prog.Triple.ite
    . intro _
      apply Prog.Triple.bind (h.copySamples _ _ _)
      intro data
      apply Prog.Triple.bind (h.post _ _ _)
      intro curResult
      apply Prog.Triple.bind (Q := fun _ => I)
      . exact Prog.Triple.modify fun s hs => h.hear s _ hs
      . intro _
        exact pure true
    . intro _
      exact pure false
  . intro _
    apply Prog.Triple.bind ((h.logAccess fun _ _ _ heq => by cases heq).pre here)
    intro _
    exact pure false

theorem postFinal (num : Nat) {i : Nat} (hR : R (a.segSts.getD i 0) (a.segEnds.getD i 0))
    : Prog.Triple I (postFinal env num i) (fun _ => I) E := by
  unfold ConnectionHandler.postFinal
  apply Prog.Triple.bind (h.postSeg num hR)
  intro _
  exact pure ()

variable (hwrite : ∀ result, Prog.Triple I (onPartialResult env result) (fun _ => I) E)

include hwrite

theorem postPartial (num : Nat) {i : Nat} (hR : R (a.segSts.getD i 0) (a.segEnds.getD i 0))
    : Prog.Triple I (postPartial env num i) (fun _ => I) E := by
  unfold ConnectionHandler.postPartial
  apply Prog.Triple.bind (h.postSeg num hR)
  intro posted
  apply Prog.Triple.ite
  . intro _
    apply Prog.Triple.get_bind
    intro s hs
    apply Prog.Triple.pre (hwrite _)
    rintro s' rfl
    exact hs
  . intro _
    exact pure ()

theorem postTemp {endSplIdx : Int}
    (hR : a.segSts.length = a.segEnds.length + 1 →
      R (a.segSts.getLastD 0) (endSplIdx.tdiv samplesPerFrame).toNat)
    : Prog.Triple I (postTemp env endSplIdx) (fun _ => I) E := by
  unfold ConnectionHandler.postTemp
  apply Prog.Triple.get_bind
  intro s hs
  have here : ∀ s', s' = s → I s' := by
    rintro s' rfl
    exact hs
  rw [h.acts s hs]
  apply Prog.Triple.ite
  . rintro ⟨hone, _⟩
    have hst : a.segSts.getD (a.segSts.length - 1) 0 = a.segSts.getLastD 0 := by
      rw [Acts.getLastD_eq_getD hone, hone, Nat.add_sub_cancel]
    dsimp only
    rw [hst]
    apply Prog.Triple.bind ((h.callActPercent (hR hone)).pre here)
    intro actPercent
    apply Prog.Triple.ite _ fun _ => pure ()
    intro _
    apply Prog.Triple.ite _ fun _ => pure ()
    intro _
    apply Prog.Triple.bind (h.copySamples _ _ _)
    intro data
    apply Prog.Triple.bind (h.post _ _ _)
    intro tempRt
    apply Prog.Triple.ite _ fun _ => pure ()
    intro _
    apply Prog.Triple.get_bind
    intro s' hs'
    have here' : ∀ s'', s'' = s' → I s'' := by
      rintro s'' rfl
      exact hs'
    apply Prog.Triple.ite
    . intro _
      exact (hwrite _).pre here'
    . intro _
      exact (hwrite _).pre here'
  . intro _
    exact (pure ()).pre here

theorem postRanges {endSplIdx : Int}
    (hposted : ∀ s nsegDone, I s → I { s with handler := { s.handler with nsegDone } })
    (hclosed : ∀ i, i < a.segEnds.length → R (a.segSts.getD i 0) (a.segEnds.getD i 0))
    (hR : a.segSts.length = a.segEnds.length + 1 →
      R (a.segSts.getLastD 0) (endSplIdx.tdiv samplesPerFrame).toNat)
    : Prog.Triple I (postRanges env endSplIdx) (fun _ => I) E := by
  unfold ConnectionHandler.postRanges
  apply Prog.Triple.get_bind
  intro s hs
  have here : ∀ s', s' = s → I s' := by
    rintro s' rfl
    exact hs
  rw [h.acts s hs]
  have hloop : Prog.Triple I
      (Prog.forRange s.handler.nsegDone a.segEnds.length
        (ConnectionHandler.postPartial env s.handler.samples.length))
      (fun _ => I) E :=
    Prog.Triple.loop fun i _ hi => h.postPartial hwrite _ (hclosed i hi)
  apply Prog.Triple.bind (hloop.pre here)
  intro _
  apply Prog.Triple.bind (Q := fun _ => I)
  . exact Prog.Triple.modify fun s' hs' => hposted s' _ hs'
  . intro _
    exact h.postTemp hwrite hR

end PostingKeeps

def Conn.Emits (c : Conn ν) (P : Conn ν → Prop) (s : Conn ν) : Prop :=
  ∃ o, s = c.emit o ∧ P s

abbrev Conn.Reached (env : Env ν) (k : Nat) (c : Conn ν) : Conn ν → Prop :=
  c.Emits fun s => Good s ∧ Track env k s

abbrev Conn.Failed (env : Env ν) (c : Conn ν) : Conn ν → Prop :=
  c.Emits fun s => Good s ∧ Quiet s ∧ c.Blames env

namespace ConnectionHandler

variable {env : Env ν} {c : Conn ν} {k : Nat}

variable {o : Output}

theorem blames_post {posts : List Post} {post : Post} (hpost : env.post posts post = none)
    : c.Blames env := by
  intro _ _ hanswers
  exact hanswers _ _ hpost

theorem blames_write {msg : Msg} (hcan : ¬c.canWrite env o msg) : c.Blames env := by
  intro hclosed hwrites _
  exact hcan ⟨hclosed, hwrites _ _⟩

theorem seg_within (h : Track env k (c.emit o)) (hk : k < c.handler.acts.segEnds.length)
    : c.handler.acts.segSts.getD k 0 * samplesPerFrame < c.handler.samples.length
        ∧ c.handler.acts.segEnds.getD k 0 * samplesPerFrame < c.handler.samples.length := by
  obtain ⟨h1, h2⟩ := seg_room h.paired h.room hk
  exact ⟨Nat.lt_trans h1 h2, h2⟩

theorem percent_ok (h : Track env k (c.emit o)) (hk : k < c.handler.acts.segEnds.length)
    : (Access.percent (c.handler.acts.segSts.getD k 0) (c.handler.acts.segEnds.getD k 0)
        c.handler.acts.acts.length).Ok :=
  ⟨Nat.le_of_lt (h.paired.start_lt_end k hk), Nat.le_of_lt (h.paired.end_lt_length hk)⟩

theorem slice_ok (h : Track env k (c.emit o)) (hk : k < c.handler.acts.segEnds.length)
    : (Access.slice (.seg k) (c.handler.acts.segSts.getD k 0 * samplesPerFrame)
        (c.handler.acts.segEnds.getD k 0 * samplesPerFrame
          - c.handler.acts.segSts.getD k 0 * samplesPerFrame + 1)
        c.handler.samples.length).Ok := by
  obtain ⟨h1, h2⟩ := seg_room h.paired h.room hk
  rw [Conn.emit_acts, Conn.emit_samples] at *
  constructor
  . omega
  . omega

theorem askedSeg_good (h : Good (c.emit o)) (ht : Track env k (c.emit o))
    (hk : k < c.handler.acts.segEnds.length) (post : Post)
    : Good (c.emit (askedSeg c o post k)) :=
  ((h.log (percent_ok ht hk)).log (slice_ok ht hk)).ask post

theorem postSeg_track (hk : k < c.handler.acts.segEnds.length)
    : Prog.Triple (c.Reached env k)
        (postSeg env c.handler.samples.length k)
        (fun _ => c.Reached env (k + 1))
        (c.Failed env) := by
  intro s hs
  obtain ⟨o, rfl, hgood, htrack⟩ := hs
  obtain ⟨hst, hen⟩ := seg_within htrack hk
  cases hseg : segPost env.round c.handler.acts c.handler.samples k with
  | none =>
    rw [postSeg_none env c o hst hen hseg]
    exact ⟨_, rfl, hgood.log (percent_ok htrack hk), (htrack.log rfl).skip hseg⟩
  | some post =>
    have hasked := askedSeg_good hgood htrack hk post
    cases hpost : env.post o.posts post with
    | none =>
      rw [postSeg_throw env c o hst hen hseg hpost]
      exact ⟨_, rfl, hasked, htrack.quiet, blames_post hpost⟩
    | some result =>
      rw [postSeg_some env c o hst hen hseg hpost]
      refine ⟨_, rfl, hasked.hear ?_, ((htrack.log rfl).log rfl).hear hseg hpost⟩
      apply htrack.stFrm_lt
      exact Nat.lt_of_lt_of_le hk htrack.paired.length_ends_le

theorem postFinal_track (hk : k < c.handler.acts.segEnds.length)
    : Prog.Triple (c.Reached env k)
        (postFinal env c.handler.samples.length k)
        (fun _ => c.Reached env (k + 1))
        (c.Failed env) := by
  unfold postFinal
  apply Prog.Triple.bind (postSeg_track hk)
  intro _
  apply Prog.Triple.pure
  intro s hs
  exact hs

theorem onPartialResult_track (hgood : Good (c.emit o)) (htrack : Track env k (c.emit o))
    {text : Bytes} (htext : c.segsResult o <+: text)
    : Prog.Triple (fun s => s = c.emit o)
        (onPartialResult env (serializeResult text))
        (fun _ => c.Reached env k)
        (c.Failed env) := by
  intro s hs
  rw [hs, onPartialResult, wsWrite_emit]
  split
  . next r s' heq =>
    split at heq
    . cases heq
      refine ⟨_, rfl, hgood.say _ ?_, htrack.say rfl⟩
      intro t ht
      cases ht
      exact htext
    . cases heq
  . next s' heq =>
    split at heq
    . cases heq
    . next hcan =>
      cases heq
      exact ⟨o, rfl, hgood, htrack.quiet, blames_write hcan⟩

theorem postPartial_track (hk : k < c.handler.acts.segEnds.length)
    : Prog.Triple (c.Reached env k)
        (postPartial env c.handler.samples.length k)
        (fun _ => c.Reached env (k + 1))
        (c.Failed env) := by
  unfold postPartial
  apply Prog.Triple.bind (postSeg_track hk)
  intro posted
  apply Prog.Triple.ite
  . intro _
    apply Prog.Triple.get_bind
    intro s hs
    obtain ⟨o, rfl, hgood, htrack⟩ := hs
    exact onPartialResult_track hgood htrack (List.prefix_refl _)
  . intro _
    apply Prog.Triple.pure
    intro s hs
    exact hs

theorem callActPercent_track {st en : Nat}
    (hok : (Access.percent st en c.handler.acts.acts.length).Ok)
    : Prog.Triple (c.Reached env k) (callActPercent env st en) (fun _ => c.Reached env k)
        (c.Failed env) := by
  rintro s ⟨o, rfl, hgood, htrack⟩
  rw [callActPercent_apply]
  exact ⟨_, rfl, hgood.log hok, htrack.log rfl⟩

theorem copySamples_track {id : PostId} {st num : Nat}
    (hok : (Access.slice id st num c.handler.samples.length).Ok)
    : Prog.Triple (c.Reached env k) (copySamples id st num) (fun _ => c.Reached env k)
        (c.Failed env) := by
  rintro s ⟨o, rfl, hgood, htrack⟩
  rw [copySamples_emit]
  exact ⟨_, rfl, hgood.log hok, htrack.log rfl⟩

theorem httpaudioPost_track (content : Bytes) {id : PostId} (format : String)
    (hid : id.isSeg = false)
    : Prog.Triple (c.Reached env k) (httpaudioPost env content id format)
        (fun _ => c.Reached env k) (c.Failed env) := by
  rintro s ⟨o, rfl, hgood, htrack⟩
  rw [httpaudioPost_emit]
  cases hpost : env.post o.posts ⟨content, id, format⟩ with
  | none => exact ⟨_, rfl, hgood.ask _, htrack.quiet, blames_post hpost⟩
  | some result => exact ⟨_, rfl, hgood.ask _, htrack.ask hid⟩

theorem postTemp_track {endSplIdx : Int} (hlast : endSplIdx = (c.handler.samples.length : Int) - 1)
    (hall : c.handler.acts.acts.length = c.handler.samples.length / samplesPerFrame)
    : Prog.Triple (c.Reached env k) (postTemp env endSplIdx) (fun _ => c.Reached env k)
        (c.Failed env) := by
  have skip : Prog.Triple (c.Reached env k) (pure ()) (fun _ => c.Reached env k) (c.Failed env) :=
    Prog.Triple.pure fun s hs => hs
  unfold postTemp
  apply Prog.Triple.get_bind
  rintro s ⟨o, rfl, hgood, htrack⟩
  have here : ∀ s, s = c.emit o → c.Reached env k s := by
    rintro s rfl
    exact ⟨o, rfl, hgood, htrack⟩
  apply Prog.Triple.ite
  . rintro ⟨hone, hpos⟩
    have hst := htrack.paired.start_lt_length (Nat.sub_one_lt_of_lt hpos)
    generalize (c.emit o).handler.acts.segSts.getD _ 0 = segSt at *
    rw [Conn.emit_acts, hall] at hst
    unfold samplesPerFrame at *
    have hdiv : endSplIdx.tdiv (160 : Nat) = endSplIdx / 160 := by
      apply Int.tdiv_eq_ediv_of_nonneg
      omega
    apply Prog.Triple.bind
    . apply Prog.Triple.pre (callActPercent_track ?_) here
      rw [hdiv]
      constructor
      . omega
      . omega
    . intro actPercent
      apply Prog.Triple.ite _ fun _ => skip
      intro _
      apply Prog.Triple.ite _ fun _ => skip
      intro hnum
      apply Prog.Triple.bind
      . apply copySamples_track
        show segSt * 160 + _ ≤ _
        omega
      . intro data
        apply Prog.Triple.bind (httpaudioPost_track data "pcm" rfl)
        intro tempRt
        apply Prog.Triple.ite _ fun _ => skip
        intro _
        apply Prog.Triple.get_bind
        rintro s ⟨o, rfl, hgood, htrack⟩
        apply Prog.Triple.ite
        . intro _
          apply onPartialResult_track hgood htrack
          rw [List.append_assoc, List.append_assoc]
          apply List.prefix_append
        . intro hempty
          apply onPartialResult_track hgood htrack
          have : c.segsResult o = [] := by
            rw [← List.length_eq_zero_iff]
            exact Nat.eq_zero_of_not_pos hempty
          rw [this]
          exact List.nil_prefix
  . intro _
    exact skip.pre here

end ConnectionHandler
