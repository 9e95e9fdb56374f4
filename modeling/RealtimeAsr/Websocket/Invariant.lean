import RealtimeAsr.Websocket.Output
import RealtimeAsr.Websocket.Text

/-!
This module contains the invariants of a connection: `Good` holds at every moment, `Track` says how
far the decode thread has come with the closed segments.
-/

variable {ν : Type}

namespace Msg

def isPartial : Msg → Bool
  | .partialResult _ => true
  | _ => false

def isEnding : Msg → Bool
  | .finalResult _ => true
  | .speechEnd => true
  | _ => false

def sentence : Msg → Option Bytes
  | .partialResult nbest => some nbest.sentence
  | .finalResult nbest => some nbest.sentence
  | _ => none

end Msg

def PostId.isSeg : PostId → Bool
  | .seg _ => true
  | _ => false

def Seginfo.bounds (info : Seginfo) : Nat × Nat :=
  (info.stFrm, info.endFrm)

namespace Access

def frame? : Access → Option Nat
  | .frame i _ => some i
  | _ => none

/--
The access stays within `samples_`, or within `acts_` for the percentage. A segment that a bounds test
drops is never fine.
-/
def Ok : Access → Prop
  | .frame i size => 160 * i + 159 < size
  | .slice (.seg _) st num size => 1 < num ∧ st + num ≤ size
  | .slice _ st num size => st + num ≤ size
  | .dropped _ => False
  | .percent st en nacts => st ≤ en ∧ en ≤ nacts

end Access

def Env.Replies (env : Env ν) (reply : Post → Bytes) : Prop :=
  ∀ posts post, env.post posts post = some (reply post)

def Env.Answers (env : Env ν) : Prop :=
  ∀ posts post, env.post posts post ≠ none

def Env.Writes (env : Env ν) : Prop :=
  ∀ msgs msg, env.write msgs msg = true

theorem Env.Replies.answers {env : Env ν} {reply : Post → Bytes} (h : env.Replies reply)
    : env.Answers := by
  intro posts post
  rw [h]
  simp

theorem Env.uniform_writes (r : Int) (text : Bytes) : (Env.uniform r text).Writes :=
  fun _ _ => rfl

def Conn.Blames (env : Env ν) (c : Conn ν) : Prop :=
  c.closed = false → env.Writes → ¬env.Answers

structure Good (c : Conn ν) : Prop where
  access : ∀ a ∈ c.access, a.Ok
  sorted : c.handler.seginfos.Pairwise fun i j => i.stFrm < j.stFrm
  stable : ∀ w ∈ c.sent, w.msg.isPartial = true → w.segs <+: c.handler.getSegsResult
  extended : c.sent.Pairwise fun w w' =>
    w.msg.isPartial = true → ∀ s ∈ w'.msg.sentence, w.segs <+: s

namespace Good

variable {c : Conn ν} {o : Output}

theorem transfer {c' : Conn ν} (h : Good c) (haccess : ∀ a ∈ c'.access, a.Ok)
    (hnoises : c'.handler.noises = c.handler.noises)
    (hinfos : c'.handler.seginfos = c.handler.seginfos) (hsent : c'.sent = c.sent)
    : Good c' := by
  have htext : c.handler.getSegsResult <+: c'.handler.getSegsResult := by
    apply ConnectionHandler.getSegsResult_prefix hnoises
    rw [hinfos]
  constructor
  . exact haccess
  . rw [hinfos]
    exact h.sorted
  . rw [hsent]
    intro w hw hpartial
    exact (h.stable w hw hpartial).trans htext
  . rw [hsent]
    exact h.extended

theorem concat_ok {as : List Access} (h : ∀ a ∈ as, a.Ok) {a : Access} (ha : a.Ok)
    : ∀ b ∈ as ++ [a], b.Ok := by
  intro b hb
  cases List.mem_append.mp hb with
  | inl hb => exact h b hb
  | inr hb =>
    rw [List.mem_singleton] at hb
    rw [hb]
    exact ha

theorem log (h : Good (c.emit o)) {a : Access} (ha : a.Ok) : Good (c.emit (o.log a)) :=
  h.transfer (concat_ok h.access ha) rfl rfl rfl

theorem ask (h : Good (c.emit o)) (p : Post) : Good (c.emit (o.ask p)) :=
  h.transfer h.access rfl rfl rfl

theorem hear (h : Good (c.emit o)) {info : Seginfo} (hlt : ∀ i ∈ o.seginfos, i.stFrm < info.stFrm)
    : Good (c.emit (o.hear info)) := by
  constructor
  . exact h.access
  . show (o.seginfos ++ [info]).Pairwise _
    rw [List.pairwise_append]
    refine ⟨h.sorted, List.pairwise_singleton _ _, ?_⟩
    simp only [List.mem_singleton, forall_eq]
    exact hlt
  . intro w hw hpartial
    apply (h.stable w hw hpartial).trans
    apply ConnectionHandler.getSegsResult_prefix
    . rfl
    . exact List.prefix_append _ _
  . exact h.extended

theorem say (h : Good (c.emit o)) (msg : Msg) (hmsg : ∀ s ∈ msg.sentence, c.segsResult o <+: s)
    : Good (c.emit (o.say ⟨msg, c.segsResult o⟩)) := by
  constructor
  . exact h.access
  . exact h.sorted
  . intro w hw hpartial
    cases List.mem_append.mp hw with
    | inl hw => exact h.stable w hw hpartial
    | inr hw =>
      rw [List.mem_singleton] at hw
      rw [hw]
      exact List.prefix_refl _
  . show (o.sent ++ [_]).Pairwise _
    rw [List.pairwise_append]
    refine ⟨h.extended, List.pairwise_singleton _ _, ?_⟩
    simp only [List.mem_singleton, forall_eq]
    intro w hw hpartial s hs
    exact (h.stable w hw hpartial).trans (hmsg s hs)

end Good

def Quiet (c : Conn ν) : Prop :=
  ∀ w ∈ c.sent, w.msg.isEnding = false

/--
The first `k` closed segments went through the posting code, and exactly the frames in `acts_` through
the VAD.
-/
structure Track (env : Env ν) (k : Nat) (c : Conn ν) : Prop where
  paired : c.handler.acts.Paired
  room : c.handler.acts.acts.length * ConnectionHandler.samplesPerFrame ≤ c.handler.samples.length
  posts : c.posts.filter (·.id.isSeg)
    = segPosts env.round c.handler.acts c.handler.samples k
  bounds : c.handler.seginfos.map Seginfo.bounds
    = segBounds env.round c.handler.acts c.handler.samples k
  infos : ∀ reply, env.Replies reply →
    c.handler.seginfos = segInfos reply env.round c.handler.acts c.handler.samples k
  frames : c.access.filterMap Access.frame? = List.range c.handler.acts.acts.length
  quiet : Quiet c

namespace Track

variable {env : Env ν} {c : Conn ν} {o : Output} {k : Nat}

theorem log (h : Track env k (c.emit o)) {a : Access} (ha : a.frame? = none)
    : Track env k (c.emit (o.log a)) where
  paired := h.paired
  room := h.room
  posts := h.posts
  bounds := h.bounds
  infos := h.infos
  frames := by
    show (o.access ++ [a]).filterMap Access.frame? = _
    rw [List.filterMap_append, List.filterMap_cons, ha, List.filterMap_nil, List.append_nil]
    exact h.frames
  quiet := h.quiet

theorem ask (h : Track env k (c.emit o)) {p : Post} (hp : p.id.isSeg = false)
    : Track env k (c.emit (o.ask p)) where
  paired := h.paired
  room := h.room
  posts := by
    show (o.posts ++ [p]).filter _ = _
    rw [List.filter_append, List.filter_singleton, hp, cond_false, List.append_nil]
    exact h.posts
  bounds := h.bounds
  infos := h.infos
  frames := h.frames
  quiet := h.quiet

theorem say (h : Track env k (c.emit o)) {w : Written} (hw : w.msg.isEnding = false)
    : Track env k (c.emit (o.say w)) where
  paired := h.paired
  room := h.room
  posts := h.posts
  bounds := h.bounds
  infos := h.infos
  frames := h.frames
  quiet := by
    intro w' hw'
    cases List.mem_append.mp hw' with
    | inl hw' => exact h.quiet w' hw'
    | inr hw' =>
      rw [List.mem_singleton] at hw'
      rw [hw']
      exact hw

theorem skip (h : Track env k c)
    (hnone : segPost env.round c.handler.acts c.handler.samples k = none)
    : Track env (k + 1) c where
  paired := h.paired
  room := h.room
  posts := by
    rw [h.posts, segPosts, segWalk_none _ _ hnone]
  bounds := by
    rw [h.bounds, segBounds, segWalk_none _ _ hnone]
  infos := by
    intro reply hreply
    rw [h.infos reply hreply, segInfos, segWalk_none _ _ hnone]
  frames := h.frames
  quiet := h.quiet

theorem hear (h : Track env k (c.emit o)) {post : Post} {result : Bytes}
    (hsome : segPost env.round c.handler.acts c.handler.samples k = some post)
    (hresult : env.post o.posts post = some result)
    : Track env (k + 1)
        (c.emit ((o.ask post).hear
          ⟨c.handler.acts.segSts.getD k 0, c.handler.acts.segEnds.getD k 0, result⟩)) where
  paired := h.paired
  room := h.room
  posts := by
    have hseg : post.id.isSeg = true := by
      simp only [segPost] at hsome
      split at hsome
      . cases hsome
        rfl
      . cases hsome
    show (o.posts ++ [post]).filter _ = segPosts env.round c.handler.acts c.handler.samples (k + 1)
    rw [List.filter_append, List.filter_singleton, hseg, segPosts, segWalk_some _ _ hsome]
    congr 1
    exact h.posts
  bounds := by
    show (o.seginfos ++ [_]).map _ = segBounds env.round c.handler.acts c.handler.samples (k + 1)
    rw [List.map_append, segBounds, segWalk_some _ _ hsome]
    congr 1
    exact h.bounds
  infos := by
    intro reply hreply
    rw [hreply] at hresult
    cases hresult
    show o.seginfos ++ [_] = segInfos reply env.round c.handler.acts c.handler.samples (k + 1)
    rw [segInfos, segWalk_some _ _ hsome]
    congr 1
    exact h.infos reply hreply
  frames := h.frames
  quiet := h.quiet

theorem extend {c' : Conn ν} (h : Track env k c) (hk : k ≤ c.handler.acts.segEnds.length)
    (hacts : c.handler.acts.Extends c'.handler.acts) (hpaired : c'.handler.acts.Paired)
    (hroom : c'.handler.acts.acts.length * ConnectionHandler.samplesPerFrame
      ≤ c'.handler.samples.length)
    {xs : List Int16} (hsamples : c'.handler.samples = c.handler.samples ++ xs)
    (hposts : c'.posts = c.posts) (hinfos : c'.handler.seginfos = c.handler.seginfos)
    (hframes : c'.access.filterMap Access.frame? = List.range c'.handler.acts.acts.length)
    (hquiet : Quiet c')
    : Track env k c' where
  paired := hpaired
  room := hroom
  posts := by
    rw [hposts, hsamples, segPosts, segWalk_stable _ _ hacts h.paired h.room xs hk]
    exact h.posts
  bounds := by
    rw [hinfos, hsamples, segBounds, segWalk_stable _ _ hacts h.paired h.room xs hk]
    exact h.bounds
  infos := by
    intro reply hreply
    rw [hinfos, hsamples, segInfos, segWalk_stable _ _ hacts h.paired h.room xs hk]
    exact h.infos reply hreply
  frames := hframes
  quiet := hquiet

theorem stFrm_lt (h : Track env k c) (hk : k < c.handler.acts.segSts.length)
    : ∀ info ∈ c.handler.seginfos, info.stFrm < c.handler.acts.segSts.getD k 0 := by
  intro info hinfo
  have hmem : info.bounds ∈ segBounds env.round c.handler.acts c.handler.samples k := by
    rw [← h.bounds]
    exact List.mem_map_of_mem hinfo
  simp only [segBounds, segWalk, List.mem_filterMap, List.mem_range, Option.map_eq_some_iff] at hmem
  obtain ⟨i, hi, post, _, heq⟩ := hmem
  have hst : c.handler.acts.segSts.getD i 0 = info.stFrm := congrArg Prod.fst heq
  rw [← hst]
  exact h.paired.start_lt_start hi hk

end Track
