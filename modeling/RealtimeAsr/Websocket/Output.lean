import RealtimeAsr.Websocket.Batch

/-!
This module contains what the posting code of the decode thread does: it leaves the connection as it
is but for its output, that is the requests, the messages, the accesses and `seginfos_`.
-/

variable {ν : Type}

structure Output where
  posts : List Post
  sent : List Written
  access : List Access
  seginfos : List Seginfo

namespace Output

def log (a : Access) (o : Output) : Output :=
  { o with access := o.access ++ [a] }

def ask (p : Post) (o : Output) : Output :=
  { o with posts := o.posts ++ [p] }

def hear (info : Seginfo) (o : Output) : Output :=
  { o with seginfos := o.seginfos ++ [info] }

def say (w : Written) (o : Output) : Output :=
  { o with sent := o.sent ++ [w] }

end Output

namespace Conn

def emit (c : Conn ν) (o : Output) : Conn ν :=
  { c with
    posts := o.posts
    sent := o.sent
    access := o.access
    handler := { c.handler with seginfos := o.seginfos } }

def output (c : Conn ν) : Output where
  posts := c.posts
  sent := c.sent
  access := c.access
  seginfos := c.handler.seginfos

def segsResult (c : Conn ν) (o : Output) : Bytes :=
  (c.emit o).handler.getSegsResult

@[simp]
theorem emit_output (c : Conn ν) : c.emit c.output = c := rfl

@[simp]
theorem output_emit (c : Conn ν) (o : Output) : (c.emit o).output = o := rfl

@[simp]
theorem emit_samples (c : Conn ν) (o : Output) : (c.emit o).handler.samples = c.handler.samples := rfl

@[simp]
theorem emit_acts (c : Conn ν) (o : Output) : (c.emit o).handler.acts = c.handler.acts := rfl

def canWrite (env : Env ν) (c : Conn ν) (o : Output) (msg : Msg) : Prop :=
  c.closed = false ∧ env.write (o.sent.map (·.msg)) msg = true

instance (env : Env ν) (c : Conn ν) (o : Output) (msg : Msg) : Decidable (canWrite env c o msg) :=
  inferInstanceAs (Decidable (_ ∧ _))

end Conn

namespace ConnectionHandler

variable (env : Env ν) (c : Conn ν) (o : Output)

theorem callActPercent_apply (st en : Nat)
    : callActPercent env st en c
        =
      (some (c.handler.acts.actPercent env.round st en),
        c.emit (c.output.log (.percent st en c.handler.acts.acts.length))) := rfl

theorem copySamples_emit (id : PostId) (st num : Nat)
    : copySamples id st num (c.emit o)
        =
      (some (int16Bytes ((c.handler.samples.drop st).take num)),
        c.emit (o.log (.slice id st num c.handler.samples.length))) := rfl

theorem httpaudioPost_emit (content : Bytes) (id : PostId) (format : String)
    : httpaudioPost env content id format (c.emit o)
        =
      (env.post o.posts { content, id, format }, c.emit (o.ask { content, id, format })) := by
  have hposts : (c.emit o).posts = o.posts := rfl
  unfold httpaudioPost
  rw [Prog.get_bind_apply, hposts]
  cases env.post o.posts { content, id, format } with
  | none => rfl
  | some result => rfl

theorem wsWrite_emit (msg : Msg)
    : wsWrite env msg (c.emit o)
        =
      if c.canWrite env o msg then
        (some (), c.emit (o.say ⟨msg, c.segsResult o⟩))
      else
        (none, c.emit o) := by
  have hcond : (c.closed = true ∨ env.write (c.emit o).msgs msg = false) ↔ ¬c.canWrite env o msg := by
    unfold Conn.canWrite
    show (c.closed = true ∨ env.write (o.sent.map (·.msg)) msg = false) ↔ _
    rw [Classical.not_and_iff_not_or_not]
    simp
  unfold wsWrite
  rw [Prog.get_bind_apply, Prog.ite_apply]
  show (if c.closed = true ∨ env.write (c.emit o).msgs msg = false then _ else _) = _
  split
  . next h =>
    rw [if_neg (hcond.mp h)]
    rfl
  . next h =>
    rw [if_pos (Decidable.of_not_not (fun hn => h (hcond.mpr hn)))]
    rfl

def askedSeg (post : Post) (i : Nat) : Output :=
  let segSt := c.handler.acts.segSts.getD i 0
  let segEnd := c.handler.acts.segEnds.getD i 0
  let st := segSt * samplesPerFrame
  let en := segEnd * samplesPerFrame
  o.log (.percent segSt segEnd c.handler.acts.acts.length)
    |>.log (.slice (.seg i) st (en - st + 1) c.handler.samples.length)
    |>.ask post

theorem postSeg_apply {i : Nat}
    (hst : c.handler.acts.segSts.getD i 0 * samplesPerFrame < c.handler.samples.length)
    (hen : c.handler.acts.segEnds.getD i 0 * samplesPerFrame < c.handler.samples.length)
    : postSeg env c.handler.samples.length i c
        =
      let segSt := c.handler.acts.segSts.getD i 0
      let segEnd := c.handler.acts.segEnds.getD i 0
      match segPost env.round c.handler.acts c.handler.samples i with
      | none => (some false, c.emit (c.output.log (.percent segSt segEnd c.handler.acts.acts.length)))
      | some post =>
        match env.post c.output.posts post with
        | none => (none, c.emit (askedSeg c c.output post i))
        | some result =>
          (some true, c.emit ((askedSeg c c.output post i).hear ⟨segSt, segEnd, result⟩)) := by
  dsimp only [postSeg, segPost, Prog.get_bind_apply]
  rw [Prog.ite_apply, if_pos ⟨hst, hen⟩, Prog.bind_apply, callActPercent_apply]
  dsimp only
  rw [Prog.ite_apply]
  simp only [hst, hen, and_self, true_and]
  split
  . rw [Prog.bind_apply, copySamples_emit]
    dsimp only
    rw [Prog.bind_apply, httpaudioPost_emit]
    simp only [askedSeg, Output.log, Output.ask]
    cases env.post c.output.posts _ with
    | none => rfl
    | some result => rfl
  . rfl

variable {i : Nat}
  (hst : c.handler.acts.segSts.getD i 0 * samplesPerFrame < c.handler.samples.length)
  (hen : c.handler.acts.segEnds.getD i 0 * samplesPerFrame < c.handler.samples.length)

include hst hen

theorem postSeg_none (hseg : segPost env.round c.handler.acts c.handler.samples i = none)
    : postSeg env c.handler.samples.length i (c.emit o)
        =
      (some false, c.emit (o.log (.percent (c.handler.acts.segSts.getD i 0)
        (c.handler.acts.segEnds.getD i 0) c.handler.acts.acts.length))) := by
  apply (postSeg_apply env (c.emit o) hst hen).trans
  simp only [Conn.emit_acts, Conn.emit_samples, hseg]
  rfl

theorem postSeg_throw {post : Post}
    (hseg : segPost env.round c.handler.acts c.handler.samples i = some post)
    (hpost : env.post o.posts post = none)
    : postSeg env c.handler.samples.length i (c.emit o)
        =
      (none, c.emit (askedSeg c o post i)) := by
  apply (postSeg_apply env (c.emit o) hst hen).trans
  simp only [Conn.emit_acts, Conn.emit_samples, Conn.output_emit, hseg, hpost]
  rfl

theorem postSeg_some {post : Post} {result : Bytes}
    (hseg : segPost env.round c.handler.acts c.handler.samples i = some post)
    (hpost : env.post o.posts post = some result)
    : postSeg env c.handler.samples.length i (c.emit o)
        =
      (some true, c.emit ((askedSeg c o post i).hear
        ⟨c.handler.acts.segSts.getD i 0, c.handler.acts.segEnds.getD i 0, result⟩)) := by
  apply (postSeg_apply env (c.emit o) hst hen).trans
  simp only [Conn.emit_acts, Conn.emit_samples, Conn.output_emit, hseg, hpost]
  rfl

end ConnectionHandler
