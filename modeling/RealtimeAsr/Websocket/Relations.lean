import RealtimeAsr.Lib.Respects
import RealtimeAsr.Websocket.Decode

/-!
This module contains relations between connections that the posting code cannot tell apart: they agree
on what it reads, and everything it does keeps them related.
-/

variable {ν : Type}

/--
What `decodeRanges` does behind the decisions.
-/
def ConnectionHandler.postRanges (env : Env ν) (endSplIdx : Int) : Prog (Conn ν) Unit := do
  let c ← Prog.get
  let ncurSegNum := c.handler.acts.segEnds.length
  Prog.forRange c.handler.nsegDone ncurSegNum (postPartial env c.handler.samples.length)
  onHandler fun h => { h with nsegDone := ncurSegNum }
  postTemp env endSplIdx

structure PostingRespects (R : Conn ν → Conn ν → Prop) : Prop where
  acts : ∀ s t, R s t → s.handler.acts = t.handler.acts
  samples : ∀ s t, R s t → s.handler.samples = t.handler.samples
  nsegDone : ∀ s t, R s t → s.handler.nsegDone = t.handler.nsegDone
  curResult : ∀ s t, R s t → s.handler.curResult = t.handler.curResult
  segs : ∀ s t, R s t → s.handler.getSegsResult = t.handler.getSegsResult
  closed : ∀ s t, R s t → s.closed = t.closed
  posts : ∀ s t, R s t → s.posts = t.posts
  msgs : ∀ s t, R s t → s.msgs = t.msgs
  log : ∀ s t a, R s t → R { s with access := s.access ++ [a] } { t with access := t.access ++ [a] }
  ask : ∀ s t p, R s t → R { s with posts := s.posts ++ [p] } { t with posts := t.posts ++ [p] }
  say : ∀ s t w, R s t → R { s with sent := s.sent ++ [w] } { t with sent := t.sent ++ [w] }
  hear : ∀ s t info, R s t
    → R { s with handler := { s.handler with seginfos := s.handler.seginfos ++ [info] } }
      { t with handler := { t.handler with seginfos := t.handler.seginfos ++ [info] } }
  close : ∀ s t r, R s t
    → R { s with handler := { s.handler with acts := s.handler.acts.end_ r } }
      { t with handler := { t.handler with acts := t.handler.acts.end_ r } }
  posted : ∀ s t nsegDone, R s t
    → R { s with handler := { s.handler with nsegDone } } { t with handler := { t.handler with nsegDone } }
  finish : ∀ s t, R s t
    → R { s with handler := { s.handler.reset with stopRecognition := true } }
      { t with handler := { t.handler.reset with stopRecognition := true } }
  stop : ∀ s t, R s t
    → R { s with handler := { s.handler with stopRecognition := true } }
      { t with handler := { t.handler with stopRecognition := true } }

namespace PostingRespects

open ConnectionHandler
open Prog (Respects)

variable {R : Conn ν → Conn ν → Prop} (h : PostingRespects R) (env : Env ν)

include h

theorem logAccess (a : Access) : Respects R (logAccess a) :=
  .modify fun s t hst => h.log s t a hst

theorem wsWrite (msg : Msg) : Respects R (wsWrite env msg) := by
  intro s t hst
  unfold ConnectionHandler.wsWrite
  rw [Prog.get_bind_apply, Prog.get_bind_apply, h.closed s t hst, h.msgs s t hst, Prog.ite_apply,
    Prog.ite_apply]
  split
  . exact ⟨rfl, hst⟩
  . refine ⟨rfl, ?_⟩
    have hsay := h.say s t ⟨msg, s.handler.getSegsResult⟩ hst
    rw [h.segs s t hst] at hsay
    simp only [Prog.modify_apply]
    rw [h.segs s t hst]
    exact hsay

theorem httpaudioPost (content : Bytes) (id : PostId) (format : String)
    : Respects R (httpaudioPost env content id format) := by
  unfold ConnectionHandler.httpaudioPost
  apply Respects.get_bind
  . intro s t hst
    rw [h.posts s t hst]
  . intro c
    apply Respects.bind
    . exact .modify fun s t hst => h.ask s t _ hst
    . intro _
      split
      . exact .pure _
      . exact .throw

theorem copySamples (id : PostId) (st num : Nat) : Respects R (copySamples id st num) := by
  unfold ConnectionHandler.copySamples
  apply Respects.get_bind
  . intro s t hst
    rw [h.samples s t hst]
  . intro c
    exact .bind (h.logAccess _) fun _ => .pure _

theorem callActPercent (st en : Nat) : Respects R (callActPercent env st en) := by
  unfold ConnectionHandler.callActPercent
  apply Respects.get_bind
  . intro s t hst
    rw [h.acts s t hst]
  . intro c
    exact .bind (h.logAccess _) fun _ => .pure _

theorem callEnd : Respects R (callEnd env) := by
  have hclose : Respects R (onHandler fun h => { h with acts := h.acts.end_ env.round }) :=
    .modify fun s t hst => h.close s t _ hst
  unfold ConnectionHandler.callEnd
  apply Respects.get_bind
  . intro s t hst
    rw [h.acts s t hst]
  . intro c
    dsimp only
    apply Respects.ite
    . exact .bind (h.logAccess _) fun _ => hclose
    . exact hclose

theorem postSeg (num i : Nat) : Respects R (postSeg env num i) := by
  unfold ConnectionHandler.postSeg
  apply Respects.get_bind
  . intro s t hst
    rw [h.acts s t hst]
  . intro c
    dsimp only
    apply Respects.ite
    . apply Respects.bind (h.callActPercent env _ _)
      intro perct
      apply Respects.ite
      . apply Respects.bind (h.copySamples _ _ _)
        intro data
        apply Respects.bind (h.httpaudioPost env _ _ _)
        intro curResult
        refine .bind (.modify fun s t hst => ?_) fun _ => .pure _
        exact h.hear s t _ hst
      . exact .pure _
    . exact .bind (h.logAccess _) fun _ => .pure _

theorem postPartial (num i : Nat) : Respects R (postPartial env num i) := by
  unfold ConnectionHandler.postPartial
  apply Respects.bind (h.postSeg env num i)
  intro posted
  apply Respects.ite
  . apply Respects.get_bind
    . intro s t hst
      rw [h.segs s t hst]
    . intro c
      exact h.wsWrite env _
  . exact .pure _

theorem postFinal (num i : Nat) : Respects R (postFinal env num i) :=
  .bind (h.postSeg env num i) fun _ => .pure _

theorem postTemp (endSplIdx : Int) : Respects R (postTemp env endSplIdx) := by
  unfold ConnectionHandler.postTemp
  apply Respects.get_bind
  . intro s t hst
    rw [h.acts s t hst]
  . intro c
    dsimp only
    apply Respects.ite _ (.pure _)
    apply Respects.bind (h.callActPercent env _ _)
    intro actPercent
    apply Respects.ite _ (.pure _)
    apply Respects.ite _ (.pure _)
    apply Respects.bind (h.copySamples _ _ _)
    intro data
    apply Respects.bind (h.httpaudioPost env _ _ _)
    intro tempRt
    apply Respects.ite _ (.pure _)
    apply Respects.get_bind
    . intro s t hst
      rw [h.segs s t hst]
    . intro c
      exact .ite (h.wsWrite env _) (h.wsWrite env _)

theorem postRanges (endSplIdx : Int) : Respects R (postRanges env endSplIdx) := by
  unfold ConnectionHandler.postRanges
  apply Respects.get_bind
  . intro s t hst
    rw [h.acts s t hst, h.nsegDone s t hst, h.samples s t hst]
  . intro c
    apply Respects.bind (.forRange fun i => h.postPartial env _ i)
    intro _
    refine .bind (.modify fun s t hst => ?_) fun _ => h.postTemp env _
    exact h.posted s t _ hst

theorem finishRecognition (curSize : Nat) : Respects R (finishRecognition env curSize) := by
  unfold ConnectionHandler.finishRecognition
  apply Respects.bind (h.callEnd env)
  intro _
  apply Respects.get_bind
  . intro s t hst
    rw [h.acts s t hst, h.nsegDone s t hst, h.samples s t hst]
  . intro c
    apply Respects.bind (.forRange fun i => h.postFinal env curSize i)
    intro _
    apply Respects.bind (h.copySamples _ _ _)
    intro data
    apply Respects.bind (h.httpaudioPost env _ _ _)
    intro _
    apply Respects.get_bind
    . intro s t hst
      rw [h.segs s t hst]
    . intro c
      apply Respects.bind (h.wsWrite env _)
      intro _
      apply Respects.bind (h.wsWrite env _)
      intro _
      exact .modify fun s t hst => h.finish s t hst

theorem rescore : Respects R (rescore env) := by
  unfold ConnectionHandler.rescore
  apply Respects.get_bind
  . intro s t hst
    rw [h.curResult s t hst]
  . intro c
    refine .bind (h.wsWrite env _) fun _ => .modify fun s t hst => ?_
    exact h.stop s t hst

end PostingRespects
