import RealtimeAsr.Lib.Maps
import RealtimeAsr.Websocket.Relations
import RealtimeAsr.Websocket.Server

/-!
This module shows that a connection does the same with any other VAD, of any other type, until it gets a
decision from it.
-/

variable {ν μ : Type}

namespace Conn

def setVad (v : μ) (c : Conn ν) : Conn μ :=
  { c with vad := v }

end Conn

namespace ConnectionHandler

open Conn (setVad)
open Prog (Maps)

variable {p : Peer} {vadProcess : ν → List Int16 → Int × ν} {vadProcess' : μ → List Int16 → Int × μ} {v : μ}

theorem onHandler_maps (f : ConnectionHandler → ConnectionHandler)
    : Maps (setVad v) (onHandler f : Prog (Conn ν) Unit) (onHandler f) :=
  .modify fun _ => rfl

theorem logAccess_maps (a : Access)
    : Maps (setVad v) (logAccess a : Prog (Conn ν) Unit) (logAccess a) :=
  .modify fun _ => rfl

theorem wsWrite_maps (msg : Msg)
    : Maps (setVad v) (wsWrite (p.env vadProcess) msg) (wsWrite (p.env vadProcess') msg) :=
  .get_bind fun _ => .ite .throw (.modify fun _ => rfl)

theorem wsClose_maps
    : Maps (setVad v) (wsClose (p.env vadProcess)) (wsClose (p.env vadProcess')) :=
  .get_bind fun _ => .ite .throw (.modify fun _ => rfl)

theorem httpaudioPost_maps (content : Bytes) (id : PostId) (format : String)
    : Maps (setVad v) (httpaudioPost (p.env vadProcess) content id format)
        (httpaudioPost (p.env vadProcess') content id format) := by
  unfold httpaudioPost
  apply Maps.get_bind
  intro c
  refine .bind (.modify fun _ => rfl) fun _ => ?_
  dsimp only [Peer.env, Conn.setVad]
  split
  . exact .pure _
  . exact .throw

theorem copySamples_maps (id : PostId) (st num : Nat)
    : Maps (setVad v) (copySamples id st num : Prog (Conn ν) Bytes) (copySamples id st num) :=
  .get_bind fun _ => .bind (logAccess_maps _) fun _ => .pure _

theorem callActPercent_maps (st en : Nat)
    : Maps (setVad v) (callActPercent (p.env vadProcess) st en) (callActPercent (p.env vadProcess') st en) :=
  .get_bind fun _ => .bind (logAccess_maps _) fun _ => .pure _

theorem callEnd_maps : Maps (setVad v) (callEnd (p.env vadProcess)) (callEnd (p.env vadProcess')) := by
  apply Maps.get_bind
  intro c
  exact .ite (.bind (logAccess_maps _) fun _ => onHandler_maps _) (onHandler_maps _)

theorem postSeg_maps (num i : Nat)
    : Maps (setVad v) (postSeg (p.env vadProcess) num i) (postSeg (p.env vadProcess') num i) := by
  apply Maps.get_bind
  intro c
  apply Maps.ite
  . apply Maps.bind (callActPercent_maps _ _)
    intro perct
    apply Maps.ite
    . apply Maps.bind (copySamples_maps _ _ _)
      intro data
      apply Maps.bind (httpaudioPost_maps _ _ _)
      intro curResult
      exact .bind (onHandler_maps _) fun _ => .pure _
    . exact .pure _
  . exact .bind (logAccess_maps _) fun _ => .pure _

theorem postPartial_maps (num i : Nat)
    : Maps (setVad v) (postPartial (p.env vadProcess) num i) (postPartial (p.env vadProcess') num i) := by
  apply Maps.bind (postSeg_maps num i)
  intro posted
  apply Maps.ite
  . exact .get_bind fun _ => wsWrite_maps _
  . exact .pure _

theorem postFinal_maps (num i : Nat)
    : Maps (setVad v) (postFinal (p.env vadProcess) num i) (postFinal (p.env vadProcess') num i) :=
  .bind (postSeg_maps num i) fun _ => .pure _

theorem postTemp_maps (endSplIdx : Int)
    : Maps (setVad v) (postTemp (p.env vadProcess) endSplIdx)
        (postTemp (p.env vadProcess') endSplIdx) := by
  apply Maps.get_bind
  intro c
  refine .ite ?_ (.pure _)
  apply Maps.bind (callActPercent_maps _ _)
  intro actPercent
  refine .ite (.ite ?_ (.pure _)) (.pure _)
  apply Maps.bind (copySamples_maps _ _ _)
  intro data
  apply Maps.bind (httpaudioPost_maps _ _ _)
  intro tempRt
  refine .ite (.get_bind fun c => ?_) (.pure _)
  exact .ite (wsWrite_maps _) (wsWrite_maps _)

theorem postRanges_maps (endSplIdx : Int)
    : Maps (setVad v) (postRanges (p.env vadProcess) endSplIdx)
        (postRanges (p.env vadProcess') endSplIdx) := by
  apply Maps.get_bind
  intro c
  apply Maps.bind (.forRange fun i => postPartial_maps _ i)
  intro _
  exact .bind (onHandler_maps _) fun _ => postTemp_maps endSplIdx

theorem finishRecognition_maps (curSize : Nat)
    : Maps (setVad v) (finishRecognition (p.env vadProcess) curSize)
        (finishRecognition (p.env vadProcess') curSize) := by
  apply Maps.bind (callEnd_maps)
  intro _
  apply Maps.get_bind
  intro c
  apply Maps.bind (.forRange fun i => postFinal_maps curSize i)
  intro _
  apply Maps.bind (copySamples_maps _ _ _)
  intro data
  apply Maps.bind (httpaudioPost_maps _ _ _)
  intro _
  apply Maps.get_bind
  intro c
  apply Maps.bind (wsWrite_maps _)
  intro _
  exact .bind (wsWrite_maps _) fun _ => onHandler_maps _

theorem rescore_maps : Maps (setVad v) (rescore (p.env vadProcess)) (rescore (p.env vadProcess')) :=
  .get_bind fun _ => .bind (wsWrite_maps _) fun _ => onHandler_maps _

end ConnectionHandler

namespace ConnectionHandler

open Conn (setVad)
open Prog (Maps)

variable {p : Peer} {vadProcess : ν → List Int16 → Int × ν} {vadProcess' : μ → List Int16 → Int × μ} {v : μ}

theorem onError_maps (message : String)
    : Maps (setVad v) (onError (p.env vadProcess) message) (onError (p.env vadProcess') message) :=
  .bind (wsWrite_maps _) fun _ => wsClose_maps

theorem setNbest_maps (value : Option Json)
    : Maps (setVad v) (setNbest (p.env vadProcess) value) (setNbest (p.env vadProcess') value) := by
  unfold setNbest
  split
  . exact .pure ()
  . exact onHandler_maps _
  . exact onError_maps _

theorem setContinuousDecoding_maps (value : Option Json)
    : Maps (setVad v) (setContinuousDecoding (p.env vadProcess) value)
        (setContinuousDecoding (p.env vadProcess') value) := by
  unfold setContinuousDecoding
  split
  . exact .pure ()
  . exact onHandler_maps _
  . exact onError_maps _

theorem onSpeechStart_maps
    : Maps (setVad v) (onSpeechStart (p.env vadProcess)) (onSpeechStart (p.env vadProcess')) := by
  refine .bind (onHandler_maps _) fun _ => ?_
  exact .bind (wsWrite_maps _) fun _ => .modify fun _ => rfl

theorem onText_maps (value : Option Json)
    : Maps (setVad v) (onText (p.env vadProcess) value) (onText (p.env vadProcess') value) := by
  unfold onText
  split
  . exact .throw
  . split
    . apply Maps.ite
      . refine .bind (setNbest_maps _) fun _ => ?_
        refine .bind (setContinuousDecoding_maps _) fun _ => ?_
        exact onSpeechStart_maps
      . exact .ite (onHandler_maps _) (onError_maps _)
    . exact .throw
    . exact onError_maps _
  . exact onError_maps _

theorem readMessage_maps (m : Incoming)
    : Maps (setVad v) (readMessage (p.env vadProcess) m) (readMessage (p.env vadProcess') m) := by
  apply Maps.get_bind
  intro c
  apply Maps.ite .throw
  split
  . exact .throw
  . exact .bind (onText_maps _) fun _ => .get_bind fun _ => .pure _
  . apply Maps.ite
    . exact .bind (onError_maps _) fun _ => .pure _
    . exact .ite (.pure _) (.bind (onHandler_maps _) fun _ => .pure _)

end ConnectionHandler

namespace Conn

variable (p : Peer) (vadProcess : ν → List Int16 → Int × ν) (vadProcess' : μ → List Int16 → Int × μ) (v : μ)

theorem accept_setVad (ok : Bool) (c : Conn ν) : (c.setVad v).accept ok = (c.accept ok).setVad v := by
  unfold accept
  show (if c.reader = .accepting then _ else _) = _
  split
  . rfl
  . rfl

theorem join_setVad (c : Conn ν) : (c.setVad v).join = c.join.setVad v := by
  unfold join
  show (if c.alive ∧ c.reader = .joining ∧ c.decoder = .finished then _ else _) = _
  split
  . rfl
  . rfl

theorem destroy_setVad (c : Conn ν) : (c.setVad v).destroy = c.destroy.setVad v := by
  unfold destroy
  show (if c.alive ∧ c.reader = .returned then _ else _) = _
  split
  . rfl
  . rfl

theorem recv_setVad (m : Incoming) (c : Conn ν)
    : (c.setVad v).recv (p.env vadProcess') m = (c.recv (p.env vadProcess) m).setVad v := by
  have hread : ConnectionHandler.readMessage (p.env vadProcess') m (c.setVad v)
      = ((ConnectionHandler.readMessage (p.env vadProcess) m c).1,
        (ConnectionHandler.readMessage (p.env vadProcess) m c).2.setVad v) :=
    ConnectionHandler.readMessage_maps m c
  unfold recv
  show (if c.alive ∧ c.reader = .reading then _ else _) = _
  split
  . rw [hread]
    cases ConnectionHandler.readMessage (p.env vadProcess) m c with
    | mk res s =>
      cases res with
      | none => rfl
      | some goOn =>
        cases goOn with
        | true => rfl
        | false => rfl
  . rfl

end Conn
