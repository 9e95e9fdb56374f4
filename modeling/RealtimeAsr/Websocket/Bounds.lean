import RealtimeAsr.Websocket.Reader

/-!
This module shows that a connection stays within its buffers and never takes back a text, in every run.
-/

namespace Conn

variable {ν : Type}

/--
Frames and slices lie within `samples_`, and the bounds tests of the posting code drop no segment. The
slice of a segment runs from `st` to its end `st + num - 1`.
-/
theorem reads_within_samples (env : Env ν) (state : Int) (vad : ν) (events : List Event)
    : let access := ((machine env state vad).run events).access
      (∀ i size, Access.frame i size ∈ access → 160 * i + 159 < size)
        ∧ (∀ i st num size, Access.slice (.seg i) st num size ∈ access →
            st < st + num - 1 ∧ st + num - 1 < size)
        ∧ (∀ i, Access.dropped i ∉ access)
        ∧ (∀ st num size, Access.slice .temp st num size ∈ access → st + num ≤ size) := by
  intro access
  have hok := (sound_run env state vad events).good.access
  refine ⟨?_, ?_, ?_, ?_⟩
  . intro i size hmem
    exact hok _ hmem
  . intro i st num size hmem
    obtain ⟨h1, h2⟩ := hok _ hmem
    omega
  . intro i hmem
    exact hok _ hmem
  . intro st num size hmem
    exact hok _ hmem

/--
The text of the segments at a partial result is a prefix of every later text, and it is always the
checked results joined in the order of the segments.
-/
theorem text_never_shrinks (env : Env ν) (state : Int) (vad : ν) (events : List Event)
    : let c := (machine env state vad).run events
      c.sent.Pairwise (fun w w' =>
          w.msg.isPartial = true → ∀ s ∈ w'.msg.sentence, w.segs <+: s)
        ∧ c.handler.getSegsResult
            = (utf8 "，").intercalate ((c.handler.seginfos.map Seginfo.result).filter c.handler.check)
        ∧ c.handler.seginfos.Pairwise (fun i j => i.stFrm < j.stFrm) := by
  intro c
  have hgood := (sound_run env state vad events).good
  exact ⟨hgood.extended, ConnectionHandler.getSegsResult_eq _, hgood.sorted⟩

end Conn
