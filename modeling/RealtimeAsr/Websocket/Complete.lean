import RealtimeAsr.Websocket.Session

/-!
This module shows which audio the final result of a session is made of: every complete frame, unless
messages that came in after the last pass completed some.
-/

variable {ν : Type}

def AllProcessed (env : Env ν) (vad : ν) (c : Conn ν) : Prop :=
  let nframes := c.handler.samples.length / ConnectionHandler.samplesPerFrame
  c.handler.lastFrame = nframes
    ∧ c.handler.acts.acts.length = nframes
    ∧ c.access.filterMap Access.frame? = List.range nframes
    ∧ c.handler.acts.end_ env.round
        = (batchActs env vad c.handler.samples nframes).end_ env.round

/--
Whenever a pass of the running decode thread begins, in particular the one that takes the `state_ == 3`
branch, all frames are processed if and only if no frame was completed after the pass before it.
-/
theorem final_pass_complete_iff (env : Env ν) (state : Int) (vad : ν) (start : StartMsg)
    (calls : List Call) (hrun : (session env state vad start calls).decoder = .running)
    : AllProcessed env vad (session env state vad start calls)
        ↔
      (Call.audio calls).length / ConnectionHandler.samplesPerFrame
        = (Call.audio (Call.seen calls)).length / ConnectionHandler.samplesPerFrame := by
  obtain ⟨hrunning, hsync⟩ := running_session hrun
  unfold AllProcessed
  rw [hrunning.samples]
  constructor
  . rintro ⟨hframe, _⟩
    rw [← hframe, hrunning.frames]
  . intro hseen
    have hframe := hrunning.frames
    rw [← hseen] at hframe
    refine ⟨hframe, hsync.acts_length.trans hframe, ?_, ?_⟩
    . rw [hsync.track.frames, hsync.acts_length, hframe]
    . rw [hsync.acts, hrunning.samples, hframe]

theorem final_pass_misses_frame
    : let calls := [.data (List.replicate 364 0), .stop .plain]
      let c := session (Env.uniform 1 []) 0 () .plain calls
      c.decoder = .running
        ∧ c.handler.state = 3
        ∧ c.handler.samples.length = 160
        ∧ ¬AllProcessed (Env.uniform 1 []) () c := by
  intro calls c
  have hsamples : c.handler.samples.length = 160 := by
    decide +kernel
  refine ⟨rfl, rfl, hsamples, ?_⟩
  rintro ⟨hframe, _⟩
  rw [hsamples] at hframe
  cases hframe

theorem final_pass_complete_after_data
    : AllProcessed (Env.uniform 1 []) ()
          (session (Env.uniform 1 []) 0 () .plain
            [.data (List.replicate 364 0), .pass, .stop .plain])
        ↔
      (Call.audio [.data (List.replicate 364 0), .pass, .stop .plain]).length
          / ConnectionHandler.samplesPerFrame
        = (Call.audio (Call.seen [.data (List.replicate 364 0), .pass, .stop .plain])).length
          / ConnectionHandler.samplesPerFrame :=
  final_pass_complete_iff (Env.uniform 1 []) 0 () .plain
    [.data (List.replicate 364 0), .pass, .stop .plain] (by decide +kernel)
