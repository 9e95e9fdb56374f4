import RealtimeAsr.Segment.Coverage
import RealtimeAsr.Websocket.Refinement

/-!
This module shows what becomes of a long block of active frames: it lies in a segment, and it reaches
the recogniser exactly if that segment as a whole is active enough.
-/

variable {ν : Type}

def Conn.Asked (c : Conn ν) (i : Nat) : Prop :=
  ∃ post ∈ c.posts, post.id = .seg i

section Filter

variable (r : Rounding) (a : Acts) (samples : List Int16)

theorem segPost_id {i : Nat} {post : Post} (h : segPost r a samples i = some post)
    : post.id = .seg i := by
  unfold segPost at h
  dsimp only at h
  split at h
  . cases h
    rfl
  . cases h

theorem mem_segPosts {k i : Nat}
    : (∃ post ∈ segPosts r a samples k, post.id = .seg i)
        ↔
      i < k ∧ (segPost r a samples i).isSome := by
  constructor
  . rintro ⟨post, hmem, hid⟩
    obtain ⟨j, hj, hpost⟩ := List.mem_filterMap.mp hmem
    rw [Option.map_eq_some_iff] at hpost
    obtain ⟨post', hsome, rfl⟩ := hpost
    have hsame : j = i := by
      rw [segPost_id r a samples hsome] at hid
      exact PostId.seg.inj hid
    rw [← hsame, hsome]
    exact ⟨List.mem_range.mp hj, rfl⟩
  . rintro ⟨hi, hsome⟩
    obtain ⟨post, hpost⟩ := Option.isSome_iff_exists.mp hsome
    refine ⟨post, ?_, segPost_id r a samples hpost⟩
    apply List.mem_filterMap.mpr
    exact ⟨i, List.mem_range.mpr hi, by rw [hpost]; rfl⟩

theorem segPost_isSome {i : Nat}
    : (segPost r a samples i).isSome
        ↔
      (a.segSts.getD i 0 * ConnectionHandler.samplesPerFrame < samples.length
          ∧ a.segEnds.getD i 0 * ConnectionHandler.samplesPerFrame < samples.length)
        ∧ a.actPercent r (a.segSts.getD i 0) (a.segEnds.getD i 0) > ConnectionHandler.minActPercent r
        ∧ (a.segEnds.getD i 0 : Int) - a.segSts.getD i 0 > ConnectionHandler.minSpeakNframes := by
  unfold segPost
  dsimp only
  split
  . next h => exact ⟨fun _ => h, fun _ => rfl⟩
  . next h => exact ⟨fun hsome => absurd hsome (by simp), fun hpass => absurd hpass h⟩

theorem segPost_iff_active (hpaired : a.Paired)
    (hroom : a.acts.length * ConnectionHandler.samplesPerFrame ≤ samples.length) {i s e : Nat}
    (hst : a.segSts[i]? = some s) (hend : a.segEnds[i]? = some e) (hwide : s + 100 < e)
    : (segPost r a samples i).isSome
      ↔
      a.actPercent r s e > ConnectionHandler.minActPercent r := by
  have hi := (List.getElem?_eq_some_iff.mp hend).1
  have hin := seg_room hpaired hroom hi
  have hs : a.segSts.getD i 0 = s := by
    rw [List.getD_eq_getElem?_getD, hst]
    rfl
  have he : a.segEnds.getD i 0 = e := by
    rw [List.getD_eq_getElem?_getD, hend]
    rfl
  have hlong : (e : Int) - s > ConnectionHandler.minSpeakNframes := by
    unfold ConnectionHandler.minSpeakNframes
    omega
  rw [hs, he] at hin
  rw [segPost_isSome, hs, he]
  constructor
  . rintro ⟨_, hactive, _⟩
    exact hactive
  . intro hactive
    exact ⟨⟨by omega, hin.2⟩, hactive, hlong⟩

end Filter

theorem isSeg_of_id {post : Post} {i : Nat} (h : post.id = .seg i) : post.id.isSeg = true := by
  rw [h]
  rfl

theorem asked_of_final_pass {env : Env ν} {state : Int} {vad : ν} {start : StartMsg}
    {calls : List Call} (hanswers : env.Answers) (hwrites : env.Writes)
    (hrun : (session env state vad start calls).decoder = .running)
    (hended : Call.ended calls = true) (i : Nat)
    : let c := session env state vad start calls
      let a := c.handler.acts.end_ env.round
      (c.pass env).Asked i
        ↔
      i < a.segEnds.length ∧ (segPost env.round a c.handler.samples i).isSome := by
  intro c a
  have hrunning := (running_session hrun).1
  have hstate : c.handler.state = 3 := by
    have := hrunning.state
    unfold Call.stateAfter at this
    rwa [hended, if_pos rfl] at this
  have hto : Conn.PassTo env vad c (c.pass env) := session_pass hrun
  show (c.pass env).Asked i ↔ _
  generalize hs : c.pass env = s at hto ⊢
  have hposts : s.posts.filter (·.id.isSeg) = segPosts env.round a c.handler.samples a.segEnds.length := by
    cases hto with
    | skipped h3 => exact absurd hstate h3
    | decoded h1 =>
      rw [hstate] at h1
      cases h1
    | finished _ htrack => exact htrack.posts
    | rescored h2 =>
      rw [hstate] at h2
      cases h2
    | failed _ _ _ hblames => exact absurd hanswers (hblames hrunning.closed hwrites)
  rw [← mem_segPosts, ← hposts]
  unfold Conn.Asked
  constructor
  . rintro ⟨post, hmem, hid⟩
    exact ⟨post, List.mem_filter.mpr ⟨hmem, isSeg_of_id hid⟩, hid⟩
  . rintro ⟨post, hmem, hid⟩
    exact ⟨post, (List.mem_filter.mp hmem).1, hid⟩

-- The activity that `end` asks of an open segment is not more than what the filter asks of a closed one.
theorem half_le_minActPercent (r : Rounding) : 1 / 2 ≤ ConnectionHandler.minActPercent r := by
  apply r.half_le_float
  norm_num

namespace Acts

theorem inactive_of_open {r : Rounding} {a : Acts} (hpaired : a.Paired) {i s : Nat}
    (hst : (a.end_ r).segSts[i]? = some s) (hend : (a.end_ r).segEnds[i]? = none)
    (hlong : s + 100 < a.acts.length)
    : (a.end_ r).segEnds.length = i
      ∧ a.actPercent r s (a.acts.length - 1) ≤ 1 / 2 := by
  rw [end_segSts] at hst
  rw [List.getElem?_eq_none_iff] at hend
  have hi := (List.getElem?_eq_some_iff.mp hst).1
  have hlength := hpaired.length
  obtain ⟨_, hends⟩ | ⟨hopen, hends⟩ := a.end_segEnds r
  . rw [hends, List.length_append, List.length_singleton] at hend
    omega
  . rw [hends] at hend ⊢
    have hone : a.segSts.length = a.segEnds.length + 1 := by omega
    have hlast : i = a.segEnds.length := by omega
    have hs : a.segSts.getLastD 0 = s := by
      rw [getLastD_eq_getD hone, ← hlast, List.getD_eq_getElem?_getD, hst]
      rfl
    refine ⟨hlast.symm, ?_⟩
    rw [← not_lt]
    intro hactive
    exact hopen ⟨hone, by rw [hs]; exact hlong, by rw [hs]; exact hactive⟩

end Acts

/--
A block of more than `MIN_SPEAK_NFRAMES + 30` active frames lies in one segment, its first 30 frames
aside. The segment ends with `seg_ends_[i]`, or with the last frame if `end` left it open, and it is
posted if and only if its activity is above `MIN_ACT_PERCENT`.
-/
theorem long_block_posted_iff (env : Env ν) (state : Int) (vad : ν) (start : StartMsg)
    (calls : List Call) (hanswers : env.Answers) (hwrites : env.Writes)
    (hrun : (session env state vad start calls).decoder = .running)
    (hended : Call.ended calls = true)
    (hdecisions : ∀ d ∈ (session env state vad start calls).handler.acts.acts, d = 0 ∨ d = 1)
    (st en : Nat) (hblock : Acts.Block (session env state vad start calls).handler.acts.acts st en)
    (hlong : ConnectionHandler.minSpeakNframes + 30 < (en : Int) + 1 - st)
    : let c := session env state vad start calls
      let a := c.handler.acts.end_ env.round
      ∃ i s e : Nat,
        a.segSts[i]? = some s
          ∧ (a.segEnds[i]? = some e ∨ (a.segEnds.length = i ∧ e + 1 = a.acts.length))
          ∧ s ≤ st + 30
          ∧ en ≤ e
          ∧ ((c.pass env).Asked i ↔ a.actPercent env.round s e > ConnectionHandler.minActPercent env.round) := by
  intro c a
  have hsync : Sync env vad c := (running_session hrun).2
  have hasked : ∀ i, (c.pass env).Asked i
      ↔ i < a.segEnds.length ∧ (segPost env.round a c.handler.samples i).isSome :=
    asked_of_final_pass hanswers hwrites hrun hended
  have hacts : c.handler.acts = ({} : Acts).feed c.handler.acts.acts := by
    rw [hsync.acts, batchActs_acts]
    rfl
  have hpaired : a.Paired := hsync.track.paired.end_ env.round
  have haacts : a.acts = c.handler.acts.acts := Acts.end_acts env.round c.handler.acts
  have hroom : a.acts.length * ConnectionHandler.samplesPerFrame ≤ c.handler.samples.length := by
    rw [haacts]
    exact hsync.track.room
  have hwide : st + 130 ≤ en := by
    unfold ConnectionHandler.minSpeakNframes at hlong
    omega
  have hcovered := Acts.block_covered env.round hdecisions hblock (by omega)
  dsimp only at hcovered
  rw [← hacts] at hcovered
  obtain ⟨i, s, hseg, hs, hends⟩ := hcovered
  have hlt : en < c.handler.acts.acts.length := hblock.lt_length
  -- A segment that `end` leaves open is not posted, so its activity must not be above the limit either.
  cases hend : a.segEnds[i]? with
  | some e =>
    have hen := hends e hend
    have hi := (List.getElem?_eq_some_iff.mp hend).1
    refine ⟨i, s, e, hseg, Or.inl hend, by omega, hen, ?_⟩
    rw [hasked i, segPost_iff_active env.round a _ hpaired hroom hseg hend (by omega)]
    constructor
    . rintro ⟨_, hactive⟩
      exact hactive
    . intro hactive
      exact ⟨hi, hactive⟩
  | none =>
    obtain ⟨hlast, hinactive⟩ := Acts.inactive_of_open hsync.track.paired hseg hend (by omega)
    refine ⟨i, s, c.handler.acts.acts.length - 1, hseg, Or.inr ⟨hlast, ?_⟩, by omega, by omega, ?_⟩
    . rw [haacts]
      omega
    . rw [hasked i]
      constructor
      . rintro ⟨hi, _⟩
        exact absurd hi (by rw [← hlast]; exact Nat.lt_irrefl _)
      . intro hactive
        have hsame : a.actPercent env.round s (c.handler.acts.acts.length - 1)
            = c.handler.acts.actPercent env.round s (c.handler.acts.acts.length - 1) := by
          unfold Acts.actPercent
          rw [haacts]
        rw [hsame] at hactive
        exact absurd (lt_of_le_of_lt (half_le_minActPercent env.round) hactive)
          (not_lt_of_ge hinactive)

section Scripted

variable (decisions : Nat → Int)

def oneMessage (n : Nat) : List Call :=
  [.data (List.replicate (2 * (n * ConnectionHandler.samplesPerFrame + ConnectionHandler.header)) 0),
    .pass, .stop .plain]

theorem oneMessage_running (n : Nat)
    : (session (Env.scripted decisions) 0 0 .plain (oneMessage n)).decoder = .running := by
  let before : List Call := (oneMessage n).take 2
  have hpass := session_data_first (Env.scripted decisions) 0 0 .plain
    (List.replicate (2 * (n * ConnectionHandler.samplesPerFrame + ConnectionHandler.header)) 0) [.pass]
    (scripted_answers decisions) (scripted_writes decisions) rfl
  have hrun := session_keeps_running (Env.scripted decisions) 0 0 .plain before
    (scripted_answers decisions) (scripted_writes decisions) rfl hpass
  have hstop : Running 0 (before ++ [.stop .plain])
      ((session (Env.scripted decisions) 0 0 .plain before).recv (Env.scripted decisions)
        (.text (some EndMsg.plain.val))) :=
    (running_session hrun).1.step_stop .plain
  have hsplit : oneMessage n = before ++ [.stop .plain] := rfl
  rw [hsplit, session_concat]
  exact hstop.decoder

theorem oneMessage_acts (n : Nat)
    : (session (Env.scripted decisions) 0 0 .plain (oneMessage n)).handler.acts
      =
      ({} : Acts).feed ((List.range n).map decisions) := by
  obtain ⟨hrunning, hsync⟩ := running_session (oneMessage_running decisions n)
  have haudio : (Call.audio (Call.seen (oneMessage n))).length
      = n * ConnectionHandler.samplesPerFrame := by
    have hsplit : oneMessage n = ((oneMessage n).take 1 ++ [.pass]) ++ [.stop .plain] := rfl
    rw [hsplit, Call.seen_concat_stop, Call.seen_concat_pass, Call.audio_concat_pass]
    show (_ ++ []).length = _
    rw [List.append_nil, List.length_drop, int16s_replicate, Nat.add_sub_cancel]
  have hframe := hrunning.frames
  rw [haudio, Nat.mul_div_cancel _ (by decide)] at hframe
  rw [hsync.acts, hframe]
  unfold batchActs
  rw [vadRun_scripted]

theorem oneMessage_decision {n f : Nat} (hf : f < n)
    : (session (Env.scripted decisions) 0 0 .plain (oneMessage n)).handler.acts.acts[f]?
      =
      some (decisions f) := by
  rw [oneMessage_acts, Acts.feed_acts]
  show ([] ++ _)[f]? = _
  rw [List.nil_append, List.getElem?_map, List.getElem?_range hf]
  rfl

theorem oneMessage_decisions {n : Nat} (h : ∀ f, decisions f = 0 ∨ decisions f = 1)
    : ∀ d ∈ (session (Env.scripted decisions) 0 0 .plain (oneMessage n)).handler.acts.acts,
      d = 0 ∨ d = 1 := by
  rw [oneMessage_acts, Acts.feed_acts]
  intro d hd
  obtain ⟨f, _, rfl⟩ := List.mem_map.mp hd
  exact h f

theorem oneMessage_processed (n : Nat)
    : let c := session (Env.scripted decisions) 0 0 .plain (oneMessage n)
      c.handler.lastFrame = c.handler.samples.length / ConnectionHandler.samplesPerFrame := by
  obtain ⟨hrunning, _⟩ := running_session (oneMessage_running decisions n)
  dsimp only
  rw [hrunning.frames, hrunning.samples]
  have hsplit : oneMessage n = ((oneMessage n).take 1 ++ [.pass]) ++ [.stop .plain] := rfl
  rw [hsplit, Call.seen_concat_stop, Call.seen_concat_pass, Call.audio_concat_stop]

end Scripted

def shortBlock (n : Nat) : Int :=
  if 11 ≤ n ∧ n ≤ 141 then 1 else 0

/--
The segment around the block starts 18 frames late and ends with the first silent window that is more
than 200 frames behind its start, the block fills 113 of its 210 frames.
-/
theorem shortBlock_acts
    : let a := ({} : Acts).feed ((List.range 240).map shortBlock)
      a.end_ .exact = a ∧ a.segSts = [29] ∧ a.segEnds = [239] ∧ Acts.actSum a.acts 29 239 = 113 := by
  decide +kernel

theorem long_block_not_posted
    : let env := Env.scripted shortBlock
      let c := session env 0 0 .plain (oneMessage 240)
      let a := c.handler.acts.end_ env.round
      c.decoder = .running
      ∧
      Call.ended (oneMessage 240) = true
      ∧
      c.handler.lastFrame = c.handler.samples.length / ConnectionHandler.samplesPerFrame
      ∧
      (∀ d ∈ c.handler.acts.acts, d = 0 ∨ d = 1)
      ∧
      (Acts.Block c.handler.acts.acts 11 141
        ∧ c.handler.acts.acts[10]? = some 0
        ∧ c.handler.acts.acts[142]? = some 0)
      ∧
      ConnectionHandler.minSpeakNframes + 30 < (141 : Int) + 1 - 11
      ∧
      ¬∃ i s e : Nat,
        a.segSts[i]? = some s
          ∧ a.segEnds[i]? = some e
          ∧ s ≤ 11 + 30
          ∧ 141 ≤ e
          ∧ (c.pass env).Asked i := by
  dsimp only
  have hrun := oneMessage_running shortBlock 240
  have hacts := oneMessage_acts shortBlock 240
  have hasked := asked_of_final_pass (scripted_answers shortBlock) (scripted_writes shortBlock) hrun rfl
  have hframe : ∀ f, f < 240 → _ := fun f hf => oneMessage_decision shortBlock hf
  have hdecisions := oneMessage_decisions shortBlock (n := 240) fun f => by
    unfold shortBlock
    split
    . exact Or.inr rfl
    . exact Or.inl rfl
  obtain ⟨hend, hsts, hends, hsum⟩ := shortBlock_acts
  have hprocessed := oneMessage_processed shortBlock 240
  dsimp only at hasked hprocessed
  rw [← hacts] at hend hsts hends hsum
  generalize session (Env.scripted shortBlock) 0 0 .plain (oneMessage 240) = c at *
  have hround : (Env.scripted shortBlock).round = .exact := rfl
  refine ⟨hrun, rfl, ?_, hdecisions, ⟨⟨by decide, ?_⟩, ?_, ?_⟩, by decide, ?_⟩
  . exact hprocessed
  . intro f hst hen
    rw [hframe f (by omega)]
    unfold shortBlock
    rw [if_pos ⟨hst, hen⟩]
  . exact hframe 10 (by decide)
  . exact hframe 142 (by decide)
  . rintro ⟨i, s, e, hst, hed, _, _, hposted⟩
    obtain ⟨hi, hsome⟩ := (hasked i).mp hposted
    rw [hround, hend] at hi hsome
    rw [hends] at hi
    have hzero : i = 0 := by
      rw [List.length_singleton] at hi
      omega
    subst hzero
    have hactive := ((segPost_isSome _ _ _).mp hsome).2.1
    rw [hsts, hends] at hactive
    unfold Acts.actPercent Acts.percent ConnectionHandler.minActPercent at hactive
    simp only [Rounding.exact_float, List.getD_cons_zero] at hactive
    rw [hsum] at hactive
    norm_num at hactive

theorem long_block_posted_on_data
    : let env := Env.scripted fun _ => 1
      let c := session env 0 0 .plain (oneMessage 240)
      let a := c.handler.acts.end_ env.round
      ∃ i s e : Nat,
        a.segSts[i]? = some s
          ∧ (a.segEnds[i]? = some e ∨ (a.segEnds.length = i ∧ e + 1 = a.acts.length))
          ∧ s ≤ 0 + 30
          ∧ 239 ≤ e
          ∧ ((c.pass env).Asked i
              ↔ a.actPercent env.round s e > ConnectionHandler.minActPercent env.round) :=
  long_block_posted_iff (Env.scripted fun _ => 1) 0 0 .plain (oneMessage 240)
    (scripted_answers _) (scripted_writes _) (oneMessage_running _ 240) rfl
    (oneMessage_decisions _ fun _ => Or.inr rfl) 0 239
    ⟨by decide, fun _ _ hen => oneMessage_decision _ (by omega)⟩ (by decide)
