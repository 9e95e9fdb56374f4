import RealtimeAsr.Lib.Slice
import RealtimeAsr.Segment.Paired
import RealtimeAsr.Websocket.Decode

/-!
This module contains the batch view of a connection: decide all frames of a recording one after the
other, segment the decisions, and post the closed segments that pass the filters in their order.
-/

variable {ν : Type}

def vadRun (env : Env ν) (vad : ν) (samples : List Int16) : Nat → List Int × ν
  | 0 => ([], vad)
  | n + 1 =>
    let (ds, vad) := vadRun env vad samples n
    let (r, vad) := env.vadProcess vad (frame samples n)
    (ds ++ [r], vad)

def batchActs (env : Env ν) (vad : ν) (samples : List Int16) (n : Nat) : Acts :=
  ({} : Acts).feed (vadRun env vad samples n).1

def segPost (r : Rounding) (a : Acts) (samples : List Int16) (i : Nat) : Option Post :=
  let segSt := a.segSts.getD i 0
  let segEnd := a.segEnds.getD i 0
  let st := segSt * ConnectionHandler.samplesPerFrame
  let en := segEnd * ConnectionHandler.samplesPerFrame
  if (st < samples.length ∧ en < samples.length)
      ∧ a.actPercent r segSt segEnd > ConnectionHandler.minActPercent r
      ∧ (segEnd : Int) - segSt > ConnectionHandler.minSpeakNframes then
    some
      { content := int16Bytes ((samples.drop st).take (en - st + 1)), id := .seg i, format := "pcm" }
  else
    none

/--
Walk the first `k` segments in order, and collect `f` of the bounds and the request of those that are
posted.
-/
def segWalk {β : Type} (f : Nat → Nat → Post → β) (r : Rounding) (a : Acts) (samples : List Int16)
    (k : Nat) : List β :=
  (List.range k).filterMap fun i =>
    (segPost r a samples i).map (f (a.segSts.getD i 0) (a.segEnds.getD i 0))

def segPosts : Rounding → Acts → List Int16 → Nat → List Post :=
  segWalk fun _ _ post => post

def segBounds : Rounding → Acts → List Int16 → Nat → List (Nat × Nat) :=
  segWalk fun segSt segEnd _ => (segSt, segEnd)

def segInfos (reply : Post → Bytes) : Rounding → Acts → List Int16 → Nat → List Seginfo :=
  segWalk fun segSt segEnd post => { stFrm := segSt, endFrm := segEnd, result := reply post }

theorem frame_append (samples xs : List Int16) {i n : Nat} (hi : i < n)
    (hn : n * ConnectionHandler.samplesPerFrame ≤ samples.length)
    : frame (samples ++ xs) i = frame samples i := by
  have hle : (i + 1) * ConnectionHandler.samplesPerFrame ≤ samples.length := by
    apply Nat.le_trans _ hn
    exact Nat.mul_le_mul_right _ hi
  unfold frame
  unfold ConnectionHandler.samplesPerFrame at *
  apply List.slice_append
  omega

theorem vadRun_append (env : Env ν) (vad : ν) (samples xs : List Int16) {n : Nat}
    (hn : n * ConnectionHandler.samplesPerFrame ≤ samples.length)
    : vadRun env vad (samples ++ xs) n = vadRun env vad samples n := by
  induction n with
  | zero => rfl
  | succ n ih =>
    have hle : n * ConnectionHandler.samplesPerFrame ≤ samples.length := by
      rw [Nat.add_mul] at hn
      omega
    simp only [vadRun, ih hle, frame_append samples xs (Nat.lt_succ_self n) hn]

@[simp]
theorem vadRun_length (env : Env ν) (vad : ν) (samples : List Int16) (n : Nat)
    : (vadRun env vad samples n).1.length = n := by
  induction n with
  | zero => rfl
  | succ n ih => simp [vadRun, ih]

@[simp]
theorem batchActs_acts (env : Env ν) (vad : ν) (samples : List Int16) (n : Nat)
    : (batchActs env vad samples n).acts = (vadRun env vad samples n).1 := by
  simp [batchActs]

theorem batchActs_paired (env : Env ν) (vad : ν) (samples : List Int16) (n : Nat)
    : (batchActs env vad samples n).Paired :=
  Acts.Paired.empty.feed _

theorem batchActs_append (env : Env ν) (vad : ν) (samples xs : List Int16) {n : Nat}
    (hn : n * ConnectionHandler.samplesPerFrame ≤ samples.length)
    : batchActs env vad (samples ++ xs) n = batchActs env vad samples n := by
  unfold batchActs
  rw [vadRun_append env vad samples xs hn]

theorem batchActs_succ (env : Env ν) (vad : ν) (samples : List Int16) (n : Nat)
    : batchActs env vad samples (n + 1)
        =
      (batchActs env vad samples n).addAct
        (env.vadProcess (vadRun env vad samples n).2 (frame samples n)).1 := by
  unfold batchActs
  rw [← Acts.feed_concat]
  rfl

section Stable

variable {a b : Acts} (r : Rounding) {samples : List Int16}

theorem seg_room (h : a.Paired)
    (hroom : a.acts.length * ConnectionHandler.samplesPerFrame ≤ samples.length) {i : Nat}
    (hi : i < a.segEnds.length)
    : a.segSts.getD i 0 * ConnectionHandler.samplesPerFrame
          < a.segEnds.getD i 0 * ConnectionHandler.samplesPerFrame
        ∧ a.segEnds.getD i 0 * ConnectionHandler.samplesPerFrame < samples.length := by
  have h1 := h.start_lt_end i hi
  have h2 := h.end_lt_length hi
  unfold ConnectionHandler.samplesPerFrame at *
  omega

-- A request that was made stays what it is while more frames are decided and more samples come in.
theorem segPost_stable (hab : a.Extends b) (h : a.Paired)
    (hroom : a.acts.length * ConnectionHandler.samplesPerFrame ≤ samples.length)
    (xs : List Int16) {i : Nat} (hi : i < a.segEnds.length)
    : segPost r b (samples ++ xs) i = segPost r a samples i := by
  have hst : b.segSts.getD i 0 = a.segSts.getD i 0 := by
    apply Acts.getD_of_prefix hab.segSts
    have := h.length_ends_le
    omega
  have hen : b.segEnds.getD i 0 = a.segEnds.getD i 0 := Acts.getD_of_prefix hab.segEnds hi
  have hlt := h.end_lt_length hi
  obtain ⟨hroom1, hroom2⟩ := seg_room h hroom hi
  simp only [segPost, hst, hen, hab.actPercent_eq r (Nat.le_of_lt hlt)]
  rw [List.slice_append _ _ (by omega)]
  have hnum : ∀ n, n < samples.length → (n < (samples ++ xs).length ↔ n < samples.length) := by
    intro n hn
    rw [List.length_append]
    omega
  simp only [hnum _ hroom2, hnum _ (Nat.lt_trans hroom1 hroom2)]

theorem segWalk_stable {β : Type} (f : Nat → Nat → Post → β) (hab : a.Extends b) (h : a.Paired)
    (hroom : a.acts.length * ConnectionHandler.samplesPerFrame ≤ samples.length)
    (xs : List Int16) {k : Nat} (hk : k ≤ a.segEnds.length)
    : segWalk f r b (samples ++ xs) k = segWalk f r a samples k := by
  unfold segWalk
  apply List.filterMap_congr
  intro i hi
  rw [List.mem_range] at hi
  have hle := h.length_ends_le
  rw [segPost_stable r hab h hroom xs (by omega), Acts.getD_of_prefix hab.segEnds (by omega),
    Acts.getD_of_prefix hab.segSts (by omega)]

theorem segWalk_none {β : Type} (f : Nat → Nat → Post → β) {k : Nat}
    (h : segPost r a samples k = none)
    : segWalk f r a samples (k + 1) = segWalk f r a samples k := by
  unfold segWalk
  rw [List.range_succ, List.filterMap_append, List.filterMap_cons, h]
  simp

theorem segWalk_some {β : Type} (f : Nat → Nat → Post → β) {k : Nat} {post : Post}
    (h : segPost r a samples k = some post)
    : segWalk f r a samples (k + 1)
        =
      segWalk f r a samples k ++ [f (a.segSts.getD k 0) (a.segEnds.getD k 0) post] := by
  unfold segWalk
  rw [List.range_succ, List.filterMap_append, List.filterMap_cons, h]
  rfl

end Stable
