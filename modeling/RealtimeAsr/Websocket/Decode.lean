import RealtimeAsr.Websocket.Basic

/-!
This module contains the decode thread of a connection: `DecodeThreadFunc` of
`websocket/websocket_server.cc` with the methods it calls, and `OnSpeechData` that feeds it.
-/

variable {ν : Type}

def int16Bytes (samples : List Int16) : Bytes :=
  samples.flatMap fun s => [s.toUInt16.toUInt8, (s.toUInt16 >>> (8 : UInt16)).toUInt8]

/--
The 16 bit samples in a buffer, an odd last byte is not one.
-/
def int16s : Bytes → List Int16
  | lo :: hi :: rest => (lo.toUInt16 ||| (hi.toUInt16 <<< 8)).toInt16 :: int16s rest
  | _ => []

@[simp]
theorem int16s_length (buffer : Bytes) : (int16s buffer).length = buffer.length / 2 := by
  fun_induction int16s buffer with
  | case1 lo hi rest ih =>
    rw [List.length_cons, ih, List.length_cons, List.length_cons]
    omega
  | case2 buffer hshort =>
    match buffer, hshort with
    | [], _ => rfl
    | [_], _ => simp
    | lo :: hi :: rest, hshort => exact absurd rfl (hshort lo hi rest)

def frame (samples : List Int16) (i : Nat) : List Int16 :=
  (samples.drop (ConnectionHandler.samplesPerFrame * i)).take ConnectionHandler.samplesPerFrame

namespace ConnectionHandler

def header : Nat := 22

def onSpeechData (buffer : Bytes) (h : ConnectionHandler) : ConnectionHandler :=
  let pdata := int16s buffer
  let numSamples := pdata.length
  let samples := h.samples ++ pdata.drop header
  { h with
    samples
    rcvRangeSmps := h.rcvRangeSmps
      ++ [((samples.length : Int) - numSamples + header, (samples.length : Int) - 1)]
    state := 1 }

def onHandler (f : ConnectionHandler → ConnectionHandler) : Prog (Conn ν) Unit :=
  Prog.modify fun c => { c with handler := f c.handler }

def logAccess (a : Access) : Prog (Conn ν) Unit :=
  Prog.modify fun c => { c with access := c.access ++ [a] }

/--
`ws_.write`, it throws on a stream that was closed before.
-/
def wsWrite (env : Env ν) (msg : Msg) : Prog (Conn ν) Unit := do
  let c ← Prog.get
  if c.closed ∨ env.write c.msgs msg = false then
    Prog.throw
  else
    Prog.modify fun c => { c with sent := c.sent ++ [⟨msg, c.handler.getSegsResult⟩] }

def onPartialResult (env : Env ν) (result : Nbest) : Prog (Conn ν) Unit :=
  wsWrite env (.partialResult result)

def onFinalResult (env : Env ν) (result : Nbest) : Prog (Conn ν) Unit :=
  wsWrite env (.finalResult result)

def onFinish (env : Env ν) : Prog (Conn ν) Unit :=
  wsWrite env .speechEnd

def httpaudioPost (env : Env ν) (content : Bytes) (id : PostId) (format : String)
    : Prog (Conn ν) Bytes := do
  let c ← Prog.get
  let post : Post := { content, id, format }
  Prog.modify fun c => { c with posts := c.posts ++ [post] }
  match env.post c.posts post with
  | some result => pure result
  | none => Prog.throw

def copySamples (id : PostId) (st num : Nat) : Prog (Conn ν) Bytes := do
  let c ← Prog.get
  logAccess (.slice id st num c.handler.samples.length)
  pure (int16Bytes ((c.handler.samples.drop st).take num))

def callActPercent (env : Env ν) (st en : Nat) : Prog (Conn ν) ℚ := do
  let c ← Prog.get
  logAccess (.percent st en c.handler.acts.acts.length)
  pure (c.handler.acts.actPercent env.round st en)

/--
`acts_.end()`, which calls `act_percent` when a segment is open.
-/
def callEnd (env : Env ν) : Prog (Conn ν) Unit := do
  let c ← Prog.get
  let acts := c.handler.acts
  if acts.segSts.length = acts.segEnds.length + 1 then
    logAccess (.percent (acts.segSts.getLastD 0) (acts.acts.length - 1) acts.acts.length)
  onHandler fun h => { h with acts := h.acts.end_ env.round }

def vadFrame (env : Env ν) (i : Nat) : Prog (Conn ν) Unit := do
  let c ← Prog.get
  logAccess (.frame i c.handler.samples.length)
  Prog.modify fun c =>
    let (r, vad) := env.vadProcess c.vad (frame c.handler.samples i)
    { c with vad, handler := { c.handler with acts := c.handler.acts.addAct r } }

/--
The body of both posting loops up to the new entry of `seginfos_`, for segment `i` and the number of
samples `num` that its bounds are tested against. It returns whether the segment was posted.
-/
def postSeg (env : Env ν) (num i : Nat) : Prog (Conn ν) Bool := do
  let c ← Prog.get
  let segSt := c.handler.acts.segSts.getD i 0
  let segEnd := c.handler.acts.segEnds.getD i 0
  let st := segSt * samplesPerFrame
  let en := segEnd * samplesPerFrame
  let nSpkFrames := (segEnd : Int) - segSt
  if st < num ∧ en < num then
    let perct ← callActPercent env segSt segEnd
    if perct > minActPercent env.round ∧ nSpkFrames > minSpeakNframes then
      let data ← copySamples (.seg i) st (en - st + 1)
      let curResult ← httpaudioPost env data (.seg i) "pcm"
      onHandler fun h =>
        { h with seginfos := h.seginfos ++ [{ stFrm := segSt, endFrm := segEnd, result := curResult }] }
      pure true
    else
      pure false
  else
    logAccess (.dropped i)
    pure false

def postTemp (env : Env ν) (endSplIdx : Int) : Prog (Conn ν) Unit := do
  let c ← Prog.get
  let nsts := c.handler.acts.segSts.length
  let nends := c.handler.acts.segEnds.length
  if nsts = nends + 1 ∧ nsts > 0 then
    let segSt := c.handler.acts.segSts.getD (nsts - 1) 0
    let actPercent ← callActPercent env segSt (endSplIdx.tdiv samplesPerFrame).toNat
    if actPercent > env.round.double (3 / 5) then
      let st := segSt * samplesPerFrame
      let numSp := endSplIdx - st
      if numSp > 16000 then
        let data ← copySamples .temp st numSp.toNat
        let tempRt ← httpaudioPost env data .temp "pcm"
        if tempRt.length > 6 then
          let c ← Prog.get
          let allSegsRt := c.handler.getSegsResult
          if allSegsRt.length > 0 then
            onPartialResult env
              (serializeResult (allSegsRt ++ utf8 "<br />" ++ tempRt ++ utf8 "..."))
          else
            onPartialResult env (serializeResult (tempRt ++ utf8 "..."))

def postPartial (env : Env ν) (num i : Nat) : Prog (Conn ν) Unit := do
  let posted ← postSeg env num i
  if posted then
    let c ← Prog.get
    onPartialResult env (serializeResult c.handler.getSegsResult)

def postFinal (env : Env ν) (num i : Nat) : Prog (Conn ν) Unit := do
  let _ ← postSeg env num i

def decodeRanges (env : Env ν) : Prog (Conn ν) Unit := do
  let c ← Prog.get
  let nranges := c.handler.rcvRangeSmps.length
  if nranges > c.handler.lastNranges then
    let endSplIdx := (c.handler.rcvRangeSmps.getD (nranges - 1) (0, 0)).2
    let nframes := ((endSplIdx + 1).tdiv samplesPerFrame).toNat
    Prog.forRange c.handler.lastFrame nframes (vadFrame env)
    onHandler fun h => { h with lastFrame := nframes, lastNranges := nranges }
    let c ← Prog.get
    let ncurSegNum := c.handler.acts.segEnds.length
    Prog.forRange c.handler.nsegDone ncurSegNum (postPartial env c.handler.samples.length)
    onHandler fun h => { h with nsegDone := ncurSegNum }
    postTemp env endSplIdx

def finishRecognition (env : Env ν) (curSize : Nat) : Prog (Conn ν) Unit := do
  callEnd env
  let c ← Prog.get
  Prog.forRange c.handler.nsegDone c.handler.acts.segEnds.length (postFinal env curSize)
  let data ← copySamples .final 0 c.handler.samples.length
  let _wholeOfflineRt ← httpaudioPost env data .final "whole_pcm"
  let c ← Prog.get
  onFinalResult env (serializeResult c.handler.getSegsResult)
  onFinish env
  onHandler fun h => { h.reset with stopRecognition := true }

def rescore (env : Env ν) : Prog (Conn ν) Unit := do
  let c ← Prog.get
  onFinalResult env (serializeResult c.handler.curResult)
  onHandler fun h => { h with stopRecognition := true }

def decodeThreadFunc (env : Env ν) : Prog (Conn ν) Bool := do
  let c ← Prog.get
  if c.handler.state = 3 then
    finishRecognition env c.handler.samples.length
    pure false
  else if c.handler.state = 2 then
    rescore env
    pure false
  else if c.handler.state = 1 then
    decodeRanges env
    pure true
  else
    pure true

end ConnectionHandler

namespace Conn

def alive (c : Conn ν) : Bool :=
  !c.terminated && c.reader != .destroyed

/--
A pass of the decode thread. The `catch` around its loop ends the thread silently.
-/
def pass (env : Env ν) (c : Conn ν) : Conn ν :=
  if c.alive ∧ c.decoder = .running then
    match ConnectionHandler.decodeThreadFunc env c with
    | (some true, c) => c
    | (some false, c) => { c with decoder := .finished }
    | (none, c) => { c with decoder := .finished }
  else
    c

section Pass

variable (env : Env ν) {c : Conn ν} (hgo : c.alive = true ∧ c.decoder = .running)

include hgo

theorem pass_of_state_three (hstate : c.handler.state = 3)
    : c.pass env
        =
      { (ConnectionHandler.finishRecognition env c.handler.samples.length c).2 with
        decoder := .finished } := by
  have hfunc : ConnectionHandler.decodeThreadFunc env c
      = (ConnectionHandler.finishRecognition env c.handler.samples.length >>= fun _ => pure false) c := by
    unfold ConnectionHandler.decodeThreadFunc
    rw [Prog.get_bind_apply, if_pos hstate]
  unfold pass
  rw [if_pos hgo, hfunc, Prog.bind_apply]
  generalize ConnectionHandler.finishRecognition env c.handler.samples.length c = r
  obtain ⟨_ | _, s⟩ := r
  . rfl
  . rfl

theorem pass_of_state_two (hstate : c.handler.state = 2)
    : c.pass env = { (ConnectionHandler.rescore env c).2 with decoder := .finished } := by
  have hfunc : ConnectionHandler.decodeThreadFunc env c
      = (ConnectionHandler.rescore env >>= fun _ => pure false) c := by
    unfold ConnectionHandler.decodeThreadFunc
    rw [Prog.get_bind_apply, hstate]
    rfl
  unfold pass
  rw [if_pos hgo, hfunc, Prog.bind_apply]
  generalize ConnectionHandler.rescore env c = r
  obtain ⟨_ | _, s⟩ := r
  . rfl
  . rfl

theorem pass_of_state_one (hstate : c.handler.state = 1)
    : c.pass env
        =
      match ConnectionHandler.decodeRanges env c with
      | (some _, s) => s
      | (none, s) => { s with decoder := .finished } := by
  have hfunc : ConnectionHandler.decodeThreadFunc env c
      = (ConnectionHandler.decodeRanges env >>= fun _ => pure true) c := by
    unfold ConnectionHandler.decodeThreadFunc
    rw [Prog.get_bind_apply, hstate]
    rfl
  unfold pass
  rw [if_pos hgo, hfunc, Prog.bind_apply]
  generalize ConnectionHandler.decodeRanges env c = r
  obtain ⟨_ | _, s⟩ := r
  . rfl
  . rfl

theorem pass_of_no_state (h3 : c.handler.state ≠ 3) (h2 : c.handler.state ≠ 2)
    (h1 : c.handler.state ≠ 1)
    : c.pass env = c := by
  have hfunc : ConnectionHandler.decodeThreadFunc env c = (some true, c) := by
    unfold ConnectionHandler.decodeThreadFunc
    rw [Prog.get_bind_apply, if_neg h3, if_neg h2, if_neg h1]
    rfl
  unfold pass
  rw [if_pos hgo, hfunc]

end Pass

/--
What the three branches of a pass keep is kept in the pass, unless it is about the end of the thread.
-/
theorem pass_keeps {env : Env ν} {c : Conn ν} {I : Conn ν → Prop} (h : I c)
    (hfinished : ∀ s : Conn ν, I s → I { s with decoder := .finished })
    (hthree : c.alive = true ∧ c.decoder = .running → c.handler.state = 3 →
      I (ConnectionHandler.finishRecognition env c.handler.samples.length c).2)
    (htwo : c.alive = true ∧ c.decoder = .running → c.handler.state = 2 →
      I (ConnectionHandler.rescore env c).2)
    (hone : c.alive = true ∧ c.decoder = .running → c.handler.state = 1 →
      I (ConnectionHandler.decodeRanges env c).2)
    : I (c.pass env) := by
  by_cases hgo : c.alive = true ∧ c.decoder = .running
  . by_cases h3 : c.handler.state = 3
    . rw [pass_of_state_three env hgo h3]
      exact hfinished _ (hthree hgo h3)
    . by_cases h2 : c.handler.state = 2
      . rw [pass_of_state_two env hgo h2]
        exact hfinished _ (htwo hgo h2)
      . by_cases h1 : c.handler.state = 1
        . have hdecode := hone hgo h1
          rw [pass_of_state_one env hgo h1]
          split
          . next heq =>
            rw [heq] at hdecode
            exact hdecode
          . next heq =>
            rw [heq] at hdecode
            exact hfinished _ hdecode
        . rw [pass_of_no_state env hgo h3 h2 h1]
          exact h
  . unfold pass
    rw [if_neg hgo]
    exact h

end Conn
