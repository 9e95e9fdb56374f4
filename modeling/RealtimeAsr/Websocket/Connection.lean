import RealtimeAsr.Lib.Machine
import RealtimeAsr.Websocket.Decode

/-!
This module contains the receiving thread of a connection, `operator()` of `ConnectionHandler` with
the methods it calls, and the machine that interleaves it with the decode thread.
-/

variable {ν : Type}

/--
What `ws_.read` delivers: a text message by what `json::parse` makes of it (`none` when it throws), a
binary message, or an exception.
-/
inductive Incoming where
  | text (v : Option Json)
  | binary (buffer : Bytes)
  | error

namespace ConnectionHandler

/--
Create the thread and drop the old handle. The destructor of a `std::thread` that is still joinable
ends the process.
-/
def startDecodeThread (c : Conn ν) : Conn ν :=
  { c with
    terminated := c.terminated || c.handler.decodeThread == .joinable
    decoder := .running
    handler := { c.handler with decodeThread := .joinable } }

def onSpeechStart (env : Env ν) : Prog (Conn ν) Unit := do
  onHandler fun h => { h with gotStartTag := true }
  wsWrite env .serverReady
  Prog.modify startDecodeThread

def onSpeechEnd : Prog (Conn ν) Unit :=
  onHandler fun h => { h with gotEndTag := true, state := 3 }

def wsClose (env : Env ν) : Prog (Conn ν) Unit := do
  let c ← Prog.get
  if c.closed ∨ env.close c.msgs = false then
    Prog.throw
  else
    Prog.modify fun c => { c with closed := true }

def onError (env : Env ν) (message : String) : Prog (Conn ν) Unit := do
  wsWrite env (.failed message)
  wsClose env

def setNbest (env : Env ν) : Option Json → Prog (Conn ν) Unit
  | none => pure ()
  -- The value becomes an `int`.
  | some (.int64 n) => onHandler fun h => { h with nbest := n.bmod (2 ^ 32) }
  | some _ => onError env "integer is expected for nbest option"

def setContinuousDecoding (env : Env ν) : Option Json → Prog (Conn ν) Unit
  | none => pure ()
  | some (.bool b) => onHandler fun h => { h with continuousDecoding := b }
  | some _ =>
    onError env "boolean true or false is expected for continuous_decoding option"

def onText (env : Env ν) : Option Json → Prog (Conn ν) Unit
  | none => Prog.throw
  | some (.object obj) =>
    match Json.find "signal" obj with
    | some (.string signal) => do
      if signal = "start" then
        setNbest env (Json.find "nbest" obj)
        setContinuousDecoding env (Json.find "continuous_decoding" obj)
        onSpeechStart env
      else if signal = "end" then
        onSpeechEnd
      else
        onError env "Unexpected signal type"
    -- `as_string` throws on any other kind of value.
    | some _ => Prog.throw
    | none => onError env "Wrong message header"
  | some _ => onError env "Wrong protocol"

/--
One round of the `for (;;)` loop of `operator()`, it returns whether the loop goes on.
-/
def readMessage (env : Env ν) (m : Incoming) : Prog (Conn ν) Bool := do
  let c ← Prog.get
  if c.closed then
    Prog.throw
  else
    match m with
    | .error => Prog.throw
    | .text v => do
      onText env v
      let c ← Prog.get
      pure !c.handler.gotEndTag
    | .binary buffer =>
      if c.handler.gotStartTag = false then do
        onError env "Start signal is expected before binary data"
        pure true
      else if c.handler.stopRecognition then
        pure false
      else do
        onHandler (onSpeechData buffer)
        pure true

end ConnectionHandler

namespace Conn

def accept (ok : Bool) (c : Conn ν) : Conn ν :=
  if c.reader = .accepting then
    { c with reader := if ok then .reading else .returned }
  else
    c

def recv (env : Env ν) (m : Incoming) (c : Conn ν) : Conn ν :=
  if c.alive ∧ c.reader = .reading then
    match ConnectionHandler.readMessage env m c with
    | (some true, c) => c
    -- A `break` goes to the `join`, an exception ends `operator()` at once.
    | (some false, c) =>
      { c with reader := if c.handler.decodeThread = .none then .returned else .joining }
    | (none, c) => { c with reader := .returned }
  else
    c

def join (c : Conn ν) : Conn ν :=
  if c.alive ∧ c.reader = .joining ∧ c.decoder = .finished then
    { c with reader := .returned, handler := { c.handler with decodeThread := .joined } }
  else
    c

def destroy (c : Conn ν) : Conn ν :=
  if c.alive ∧ c.reader = .returned then
    { c with
      reader := .destroyed
      terminated := c.handler.decodeThread == .joinable }
  else
    c

inductive Event where
  | accept (ok : Bool)
  | recv (m : Incoming)
  | pass
  | join
  | destroy

def step (env : Env ν) (c : Conn ν) : Event → Conn ν
  | .accept ok => c.accept ok
  | .recv m => c.recv env m
  | .pass => c.pass env
  | .join => c.join
  | .destroy => c.destroy

def machine (env : Env ν) (state : Int) (vad : ν) : Machine (Conn ν) Event where
  init := Conn.new state vad
  step := step env

end Conn

def Json.isStart : Json → Bool
  | .object obj =>
    (match Json.find "signal" obj with
      | some (.string signal) => signal == "start"
      | _ => false)
    && (match Json.find "nbest" obj with
      | none => true
      | some (.int64 _) => true
      | some _ => false)
    && (match Json.find "continuous_decoding" obj with
      | none => true
      | some (.bool _) => true
      | some _ => false)
  | _ => false

def Json.isEnd : Json → Bool
  | .object obj =>
    match Json.find "signal" obj with
    | some (.string signal) => signal == "end"
    | _ => false
  | _ => false

abbrev StartMsg : Type := { v : Json // v.isStart = true }

abbrev EndMsg : Type := { v : Json // v.isEnd = true }

def StartMsg.plain : StartMsg :=
  ⟨.object [("signal", .string "start")], rfl⟩

def EndMsg.plain : EndMsg :=
  ⟨.object [("signal", .string "end")], rfl⟩

inductive Call where
  | data (buffer : Bytes)
  | stop (v : EndMsg)
  | pass

namespace Call

def event : Call → Conn.Event
  | .data buffer => .recv (.binary buffer)
  | .stop v => .recv (.text (some v.val))
  | .pass => .pass

end Call

def sessionEvents (start : StartMsg) (calls : List Call) : List Conn.Event :=
  .accept true :: .recv (.text (some start.val)) :: calls.map Call.event

def session (env : Env ν) (state : Int) (vad : ν) (start : StartMsg) (calls : List Call) : Conn ν :=
  (Conn.machine env state vad).run (sessionEvents start calls)
