import RealtimeAsr.Websocket.Connection

/-!
This module contains `WebSocketServer::Start` and the `main` of `bin/server.cc`: every accepted
connection gets a handler of its own, and all handlers point to the one VAD instance of `main`.
-/

/--
What a connection calls but for the VAD: the recogniser, the socket, the arithmetic.
-/
structure Peer where
  post : List Post → Post → Option Bytes
  write : List Msg → Msg → Bool
  close : List Msg → Bool
  round : Rounding

variable {ν : Type}

def Peer.env (p : Peer) (vadProcess : ν → List Int16 → Int × ν) : Env ν where
  vadProcess
  post := p.post
  write := p.write
  close := p.close
  round := p.round

def Conn.withVad (c : Conn ν) (vad : ν) : Conn ν :=
  { c with vad }

/--
The process: the instance `pvad_inst_`, the connections by their numbers, and whether a
`std::terminate` ended it.
-/
structure Server (ν : Type) where
  vad : ν
  conns : Nat → Option (Conn ν) := fun _ => none
  terminated : Bool := false

namespace Server

inductive Event where
  | connect (i : Nat) (state : Int)
  | on (i : Nat) (e : Conn.Event)

def setConn (s : Server ν) (i : Nat) (c : Conn ν) : Server ν :=
  { s with conns := fun j => if j = i then some c else s.conns j }

def step (vadProcess : ν → List Int16 → Int × ν) (peers : Nat → Peer) (s : Server ν)
    : Event → Server ν
  | .connect i state =>
    if s.terminated then
      s
    else
      match s.conns i with
      | some _ => s
      | none => s.setConn i (Conn.new state s.vad)
  | .on i e =>
    if s.terminated then
      s
    else
      match s.conns i with
      | some c =>
        -- The handler calls the VAD through the pointer that all of them share.
        let c := (c.withVad s.vad).step ((peers i).env vadProcess) e
        { s.setConn i c with vad := c.vad, terminated := c.terminated }
      | none => s

def machine (vadProcess : ν → List Int16 → Int × ν) (vad : ν) (peers : Nat → Peer)
    : Machine (Server ν) Event where
  init := { vad }
  step := step vadProcess peers

def Event.isOf (i : Nat) : Event → Bool
  | .connect j _ => j == i
  | .on j _ => j == i

def alone (i : Nat) (schedule : List Event) : List Event :=
  schedule.filter (Event.isOf i)

end Server

namespace Conn

def Pending (c : Conn ν) : Prop :=
  let nranges := c.handler.rcvRangeSmps.length
  let endSplIdx := (c.handler.rcvRangeSmps.getD (nranges - 1) (0, 0)).2
  (c.alive = true ∧ c.decoder = .running)
    ∧ c.handler.state = 1
    ∧ nranges > c.handler.lastNranges
    ∧ c.handler.lastFrame < ((endSplIdx + 1).tdiv ConnectionHandler.samplesPerFrame).toNat

def erase (c : Conn ν) : Conn Unit where
  handler := c.handler
  vad := ()
  reader := c.reader
  decoder := c.decoder
  closed := c.closed
  terminated := c.terminated
  posts := c.posts
  sent := c.sent
  access := c.access

end Conn
