import RealtimeAsr.Lib.Prog
import RealtimeAsr.Segment.Acts

/-!
This module contains the data of one connection: the fields of `ConnectionHandler` in
`websocket/websocket_server.h`, the messages and requests it sends, and what surrounds the handler.
-/

abbrev Bytes : Type := List UInt8

def utf8 (s : String) : Bytes :=
  s.toUTF8.data.toList

inductive Json where
  | null
  | bool (b : Bool)
  | int64 (i : Int)
  | uint64 (n : Nat)
  | double (text : String)
  | string (s : String)
  | array (vs : List Json)
  | object (fields : List (String × Json))

def Json.find (key : String) : List (String × Json) → Option Json
  | [] => none
  | (k, v) :: fields => if k = key then some v else find key fields

structure Nbest where
  sentence : Bytes
  deriving Repr, DecidableEq

/--
A text message to the client, by its `status` and `type`:
- `ok`, `server_ready`
- `ok`, `partial_result` and `ok`, `final_result` with the serialized `nbest`
- `ok`, `speech_end`
- `failed` with a `message`
-/
inductive Msg where
  | serverReady
  | partialResult (nbest : Nbest)
  | finalResult (nbest : Nbest)
  | speechEnd
  | failed (message : String)
  deriving Repr, DecidableEq

inductive PostId where
  | seg (i : Nat)
  | temp
  | final
  deriving Repr, DecidableEq

def PostId.text : PostId → String
  | .seg i => "seg-" ++ toString i
  | .temp => "temp-"
  | .final => "final"

structure Post where
  content : Bytes
  id : PostId
  format : String
  deriving Repr, DecidableEq

structure Seginfo where
  stFrm : Nat
  endFrm : Nat
  result : Bytes
  deriving Repr, DecidableEq

inductive Handle where
  | none
  | joinable
  | joined
  deriving Repr, DecidableEq

structure ConnectionHandler where
  continuousDecoding : Bool := false
  nbest : Int := 1
  gotStartTag : Bool := false
  gotEndTag : Bool := false
  stopRecognition : Bool := false
  decodeThread : Handle := .none
  samples : List Int16 := []
  rcvRangeSmps : List (Int × Int) := []
  lastNranges : Nat := 0
  -- The constructor leaves this field as it finds it.
  state : Int
  curResult : Bytes := []
  lastFrame : Nat := 0
  nsegDone : Nat := 0
  acts : Acts := {}
  noises : List Bytes := [utf8 "快快快"]
  seginfos : List Seginfo := []
  deriving Repr, DecidableEq

namespace ConnectionHandler

def samplesPerFrame : Nat := 160

def minSpeakNframes : Int := 100

/--
`MIN_ACT_PERCENT`, the float nearest to 0.6.
-/
def minActPercent (r : Rounding) : ℚ :=
  r.float (3 / 5)

def serializeResult (rawStr : Bytes) : Nbest where
  sentence := rawStr

def check (h : ConnectionHandler) (segRt : Bytes) : Bool :=
  h.noises.all fun noise => !(segRt == noise) && !(segRt.length < 6)

def joinSegs (valSegs : List Bytes) : Bytes :=
  -- val_segs[0] + "，" + ... + val_segs.back()
  if h : valSegs.length > 0 then
    let rt := valSegs.dropLast.foldl (fun rt seg => rt ++ (seg ++ utf8 "，")) []
    rt ++ valSegs.getLast (by
      rw [← List.length_pos_iff]
      exact h)
  else
    []

def getSegsResult (h : ConnectionHandler) : Bytes :=
  let valSegs := h.seginfos.foldl
    (fun segs info => if h.check info.result then segs ++ [info.result] else segs) []
  joinSegs valSegs

def reset (h : ConnectionHandler) : ConnectionHandler :=
  { h with samples := [], acts := h.acts.reset, curResult := [] }

end ConnectionHandler

/--
What the handler calls: `WebRtcVad_Process` as a transformer of the VAD instance, `Httpaudio::post`
(`none` when it throws), and the socket (`false` when it throws). The recogniser and the socket may
answer by everything they were asked before.
-/
structure Env (ν : Type) where
  vadProcess : ν → List Int16 → Int × ν
  post : List Post → Post → Option Bytes
  write : List Msg → Msg → Bool
  close : List Msg → Bool
  round : Rounding

def Env.uniform (r : Int) (text : Bytes) : Env Unit where
  vadProcess _ _ := (r, ())
  post _ _ := some text
  write _ _ := true
  close _ := true
  round := .exact

/--
A read of `samples_`, a bounds test that drops a segment, or a call of `act_percent`.
-/
inductive Access where
  | frame (i size : Nat)
  | slice (id : PostId) (st num size : Nat)
  | dropped (i : Nat)
  | percent (st en nacts : Nat)
  deriving Repr, DecidableEq

/--
A message on the socket, with the value of `Get_segs_result` at the moment it was written.
-/
structure Written where
  msg : Msg
  segs : Bytes
  deriving Repr, DecidableEq

inductive Reader where
  | accepting
  | reading
  | joining
  | returned
  | destroyed
  deriving Repr, DecidableEq

inductive Decoder where
  | idle
  | running
  | finished
  deriving Repr, DecidableEq

/--
One connection: the handler, the VAD instance it points to, its two threads, and a log of everything
it did to the outside.
-/
structure Conn (ν : Type) where
  handler : ConnectionHandler
  vad : ν
  reader : Reader := .accepting
  decoder : Decoder := .idle
  closed : Bool := false
  terminated : Bool := false
  posts : List Post := []
  sent : List Written := []
  access : List Access := []

namespace Conn

variable {ν : Type}

/--
A connection right after its construction, with whatever value `state_` happens to hold.
-/
def new (state : Int) (vad : ν) : Conn ν where
  handler := { state }
  vad

def msgs (c : Conn ν) : List Msg :=
  c.sent.map (·.msg)

end Conn
