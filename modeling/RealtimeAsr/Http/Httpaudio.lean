import RealtimeAsr.Cppcodec.Access

/-!
This module contains `Httpaudio` of `http/httpaudio.cc`: the request that is made of some audio, and
the text that is taken out of the reply.
-/

namespace Httpaudio

open Cppcodec

/--
A `Json::Value`. A real number is kept as its text.
-/
inductive Value where
  | null
  | int (i : Int)
  | uint (n : Nat)
  | real (text : Bytes)
  | string (s : Bytes)
  | boolean (b : Bool)
  | array (values : List Value)
  | object (members : List (Bytes × Value))

/--
What `Reader::parse` does: it finds a value, reports an error, or throws, as it does when the nesting
exceeds its stack limit.
-/
inductive Parsed where
  | value (root : Value)
  | failed
  | thrown

structure Response where
  status : Int
  body : Bytes

/--
What `Httpaudio` calls: `Reader::parse`, `StyledWriter::write`, `Value::get` and `Value::asString` of
jsoncpp, of which the last two give nothing where they throw, and the HTTP client (`none` when there is no
response). The server may answer by every request it got before.
-/
structure Peer where
  reader : Bytes → Parsed
  styledWriter : Value → Bytes
  get : Value → Bytes → Value → Option Value
  asString : Value → Option Bytes
  client : List Bytes → Bytes → Option Response

def Value.isScalar : Value → Bool
  | .array _ => false
  | .object _ => false
  | _ => true

/--
What is assumed of `Value::get` and `Value::asString`.
-/
structure Peer.Jsoncpp (peer : Peer) : Prop where
  get_null : ∀ key defaultValue, peer.get .null key defaultValue = some defaultValue
  get_object : ∀ members key defaultValue,
    peer.get (.object members) key defaultValue = some ((members.lookup key).getD defaultValue)
  get_other : ∀ v key defaultValue, v ≠ .null → (∀ members, v ≠ .object members) →
    peer.get v key defaultValue = none
  asString_string : ∀ s, peer.asString (.string s) = some s
  asString_iff : ∀ v, peer.asString v ≠ none ↔ v.isScalar = true

-- The members of a `Json::Value` are in the order of their keys.
def formatJson (base64Str id format : Bytes) : Value :=
  .object [(utf8 "audioBase64", .string base64Str), (utf8 "aue", .string format),
    (utf8 "id", .string id), (utf8 "scene", .int 0)]

/--
`jsonstr.c_str()` ends with the first zero byte.
-/
def cStr (s : Bytes) : Bytes :=
  s.takeWhile (· != 0)

def parseJson (peer : Peer) (jsonstr : Bytes) : Option Bytes :=
  match peer.reader (cStr jsonstr) with
  | .thrown => none
  | .failed => some []
  | .value root => do
    let result ← peer.get root (utf8 "result") (.string [])
    peer.asString result

def request (peer : Peer) (post : Post) : Bytes :=
  peer.styledWriter (formatJson (Name.base64Rfc4648.encode post.content) (utf8 post.id.text) (utf8 post.format))

def response (peer : Peer) (asked : List Post) (post : Post) : Option Response :=
  peer.client (asked.map (request peer)) (request peer post)

def post (peer : Peer) (asked : List Post) (p : Post) : Option Bytes :=
  match response peer asked p with
  | none => some []
  | some res => if res.status = 200 then parseJson peer res.body else some []

def replyText (peer : Peer) : Option Response → Bytes
  | none => []
  | some res =>
    if res.status = 200 then
      match peer.reader (cStr res.body) with
      | .value (.object members) =>
        match members.lookup (utf8 "result") with
        | some v => if v.isScalar then (peer.asString v).getD [] else []
        | none => []
      | _ => []
    else
      []

/--
A 200 whose body is read, or fails to be, and whose root is null, or an object without an array or an
object as its `result`. Every other response will do, and none as well.
-/
def WellShaped (peer : Peer) : Option Response → Prop
  | none => True
  | some res =>
    res.status = 200 →
      match peer.reader (cStr res.body) with
      | .thrown => False
      | .failed => True
      | .value .null => True
      | .value (.object members) =>
        ∀ v ∈ members.lookup (utf8 "result"), v.isScalar = true
      | .value _ => False

theorem parseJson_object {peer : Peer} (h : peer.Jsoncpp) {jsonstr : Bytes} {members : List (Bytes × Value)}
    (hread : peer.reader (cStr jsonstr) = .value (.object members))
    : parseJson peer jsonstr = peer.asString ((members.lookup (utf8 "result")).getD (.string [])) := by
  unfold parseJson
  rw [hread]
  dsimp only
  rw [h.get_object]
  rfl

theorem parseJson_other {peer : Peer} (h : peer.Jsoncpp) {jsonstr : Bytes} {root : Value}
    (hread : peer.reader (cStr jsonstr) = .value root) (hnull : root ≠ .null)
    (hobject : ∀ members, root ≠ .object members)
    : parseJson peer jsonstr = none := by
  unfold parseJson
  rw [hread]
  dsimp only
  rw [h.get_other root _ _ hnull hobject]
  rfl

theorem parseJson_eq {peer : Peer} (h : peer.Jsoncpp) {res : Response} (hstatus : res.status = 200)
    : parseJson peer res.body = some (replyText peer (some res)) ∧ WellShaped peer (some res)
        ∨ parseJson peer res.body = none ∧ ¬WellShaped peer (some res) := by
  have hshape : WellShaped peer (some res) ↔ _ := ⟨fun h => h hstatus, fun h _ => h⟩
  rw [hshape]
  simp only [replyText, if_pos hstatus]
  cases hread : peer.reader (cStr res.body) with
  | thrown =>
    right
    refine ⟨?_, fun h => h⟩
    rw [parseJson, hread]
  | failed =>
    left
    refine ⟨?_, trivial⟩
    rw [parseJson, hread]
  | value root =>
    cases root with
    | null =>
      left
      refine ⟨?_, trivial⟩
      rw [parseJson, hread]
      dsimp only
      rw [h.get_null]
      exact h.asString_string []
    | object members =>
      rw [parseJson_object h hread]
      dsimp only
      cases members.lookup (utf8 "result") with
      | none => exact Or.inl ⟨h.asString_string [], by simp⟩
      | some v =>
        have hscalar := h.asString_iff v
        cases htext : peer.asString v with
        | none =>
          right
          rw [htext] at hscalar
          refine ⟨htext, ?_⟩
          simpa using hscalar
        | some text =>
          left
          rw [htext] at hscalar
          have hisScalar : v.isScalar = true := hscalar.mp (by simp)
          refine ⟨?_, ?_⟩
          . show peer.asString v = some (if v.isScalar then (peer.asString v).getD [] else [])
            rw [if_pos hisScalar, htext]
            rfl
          . simp [hisScalar]
    | _ =>
      right
      exact ⟨parseJson_other h hread (by simp) (by simp), fun h => h⟩

theorem post_eq {peer : Peer} (h : peer.Jsoncpp) (asked : List Post) (p : Post)
    : post peer asked p = some (replyText peer (response peer asked p))
          ∧ WellShaped peer (response peer asked p)
        ∨ post peer asked p = none ∧ ¬WellShaped peer (response peer asked p) := by
  unfold post
  cases response peer asked p with
  | none => exact Or.inl ⟨rfl, trivial⟩
  | some res =>
    dsimp only
    by_cases hstatus : res.status = 200
    . rw [if_pos hstatus]
      exact parseJson_eq h hstatus
    . rw [if_neg hstatus]
      left
      refine ⟨?_, fun h => absurd h hstatus⟩
      rw [replyText, if_neg hstatus]

end Httpaudio
