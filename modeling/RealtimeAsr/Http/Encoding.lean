import RealtimeAsr.Websocket.Replies

/-!
This module contains the other end of a request, which takes the audio out of it again, and shows that the
audio gets there.
-/

namespace Httpaudio

open Cppcodec

/--
`Httpaudio::decode`
-/
def decode (text : Bytes) : Except ParseError Bytes :=
  Name.base64Rfc4648.decode text

/--
`get_audio` of `bin/server.cc`: what it returns, and `audio_base64` and `id` behind it. There is nothing
where jsoncpp throws. `operator[]` is `get` with null.
-/
def getAudio (peer : Peer) (js audioBase64 id : Bytes) : Option (Int × Bytes × Bytes) :=
  match peer.reader js with
  | .thrown => none
  | .failed => some (1, audioBase64, id)
  | .value jsonObject => do
    let audioBase64 ← peer.asString (← peer.get jsonObject (utf8 "audioBase64") .null)
    let id ← peer.asString (← peer.get jsonObject (utf8 "id") .null)
    return (0, audioBase64, id)

/--
Where jsoncpp reads what it wrote, `get_audio` takes the id of the post out of the request of `post`, and a
text that decodes to the audio of the post.
-/
theorem audio_of_request {peer : Peer} (hjson : peer.Jsoncpp) (post : Post) (audioBase64 id : Bytes)
    (hread : peer.reader (request peer post)
      = .value (formatJson (Name.base64Rfc4648.encode post.content) (utf8 post.id.text) (utf8 post.format)))
    : ∃ text, getAudio peer (request peer post) audioBase64 id = some (0, text, utf8 post.id.text)
        ∧ StreamCodec.encode base64 base64Rfc4648 post.content = some text
        ∧ decode text = .ok post.content := by
  refine ⟨Name.base64Rfc4648.encode post.content, ?_, Name.base64Rfc4648.encode_eq _,
    Name.base64Rfc4648.decode_of_encode _⟩
  have haudio : (utf8 "id" == utf8 "audioBase64") = false := by decide +kernel
  have haue : (utf8 "id" == utf8 "aue") = false := by decide +kernel
  unfold getAudio
  rw [hread]
  dsimp only [formatJson]
  rw [hjson.get_object, hjson.get_object]
  simp only [List.lookup_cons, haudio, haue, BEq.rfl, Option.getD_some]
  show (do
    let audioBase64 ← peer.asString (.string _)
    let id ← peer.asString (.string _)
    return ((0 : Int), audioBase64, id)) = _
  rw [hjson.asString_string, hjson.asString_string]
  rfl

theorem audio_of_request_on_data
    : let post : Post := { content := [1, 2, 3, 4], id := .final, format := "whole_pcm" }
      let root := formatJson (Name.base64Rfc4648.encode post.content) (utf8 post.id.text) (utf8 post.format)
      let peer := Peer.constant (styledFlat root) root
      peer.reader (request peer post) = .value root
        ∧ ∃ text, getAudio peer (request peer post) [] [] = some (0, text, utf8 post.id.text)
          ∧ StreamCodec.encode base64 base64Rfc4648 post.content = some text
          ∧ decode text = .ok [1, 2, 3, 4] := by
  intro post root peer
  have hread : peer.reader (request peer post) = .value root := by
    show (if request peer post = styledFlat root then Parsed.value root else .failed) = .value root
    exact if_pos rfl
  exact ⟨hread, audio_of_request (Peer.constant_jsoncpp _ _) post [] [] hread⟩

end Httpaudio
