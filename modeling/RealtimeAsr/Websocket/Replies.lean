import RealtimeAsr.Http.Httpaudio
import RealtimeAsr.Websocket.Protocol

/-!
This module shows which replies of the recogniser end a session: the decode thread goes on exactly as
long as no request throws, and a request throws for a reply with a valid body of the wrong shape.
-/

variable {ν : Type}

def Answered (env : Env ν) (k : Nat) (posts : List Post) : Prop :=
  ∀ before post after, posts = before ++ post :: after → k ≤ before.length →
    env.post before post ≠ none

structure Fluent (env : Env ν) (a : Acts) (k : Nat) (M : List Msg → Prop) (s : Conn ν) : Prop where
  acts : s.handler.acts = a
  running : s.decoder = .running
  opened : s.closed = false
  reach : k ≤ s.posts.length
  answered : Answered env k s.posts
  msgs : M s.msgs

structure Broken (env : Env ν) (k : Nat) (M : List Msg → Prop) (s : Conn ν) : Prop where
  posts : ¬Answered env k s.posts
  msgs : M s.msgs

theorem Answered.concat {env : Env ν} {k : Nat} {posts : List Post} (h : Answered env k posts)
    {post : Post} (hpost : env.post posts post ≠ none)
    : Answered env k (posts ++ [post]) := by
  intro before post' after heq hk
  cases after using List.reverseRecOn with
  | nil =>
    obtain ⟨rfl, hlast⟩ := List.append_inj' heq rfl
    cases hlast
    exact hpost
  | append_singleton after last =>
    rw [← List.cons_append, ← List.append_assoc] at heq
    obtain ⟨hinit, _⟩ := List.append_inj' heq rfl
    exact h before post' after hinit hk

theorem Answered.refl (env : Env ν) (posts : List Post) : Answered env posts.length posts := by
  intro before post after heq hk
  rw [heq, List.length_append, List.length_cons] at hk
  omega

namespace ConnectionHandler

variable {env : Env ν} {a : Acts} {k : Nat} {M : List Msg → Prop}

theorem httpaudioPost_fluent (content : Bytes) (id : PostId) (format : String)
    : Prog.Triple (Fluent env a k M) (httpaudioPost env content id format)
        (fun _ => Fluent env a k M) (Broken env k M) := by
  intro s hs
  have happly := httpaudioPost_emit env s s.output content id format
  rw [Conn.emit_output] at happly
  rw [happly]
  cases hpost : env.post s.output.posts ⟨content, id, format⟩ with
  | none =>
    refine ⟨fun hanswered => ?_, hs.msgs⟩
    exact hanswered s.posts _ [] rfl hs.reach hpost
  | some result =>
    refine ⟨hs.acts, hs.running, hs.opened, ?_, hs.answered.concat ?_, hs.msgs⟩
    . show k ≤ (s.posts ++ [_]).length
      rw [List.length_append]
      exact Nat.le_trans hs.reach (Nat.le_add_right _ _)
    . show env.post s.output.posts _ ≠ none
      rw [hpost]
      simp

theorem posting_fluent (env : Env ν) (a : Acts) (k : Nat) (M : List Msg → Prop)
    : PostingKeeps env a (fun _ _ => True) (Fluent env a k M) (Broken env k M) where
  acts _ hs := hs.acts
  log _ _ _ hs := { hs with }
  percent _ _ _ _ hs := { hs with }
  post := httpaudioPost_fluent
  hear _ _ hs := { hs with }

theorem wsWrite_fluent (hw : env.Writes) {m : List Msg} (msg : Msg) {E : Conn ν → Prop}
    : Prog.Triple (Fluent env a k (· = m)) (wsWrite env msg)
        (fun _ => Fluent env a k (· = m ++ [msg])) E := by
  intro s hs
  have hwrite := wsWrite_emit env s s.output msg
  rw [Conn.emit_output, if_pos ⟨hs.opened, hw _ _⟩] at hwrite
  rw [hwrite]
  refine { hs with msgs := ?_ }
  show (s.sent ++ [_]).map _ = _
  rw [List.map_append, ← hs.msgs]
  rfl

theorem onPartialResult_fluent (hw : env.Writes) (result : Nbest)
    : Prog.Triple (Fluent env a k fun _ => True) (onPartialResult env result)
        (fun _ => Fluent env a k fun _ => True) (Broken env k fun _ => True) := by
  intro s hs
  have hspec := wsWrite_fluent (E := Broken env k fun _ => True) (m := s.msgs) hw
    (.partialResult result) s { hs with msgs := rfl }
  unfold onPartialResult
  split at hspec
  . exact { hspec with msgs := trivial }
  . exact hspec

theorem decodeRanges_fluent (hw : env.Writes) (c : Conn ν) (hrun : c.decoder = .running)
    (hopened : c.closed = false)
    : Prog.Triple (fun s => s = c) (decodeRanges env)
        (fun _ s => s.decoder = .running ∧ Answered env c.posts.length s.posts)
        (fun s => ¬Answered env c.posts.length s.posts) := by
  unfold decodeRanges
  apply Prog.Triple.get_bind
  rintro s rfl
  apply Prog.Triple.ite
  . intro _
    generalize hk : s.posts.length = k
    -- The decisions change `acts_`, and nothing that the requests depend on.
    apply Prog.Triple.bind (Q := fun _ s' => ∃ a, Fluent env a k (fun _ => True) s')
    . apply (Prog.Triple.loop (P := fun s' => ∃ a, Fluent env a k (fun _ => True) s') ?_).pre
      . rintro s' rfl
        refine ⟨_, rfl, hrun, hopened, Nat.le_of_eq hk.symm, ?_, trivial⟩
        rw [← hk]
        exact Answered.refl _ _
      . rintro i _ _ s' ⟨a, hs⟩
        exact ⟨_, { hs with acts := rfl }⟩
    . intro _
      apply Prog.Triple.bind (Q := fun _ s' => ∃ a, Fluent env a k (fun _ => True) s')
      . apply Prog.Triple.modify
        rintro s' ⟨a, hs⟩
        exact ⟨a, { hs with }⟩
      . intro _
        have hposts (a : Acts) (endSplIdx : Int)
            : Prog.Triple (Fluent env a k fun _ => True) (postRanges env endSplIdx)
                (fun _ => Fluent env a k fun _ => True) (Broken env k fun _ => True) :=
          (posting_fluent env a k fun _ => True).postRanges (onPartialResult_fluent hw)
            (fun _ _ hs => { hs with }) (fun _ _ => trivial) fun _ => trivial
        show Prog.Triple _ (postRanges env _) _ _
        rintro s' ⟨a, hs⟩
        exact ((hposts a _).conseq (fun _ hs => hs) (fun _ _ hs => ⟨hs.running, hs.answered⟩)
          fun _ hs => hs.posts) s' hs
  . intro _
    apply Prog.Triple.pure
    rintro s rfl
    exact ⟨hrun, Answered.refl _ _⟩

theorem finishRecognition_fluent (hw : env.Writes) (c : Conn ν) (hrun : c.decoder = .running)
    (hopened : c.closed = false) (n : Nat)
    : Prog.Triple (fun s => s = c) (finishRecognition env n)
        (fun _ s => Answered env c.posts.length s.posts
          ∧ ∃ nbest, s.msgs = c.msgs ++ [.finalResult nbest, .speechEnd])
        (fun s => ¬Answered env c.posts.length s.posts ∧ s.msgs = c.msgs) := by
  generalize hk : c.posts.length = k
  generalize hm : c.msgs = m
  apply Prog.Triple.throws (E := Broken env k (· = m)) _ fun s hs => ⟨hs.posts, hs.msgs⟩
  unfold finishRecognition
  apply Prog.Triple.bind (Q := fun _ s => ∃ a, Fluent env a k (· = m) s)
  . unfold callEnd
    apply Prog.Triple.get_bind
    rintro s rfl
    have hstart : Fluent env s.handler.acts k (· = m) s := by
      refine ⟨rfl, hrun, hopened, Nat.le_of_eq hk.symm, ?_, hm⟩
      rw [← hk]
      exact Answered.refl _ _
    apply Prog.Triple.ite
    . intro _
      rintro s' rfl
      exact ⟨_, { hstart with acts := rfl }⟩
    . intro _
      rintro s' rfl
      exact ⟨_, { hstart with acts := rfl }⟩
  . intro _
    apply Prog.Triple.get_bind
    rintro s ⟨a, hs⟩
    have here : ∀ s', s' = s → Fluent env a k (· = m) s' := by
      rintro s' rfl
      exact hs
    apply Prog.Triple.bind ((Prog.Triple.loop fun i _ _ =>
      (posting_fluent env a k (· = m)).postFinal _ trivial).pre here)
    intro _
    apply Prog.Triple.bind ((posting_fluent env a k (· = m)).copySamples _ _ _)
    intro data
    apply Prog.Triple.bind (httpaudioPost_fluent _ _ _)
    intro _
    apply Prog.Triple.get_bind
    intro s' hs'
    have here' : ∀ s'', s'' = s' → Fluent env a k (· = m) s'' := by
      rintro s'' rfl
      exact hs'
    apply Prog.Triple.bind ((wsWrite_fluent hw _).pre here')
    intro _
    apply Prog.Triple.bind (wsWrite_fluent hw _)
    intro _
    apply Prog.Triple.modify
    intro s'' hs
    exact ⟨hs.answered, serializeResult s'.handler.getSegsResult,
      hs.msgs.trans (List.append_assoc _ _ _)⟩

end ConnectionHandler

namespace Conn

variable {env : Env ν} {c : Conn ν}

theorem final_pass_iff (hw : env.Writes) (halive : c.alive = true) (hrun : c.decoder = .running)
    (hopened : c.closed = false) (hstate : c.handler.state = 3)
    : (∃ nbest, (c.pass env).msgs = c.msgs ++ [.finalResult nbest, .speechEnd])
        ↔
      Answered env c.posts.length (c.pass env).posts := by
  have hspec := ConnectionHandler.finishRecognition_fluent hw c hrun hopened
    c.handler.samples.length c rfl
  rw [pass_of_state_three env ⟨halive, hrun⟩ hstate]
  generalize ConnectionHandler.finishRecognition env c.handler.samples.length c = r at hspec ⊢
  obtain ⟨_ | _, s⟩ := r
  . apply iff_of_false _ hspec.1
    rintro ⟨nbest, hmsgs⟩
    have : s.msgs = c.msgs ++ _ := hmsgs
    rw [hspec.2] at this
    simp at this
  . exact iff_of_true hspec.2 hspec.1

theorem early_pass_iff (hw : env.Writes) (halive : c.alive = true) (hrun : c.decoder = .running)
    (hopened : c.closed = false) (hstate : c.handler.state = 1)
    : (c.pass env).decoder = .running ↔ Answered env c.posts.length (c.pass env).posts := by
  have hspec := ConnectionHandler.decodeRanges_fluent hw c hrun hopened c rfl
  rw [pass_of_state_one env ⟨halive, hrun⟩ hstate]
  generalize ConnectionHandler.decodeRanges env c = r at hspec ⊢
  obtain ⟨_ | _, s⟩ := r
  . exact iff_of_false (fun h => by cases h) hspec
  . exact iff_of_true hspec.1 hspec.2

end Conn

def AllWellShaped (peer : Httpaudio.Peer) (k : Nat) (posts : List Post) : Prop :=
  ∀ before post after, posts = before ++ post :: after → k ≤ before.length →
    Httpaudio.WellShaped peer (Httpaudio.response peer before post)

theorem answered_iff {env : Env ν} {peer : Httpaudio.Peer} (hjson : peer.Jsoncpp)
    (h : env.post = Httpaudio.post peer) (k : Nat) (posts : List Post)
    : Answered env k posts ↔ AllWellShaped peer k posts := by
  have hiff : ∀ before post, env.post before post ≠ none
      ↔ Httpaudio.WellShaped peer (Httpaudio.response peer before post) := by
    intro before post
    rw [h]
    obtain ⟨hsome, hwell⟩ | ⟨hnone, hbad⟩ := Httpaudio.post_eq hjson before post
    . rw [hsome]
      exact iff_of_true (by simp) hwell
    . rw [hnone]
      exact iff_of_false (by simp) hbad
  unfold Answered AllWellShaped
  simp only [hiff]

/--
A request returns the text of its reply if and only if the reply has the right shape, otherwise it
throws. The pass that ends a session sends `final_result` and `speech_end` if and only if all replies
it gets have the right shape, and the thread survives a pass on audio if and only if they have.
-/
theorem bad_reply_iff {peer : Httpaudio.Peer} (hjson : peer.Jsoncpp)
    : (∀ asked p, Httpaudio.post peer asked p
            = some (Httpaudio.replyText peer (Httpaudio.response peer asked p))
          ↔ Httpaudio.WellShaped peer (Httpaudio.response peer asked p))
        ∧ ∀ (env : Env ν) (c : Conn ν), env.post = Httpaudio.post peer → env.Writes →
          c.alive = true → c.decoder = .running → c.closed = false →
            (c.handler.state = 3 →
              ((∃ nbest, (c.pass env).msgs = c.msgs ++ [.finalResult nbest, .speechEnd])
                ↔ AllWellShaped peer c.posts.length (c.pass env).posts))
            ∧ (c.handler.state = 1 →
              ((c.pass env).decoder = .running
                ↔ AllWellShaped peer c.posts.length (c.pass env).posts)) := by
  constructor
  . intro asked p
    obtain ⟨hsome, hwell⟩ | ⟨hnone, hbad⟩ := Httpaudio.post_eq hjson asked p
    . exact iff_of_true hsome hwell
    . rw [hnone]
      exact iff_of_false (by simp) hbad
  . intro env c hpost hw halive hrun hopened
    rw [← answered_iff hjson hpost]
    exact ⟨Conn.final_pass_iff hw halive hrun hopened, Conn.early_pass_iff hw halive hrun hopened⟩

namespace Httpaudio

def Value.get (v : Value) (key : Bytes) (defaultValue : Value) : Option Value :=
  match v with
  | .null => some defaultValue
  | .object members => some ((members.lookup key).getD defaultValue)
  | _ => none

def Value.asString : Value → Option Bytes
  | .null => some []
  | .int i => some (utf8 (toString i))
  | .uint n => some (utf8 (toString n))
  | .real text => some text
  | .string s => some s
  | .boolean b => some (utf8 (if b then "true" else "false"))
  | .array _ => none
  | .object _ => none

def styledFlat : Value → Bytes
  | .object members =>
    utf8 "\x7b\n"
      ++ (utf8 ",\n").intercalate (members.map fun (key, value) =>
        utf8 "   \"" ++ key ++ utf8 "\" : " ++
          match value with
          | .string s => utf8 "\"" ++ s ++ utf8 "\""
          | value => value.asString.getD [])
      ++ utf8 "\n\x7d\n"
  | _ => []

def Peer.constant (body : Bytes) (root : Value) : Peer where
  reader s := if s = body then .value root else .failed
  styledWriter := styledFlat
  get := Value.get
  asString := Value.asString
  client _ _ := some { status := 200, body }

theorem Peer.constant_jsoncpp (body : Bytes) (root : Value) : (Peer.constant body root).Jsoncpp where
  get_null _ _ := rfl
  get_object _ _ _ := rfl
  get_other v _ _ hnull hobject := by
    cases v with
    | null => exact absurd rfl hnull
    | object members => exact absurd rfl (hobject members)
    | _ => rfl
  asString_string _ := rfl
  asString_iff v := by
    cases v with
    | array _ | object _ => exact iff_of_false (fun h => h rfl) Bool.false_ne_true
    | _ => exact iff_of_true (Option.some_ne_none _) rfl

end Httpaudio

def Httpaudio.Peer.env (peer : Httpaudio.Peer) : Env Unit :=
  { Env.uniform 1 [] with post := Httpaudio.post peer }

theorem bad_reply_ends_session
    : let peer := Httpaudio.Peer.constant (utf8 "[]") (.array [])
      let c := session peer.env 0 () .plain
        [.data (List.replicate 364 0), .pass, .stop .plain, .pass]
      peer.Jsoncpp
        ∧ Httpaudio.post peer [] emptyPost = none
        ∧ c.msgs = [.serverReady]
        ∧ c.decoder = .finished :=
  ⟨Httpaudio.Peer.constant_jsoncpp _ _, by decide +kernel⟩

theorem good_reply_ends_well
    : let peer := Httpaudio.Peer.constant (utf8 "\x7b\"result\":\"ab\"\x7d")
        (.object [(utf8 "result", .string (utf8 "ab"))])
      let c := session peer.env 0 () .plain [.data (List.replicate 364 0), .pass, .stop .plain]
      ∃ nbest, (c.pass peer.env).msgs = c.msgs ++ [.finalResult nbest, .speechEnd] := by
  intro peer c
  have hshape : ∀ before post, Httpaudio.WellShaped peer (Httpaudio.response peer before post) := by
    intro before post _
    have hread : peer.reader (Httpaudio.cStr (utf8 "\x7b\"result\":\"ab\"\x7d"))
        = .value (.object [(utf8 "result", .string (utf8 "ab"))]) := by
      rfl
    dsimp only [peer, Httpaudio.Peer.constant] at hread ⊢
    rw [hread]
    decide +kernel
  exact (((bad_reply_iff (Httpaudio.Peer.constant_jsoncpp _ _)).2 peer.env c rfl (fun _ _ => rfl) (by decide +kernel)
    (by decide +kernel) (by decide +kernel)).1 (by decide +kernel)).mpr
      fun before post _ _ _ => hshape before post
