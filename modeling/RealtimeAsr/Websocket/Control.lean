import RealtimeAsr.Lib.Script
import RealtimeAsr.Websocket.Handle

/-!
This module contains the calls that `OnText` makes for a message, as a script, and shows for which
messages a rejection leaves no trace: `OnText` goes on after the `OnError` for an option.
-/

variable {ν : Type}

inductive TextAction where
  | setNbest (n : Int)
  | setContinuousDecoding (b : Bool)
  | onError (message : String)
  | onSpeechStart
  | onSpeechEnd
  | asString
  deriving Repr, DecidableEq

namespace TextAction

open ConnectionHandler in
def perform (env : Env ν) : TextAction → Prog (Conn ν) Unit
  | .setNbest n => onHandler fun h => { h with nbest := n.bmod (2 ^ 32) }
  | .setContinuousDecoding b => onHandler fun h => { h with continuousDecoding := b }
  | .onError message => ConnectionHandler.onError env message
  | .onSpeechStart => ConnectionHandler.onSpeechStart env
  | .onSpeechEnd => ConnectionHandler.onSpeechEnd
  | .asString => Prog.throw

def isError : TextAction → Bool
  | .onError _ => true
  | _ => false

def writes : TextAction → Bool
  | .onError _ => true
  | .onSpeechStart => true
  | _ => false

end TextAction

namespace ConnectionHandler

def nbestActions : Option Json → List TextAction
  | none => []
  | some (.int64 n) => [.setNbest n]
  | some _ => [.onError "integer is expected for nbest option"]

def continuousDecodingActions : Option Json → List TextAction
  | none => []
  | some (.bool b) => [.setContinuousDecoding b]
  | some _ => [.onError "boolean true or false is expected for continuous_decoding option"]

def textActions : Json → List TextAction
  | .object obj =>
    match Json.find "signal" obj with
    | some (.string signal) =>
      if signal = "start" then
        nbestActions (Json.find "nbest" obj)
          ++ (continuousDecodingActions (Json.find "continuous_decoding" obj) ++ [.onSpeechStart])
      else if signal = "end" then
        [.onSpeechEnd]
      else
        [.onError "Unexpected signal type"]
    | some _ => [.asString]
    | none => [.onError "Wrong message header"]
  | _ => [.onError "Wrong protocol"]

section Script

variable (env : Env ν)

theorem setNbest_eq_script (v : Option Json)
    : setNbest env v = Prog.script (TextAction.perform env) (nbestActions v) := by
  cases v with
  | none => rfl
  | some value =>
    cases value with
    | _ => exact (Prog.script_singleton _ _).symm

theorem setContinuousDecoding_eq_script (v : Option Json)
    : setContinuousDecoding env v
        =
      Prog.script (TextAction.perform env) (continuousDecodingActions v) := by
  cases v with
  | none => rfl
  | some value =>
    cases value with
    | _ => exact (Prog.script_singleton _ _).symm

theorem onText_eq_script (v : Json)
    : onText env (some v) = Prog.script (TextAction.perform env) (textActions v) := by
  cases v with
  | object obj =>
    cases hsignal : Json.find "signal" obj with
    | none =>
      simp only [onText, textActions, hsignal]
      exact (Prog.script_singleton _ _).symm
    | some value =>
      cases value with
      | string signal =>
        simp only [onText, textActions, hsignal]
        split
        . rw [Prog.script_append, Prog.script_append, Prog.script_singleton, ← setNbest_eq_script,
            ← setContinuousDecoding_eq_script]
          rfl
        . split
          . exact (Prog.script_singleton _ _).symm
          . exact (Prog.script_singleton _ _).symm
      | _ =>
        simp only [onText, textActions, hsignal]
        rfl
  | _ => exact (Prog.script_singleton _ _).symm

end Script

end ConnectionHandler

structure SameControl (c s : Conn ν) : Prop where
  nbest : s.handler.nbest = c.handler.nbest
  continuousDecoding : s.handler.continuousDecoding = c.handler.continuousDecoding
  gotStartTag : s.handler.gotStartTag = c.handler.gotStartTag
  gotEndTag : s.handler.gotEndTag = c.handler.gotEndTag
  state : s.handler.state = c.handler.state
  decodeThread : s.handler.decodeThread = c.handler.decodeThread
  decoder : s.decoder = c.decoder
  terminated : s.terminated = c.terminated

/--
`OnText` accepts the message and does not call `OnError`, or it calls `OnError` once, has no other
effect and does not write behind it.
-/
def HandledWell (env : Env ν) (c : Conn ν) (v : Json) : Prop :=
  let calls := Prog.begun (TextAction.perform env) (ConnectionHandler.textActions v) c
  let s := (ConnectionHandler.onText env (some v) c).2
  ((v.isStart = true ∨ v.isEnd = true) ∧ ∀ a ∈ calls, a.isError = false)
    ∨ (calls.countP TextAction.isError = 1
      ∧ SameControl c s
      ∧ calls.Pairwise fun a b => a.isError = true → b.writes = false)

def Json.isIntOption : Option Json → Bool
  | none => true
  | some (.int64 _) => true
  | some _ => false

def Json.isBoolOption : Option Json → Bool
  | none => true
  | some (.bool _) => true
  | some _ => false

def Conn.KeepsNbest (c : Conn ν) : Option Json → Prop
  | some (.int64 n) => n.bmod (2 ^ 32) = c.handler.nbest
  | _ => True

def Conn.ErrorReturns (env : Env ν) (c : Conn ν) (message : String) : Prop :=
  c.closed = false ∧ c.ErrorSent env message

/--
A `signal` that is there is a string, and a `start` has well-typed options. The exceptions are those
where `OnError` itself throws, before anything else has changed.
-/
def Harmless (env : Env ν) (c : Conn ν) : Json → Prop
  | .object obj =>
    match Json.find "signal" obj with
    | some (.string signal) =>
      signal = "start" →
        let nbest := Json.find "nbest" obj
        if Json.isIntOption nbest then
          Json.isBoolOption (Json.find "continuous_decoding" obj) = true
            ∨ (c.KeepsNbest nbest
              ∧ ¬c.ErrorReturns env
                "boolean true or false is expected for continuous_decoding option")
        else
          ¬c.ErrorReturns env "integer is expected for nbest option"
    | some _ => False
    | none => True
  | _ => True

namespace ConnectionHandler

variable {env : Env ν} {c : Conn ν}

theorem nbestActions_cases (v : Option Json)
    : Json.isIntOption v = true
          ∧ (nbestActions v = [] ∨ ∃ n, v = some (.int64 n) ∧ nbestActions v = [.setNbest n])
        ∨
      Json.isIntOption v = false
          ∧ nbestActions v = [.onError "integer is expected for nbest option"] := by
  cases v with
  | none => exact Or.inl ⟨rfl, Or.inl rfl⟩
  | some value =>
    cases value with
    | int64 n => exact Or.inl ⟨rfl, Or.inr ⟨n, rfl, rfl⟩⟩
    | _ => exact Or.inr ⟨rfl, rfl⟩

theorem continuousDecodingActions_cases (v : Option Json)
    : Json.isBoolOption v = true
          ∧ (continuousDecodingActions v = []
            ∨ ∃ b, continuousDecodingActions v = [.setContinuousDecoding b])
        ∨
      Json.isBoolOption v = false
          ∧ continuousDecodingActions v
            = [.onError "boolean true or false is expected for continuous_decoding option"] := by
  cases v with
  | none => exact Or.inl ⟨rfl, Or.inl rfl⟩
  | some value =>
    cases value with
    | bool b => exact Or.inl ⟨rfl, Or.inr ⟨b, rfl⟩⟩
    | _ => exact Or.inr ⟨rfl, rfl⟩

theorem perform_onError (env : Env ν) (c : Conn ν) (message : String)
    : ∃ sent,
        (c.ErrorReturns env message
            ∧ TextAction.perform env (.onError message) c = (some (), { c with sent, closed := true }))
          ∨ ∃ closed, ¬c.ErrorReturns env message
            ∧ TextAction.perform env (.onError message) c = (none, { c with sent, closed }) := by
  obtain ⟨sent, closed, ⟨hclosed, hsent, rfl, heq⟩ | ⟨hnot, heq⟩⟩ := onError_cases env c message
  . exact ⟨sent, Or.inl ⟨⟨hclosed, hsent⟩, heq⟩⟩
  . exact ⟨sent, Or.inr ⟨closed, hnot, heq⟩⟩

theorem same_of_rejected (sent : List Written) (closed : Bool)
    : SameControl c { c with sent, closed } :=
  ⟨rfl, rfl, rfl, rfl, rfl, rfl, rfl, rfl⟩

theorem handled_error {v : Json} {message : String} (h : textActions v = [.onError message])
    : HandledWell env c v := by
  unfold HandledWell
  rw [onText_eq_script, h]
  right
  obtain ⟨_, ⟨_, heq⟩ | ⟨_, _, heq⟩⟩ := perform_onError env c message
  . rw [Prog.begun_returns heq, Prog.script_returns heq]
    exact ⟨rfl, same_of_rejected _ _, List.pairwise_singleton _ _⟩
  . rw [Prog.begun_throws heq, Prog.script_throws heq]
    exact ⟨rfl, same_of_rejected _ _, List.pairwise_singleton _ _⟩

theorem handled_accepted {v : Json} (haccepted : v.isStart = true ∨ v.isEnd = true)
    (h : ∀ a ∈ textActions v, a.isError = false)
    : HandledWell env c v := by
  left
  refine ⟨haccepted, ?_⟩
  intro a ha
  exact h a ((Prog.begun_prefix _ _).subset ha)

-- Behind the `OnError` for an option at least the `server_ready` of `OnSpeechStart` is written.
theorem writes_begun (c : Conn ν) (v : Option Json)
    : ∃ a ∈ Prog.begun (TextAction.perform env) (continuousDecodingActions v ++ [.onSpeechStart]) c,
        a.writes = true := by
  obtain ⟨_, hnone | ⟨b, hset⟩⟩ | ⟨_, herror⟩ := continuousDecodingActions_cases v
  . rw [hnone]
    exact ⟨.onSpeechStart, Prog.head_mem_begun _ _ _, rfl⟩
  . have hperform : TextAction.perform env (.setContinuousDecoding b) c
        = (some (), { c with handler := { c.handler with continuousDecoding := b } }) := rfl
    rw [hset, List.singleton_append, Prog.begun_returns hperform]
    exact ⟨.onSpeechStart, List.mem_cons_of_mem _ (Prog.head_mem_begun _ _ _), rfl⟩
  . rw [herror]
    exact ⟨_, Prog.head_mem_begun _ _ _, rfl⟩

theorem not_pairwise_of_writes {message : String} {calls : List TextAction}
    (h : ∃ a ∈ calls, a.writes = true)
    : ¬(TextAction.onError message :: calls).Pairwise fun a b => a.isError = true → b.writes = false := by
  intro hpairwise
  obtain ⟨a, ha, hwrites⟩ := h
  have := (List.pairwise_cons.mp hpairwise).1 a ha rfl
  rw [hwrites] at this
  cases this

theorem not_handled_of_throw {v : Json} (h : textActions v = [.asString]) (hstart : v.isStart = false)
    (hend : v.isEnd = false)
    : ¬HandledWell env c v := by
  have hthrow : TextAction.perform env .asString c = (none, c) := rfl
  unfold HandledWell
  rw [h, hstart, hend, Prog.begun_throws hthrow]
  rintro (⟨haccepted, _⟩ | ⟨hcount, _⟩)
  . cases haccepted with
    | inl h => cases h
    | inr h => cases h
  . cases hcount

theorem no_error_of_start {nbest continuous : Option Json} (hnbest : Json.isIntOption nbest = true)
    (hcontinuous : Json.isBoolOption continuous = true)
    : ∀ a ∈ nbestActions nbest ++ (continuousDecodingActions continuous ++ [.onSpeechStart]),
        a.isError = false := by
  have h1 : ∀ a ∈ nbestActions nbest, a.isError = false := by
    obtain ⟨_, h | ⟨n, _, h⟩⟩ | ⟨hint, _⟩ := nbestActions_cases nbest
    . simp [h]
    . simp [h, TextAction.isError]
    . rw [hnbest] at hint
      cases hint
  have h2 : ∀ a ∈ continuousDecodingActions continuous, a.isError = false := by
    obtain ⟨_, h | ⟨b, h⟩⟩ | ⟨hbool, _⟩ := continuousDecodingActions_cases continuous
    . simp [h]
    . simp [h, TextAction.isError]
    . rw [hcontinuous] at hbool
      cases hbool
  intro a ha
  rw [List.mem_append, List.mem_append, List.mem_singleton] at ha
  obtain ha | ha | rfl := ha
  . exact h1 a ha
  . exact h2 a ha
  . rfl

def withNbest (c : Conn ν) (nbest : Int) : Conn ν :=
  { c with handler := { c.handler with nbest } }

-- A well-typed `nbest` is set at once, what comes behind it starts from there.
theorem nbest_set {v : Option Json} (hnbest : Json.isIntOption v = true) (env : Env ν) (c : Conn ν)
    (es : List TextAction)
    : ∃ pre nbest,
        Prog.begun (TextAction.perform env) (nbestActions v ++ es) c
            = pre ++ Prog.begun (TextAction.perform env) es (withNbest c nbest)
          ∧ Prog.script (TextAction.perform env) (nbestActions v ++ es) c
            = Prog.script (TextAction.perform env) es (withNbest c nbest)
          ∧ (∀ a ∈ pre, a.isError = false)
          ∧ (c.KeepsNbest v ↔ nbest = c.handler.nbest) := by
  obtain ⟨_, h | ⟨n, rfl, h⟩⟩ | ⟨hint, _⟩ := nbestActions_cases v
  . refine ⟨[], c.handler.nbest, ?_, ?_, by simp, ?_⟩
    . rw [h]
      rfl
    . rw [h]
      rfl
    . apply iff_of_true _ rfl
      cases v with
      | none => trivial
      | some value =>
        cases value with
        | int64 n => cases h
        | _ => trivial
  . have hperform : TextAction.perform env (.setNbest n) c
        = (some (), withNbest c (n.bmod (2 ^ 32))) := rfl
    refine ⟨[.setNbest n], n.bmod (2 ^ 32), ?_, ?_, by simp [TextAction.isError], Iff.rfl⟩
    . rw [h, List.singleton_append, Prog.begun_returns hperform]
      rfl
    . rw [h, List.singleton_append, Prog.script_returns hperform]
  . rw [hnbest] at hint
    cases hint

section Start

variable {obj : List (String × Json)}
  (hsignal : Json.find "signal" obj = some (.string "start"))

include hsignal

theorem textActions_start
    : textActions (.object obj)
        =
      nbestActions (Json.find "nbest" obj)
        ++ (continuousDecodingActions (Json.find "continuous_decoding" obj) ++ [.onSpeechStart]) := by
  simp only [textActions, hsignal, if_true]

theorem isStart_eq
    : (Json.object obj).isStart
        =
      (Json.isIntOption (Json.find "nbest" obj)
        && Json.isBoolOption (Json.find "continuous_decoding" obj)) := by
  unfold Json.isStart
  simp only [hsignal, beq_self_eq_true, Bool.true_and]
  rfl

theorem not_isEnd : (Json.object obj).isEnd = false := by
  simp [Json.isEnd, hsignal]

theorem handled_bad_nbest (hnbest : Json.isIntOption (Json.find "nbest" obj) = false)
    : HandledWell env c (.object obj)
        ↔
      ¬c.ErrorReturns env "integer is expected for nbest option" := by
  have hactions : nbestActions (Json.find "nbest" obj)
      = [.onError "integer is expected for nbest option"] := by
    obtain ⟨hint, _⟩ | ⟨_, h⟩ := nbestActions_cases (Json.find "nbest" obj)
    . rw [hnbest] at hint
      cases hint
    . exact h
  unfold HandledWell
  rw [onText_eq_script, textActions_start hsignal, isStart_eq hsignal, not_isEnd hsignal, hnbest,
    hactions, List.singleton_append]
  obtain ⟨sent, ⟨hreturns, heq⟩ | ⟨_, hnot, heq⟩⟩ := perform_onError env c
    "integer is expected for nbest option"
  . rw [Prog.begun_returns heq]
    constructor
    . rintro (⟨haccepted, _⟩ | ⟨_, _, hpairwise⟩)
      . cases haccepted with
        | inl h => cases h
        | inr h => cases h
      . exact absurd hpairwise (not_pairwise_of_writes (writes_begun _ _))
    . intro hnot
      exact absurd hreturns hnot
  . rw [Prog.begun_throws heq, Prog.script_throws heq]
    constructor
    . intro _
      exact hnot
    . intro _
      exact Or.inr ⟨rfl, same_of_rejected _ _, List.pairwise_singleton _ _⟩

-- `nbest_` is set before the other option is looked at.
theorem handled_bad_continuousDecoding (hnbest : Json.isIntOption (Json.find "nbest" obj) = true)
    (hcontinuous : Json.isBoolOption (Json.find "continuous_decoding" obj) = false)
    : HandledWell env c (.object obj)
        ↔
      c.KeepsNbest (Json.find "nbest" obj)
        ∧ ¬c.ErrorReturns env "boolean true or false is expected for continuous_decoding option" := by
  have hactions : continuousDecodingActions (Json.find "continuous_decoding" obj)
      = [.onError "boolean true or false is expected for continuous_decoding option"] := by
    obtain ⟨hbool, _⟩ | ⟨_, h⟩ := continuousDecodingActions_cases (Json.find "continuous_decoding" obj)
    . rw [hcontinuous] at hbool
      cases hbool
    . exact h
  obtain ⟨pre, nbest, hbegun, hscript, hpre, hkeeps⟩ := nbest_set hnbest env c
    [.onError "boolean true or false is expected for continuous_decoding option", .onSpeechStart]
  have hcount : pre.countP TextAction.isError = 0 := by
    rw [List.countP_eq_zero]
    intro a ha
    simp [hpre a ha]
  unfold HandledWell
  rw [onText_eq_script, textActions_start hsignal, isStart_eq hsignal, not_isEnd hsignal, hnbest,
    hcontinuous, hactions, List.singleton_append, hbegun, hscript, hkeeps]
  obtain ⟨sent, ⟨hreturns, heq⟩ | ⟨_, hnot, heq⟩⟩ := perform_onError env (withNbest c nbest)
    "boolean true or false is expected for continuous_decoding option"
  . rw [Prog.begun_returns heq]
    constructor
    . rintro (⟨haccepted, _⟩ | ⟨_, _, hpairwise⟩)
      . simp at haccepted
      . have htail := (List.pairwise_append.mp hpairwise).2.1
        exact absurd htail (not_pairwise_of_writes ⟨_, Prog.head_mem_begun _ _ _, rfl⟩)
    . rintro ⟨_, hnot⟩
      exact absurd hreturns hnot
  . rw [Prog.begun_throws heq, Prog.script_throws heq]
    constructor
    . rintro (⟨haccepted, _⟩ | ⟨_, hsame, _⟩)
      . simp at haccepted
      . exact ⟨hsame.nbest, hnot⟩
    . rintro ⟨rfl, _⟩
      right
      refine ⟨?_, same_of_rejected _ _, ?_⟩
      . rw [List.countP_append, hcount]
        rfl
      . rw [List.pairwise_append]
        refine ⟨?_, List.pairwise_singleton _ _, ?_⟩
        . apply List.pairwise_of_forall_mem_list
          intro a ha b _ herror
          rw [hpre a ha] at herror
          cases herror
        . intro a ha b _ herror
          rw [hpre a ha] at herror
          cases herror

end Start

theorem handledWell_iff (env : Env ν) (c : Conn ν) (v : Json)
    : HandledWell env c v ↔ Harmless env c v := by
  cases v with
  | object obj =>
    cases hsignal : Json.find "signal" obj with
    | none =>
      simp only [Harmless, hsignal, iff_true]
      have hactions : textActions (.object obj) = [.onError "Wrong message header"] := by
        simp only [textActions, hsignal]
      exact handled_error hactions
    | some value =>
      cases value with
      | string signal =>
        simp only [Harmless, hsignal]
        by_cases hstart : signal = "start"
        . rw [hstart] at hsignal
          simp only [hstart, true_implies]
          cases hnbest : Json.isIntOption (Json.find "nbest" obj) with
          | false => exact handled_bad_nbest hsignal hnbest
          | true =>
            cases hcontinuous : Json.isBoolOption (Json.find "continuous_decoding" obj) with
            | false =>
              simp only [if_true, Bool.false_eq_true, false_or]
              exact handled_bad_continuousDecoding hsignal hnbest hcontinuous
            | true =>
              simp only [if_true, true_or, iff_true]
              have haccepted : (Json.object obj).isStart = true := by
                rw [isStart_eq hsignal, hnbest, hcontinuous]
                rfl
              apply handled_accepted (Or.inl haccepted)
              rw [textActions_start hsignal]
              exact no_error_of_start hnbest hcontinuous
        . simp only [hstart, false_implies, iff_true]
          by_cases hend : signal = "end"
          . have hactions : textActions (.object obj) = [.onSpeechEnd] := by
              simp only [textActions, hsignal, hstart, if_false, if_pos hend]
            have haccepted : (Json.object obj).isEnd = true := by
              simp only [Json.isEnd, hsignal, hend, beq_self_eq_true]
            apply handled_accepted (Or.inr haccepted)
            rw [hactions]
            simp [TextAction.isError]
          . have hactions : textActions (.object obj) = [.onError "Unexpected signal type"] := by
              simp only [textActions, hsignal, hstart, hend, if_false]
            exact handled_error hactions
      | _ =>
        simp only [Harmless, hsignal, iff_false]
        exact not_handled_of_throw (by simp only [textActions, hsignal])
          (by simp [Json.isStart, hsignal]) (by simp [Json.isEnd, hsignal])
  | _ => exact iff_of_true (handled_error rfl) trivial

end ConnectionHandler

def badNbest : Json :=
  .object [("signal", .string "start"), ("nbest", .string "3")]

theorem rejected_with_effects
    : let env := Env.uniform 1 []
      let c : Conn Unit := { Conn.new 0 () with reader := .reading }
      (Prog.begun (TextAction.perform env) (ConnectionHandler.textActions badNbest) c
            = [.onError "integer is expected for nbest option", .onSpeechStart]
          ∧ (ConnectionHandler.onText env (some badNbest) c).2.handler.gotStartTag = true
          ∧ ¬HandledWell env c badNbest)
        ∧ ¬HandledWell env c (.object [("signal", .int64 1)]) := by
  intro env c
  refine ⟨⟨rfl, rfl, ?_⟩, ConnectionHandler.not_handled_of_throw rfl rfl rfl⟩
  have hreturns : c.ErrorReturns env "integer is expected for nbest option" := ⟨rfl, rfl, rfl⟩
  intro hwell
  exact (ConnectionHandler.handled_bad_nbest rfl rfl).mp hwell hreturns
