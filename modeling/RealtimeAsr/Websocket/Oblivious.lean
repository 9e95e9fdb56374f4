import RealtimeAsr.Websocket.Server
import RealtimeAsr.Websocket.Relations

/-!
This module shows that a connection meets its VAD instance only in a pass that finds frames to process:
everything else commutes with a change of the instance.
-/

variable {ν : Type}

def Oblivious {α : Type} (x : Prog (Conn ν) α) : Prop :=
  ∀ v, Prog.Commutes (fun c => c.withVad v) x

def ObliviousAt {α : Type} (c : Conn ν) (x : Prog (Conn ν) α) : Prop :=
  ∀ v, x (c.withVad v) = ((x c).1, (x c).2.withVad v)

namespace Oblivious

variable {α β : Type}

theorem pure (a : α) : Oblivious (Pure.pure a : Prog (Conn ν) α) :=
  fun _ => .pure a

theorem throw : Oblivious (Prog.throw : Prog (Conn ν) α) :=
  fun _ => .throw

theorem modify {f : Conn ν → Conn ν} (h : ∀ c v, f (c.withVad v) = (f c).withVad v)
    : Oblivious (Prog.modify f) :=
  fun v => .modify fun c => h c v

theorem bind {x : Prog (Conn ν) α} {f : α → Prog (Conn ν) β} (hx : Oblivious x)
    (hf : ∀ a, Oblivious (f a))
    : Oblivious (x >>= f) :=
  fun v => .bind (hx v) fun a => hf a v

theorem get_bind {f : Conn ν → Prog (Conn ν) β} (hsame : ∀ c v, f (c.withVad v) = f c)
    (hf : ∀ c, Oblivious (f c))
    : Oblivious (Prog.get >>= f) :=
  fun v => .get_bind (fun c => hsame c v) fun c => hf c v

theorem ite {p : Prop} [Decidable p] {x y : Prog (Conn ν) α} (hx : Oblivious x) (hy : Oblivious y)
    : Oblivious (if p then x else y) :=
  fun v => .ite (hx v) (hy v)

theorem at_ {x : Prog (Conn ν) α} (h : Oblivious x) (c : Conn ν) : ObliviousAt c x :=
  fun v => h v c

end Oblivious

theorem ObliviousAt.get_bind {β : Type} {c : Conn ν} {f : Conn ν → Prog (Conn ν) β}
    (hsame : ∀ v, f (c.withVad v) = f c) (hf : ObliviousAt c (f c))
    : ObliviousAt c (Prog.get >>= f) := by
  intro v
  rw [Prog.get_bind_apply, Prog.get_bind_apply, hsame]
  exact hf v

theorem ObliviousAt.bind {α β : Type} {c : Conn ν} {x : Prog (Conn ν) α} {f : α → Prog (Conn ν) β}
    (hx : ObliviousAt c x) (hf : ∀ a, Oblivious (f a))
    : ObliviousAt c (x >>= f) := by
  intro v
  rw [Prog.bind_apply, Prog.bind_apply, hx v]
  cases x c with
  | mk res s =>
    cases res with
    | some a => exact hf a v s
    | none => rfl

namespace ConnectionHandler

variable (env : Env ν)

theorem oblivious_onHandler (f : ConnectionHandler → ConnectionHandler)
    : Oblivious (onHandler f : Prog (Conn ν) Unit) :=
  .modify fun _ _ => rfl

theorem oblivious_wsWrite (msg : Msg) : Oblivious (wsWrite env msg) :=
  .get_bind (fun _ _ => rfl) fun _ => .ite .throw (.modify fun _ _ => rfl)

theorem oblivious_wsClose : Oblivious (wsClose env) :=
  .get_bind (fun _ _ => rfl) fun _ => .ite .throw (.modify fun _ _ => rfl)

theorem respects_withVad (v : ν) : PostingRespects fun s t => t = s.withVad v where
  acts := by
    rintro s _ rfl
    rfl
  samples := by
    rintro s _ rfl
    rfl
  nsegDone := by
    rintro s _ rfl
    rfl
  curResult := by
    rintro s _ rfl
    rfl
  segs := by
    rintro s _ rfl
    rfl
  closed := by
    rintro s _ rfl
    rfl
  posts := by
    rintro s _ rfl
    rfl
  msgs := by
    rintro s _ rfl
    rfl
  log := by
    rintro s _ a rfl
    rfl
  ask := by
    rintro s _ p rfl
    rfl
  say := by
    rintro s _ w rfl
    rfl
  hear := by
    rintro s _ info rfl
    rfl
  close := by
    rintro s _ r rfl
    rfl
  posted := by
    rintro s _ nsegDone rfl
    rfl
  finish := by
    rintro s _ rfl
    rfl
  stop := by
    rintro s _ rfl
    rfl

theorem oblivious_finishRecognition (curSize : Nat) : Oblivious (finishRecognition env curSize) :=
  fun v => Prog.commutes_of_respects ((respects_withVad v).finishRecognition env curSize)

theorem oblivious_rescore : Oblivious (rescore env) :=
  fun v => Prog.commutes_of_respects ((respects_withVad v).rescore env)

theorem oblivious_postRanges (endSplIdx : Int) : Oblivious (postRanges env endSplIdx) :=
  fun v => Prog.commutes_of_respects ((respects_withVad v).postRanges env endSplIdx)

theorem oblivious_decodeRanges {c : Conn ν}
    (hidle :
      let nranges := c.handler.rcvRangeSmps.length
      let endSplIdx := (c.handler.rcvRangeSmps.getD (nranges - 1) (0, 0)).2
      nranges > c.handler.lastNranges →
        ((endSplIdx + 1).tdiv samplesPerFrame).toNat ≤ c.handler.lastFrame)
    : ObliviousAt c (decodeRanges env) := by
  apply ObliviousAt.get_bind
  . intro v
    rfl
  . dsimp only
    split
    . next hnew =>
      rw [Prog.forRange_empty (hidle hnew)]
      exact Oblivious.at_ (.bind (.pure ()) fun _ => .bind (oblivious_onHandler _) fun _ =>
        oblivious_postRanges env _) c
    . exact Oblivious.at_ (.pure ()) c

theorem oblivious_decodeThreadFunc {c : Conn ν} (halive : c.alive = true ∧ c.decoder = .running)
    (hidle : ¬c.Pending)
    : ObliviousAt c (decodeThreadFunc env) := by
  apply ObliviousAt.get_bind
  . intro v
    rfl
  . split
    . exact Oblivious.at_ (.bind (oblivious_finishRecognition env _) fun _ => .pure false) c
    . split
      . exact Oblivious.at_ (.bind (oblivious_rescore env) fun _ => .pure false) c
      . split
        . next h1 =>
          refine .bind (oblivious_decodeRanges env ?_) fun _ => .pure true
          intro _ _ hnew
          by_contra hframes
          exact hidle ⟨halive, h1, hnew, not_le.mp hframes⟩
        . exact Oblivious.at_ (.pure true) c

theorem oblivious_setNbest (v : Option Json) : Oblivious (setNbest env v) := by
  unfold setNbest
  split
  . exact .pure ()
  . exact oblivious_onHandler _
  . exact .bind (oblivious_wsWrite env _) fun _ => oblivious_wsClose env

theorem oblivious_setContinuousDecoding (v : Option Json)
    : Oblivious (setContinuousDecoding env v) := by
  unfold setContinuousDecoding
  split
  . exact .pure ()
  . exact oblivious_onHandler _
  . exact .bind (oblivious_wsWrite env _) fun _ => oblivious_wsClose env

theorem oblivious_onError (message : String) : Oblivious (onError env message) :=
  .bind (oblivious_wsWrite env _) fun _ => oblivious_wsClose env

theorem oblivious_onSpeechStart : Oblivious (onSpeechStart env) := by
  refine .bind (oblivious_onHandler _) fun _ => .bind (oblivious_wsWrite env _) fun _ => ?_
  exact .modify fun _ _ => rfl

theorem oblivious_onText (v : Option Json) : Oblivious (onText env v) := by
  unfold onText
  split
  . exact .throw
  . split
    . split
      . refine .bind (oblivious_setNbest env _) fun _ => ?_
        exact .bind (oblivious_setContinuousDecoding env _) fun _ => oblivious_onSpeechStart env
      . split
        . exact oblivious_onHandler _
        . exact oblivious_onError env _
    . exact .throw
    . exact oblivious_onError env _
  . exact oblivious_onError env _

theorem oblivious_readMessage (m : Incoming) : Oblivious (readMessage env m) := by
  apply Oblivious.get_bind
  . intro c v
    rfl
  . intro c
    split
    . exact .throw
    . split
      . exact .throw
      . exact .bind (oblivious_onText env _) fun _ => .get_bind (fun _ _ => rfl) fun _ => .pure _
      . split
        . exact .bind (oblivious_onError env _) fun _ => .pure _
        . split
          . exact .pure _
          . exact .bind (oblivious_onHandler _) fun _ => .pure _

end ConnectionHandler

namespace Conn

variable {env : Env ν}

def IgnoresVad (f : Conn ν → Conn ν) (c : Conn ν) : Prop :=
  ∀ v, f (c.withVad v) = (f c).withVad v

theorem accept_ignores (ok : Bool) (c : Conn ν) : IgnoresVad (accept ok) c := by
  intro v
  have hguard : ((c.withVad v).reader = .accepting) = (c.reader = .accepting) := rfl
  unfold accept
  by_cases hgo : c.reader = .accepting
  . rw [if_pos hgo, if_pos (hguard ▸ hgo)]
    rfl
  . rw [if_neg hgo, if_neg (hguard ▸ hgo)]

theorem join_ignores (c : Conn ν) : IgnoresVad join c := by
  intro v
  have hguard : ((c.withVad v).alive = true ∧ (c.withVad v).reader = .joining
        ∧ (c.withVad v).decoder = .finished)
      = (c.alive = true ∧ c.reader = .joining ∧ c.decoder = .finished) := rfl
  unfold join
  by_cases hgo : c.alive = true ∧ c.reader = .joining ∧ c.decoder = .finished
  . rw [if_pos hgo, if_pos (hguard ▸ hgo)]
    rfl
  . rw [if_neg hgo, if_neg (hguard ▸ hgo)]

theorem destroy_ignores (c : Conn ν) : IgnoresVad destroy c := by
  intro v
  have hguard : ((c.withVad v).alive = true ∧ (c.withVad v).reader = .returned)
      = (c.alive = true ∧ c.reader = .returned) := rfl
  unfold destroy
  by_cases hgo : c.alive = true ∧ c.reader = .returned
  . rw [if_pos hgo, if_pos (hguard ▸ hgo)]
    rfl
  . rw [if_neg hgo, if_neg (hguard ▸ hgo)]

theorem recv_ignores (m : Incoming) (c : Conn ν) : IgnoresVad (recv env m) c := by
  intro v
  have hread := ConnectionHandler.oblivious_readMessage env m v c
  have hguard : ((c.withVad v).alive = true ∧ (c.withVad v).reader = .reading)
      = (c.alive = true ∧ c.reader = .reading) := rfl
  unfold recv
  by_cases hgo : c.alive = true ∧ c.reader = .reading
  . rw [if_pos hgo, if_pos (hguard ▸ hgo), hread]
    cases ConnectionHandler.readMessage env m c with
    | mk res s =>
      cases res with
      | none => rfl
      | some goOn =>
        cases goOn with
        | true => rfl
        | false => rfl
  . rw [if_neg hgo, if_neg (hguard ▸ hgo)]

theorem pass_ignores {c : Conn ν} (hidle : ¬c.Pending) : IgnoresVad (pass env) c := by
  intro v
  have hguard : ((c.withVad v).alive = true ∧ (c.withVad v).decoder = .running)
      = (c.alive = true ∧ c.decoder = .running) := rfl
  unfold pass
  by_cases hgo : c.alive = true ∧ c.decoder = .running
  . rw [if_pos hgo, if_pos (hguard ▸ hgo),
      ConnectionHandler.oblivious_decodeThreadFunc env hgo hidle v]
    cases ConnectionHandler.decodeThreadFunc env c with
    | mk res s =>
      cases res with
      | none => rfl
      | some goOn =>
        cases goOn with
        | true => rfl
        | false => rfl
  . rw [if_neg hgo, if_neg (hguard ▸ hgo)]

theorem step_ignores {c : Conn ν} {e : Event} (hidle : e = .pass → ¬c.Pending)
    : IgnoresVad (fun c => c.step env e) c := by
  cases e with
  | accept ok => exact accept_ignores ok c
  | recv m => exact recv_ignores m c
  | pass => exact pass_ignores (hidle rfl)
  | join => exact join_ignores c
  | destroy => exact destroy_ignores c

end Conn
