import RealtimeAsr.Websocket.LongBlock

/-!
This module shows when `act_percent` is called on an empty range: only for a segment that the last
decision opened, in the pass that makes this decision, or in the one that ends the session.
-/

variable {ν : Type}

namespace Acts

def JustOpened (ds : List Int) : Prop :=
  ∃ before d, ds = before ++ [d] ∧ (({} : Acts).feed before).Opens d

theorem start_of_not_justOpened {ds : List Int} (h : ¬JustOpened ds)
    (hopen : (({} : Acts).feed ds).segSts.length = (({} : Acts).feed ds).segEnds.length + 1)
    : (({} : Acts).feed ds).segSts.getLastD 0 + 1 < ds.length := by
  induction ds using List.reverseRecOn with
  | nil => cases hopen
  | append_singleton before d _ =>
    have hpaired : (({} : Acts).feed before).Paired := Paired.empty.feed before
    have hlen : (({} : Acts).feed before).acts.length = before.length := by simp
    rw [feed_concat] at hopen ⊢
    rw [List.length_append, List.length_singleton, Nat.add_lt_add_iff_right, ← hlen]
    obtain ⟨hop, _⟩ | ⟨hcl, hsts, hends⟩ | ⟨_, _, hsts, hends⟩ :=
      (({} : Acts).feed before).addAct_segs d
    . exact absurd ⟨before, d, rfl, hop⟩ h
    . have := hcl.one_open
      rw [hsts, hends, List.length_append, List.length_singleton] at hopen
      omega
    . rw [hsts, hends] at hopen
      rw [hsts, getLastD_eq_getD hopen]
      apply hpaired.start_lt_length
      omega

end Acts

def Counted (c : Conn ν) : Prop :=
  ∀ st en nacts, Access.percent st en nacts ∈ c.access → st < en ∧ en ≤ nacts

structure CountedOn (a : Acts) (c : Conn ν) : Prop where
  acts : c.handler.acts = a
  counted : Counted c

namespace Counted

theorem log {c : Conn ν} (h : Counted c) {a : Access}
    (ha : ∀ st en nacts, a = .percent st en nacts → st < en ∧ en ≤ nacts)
    : Counted { c with access := c.access ++ [a] } := by
  intro st en nacts hmem
  cases List.mem_append.mp hmem with
  | inl hmem => exact h st en nacts hmem
  | inr hmem => exact ha st en nacts (List.mem_singleton.mp hmem).symm

theorem reader : ReaderKeeps (Counted (ν := ν)) Counted where
  rest _ h := h
  say _ _ _ _ h := h
  close _ h := h
  options _ _ _ _ h := h
  start _ h := h
  stop _ h := h
  data _ _ h := h

end Counted

namespace ConnectionHandler

variable {env : Env ν} {vad₀ : ν} {a : Acts} {c : Conn ν}

theorem httpaudioPost_counted (content : Bytes) (id : PostId) (format : String)
    : Prog.Keeps (CountedOn a) (httpaudioPost env content id format) :=
  httpaudioPost_keeps fun _ hs => ⟨hs.acts, hs.counted⟩

theorem wsWrite_counted (msg : Msg) : Prog.Keeps (CountedOn a) (wsWrite env msg) :=
  wsWrite_keeps fun _ hs => ⟨hs.acts, hs.counted⟩

theorem posting_counted (env : Env ν) (a : Acts)
    : PostingKeeps env a (fun st en => st < en ∧ en ≤ a.acts.length) (CountedOn a) (CountedOn a) where
  acts _ hs := hs.acts
  log _ _ hacc hs := ⟨hs.acts, hs.counted.log fun _ _ _ heq => absurd heq (hacc _ _ _)⟩
  percent _ _ _ hR hs := by
    refine ⟨hs.acts, hs.counted.log ?_⟩
    intro st en nacts heq
    cases heq
    exact hR
  post := httpaudioPost_counted
  hear _ _ hs := ⟨hs.acts, hs.counted⟩

-- A closed segment starts before it ends.
theorem closed_nonempty (ha : a.Paired) {i : Nat} (hi : i < a.segEnds.length)
    : a.segSts.getD i 0 < a.segEnds.getD i 0 ∧ a.segEnds.getD i 0 ≤ a.acts.length :=
  ⟨ha.start_lt_end i hi, Nat.le_of_lt (ha.end_lt_length hi)⟩

theorem vadFrames_counted (env : Env ν) (lo hi : Nat)
    : Prog.Keeps (Counted (ν := ν)) (Prog.forRange lo hi (vadFrame env)) := by
  apply Prog.Triple.loop
  intro i _ _ s hs
  apply hs.log
  intro st en nacts heq
  cases heq

-- The segment that is open after all complete frames starts before the frame of the last sample.
theorem lastStart_lt {samples : List Int16}
    (hacts : a = batchActs env vad₀ samples (samples.length / samplesPerFrame))
    (hopened : samples.length % samplesPerFrame = 0 →
      ¬Acts.JustOpened (vadRun env vad₀ samples (samples.length / samplesPerFrame)).1)
    (hone : a.segSts.length = a.segEnds.length + 1)
    : a.segSts.getLastD 0 < (((samples.length : Int) - 1).tdiv samplesPerFrame).toNat
        ∧ (((samples.length : Int) - 1).tdiv samplesPerFrame).toNat ≤ a.acts.length := by
  have hlen : a.acts.length = samples.length / samplesPerFrame := by
    rw [hacts, batchActs_acts, vadRun_length]
  have hpaired : a.Paired := by
    rw [hacts]
    exact batchActs_paired _ _ _ _
  have hst : a.segSts.getLastD 0 < a.acts.length := by
    rw [Acts.getLastD_eq_getD hone]
    apply hpaired.start_lt_length
    omega
  have hwhole : samples.length % samplesPerFrame = 0 → a.segSts.getLastD 0 + 1 < a.acts.length := by
    intro hmod
    have hone' := hone
    rw [hacts] at hone' ⊢
    rw [batchActs_acts]
    exact Acts.start_of_not_justOpened (hopened hmod) hone'
  have hdiv : ((samples.length : Int) - 1).tdiv (160 : Nat) = ((samples.length : Int) - 1) / 160 := by
    apply Int.tdiv_eq_ediv_of_nonneg
    unfold samplesPerFrame at hlen
    omega
  unfold samplesPerFrame at *
  rw [hdiv]
  constructor
  . omega
  . omega

theorem decodeRanges_counted (hgood : Good c) (h : Sync env vad₀ c) (hcounted : Counted c)
    (hset : c.handler.state ≠ 2)
    (hopened : c.handler.rcvRangeSmps.length > c.handler.lastNranges →
      c.handler.samples.length % samplesPerFrame = 0 →
        ¬Acts.JustOpened
          (vadRun env vad₀ c.handler.samples (c.handler.samples.length / samplesPerFrame)).1)
    : Prog.Triple (fun s => s = c) (decodeRanges env) (fun _ => Counted) Counted := by
  unfold decodeRanges
  apply Prog.Triple.get_bind
  rintro s rfl
  apply Prog.Triple.ite
  . intro hnew
    rw [endSplIdx_eq h hnew]
    dsimp only
    rw [nframes_eq]
    have hframes := (vadFrames_spec (E := Counted) hgood h).and
      (vadFrames_counted env _ _)
    apply Prog.Triple.bind (hframes.conseq ?_ (fun _ _ hs => hs) (fun _ hs => hs.1))
    . intro _
      have hadvance := (advance_spec (E := Counted) h hset rfl).and
        (Prog.Triple.modify (P := Counted) (Q := fun _ => Counted) (E := Counted) fun _ hs => hs)
      apply Prog.Triple.bind (hadvance.throws fun _ hs => hs.1)
      intro _
      show Prog.Triple _ (postRanges env _) _ _
      rintro s' ⟨⟨hkept, _, hstep, _, hframe⟩, hcounted'⟩
      have hacts : s'.handler.acts
          = batchActs env vad₀ s.handler.samples (s.handler.samples.length / samplesPerFrame) := by
        rw [hstep.acts, hkept.samples, hframe]
      have hposts := (posting_counted env s'.handler.acts).postRanges (fun _ => wsWrite_counted _)
        (fun _ _ hs => ⟨hs.acts, hs.counted⟩) (fun _ hi => closed_nonempty hstep.track.paired hi)
        (lastStart_lt hacts (hopened hnew))
      exact (hposts.conseq (fun _ hs => hs) (fun _ _ hs => hs.counted) fun _ hs => hs.counted) s'
        ⟨rfl, hcounted'⟩
    . rintro s' rfl
      exact ⟨rfl, hcounted⟩
  . intro _
    apply Prog.Triple.pure
    rintro s rfl
    exact hcounted

theorem callEnd_counted (h : Sync env vad₀ c) (hcounted : Counted c)
    (hopened : ¬Acts.JustOpened c.handler.acts.acts) {E : Conn ν → Prop}
    : Prog.Triple (fun s => s = c) (callEnd env)
        (fun _ => CountedOn (c.handler.acts.end_ env.round)) E := by
  have hacts : c.handler.acts = ({} : Acts).feed c.handler.acts.acts := by
    rw [h.acts, batchActs_acts]
    rfl
  unfold callEnd
  apply Prog.Triple.get_bind
  rintro s rfl
  apply Prog.Triple.ite
  . intro hone
    have hlt : s.handler.acts.segSts.getLastD 0 + 1 < s.handler.acts.acts.length := by
      have hone' := hone
      rw [hacts] at hone' ⊢
      rw [Acts.feed_acts]
      exact Acts.start_of_not_justOpened hopened hone'
    rintro s' rfl
    refine ⟨rfl, hcounted.log ?_⟩
    intro st en nacts heq
    cases heq
    constructor
    . omega
    . omega
  . intro _
    rintro s' rfl
    exact ⟨rfl, hcounted⟩

theorem finishRecognition_counted (h : Sync env vad₀ c) (hcounted : Counted c)
    (hopened : ¬Acts.JustOpened c.handler.acts.acts)
    : Prog.Triple (fun s => s = c) (finishRecognition env c.handler.samples.length)
        (fun _ => Counted) Counted := by
  have hpaired : (c.handler.acts.end_ env.round).Paired := h.track.paired.end_ _
  generalize hn : c.handler.samples.length = n
  unfold finishRecognition
  apply Prog.Triple.bind (callEnd_counted h hcounted hopened)
  intro _
  generalize c.handler.acts.end_ env.round = a at hpaired
  -- `reset` drops the decisions, the log stays.
  apply Prog.Triple.conseq (P := CountedOn a) (Q := fun _ => Counted) (E := CountedOn a)
  . apply Prog.Triple.get_bind
    intro s hs
    have here : ∀ s', s' = s → CountedOn a s' := by
      rintro s' rfl
      exact hs
    have hposts : Prog.Keeps (CountedOn a)
        (Prog.forRange s.handler.nsegDone s.handler.acts.segEnds.length (postFinal env n)) := by
      rw [hs.acts]
      exact Prog.Triple.loop fun i _ hi =>
        (posting_counted env a).postFinal _ (closed_nonempty hpaired hi)
    apply Prog.Triple.bind (hposts.pre here)
    intro _
    apply Prog.Triple.bind ((posting_counted env a).copySamples _ _ _)
    intro data
    apply Prog.Triple.bind (httpaudioPost_counted _ _ _)
    intro _
    apply Prog.Triple.get_bind
    intro s' hs'
    have here' : ∀ s'', s'' = s' → CountedOn a s'' := by
      rintro s'' rfl
      exact hs'
    apply Prog.Triple.bind ((wsWrite_counted _).pre here')
    intro _
    apply Prog.Triple.bind (wsWrite_counted _)
    intro _
    exact Prog.Triple.modify fun _ hs => hs.counted
  . intro _ hs
    exact hs
  . intro _ _ hs
    exact hs
  . intro _ hs
    exact hs.counted

theorem rescore_counted : Prog.Keeps (Counted (ν := ν)) (rescore env) := by
  unfold rescore
  apply Prog.Triple.get_bind
  intro s hs
  apply Prog.Triple.bind (Q := fun _ => Counted)
  . apply (wsWrite_counted (a := s.handler.acts) _).conseq
    . rintro s' rfl
      exact ⟨rfl, hs⟩
    . intro _ s' hs'
      exact hs'.counted
    . intro s' hs'
      exact hs'.counted
  . intro _
    exact Prog.Triple.modify fun _ hs => hs

end ConnectionHandler

namespace Conn

variable {env : Env ν} {vad₀ : ν} {c : Conn ν}

/--
A pass comes right behind the decision that opened the segment which is open: with `state_ == 3` it is
the last one recorded, with `state_ == 1` the one on the last 160 samples, with no sample behind them.
That an earlier request of such a pass may throw, before its `act_percent`, is not looked at.
-/
def EndsOpened (env : Env ν) (vad₀ : ν) (c : Conn ν) : Prop :=
  (c.alive = true ∧ c.decoder = .running)
    ∧ ((c.handler.state = 3 ∧ Acts.JustOpened c.handler.acts.acts)
      ∨ (c.handler.state = 1
        ∧ c.handler.rcvRangeSmps.length > c.handler.lastNranges
        ∧ c.handler.samples.length % ConnectionHandler.samplesPerFrame = 0
        ∧ Acts.JustOpened (vadRun env vad₀ c.handler.samples
          (c.handler.samples.length / ConnectionHandler.samplesPerFrame)).1))

theorem counted_pass (h : Sound env vad₀ c) (hcounted : Counted c) (hopened : ¬c.EndsOpened env vad₀)
    : Counted (c.pass env) := by
  apply pass_keeps hcounted
  . intro s hs
    exact hs
  . intro hgo h3
    have hjust : ¬Acts.JustOpened c.handler.acts.acts :=
      fun hjust => hopened ⟨hgo, Or.inl ⟨h3, hjust⟩⟩
    exact (ConnectionHandler.finishRecognition_counted (running_sync h hgo.1 hgo.2) hcounted hjust).leaves rfl
  . intro _ _
    exact ConnectionHandler.rescore_counted.leaves hcounted
  . intro hgo h1
    have hset : c.handler.state ≠ 2 := by
      rw [h1]
      decide
    exact (ConnectionHandler.decodeRanges_counted h.good (running_sync h hgo.1 hgo.2) hcounted hset
      fun hnew hmod hjust => hopened ⟨hgo, Or.inr ⟨h1, hnew, hmod, hjust⟩⟩).leaves rfl

theorem counted_step (h : Sound env vad₀ c) (hcounted : Counted c) {e : Event}
    (hopened : e = .pass → ¬c.EndsOpened env vad₀)
    : Counted (c.step env e) :=
  step_keeps Counted.reader (fun _ _ _ _ h => h) hcounted fun hpass =>
    counted_pass h hcounted (hopened hpass)

theorem percent_nonempty (env : Env ν) (state : Int) (vad : ν) (events : List Event)
    (hopened : ∀ pre, pre ++ [.pass] <+: events →
      ¬((machine env state vad).run pre).EndsOpened env vad)
    : ∀ st en nacts, Access.percent st en nacts ∈ ((machine env state vad).run events).access →
        st < en ∧ en ≤ nacts := by
  show Counted _
  induction events using List.reverseRecOn with
  | nil =>
    intro st en nacts hmem
    cases hmem
  | append_singleton events e ih =>
    have hcounted := ih fun pre hpre => hopened pre (hpre.trans (List.prefix_append _ _))
    rw [Machine.run_concat]
    apply counted_step (sound_run env state vad events) hcounted
    rintro rfl
    exact hopened events (List.prefix_refl _)

end Conn

def silence (n : Nat) : Call :=
  .data (List.replicate (2 * (n + ConnectionHandler.header)) 0)

theorem percent_of_nothing
    : Access.percent 14 14 15
          ∈ (session (Env.uniform 1 []) 0 () .plain [silence 2400, .pass]).access
      ∧
      (Access.percent 14 14 15
          ∉ (session (Env.uniform 1 []) 0 () .plain [silence 2401, .pass, .stop .plain]).access
        ∧ Access.percent 14 14 15
          ∈ (session (Env.uniform 1 []) 0 () .plain [silence 2401, .pass, .stop .plain, .pass]).access) := by
  decide +kernel

theorem percent_nonempty_on_data
    : Access.percent 14 15 15
          ∈ (session (Env.uniform 1 []) 0 () .plain [silence 2401, .pass]).access
        ∧ Counted (session (Env.uniform 1 []) 0 () .plain [silence 2401, .pass]) := by
  have hopened : ∀ pre, pre ++ [.pass] <+: sessionEvents .plain [silence 2401, .pass] →
      ¬((Conn.machine (Env.uniform 1 []) 0 ()).run pre).EndsOpened (Env.uniform 1 []) () := by
    intro pre hpre
    have hlen := hpre.length_le
    rw [List.length_append] at hlen
    match pre, hpre, hlen with
    | [], hpre, _ => cases (List.cons_prefix_cons.mp hpre).1
    | [_], hpre, _ => cases (List.cons_prefix_cons.mp (List.cons_prefix_cons.mp hpre).2).1
    | [_, _], hpre, _ =>
      cases (List.cons_prefix_cons.mp (List.cons_prefix_cons.mp (List.cons_prefix_cons.mp hpre).2).2).1
    | [e1, e2, e3], hpre, _ =>
      obtain ⟨h1, hpre⟩ := List.cons_prefix_cons.mp hpre
      obtain ⟨h2, hpre⟩ := List.cons_prefix_cons.mp hpre
      obtain ⟨h3, _⟩ := List.cons_prefix_cons.mp hpre
      rw [h1, h2, h3]
      rintro ⟨_, ⟨hstate, _⟩ | ⟨_, _, hmod, _⟩⟩
      . cases hstate
      . revert hmod
        decide +kernel
  have hcounted := Conn.percent_nonempty (Env.uniform 1 []) 0 ()
    (sessionEvents .plain [silence 2401, .pass]) hopened
  exact ⟨by decide +kernel, hcounted⟩
