import RealtimeAsr.Websocket.Oblivious

/-!
This module shows when the sessions of a server are isolated from each other although they share the
VAD instance: as long as a session that uses the instance is the only one that has used it.
-/

variable {ν : Type}

namespace Conn

theorem withVad_eq {c a : Conn ν} (h : c.erase = a.erase) (vad : ν)
    : a.withVad vad = c.withVad vad := by
  obtain ⟨_, _, _, _, _, _, _, _, _⟩ := c
  obtain ⟨_, _, _, _, _, _, _, _, _⟩ := a
  simp only [erase, mk.injEq] at h
  simp only [withVad, mk.injEq]
  simp [h]

theorem step_vad {env : Env ν} {c : Conn ν} {e : Event} (hidle : e = .pass → ¬c.Pending)
    : (c.step env e).vad = c.vad := by
  have hsame : c.step env e = (c.step env e).withVad c.vad := step_ignores hidle c.vad
  rw [hsame]
  rfl

end Conn

namespace Server

section Runs

variable (m : Machine (Server ν) Event) (i : Nat)

def Foreign (pre : List Event) : Prop :=
  ∃ pre' j c, pre' ++ [.on j .pass] <+: pre ∧ j ≠ i ∧ c ∈ (m.run pre').conns j ∧ c.Pending

/--
A pass of connection `i` only gives frames to the VAD as long as no other connection did.
-/
def Undisturbed (schedule : List Event) : Prop :=
  ∀ pre c, pre ++ [.on i .pass] <+: schedule → c ∈ (m.run pre).conns i → c.Pending →
    ¬Foreign m i pre

variable {m : Machine (Server ν) Event} {i : Nat}

theorem Foreign.mono {pre post : List Event} (h : Foreign m i pre) (hpre : pre <+: post)
    : Foreign m i post := by
  obtain ⟨pre', j, c, hin, hj, hc, hpending⟩ := h
  exact ⟨pre', j, c, hin.trans hpre, hj, hc, hpending⟩

theorem Undisturbed.of_prefix {pre schedule : List Event} (h : Undisturbed m i schedule)
    (hpre : pre <+: schedule)
    : Undisturbed m i pre :=
  fun before c hbefore => h before c (hbefore.trans hpre)

end Runs

variable (vadProcess : ν → List Int16 → Int × ν) (vad : ν) (peers : Nat → Peer) (i : Nat)

section Step

variable {s : Server ν} {j : Nat}

theorem step_terminated (h : s.terminated = true) (ev : Event)
    : step vadProcess peers s ev = s := by
  cases ev with
  | connect j state => exact if_pos h
  | on j e => exact if_pos h

theorem step_connect (hgoing : s.terminated = false) (state : Int)
    : step vadProcess peers s (.connect j state)
      =
      match s.conns j with
      | some _ => s
      | none => s.setConn j (Conn.new state s.vad) := by
  apply if_neg
  rw [hgoing]
  exact Bool.false_ne_true

theorem step_on (hgoing : s.terminated = false) (e : Conn.Event)
    : step vadProcess peers s (.on j e)
      =
      match s.conns j with
      | some c =>
        let c := (c.withVad s.vad).step ((peers j).env vadProcess) e
        { s.setConn j c with vad := c.vad, terminated := c.terminated }
      | none => s := by
  apply if_neg
  rw [hgoing]
  exact Bool.false_ne_true

theorem step_conns_of_ne {ev : Event} (hne : ev.isOf i = false)
    : (step vadProcess peers s ev).conns i = s.conns i := by
  by_cases hgoing : s.terminated = true
  . rw [step_terminated vadProcess peers hgoing]
  . have hgoing := Bool.not_eq_true _ ▸ hgoing
    cases ev with
    | connect j state =>
      have hij : ¬i = j := by
        intro hij
        rw [hij] at hne
        simp [Event.isOf] at hne
      rw [step_connect vadProcess peers hgoing]
      split
      . rfl
      . exact if_neg hij
    | on j e =>
      have hij : ¬i = j := by
        intro hij
        rw [hij] at hne
        simp [Event.isOf] at hne
      rw [step_on vadProcess peers hgoing]
      split
      . exact if_neg hij
      . rfl

theorem step_vad_of_idle {ev : Event}
    (hidle : ∀ j c, ev = .on j .pass → c ∈ s.conns j → ¬c.Pending)
    : (step vadProcess peers s ev).vad = s.vad := by
  by_cases hgoing : s.terminated = true
  . rw [step_terminated vadProcess peers hgoing]
  . have hgoing := Bool.not_eq_true _ ▸ hgoing
    cases ev with
    | connect j state =>
      rw [step_connect vadProcess peers hgoing]
      split
      . rfl
      . rfl
    | on j e =>
      rw [step_on vadProcess peers hgoing]
      split
      . next c hc =>
        apply Conn.step_vad
        intro he
        rw [he] at hidle
        exact hidle j c rfl hc
      . rfl

end Step

structure Alike (s t : Server ν) : Prop where
  conn : (s.conns i).map Conn.erase = (t.conns i).map Conn.erase
  going : s.terminated = false
  going' : t.terminated = false

namespace Alike

variable {i} {s t : Server ν}

theorem none_of_none (h : Alike i s t) (hs : s.conns i = none) : t.conns i = none := by
  have hconn := h.conn
  rw [hs] at hconn
  exact Option.map_eq_none_iff.mp hconn.symm

theorem some_of_some (h : Alike i s t) {c : Conn ν} (hs : s.conns i = some c)
    : ∃ a, t.conns i = some a ∧ c.erase = a.erase := by
  have hconn := h.conn
  rw [hs] at hconn
  obtain ⟨a, ha, herase⟩ := Option.map_eq_some_iff.mp hconn.symm
  exact ⟨a, ha, herase.symm⟩

theorem step_connect (h : Alike i s t) (state : Int)
    : Alike i (Server.step vadProcess peers s (.connect i state))
        (Server.step vadProcess peers t (.connect i state)) := by
  rw [Server.step_connect vadProcess peers h.going, Server.step_connect vadProcess peers h.going']
  cases hs : s.conns i with
  | none =>
    rw [h.none_of_none hs]
    refine ⟨?_, h.going, h.going'⟩
    simp [setConn, Conn.new, Conn.erase]
  | some c =>
    obtain ⟨a, ha, _⟩ := h.some_of_some hs
    rw [ha]
    exact h

theorem step_on (h : Alike i s t) (e : Conn.Event)
    (hvad : ∀ c ∈ s.conns i, e = .pass → c.Pending → s.vad = t.vad)
    (hgoing : (Server.step vadProcess peers s (.on i e)).terminated = false)
    : Alike i (Server.step vadProcess peers s (.on i e))
          (Server.step vadProcess peers t (.on i e))
      ∧
      (s.vad = t.vad →
        (Server.step vadProcess peers s (.on i e)).vad
          = (Server.step vadProcess peers t (.on i e)).vad) := by
  rw [Server.step_on vadProcess peers h.going] at hgoing ⊢
  rw [Server.step_on vadProcess peers h.going']
  cases hs : s.conns i with
  | none =>
    rw [h.none_of_none hs]
    exact ⟨h, id⟩
  | some c =>
    obtain ⟨a, ha, herase⟩ := h.some_of_some hs
    rw [hs] at hgoing
    rw [ha]
    dsimp only at hgoing ⊢
    rw [Conn.withVad_eq herase t.vad]
    -- Either the step uses the VAD, then both instances are the same, or it commutes with changing it.
    by_cases huse : e = .pass ∧ c.Pending
    . rw [hvad c hs huse.1 huse.2] at hgoing ⊢
      exact ⟨⟨by simp [setConn], hgoing, hgoing⟩, fun _ => rfl⟩
    . have hidle : e = .pass → ¬c.Pending := fun he hpending => huse ⟨he, hpending⟩
      have hstep : ∀ v, (c.withVad v).step ((peers i).env vadProcess) e
          = (c.step ((peers i).env vadProcess) e).withVad v :=
        Conn.step_ignores hidle
      rw [hstep] at hgoing
      rw [hstep, hstep]
      refine ⟨⟨?_, hgoing, hgoing⟩, id⟩
      simp [setConn, Conn.erase, Conn.withVad]

end Alike

structure Isolated (pre : List Event) : Prop where
  alike : Alike i ((machine vadProcess vad peers).run pre)
    ((machine vadProcess vad peers).run (alone i pre))
  same_vad : ¬Foreign (machine vadProcess vad peers) i pre →
    ((machine vadProcess vad peers).run pre).vad
      = ((machine vadProcess vad peers).run (alone i pre)).vad

section Isolated

variable {vadProcess vad peers i}

theorem alone_concat_of (pre : List Event) {ev : Event} (h : ev.isOf i = true)
    : alone i (pre ++ [ev]) = alone i pre ++ [ev] := by
  simp [alone, h]

theorem alone_concat_of_not (pre : List Event) {ev : Event} (h : ev.isOf i = false)
    : alone i (pre ++ [ev]) = alone i pre := by
  simp [alone, h]

theorem going_of_concat {pre : List Event} {ev : Event}
    (h : ((machine vadProcess vad peers).run (pre ++ [ev])).terminated = false)
    : ((machine vadProcess vad peers).run pre).terminated = false := by
  rw [Machine.run_concat] at h
  by_contra hterminated
  have hterminated := Bool.not_eq_false _ ▸ hterminated
  have hstop : (machine vadProcess vad peers).step ((machine vadProcess vad peers).run pre) ev = _ :=
    step_terminated vadProcess peers hterminated ev
  rw [hstop, hterminated] at h
  cases h

theorem Isolated.step_other {pre : List Event} (h : Isolated vadProcess vad peers i pre) {ev : Event}
    (hev : ev.isOf i = false)
    (hgoing : ((machine vadProcess vad peers).run (pre ++ [ev])).terminated = false)
    : Isolated vadProcess vad peers i (pre ++ [ev]) := by
  have hconn : ((machine vadProcess vad peers).run (pre ++ [ev])).conns i
      = ((machine vadProcess vad peers).run pre).conns i := by
    rw [Machine.run_concat]
    exact step_conns_of_ne vadProcess peers i hev
  constructor
  . refine ⟨?_, hgoing, ?_⟩
    . rw [alone_concat_of_not pre hev, hconn]
      exact h.alike.conn
    . rw [alone_concat_of_not pre hev]
      exact h.alike.going'
  . intro hforeign
    rw [alone_concat_of_not pre hev, ← h.same_vad fun hf => hforeign (hf.mono (List.prefix_append _ _)),
      Machine.run_concat]
    -- If another connection had frames pending, its pass would be foreign.
    apply step_vad_of_idle
    intro j c hj hc hpending
    apply hforeign
    rw [hj] at hev ⊢
    refine ⟨pre, j, c, List.prefix_refl _, ?_, hc, hpending⟩
    intro hji
    rw [hji] at hev
    simp [Event.isOf] at hev

theorem Isolated.step_own {pre : List Event} (h : Isolated vadProcess vad peers i pre) {ev : Event}
    (hev : ev.isOf i = true) (hund : Undisturbed (machine vadProcess vad peers) i (pre ++ [ev]))
    (hgoing : ((machine vadProcess vad peers).run (pre ++ [ev])).terminated = false)
    : Isolated vadProcess vad peers i (pre ++ [ev]) := by
  have hmono : ¬Foreign (machine vadProcess vad peers) i (pre ++ [ev])
      → ¬Foreign (machine vadProcess vad peers) i pre :=
    fun hforeign hf => hforeign (hf.mono (List.prefix_append _ _))
  have halone := alone_concat_of pre hev
  rw [Machine.run_concat] at hgoing
  cases ev with
  | connect j state =>
    have hj : j = i := by simpa [Event.isOf] using hev
    subst hj
    constructor
    . rw [halone, Machine.run_concat, Machine.run_concat]
      exact h.alike.step_connect vadProcess peers state
    . intro hforeign
      rw [halone, Machine.run_concat, Machine.run_concat]
      show (step vadProcess peers _ _).vad = (step vadProcess peers _ _).vad
      rw [step_vad_of_idle, step_vad_of_idle]
      . exact h.same_vad (hmono hforeign)
      . intro k c hk
        cases hk
      . intro k c hk
        cases hk
  | on j e =>
    have hj : j = i := by simpa [Event.isOf] using hev
    subst hj
    have hstep := h.alike.step_on vadProcess peers e (fun c hc he hpending => h.same_vad (by
      rw [he] at hund
      exact hund pre c (List.prefix_refl _) hc hpending)) hgoing
    constructor
    . rw [halone, Machine.run_concat, Machine.run_concat]
      exact hstep.1
    . intro hforeign
      rw [halone, Machine.run_concat, Machine.run_concat]
      exact hstep.2 (h.same_vad (hmono hforeign))

theorem isolated_run {schedule : List Event}
    (hund : Undisturbed (machine vadProcess vad peers) i schedule) {pre : List Event}
    (hpre : pre <+: schedule)
    (hgoing : ((machine vadProcess vad peers).run pre).terminated = false)
    : Isolated vadProcess vad peers i pre := by
  induction pre using List.reverseRecOn with
  | nil =>
    exact ⟨⟨rfl, rfl, rfl⟩, fun _ => rfl⟩
  | append_singleton pre ev ih =>
    have h := ih ((List.prefix_append _ _).trans hpre) (going_of_concat hgoing)
    cases hev : ev.isOf i with
    | false => exact h.step_other hev hgoing
    | true => exact h.step_own hev (hund.of_prefix hpre) hgoing

end Isolated

/--
While the process runs, a session that only uses the VAD as long as no other session did records and
posts what it would alone on the server.
-/
theorem isolated_of_undisturbed (vadProcess : ν → List Int16 → Int × ν) (vad : ν)
    (peers : Nat → Peer) (i : Nat) (schedule : List Event)
    (hund : Undisturbed (machine vadProcess vad peers) i schedule)
    : ∀ pre c, pre <+: schedule → ((machine vadProcess vad peers).run pre).terminated = false →
        ((machine vadProcess vad peers).run pre).conns i = some c →
          ∃ a, ((machine vadProcess vad peers).run (alone i pre)).conns i = some a
            ∧ c.handler.acts = a.handler.acts
            ∧ c.posts = a.posts
            ∧ c.sent = a.sent := by
  intro pre c hpre hgoing hc
  have hisolated := isolated_run hund hpre hgoing
  obtain ⟨a, ha, herase⟩ := hisolated.alike.some_of_some hc
  refine ⟨a, ha, ?_, ?_, ?_⟩
  . exact congrArg (fun c => c.handler.acts) herase
  . exact congrArg (fun c => c.posts) herase
  . exact congrArg (fun c => c.sent) herase

def hangover (overHang : Nat) (frame : List Int16) : Int × Nat :=
  if frame.any (· != 0) then
    (1, 6)
  else if overHang > 0 then
    (1, overHang - 1)
  else
    (0, 0)

def quietPeer : Peer where
  post _ _ := some []
  write _ _ := true
  close _ := true
  round := .exact

def oneFrame (i : Nat) (byte : UInt8) : List Event :=
  [.connect i 0, .on i (.accept true), .on i (.recv (.text (some StartMsg.plain.val))),
    .on i (.recv (.binary (List.replicate 364 byte))), .on i .pass]

def Event.passOf : Event → Option Nat
  | .on i .pass => some i
  | _ => none

theorem undisturbed_of_first {m : Machine (Server ν) Event} {i : Nat} {schedule : List Event}
    {later : List Nat} (hfirst : schedule.filterMap Event.passOf = i :: later) (hi : i ∉ later)
    : Undisturbed m i schedule := by
  rintro pre c hpre _ _ ⟨pre', j, _, hin, _, _, _⟩
  have hpasses := hpre.filterMap Event.passOf
  rw [hfirst, List.filterMap_append] at hpasses
  have hj : j ∈ pre.filterMap Event.passOf :=
    (hin.filterMap Event.passOf).mem (by simp [Event.passOf])
  cases hps : pre.filterMap Event.passOf with
  | nil =>
    rw [hps] at hj
    exact List.not_mem_nil hj
  | cons k ks =>
    rw [hps] at hpasses
    have htail := (List.cons_prefix_cons.mp hpasses).2
    exact hi (htail.mem (by simp [Event.passOf]))

theorem oneFrame_passes (i : Nat) (byte : UInt8)
    : (oneFrame i byte).filterMap Event.passOf = [i] := by
  unfold oneFrame
  generalize List.replicate 364 byte = buffer
  rfl

theorem isolated_first
    : ∃ c a : Conn Nat,
        ((machine hangover 0 fun _ => quietPeer).run (oneFrame 0 0 ++ oneFrame 1 1)).conns 0 = some c
          ∧ ((machine hangover 0 fun _ => quietPeer).run
            (alone 0 (oneFrame 0 0 ++ oneFrame 1 1))).conns 0 = some a
          ∧ c.handler.acts = a.handler.acts
          ∧ c.posts = a.posts
          ∧ c.sent = a.sent := by
  have hfirst : (oneFrame 0 0 ++ oneFrame 1 1).filterMap Event.passOf = 0 :: [1] := by
    rw [List.filterMap_append, oneFrame_passes, oneFrame_passes]
    rfl
  have hgoing : ((machine hangover 0 fun _ => quietPeer).run
      (oneFrame 0 0 ++ oneFrame 1 1)).terminated = false := by
    decide +kernel
  have hsome : (((machine hangover 0 fun _ => quietPeer).run
      (oneFrame 0 0 ++ oneFrame 1 1)).conns 0).isSome = true := by
    decide +kernel
  obtain ⟨c, hc⟩ := Option.isSome_iff_exists.mp hsome
  obtain ⟨a, ha⟩ := isolated_of_undisturbed hangover 0 (fun _ => quietPeer) 0
    (oneFrame 0 0 ++ oneFrame 1 1) (undisturbed_of_first hfirst (by simp))
    (oneFrame 0 0 ++ oneFrame 1 1) c (List.prefix_refl _) hgoing hc
  exact ⟨c, a, hc, ha⟩

theorem session_not_isolated
    : let server := machine hangover 0 fun _ => quietPeer
      let schedule := oneFrame 1 1 ++ oneFrame 0 0
      (server.run schedule).terminated = false
      ∧
      ((server.run schedule).conns 0).map (·.handler.acts.acts) = some [1]
      ∧
      ((server.run (alone 0 schedule)).conns 0).map (·.handler.acts.acts) = some [0] := by
  decide +kernel

end Server
