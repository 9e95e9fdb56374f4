import RealtimeAsr.Websocket.Agree
import RealtimeAsr.Websocket.Isolation
import RealtimeAsr.Websocket.Reader
import RealtimeAsr.Websocket.Transfer

/-!
This module shows what the connections of a server are in spite of the VAD instance that they share: each
of them is a session of its own, with a VAD whose decisions are given.
-/

variable {ν : Type}

def scripted : List Int → List Int16 → Int × List Int
  | [], _ => (0, [])
  | d :: ds, _ => (d, ds)

section Answers

variable (vadProcess : ν → List Int16 → Int × ν) (F : List Int16 → Prop)

/--
What frames in `F`, however many, make of the instance.
-/
inductive Heard (vad : ν) : ν → Prop where
  | nothing : Heard vad vad
  | frame {v : ν} {f : List Int16} (h : Heard vad v) (hf : F f) : Heard vad (vadProcess v f).2

def Answer (vad : ν) (d : Int) : Prop :=
  ∃ v f, Heard vadProcess F vad v ∧ F f ∧ d = (vadProcess v f).1

end Answers

section Scripted

variable {vadProcess : ν → List Int16 → Int × ν} {F : List Int16 → Prop} {vad : ν} {p : Peer}

namespace ConnectionHandler

open Conn (setVad)
open Prog (Maps)

/--
The program `x` of a connection finds the decisions that it needs at the front of the script.
-/
def Consumes {α : Type} (vadProcess : ν → List Int16 → Int × ν) (F : List Int16 → Prop) (vad : ν)
    (x : Prog (Conn ν) α) (y : Prog (Conn (List Int)) α) (c : Conn ν) : Prop :=
  ∃ ds, (∀ d ∈ ds, Answer vadProcess F vad d) ∧ Heard vadProcess F vad (x c).2.vad
    ∧ ∀ rest, y (c.setVad (ds ++ rest)) = ((x c).1, (x c).2.setVad rest)

namespace Consumes

variable {α β : Type} {x : Prog (Conn ν) α} {y : Prog (Conn (List Int)) α} {c : Conn ν}

theorem of_maps (hx : ∀ v, Maps (setVad v) x x) (hy : ∀ v, Maps (setVad v) x y)
    (hheard : Heard vadProcess F vad c.vad)
    : Consumes vadProcess F vad x y c := by
  refine ⟨[], fun d hd => absurd hd List.not_mem_nil, ?_, fun rest => hy rest c⟩
  have hsame := hx c.vad c
  have hvad : (x c).2.vad = c.vad := congrArg (fun r => r.2.vad) hsame
  rw [hvad]
  exact hheard

theorem bind {f : α → Prog (Conn ν) β} {f' : α → Prog (Conn (List Int)) β}
    (h : Consumes vadProcess F vad x y c)
    (hf : ∀ a s, x c = (some a, s) → Heard vadProcess F vad s.vad
      → Consumes vadProcess F vad (f a) (f' a) s)
    : Consumes vadProcess F vad (x >>= f) (y >>= f') c := by
  obtain ⟨ds, hds, hheard, hrun⟩ := h
  cases hx : x c with
  | mk res s =>
    rw [hx] at hheard hrun
    cases res with
    | none =>
      refine ⟨ds, hds, ?_, fun rest => ?_⟩
      . rw [Prog.bind_apply, hx]
        exact hheard
      . rw [Prog.bind_apply, Prog.bind_apply, hx, hrun rest]
    | some a =>
      obtain ⟨ds', hds', hheard', hrun'⟩ := hf a s hx hheard
      refine ⟨ds ++ ds', ?_, ?_, fun rest => ?_⟩
      . intro d hd
        exact (List.mem_append.mp hd).elim (hds d) (hds' d)
      . rw [Prog.bind_apply, hx]
        exact hheard'
      . rw [Prog.bind_apply, Prog.bind_apply, hx, List.append_assoc, hrun (ds' ++ rest)]
        exact hrun' rest

theorem get_bind {f : Conn ν → Prog (Conn ν) β} {f' : Conn (List Int) → Prog (Conn (List Int)) β}
    (hsame : ∀ ds, f' (c.setVad ds) = f' (c.setVad []))
    (h : Consumes vadProcess F vad (f c) (f' (c.setVad [])) c)
    : Consumes vadProcess F vad (Prog.get >>= f) (Prog.get >>= f') c := by
  obtain ⟨ds, hds, hheard, hrun⟩ := h
  refine ⟨ds, hds, hheard, fun rest => ?_⟩
  rw [Prog.get_bind_apply, Prog.get_bind_apply, hsame]
  exact hrun rest

end Consumes

theorem vadFrames_consumes {n lo : Nat} {c : Conn ν} (hheard : Heard vadProcess F vad c.vad)
    (hframes : ∀ i, lo ≤ i → i < lo + n → F (frame c.handler.samples i))
    : Consumes vadProcess F vad (Prog.forRange.go (vadFrame (p.env vadProcess)) n lo)
        (Prog.forRange.go (vadFrame (p.env scripted)) n lo) c := by
  induction n generalizing lo c with
  | zero => exact Consumes.of_maps (fun _ => .pure ()) (fun _ => .pure ()) hheard
  | succ n ih =>
    have hframe := hframes lo (Nat.le_refl _) (by omega)
    have hfirst : Consumes vadProcess F vad (vadFrame (p.env vadProcess) lo)
        (vadFrame (p.env scripted) lo) c := by
      refine ⟨[(vadProcess c.vad (frame c.handler.samples lo)).1], ?_, hheard.frame hframe, fun rest => rfl⟩
      exact List.forall_mem_singleton.mpr ⟨c.vad, _, hheard, hframe, rfl⟩
    refine hfirst.bind fun _ s hs hheard' => ih hheard' fun i hlo hi => ?_
    have hsamples : s.handler.samples = c.handler.samples :=
      congrArg (fun r => r.2.handler.samples) hs.symm
    rw [hsamples]
    exact hframes i (by omega) (by omega)

theorem decodeRanges_consumes {c : Conn ν} (hheard : Heard vadProcess F vad c.vad)
    (hframes : c.handler.New → ∀ i < c.handler.nframes, F (frame c.handler.samples i))
    : Consumes vadProcess F vad (decodeRanges (p.env vadProcess)) (decodeRanges (p.env scripted)) c := by
  by_cases hnew : c.handler.New
  . have htail {μ : Type} (vadProcess' : μ → List Int16 → Int × μ) (v : μ)
        : Maps (setVad v)
          (onHandler (fun h =>
              { h with lastFrame := c.handler.nframes, lastNranges := c.handler.rcvRangeSmps.length })
            >>= fun _ => postRanges (p.env vadProcess) c.handler.endSplIdx)
          (onHandler (fun h =>
              { h with lastFrame := c.handler.nframes, lastNranges := c.handler.rcvRangeSmps.length })
            >>= fun _ => postRanges (p.env vadProcess') c.handler.endSplIdx) :=
      .bind (onHandler_maps _) fun _ => postRanges_maps _
    have hloop : Consumes vadProcess F vad
        (Prog.forRange c.handler.lastFrame c.handler.nframes (vadFrame (p.env vadProcess)))
        (Prog.forRange c.handler.lastFrame c.handler.nframes (vadFrame (p.env scripted))) c :=
      vadFrames_consumes hheard fun i hlo hi => hframes hnew i (by omega)
    have hall := hloop.bind fun _ s _ hs => Consumes.of_maps (htail vadProcess) (htail scripted) hs
    obtain ⟨ds, hds, hs, hrun⟩ := hall
    refine ⟨ds, hds, ?_, fun rest => ?_⟩
    . rw [decodeRanges_new _ hnew]
      exact hs
    . rw [decodeRanges_new _ hnew,
        decodeRanges_new (p.env scripted) (c := c.setVad (ds ++ rest)) hnew]
      exact hrun rest
  . refine ⟨[], fun d hd => absurd hd List.not_mem_nil, ?_, fun rest => ?_⟩
    . rw [decodeRanges_old _ hnew]
      exact hheard
    . rw [decodeRanges_old _ hnew, decodeRanges_old (p.env scripted) (c := c.setVad ([] ++ rest)) hnew]
      rfl

theorem decodeThreadFunc_consumes {c : Conn ν} (hheard : Heard vadProcess F vad c.vad)
    (hframes : c.handler.state = 1 → c.handler.New →
      ∀ i < c.handler.nframes, F (frame c.handler.samples i))
    : Consumes vadProcess F vad (decodeThreadFunc (p.env vadProcess)) (decodeThreadFunc (p.env scripted))
        c := by
  apply Consumes.get_bind (fun _ => rfl)
  show Consumes vadProcess F vad (if c.handler.state = 3 then _ else _)
    (if c.handler.state = 3 then _ else _) c
  split
  . exact .of_maps (fun _ => .bind (finishRecognition_maps _) fun _ => .pure false)
      (fun _ => .bind (finishRecognition_maps _) fun _ => .pure false) hheard
  . show Consumes vadProcess F vad (if c.handler.state = 2 then _ else _)
      (if c.handler.state = 2 then _ else _) c
    split
    . exact .of_maps (fun _ => .bind rescore_maps fun _ => .pure false)
        (fun _ => .bind rescore_maps fun _ => .pure false) hheard
    . show Consumes vadProcess F vad (if c.handler.state = 1 then _ else _)
        (if c.handler.state = 1 then _ else _) c
      split
      . next h1 =>
        refine (decodeRanges_consumes hheard (hframes h1)).bind fun _ s _ hs => ?_
        exact .of_maps (fun _ => .pure true) (fun _ => .pure true) hs
      . exact .of_maps (fun _ => .pure true) (fun _ => .pure true) hheard

end ConnectionHandler

namespace Conn

def Plays (vadProcess : ν → List Int16 → Int × ν) (F : List Int16 → Prop) (vad : ν) (p : Peer) (c : Conn ν)
    (e : Event) : Prop :=
  ∃ ds, (∀ d ∈ ds, Answer vadProcess F vad d) ∧ Heard vadProcess F vad (c.step (p.env vadProcess) e).vad
    ∧ ∀ rest, (c.setVad (ds ++ rest)).step (p.env scripted) e = (c.step (p.env vadProcess) e).setVad rest

theorem Plays.of_setVad {c : Conn ν} {e : Event} (hheard : Heard vadProcess F vad c.vad)
    (hsame : ∀ v, (c.setVad v).step (p.env vadProcess) e = (c.step (p.env vadProcess) e).setVad v)
    (hscript : ∀ rest, (c.setVad rest).step (p.env scripted) e
      = (c.step (p.env vadProcess) e).setVad rest)
    : Plays vadProcess F vad p c e := by
  refine ⟨[], fun d hd => absurd hd List.not_mem_nil, ?_, hscript⟩
  have hvad := congrArg Conn.vad (hsame c.vad)
  show Heard vadProcess F vad ((c.setVad c.vad).step (p.env vadProcess) e).vad
  rw [hvad]
  exact hheard

theorem pass_plays {c : Conn ν} (hheard : Heard vadProcess F vad c.vad)
    (hframes : c.alive = true ∧ c.decoder = .running → c.handler.state = 1 → c.handler.New →
      ∀ i < c.handler.nframes, F (frame c.handler.samples i))
    : Plays vadProcess F vad p c .pass := by
  by_cases hgo : c.alive = true ∧ c.decoder = .running
  . obtain ⟨ds, hds, hs, hrun⟩ := ConnectionHandler.decodeThreadFunc_consumes (p := p) hheard (hframes hgo)
    refine ⟨ds, hds, ?_, fun rest => ?_⟩
    . rw [show c.step (p.env vadProcess) .pass = _ from if_pos hgo]
      cases hfunc : ConnectionHandler.decodeThreadFunc (p.env vadProcess) c with
      | mk res s =>
        rw [hfunc] at hs
        rcases res with _ | _ | _
        . exact hs
        . exact hs
        . exact hs
    . rw [show c.step (p.env vadProcess) .pass = _ from if_pos hgo,
        show (c.setVad (ds ++ rest)).step (p.env scripted) .pass = _ from if_pos hgo, hrun rest]
      cases ConnectionHandler.decodeThreadFunc (p.env vadProcess) c with
      | mk res s =>
        rcases res with _ | _ | _
        . rfl
        . rfl
        . rfl
  . have hidle {μ : Type} (env : Env μ) (c : Conn μ) (hgo : ¬(c.alive = true ∧ c.decoder = .running))
        : c.step env .pass = c := if_neg hgo
    apply Plays.of_setVad hheard
    . intro v
      rw [hidle _ c hgo, hidle _ (c.setVad v) hgo]
    . intro rest
      rw [hidle _ c hgo, hidle _ (c.setVad rest) hgo]

theorem step_plays {c : Conn ν} (hheard : Heard vadProcess F vad c.vad) {e : Event}
    (hframes : e = .pass → c.alive = true ∧ c.decoder = .running → c.handler.state = 1 → c.handler.New →
      ∀ i < c.handler.nframes, F (frame c.handler.samples i))
    : Plays vadProcess F vad p c e := by
  cases e with
  | accept ok => exact .of_setVad hheard (fun v => accept_setVad v ok c) fun v => accept_setVad v ok c
  | recv m =>
    exact .of_setVad hheard (fun v => recv_setVad p vadProcess vadProcess v m c)
      fun v => recv_setVad p vadProcess scripted v m c
  | pass => exact pass_plays hheard (hframes rfl)
  | join => exact .of_setVad hheard (fun v => join_setVad v c) fun v => join_setVad v c
  | destroy => exact .of_setVad hheard (fun v => destroy_setVad v c) fun v => destroy_setVad v c

end Conn

end Scripted

namespace Server

def Event.own (i : Nat) : Event → Option Conn.Event
  | .on j e => if j = i then some e else none
  | .connect _ _ => none

def sessionOf (i : Nat) : List Event → Option (Int × List Conn.Event)
  | [] => none
  | .connect j state :: events =>
    if j = i then some (state, events.filterMap (Event.own i)) else sessionOf i events
  | .on _ _ :: events => sessionOf i events

theorem sessionOf_concat (i : Nat) (events : List Event) (ev : Event)
    : sessionOf i (events ++ [ev])
        =
      match sessionOf i events with
      | some (state, es) => some (state, es ++ (ev.own i).toList)
      | none => sessionOf i [ev] := by
  induction events with
  | nil => rfl
  | cons ev' events ih =>
    cases ev' with
    | on j e => exact ih
    | connect j state =>
      by_cases hj : j = i
      . have hcons (es : List Event)
            : sessionOf i (.connect j state :: es) = some (state, es.filterMap (Event.own i)) := if_pos hj
        rw [List.cons_append, hcons, hcons, List.filterMap_append]
        cases hown : ev.own i with
        | none =>
          rw [List.filterMap_cons_none hown]
          rfl
        | some e =>
          rw [List.filterMap_cons_some hown]
          rfl
      . have hcons (es : List Event) : sessionOf i (.connect j state :: es) = sessionOf i es := if_neg hj
        rw [List.cons_append, hcons, hcons, ih]

theorem sessionOf_other {i : Nat} {ev : Event} (h : ev.isOf i = false) (events : List Event)
    : sessionOf i (events ++ [ev]) = sessionOf i events := by
  have hown : ev.own i = none ∧ sessionOf i [ev] = none := by
    cases ev with
    | connect j state => exact ⟨rfl, if_neg (by simpa [Event.isOf] using h)⟩
    | on j e => exact ⟨if_neg (by simpa [Event.isOf] using h), rfl⟩
  rw [sessionOf_concat, hown.1, hown.2]
  cases sessionOf i events with
  | none => rfl
  | some r => exact congrArg (fun es => some (r.1, es)) (List.append_nil _)

variable (vadProcess : ν → List Int16 → Int × ν) (F : List Int16 → Prop) (vad : ν) (peers : Nat → Peer)

structure Projects (pre : List Event) (s : Server ν) : Prop where
  heard : Heard vadProcess F vad s.vad
  absent : ∀ i, s.conns i = none → sessionOf i pre = none
  session : ∀ i, ∀ c ∈ s.conns i, ∃ state events ds, sessionOf i pre = some (state, events)
    ∧ (∀ d ∈ ds, Answer vadProcess F vad d)
    ∧ ∀ rest, (Conn.machine ((peers i).env scripted) state (ds ++ rest)).run events = c.setVad rest

def FramesIn (s : Server ν) : Prop :=
  ∀ i, ∀ c ∈ s.conns i, ∀ n, (n + 1) * ConnectionHandler.samplesPerFrame ≤ c.handler.samples.length →
    F (frame c.handler.samples n)

variable {vadProcess F vad peers}

theorem Projects.of_own {pre : List Event} {s s' : Server ν} (h : Projects vadProcess F vad peers pre s)
    {ev : Event} {j : Nat} (hj : ∀ i ≠ j, ev.isOf i = false) (hheard : Heard vadProcess F vad s'.vad)
    (hother : ∀ i ≠ j, s'.conns i = s.conns i)
    (habsent : s'.conns j = none → sessionOf j (pre ++ [ev]) = none)
    (hsession : ∀ c ∈ s'.conns j, ∃ state events ds, sessionOf j (pre ++ [ev]) = some (state, events)
      ∧ (∀ d ∈ ds, Answer vadProcess F vad d)
      ∧ ∀ rest, (Conn.machine ((peers j).env scripted) state (ds ++ rest)).run events = c.setVad rest)
    : Projects vadProcess F vad peers (pre ++ [ev]) s' where
  heard := hheard
  absent i hi := by
    by_cases hij : i = j
    . rw [hij] at hi ⊢
      exact habsent hi
    . rw [hother i hij] at hi
      rw [sessionOf_other (hj i hij)]
      exact h.absent i hi
  session i c hc := by
    by_cases hij : i = j
    . rw [hij] at hc ⊢
      exact hsession c hc
    . rw [hother i hij] at hc
      rw [sessionOf_other (hj i hij)]
      exact h.session i c hc

theorem Projects.connect {pre : List Event} {s : Server ν} (h : Projects vadProcess F vad peers pre s)
    (hgoing : s.terminated = false) (j : Nat) (state : Int)
    : Projects vadProcess F vad peers (pre ++ [.connect j state])
        (step vadProcess peers s (.connect j state)) := by
  have hj (i : Nat) (hne : i ≠ j) : (Event.connect j state).isOf i = false := by
    simp [Event.isOf, Ne.symm hne]
  rw [step_connect vadProcess peers hgoing]
  cases hconn : s.conns j with
  | some c₀ =>
    refine h.of_own hj h.heard (fun _ _ => rfl) (fun hnone => ?_) fun c hc => ?_
    . cases hnone.symm.trans hconn
    . obtain ⟨state₀, events, ds, hsession, hrest⟩ := h.session j c hc
      refine ⟨state₀, events, ds, ?_, hrest⟩
      rw [sessionOf_concat, hsession]
      exact congrArg (fun es => some (state₀, es)) (List.append_nil _)
  | none =>
    have hself : (s.setConn j (Conn.new state s.vad)).conns j = some (Conn.new state s.vad) := if_pos rfl
    refine h.of_own hj h.heard (fun i hne => if_neg hne) (fun hnone => ?_) fun c hc => ?_
    . cases hnone.symm.trans hself
    . refine ⟨state, [], [], ?_, fun d hd => absurd hd List.not_mem_nil, fun rest => ?_⟩
      . rw [sessionOf_concat, h.absent j hconn]
        exact if_pos rfl
      . rw [← Option.some_inj.mp (hself.symm.trans hc)]
        rfl

theorem Projects.on {pre : List Event} {s : Server ν} (h : Projects vadProcess F vad peers pre s)
    (hgoing : s.terminated = false) (hframes : FramesIn F s) (j : Nat) (e : Conn.Event)
    : Projects vadProcess F vad peers (pre ++ [.on j e]) (step vadProcess peers s (.on j e)) := by
  have hj (i : Nat) (hne : i ≠ j) : (Event.on j e).isOf i = false := by
    simp [Event.isOf, Ne.symm hne]
  have hown : (Event.on j e).own j = some e := if_pos rfl
  rw [step_on vadProcess peers hgoing]
  cases hconn : s.conns j with
  | none =>
    refine h.of_own hj h.heard (fun _ _ => rfl) (fun _ => ?_) fun c hc => ?_
    . rw [sessionOf_concat, h.absent j hconn]
      rfl
    . cases hc.symm.trans hconn
  | some c₀ =>
    obtain ⟨state, events, ds, hsession, hds, hrun⟩ := h.session j c₀ hconn
    have hsound := Conn.sound_run ((peers j).env scripted) state (ds ++ []) events
    rw [hrun []] at hsound
    have hplays : Conn.Plays vadProcess F vad (peers j) (c₀.withVad s.vad) e := by
      refine Conn.step_plays h.heard fun _ hgo _ hnew i hi => hframes j c₀ hconn i ?_
      have hsync := Conn.running_sync hsound hgo.1 hgo.2
      have hend : (c₀.setVad ([] : List Int)).handler.endSplIdx = (c₀.handler.samples.length : Int) - 1 :=
        ConnectionHandler.endSplIdx_eq hsync hnew
      have hnframes : c₀.handler.nframes
          = c₀.handler.samples.length / ConnectionHandler.samplesPerFrame := by
        show (((c₀.setVad ([] : List Int)).handler.endSplIdx + 1).tdiv _).toNat = _
        rw [hend, ConnectionHandler.nframes_eq]
      have hlt : i < c₀.handler.nframes := hi
      rw [hnframes, Nat.lt_iff_add_one_le, Nat.le_div_iff_mul_le (by decide)] at hlt
      exact hlt
    obtain ⟨ds', hds', hheard, hplay⟩ := hplays
    dsimp only
    refine h.of_own hj hheard (fun i hne => if_neg hne) (fun hnone => ?_) fun c hc => ?_
    . cases hnone.symm.trans (if_pos rfl)
    . refine ⟨state, events ++ [e], ds ++ ds', ?_, ?_, fun rest => ?_⟩
      . rw [sessionOf_concat, hsession, hown]
        rfl
      . intro d hd
        exact (List.mem_append.mp hd).elim (hds d) (hds' d)
      . have hself := Option.some_inj.mp ((if_pos rfl).symm.trans hc)
        rw [List.append_assoc, Machine.run_concat, hrun (ds' ++ rest), ← hself]
        exact hplay rest

theorem projects_run {schedule : List Event}
    (hframes : ∀ pre, pre <+: schedule → FramesIn F ((machine vadProcess vad peers).run pre))
    : let s := (machine vadProcess vad peers).run schedule
      ∃ pre, pre <+: schedule ∧ (s.terminated = false → pre = schedule)
        ∧ Projects vadProcess F vad peers pre s := by
  induction schedule using List.reverseRecOn with
  | nil =>
    refine ⟨[], List.prefix_refl _, fun _ => rfl, Heard.nothing, fun _ _ => rfl, fun i c hc => ?_⟩
    cases hc
  | append_singleton schedule ev ih =>
    obtain ⟨pre, hpre, hall, hprojects⟩ :=
      ih fun pre hpre => hframes pre (hpre.trans (List.prefix_append _ _))
    have hin := hframes schedule (List.prefix_append _ _)
    dsimp only
    rw [Machine.run_concat]
    generalize (machine vadProcess vad peers).run schedule = s at hall hprojects hin ⊢
    show ∃ pre, pre <+: schedule ++ [ev] ∧ ((step vadProcess peers s ev).terminated = false → _)
      ∧ Projects vadProcess F vad peers pre (step vadProcess peers s ev)
    cases hgoing : s.terminated with
    | true =>
      rw [step_terminated vadProcess peers hgoing]
      refine ⟨pre, hpre.trans (List.prefix_append _ _), fun hnot => ?_, hprojects⟩
      cases hnot.symm.trans hgoing
    | false =>
      rw [hall hgoing] at hprojects
      refine ⟨schedule ++ [ev], List.prefix_refl _, fun _ => rfl, ?_⟩
      cases ev with
      | connect j state => exact hprojects.connect hgoing j state
      | on j e => exact hprojects.on hgoing hin j e

theorem framesIn_full (s : Server ν)
    : FramesIn (fun f => f.length = ConnectionHandler.samplesPerFrame) s := by
  intro i c hc n hn
  unfold frame ConnectionHandler.samplesPerFrame at *
  rw [List.length_take, List.length_drop]
  omega

theorem session_of_run {schedule : List Event}
    (hframes : ∀ pre, pre <+: schedule → FramesIn F ((machine vadProcess vad peers).run pre)) {i : Nat}
    {c : Conn ν} (hc : c ∈ ((machine vadProcess vad peers).run schedule).conns i)
    : ∃ pre state events decisions,
        (pre <+: schedule
            ∧ (((machine vadProcess vad peers).run schedule).terminated = false → pre = schedule))
          ∧ sessionOf i pre = some (state, events)
          ∧ (∀ d ∈ decisions, Answer vadProcess F vad d)
          ∧ (Conn.machine ((peers i).env scripted) state decisions).run events = c.setVad [] := by
  obtain ⟨pre, hpre, hall, hprojects⟩ := projects_run hframes
  obtain ⟨state, events, ds, hsession, hds, hrun⟩ := hprojects.session i c hc
  have hrun := hrun []
  rw [List.append_nil] at hrun
  exact ⟨pre, state, events, ds, ⟨hpre, hall⟩, hsession, hds, hrun⟩

section Sessions

variable (vadProcess : ν → List Int16 → Int × ν) (vad : ν) (peers : Nat → Peer) (schedule : List Event)
  (i : Nat)

/--
So every connection reads its samples only where they are, and the text that its client was sent stays a
prefix of what comes later, although other connections use the VAD in between.
-/
theorem connections_good
    : ∀ c ∈ ((machine vadProcess vad peers).run schedule).conns i, Good c := by
  intro c hc
  obtain ⟨pre, state, events, decisions, -, -, -, hrun⟩ :=
    session_of_run (fun _ _ => framesIn_full _) hc
  have hgood := (Conn.sound_run ((peers i).env scripted) state decisions events).good
  rw [hrun] at hgood
  exact ⟨hgood.access, hgood.sorted, hgood.stable, hgood.extended⟩

theorem connections_good_on_data
    : ∃ c ∈ ((machine hangover 0 fun _ => quietPeer).run (oneFrame 1 1 ++ oneFrame 0 0)).conns 0,
        c.handler.acts.acts = [1] ∧ Good c := by
  have hsome : (((machine hangover 0 fun _ => quietPeer).run
      (oneFrame 1 1 ++ oneFrame 0 0)).conns 0).map (·.handler.acts.acts) = some [1] := by
    decide +kernel
  obtain ⟨c, hc, hacts⟩ := Option.map_eq_some_iff.mp hsome
  exact ⟨c, hc, hacts, connections_good hangover 0 (fun _ => quietPeer) _ 0 c hc⟩

end Sessions

end Server
