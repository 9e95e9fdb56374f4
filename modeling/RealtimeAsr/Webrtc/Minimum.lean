import RealtimeAsr.Webrtc.Features
import RealtimeAsr.Webrtc.Smoothing
import RealtimeAsr.Webrtc.Window

/-!
This module shows which features the VAD remembers of each channel, over any sequence of calls.
-/

namespace WebRtc

namespace VadInst

open Lowest (Entry)

variable {ρ : Type} (c : Overflow) (r : Resampler ρ) (self : VadInst ρ)

structure SameArrays (s t : VadInst ρ) : Prop where
  values : t.lowValueVector = s.lowValueVector
  age : t.indexVector = s.indexVector

structure Remembers (inst : VadInst ρ) (channel : Fin 6) (es : List (Entry Int16)) : Prop where
  holds : ∃ values age, (inst.smallest channel).Holds es values age
  sorted : es.Pairwise fun e f => e.value ≤ f.value

variable {self}

theorem smallest_eq (channel : Fin 6)
    : self.smallest channel
        =
      { values := self.lowValueVector.drop (16 * channel)
        age := self.indexVector.drop (16 * channel) } := by
  unfold smallest
  rw [Nat.shiftLeft_eq, Nat.mul_comm]

theorem Remembers.congr {t : VadInst ρ} {channel : Fin 6} {es : List (Entry Int16)}
    (h : self.Remembers channel es) (hsame : SameArrays self t)
    : t.Remembers channel es := by
  have hsmallest : t.smallest channel = self.smallest channel := by
    rw [smallest_eq, smallest_eq, hsame.values, hsame.age]
  refine ⟨?_, h.sorted⟩
  rw [hsmallest]
  exact h.holds

theorem findMinimum_arrays (self : VadInst ρ) (featureValue : Int16) (channel : Fin 6)
    : let s := (self.smallest channel).observe featureValue
      (self.findMinimum featureValue channel).2.lowValueVector
          = self.lowValueVector.take (16 * channel) ++ s.values
        ∧ (self.findMinimum featureValue channel).2.indexVector
          = self.indexVector.take (16 * channel) ++ s.age := by
  unfold findMinimum
  dsimp only
  rw [Nat.shiftLeft_eq, Nat.mul_comm]
  exact ⟨rfl, rfl⟩

theorem take_drop_splice {xs ys part : List Int16} {i j : Nat} (hpart : part.length = 16)
    (hlen : 16 * i + 16 ≤ xs.length) (hys : ys = xs.take (16 * i) ++ (part ++ xs.drop (16 * i + 16)))
    (hne : j ≠ i)
    : (ys.drop (16 * j)).take 16 = (xs.drop (16 * j)).take 16 := by
  have htake : (xs.take (16 * i)).length = 16 * i := by
    rw [List.length_take]
    omega
  apply List.ext_getElem?
  intro k
  by_cases hk : k < 16
  . rw [List.getElem?_take_of_lt hk, List.getElem?_take_of_lt hk, List.getElem?_drop,
      List.getElem?_drop, hys]
    by_cases hbelow : j < i
    . rw [List.getElem?_append_left (by omega), List.getElem?_take_of_lt (by omega)]
    . rw [List.getElem?_append_right (by omega), List.getElem?_append_right (by omega), htake, hpart,
        List.getElem?_drop]
      congr 1
      omega
  . rw [List.getElem?_eq_none (by rw [List.length_take]; omega),
      List.getElem?_eq_none (by rw [List.length_take]; omega)]

theorem Remembers.length_le {channel : Fin 6} {es : List (Entry Int16)}
    (h : self.Remembers channel es)
    : 16 * channel.val + 16 ≤ self.lowValueVector.length
        ∧ 16 * channel.val + 16 ≤ self.indexVector.length := by
  obtain ⟨values, age, hholds⟩ := h.holds
  obtain ⟨filler, hfiller, hage⟩ := hholds.age
  have hvalues := hholds.values
  have hles := hholds.length
  rw [smallest_eq] at hvalues hage
  have hlenValues := congrArg List.length hvalues
  have hlenAge := congrArg List.length hage
  simp only [List.length_drop, List.length_append, List.length_map, List.length_replicate, hfiller]
    at hlenValues hlenAge
  omega

theorem Remembers.findMinimum {channel : Fin 6} {es : List (Entry Int16)}
    (h : self.Remembers channel es) {featureValue : Int16} (hfiller : featureValue < 10000)
    : (self.findMinimum featureValue channel).2.Remembers channel
        (Lowest.observe 100 16 es featureValue) := by
  obtain ⟨values, age, hholds⟩ := h.holds
  obtain ⟨hlenValues, hlenAge⟩ := h.length_le
  obtain ⟨hvalues, hage⟩ := self.findMinimum_arrays featureValue channel
  have hsmallest : (self.findMinimum featureValue channel).2.smallest channel
      = (self.smallest channel).observe featureValue := by
    rw [smallest_eq, hvalues, hage, List.drop_left' (by rw [List.length_take]; omega),
      List.drop_left' (by rw [List.length_take]; omega)]
  refine ⟨⟨values, age, ?_⟩, Lowest.observe_sorted 100 16 h.sorted featureValue⟩
  rw [hsmallest]
  exact hholds.observe h.sorted hfiller

theorem Remembers.findMinimum_other {channel channel' : Fin 6} {es es' : List (Entry Int16)}
    (h : self.Remembers channel es) (h' : self.Remembers channel' es') (hne : channel' ≠ channel)
    {featureValue : Int16} (hfiller : featureValue < 10000)
    : (self.findMinimum featureValue channel).2.Remembers channel' es' := by
  obtain ⟨values, age, hholds⟩ := h.holds
  obtain ⟨values', age', hholds'⟩ := h'.holds
  obtain ⟨hlenValues, hlenAge⟩ := h.length_le
  obtain ⟨hvalues, hage⟩ := self.findMinimum_arrays featureValue channel
  have hnew := (hholds.of_take (s := self.smallest channel) rfl rfl).observe h.sorted hfiller
  obtain ⟨filler, hfiller', hnewAge⟩ := hnew.age
  have hle := hnew.length
  have hrest : (self.smallest channel).values.drop 16 = self.lowValueVector.drop (16 * channel + 16)
      ∧ (self.smallest channel).age.drop 16 = self.indexVector.drop (16 * channel + 16) := by
    rw [smallest_eq]
    exact ⟨List.drop_drop, List.drop_drop⟩
  rw [hnew.values, hrest.1] at hvalues
  rw [hnewAge, hrest.2] at hage
  refine ⟨⟨_, _, hholds'.of_take ?_ ?_⟩, h'.sorted⟩
  . rw [smallest_eq, smallest_eq]
    exact take_drop_splice (Smallest.length_part hle Entry.value List.length_replicate) hlenValues
      hvalues (fun heq => hne (Fin.ext heq))
  . rw [smallest_eq, smallest_eq]
    exact take_drop_splice (Smallest.length_part hle (fun e => Int16.ofNat e.age) hfiller') hlenAge
      hage (fun heq => hne (Fin.ext heq))

variable (self)

theorem SameArrays.refl (s : VadInst ρ) : SameArrays s s := ⟨rfl, rfl⟩

theorem SameArrays.trans {s t u : VadInst ρ} (h : SameArrays s t) (h' : SameArrays t u)
    : SameArrays s u where
  values := h'.values.trans h.values
  age := h'.age.trans h.age

theorem updateGaussian_arrays (vadflag : Bool) (feature : Int16) (t : Tested) (channel : Fin 6)
    (featureMinimum tmp1S16 maxspe : Int16) (k : Fin 2)
    : SameArrays self
        (self.updateGaussian c vadflag feature t channel featureMinimum tmp1S16 maxspe k) := by
  unfold updateGaussian
  cases vadflag with
  | false => exact ⟨rfl, rfl⟩
  | true => exact ⟨rfl, rfl⟩

theorem separate_arrays (channel : Fin 6) : SameArrays self (self.separate channel).1 := by
  unfold separate
  dsimp only
  split
  . exact ⟨rfl, rfl⟩
  . exact SameArrays.refl self

theorem updateChannel_arrays (vadflag : Bool) (feature : Int16) (t : Tested) (channel : Fin 6)
    (maxspe : Int16)
    : SameArrays (self.findMinimum feature channel).2
        (self.updateChannel c vadflag feature t channel maxspe) := by
  unfold updateChannel
  dsimp only
  generalize htmp : Int16.ofInt ((weightedAverage _ channel 0 kNoiseDataWeights).1 >>> (6 : Nat)) = tmp1S16
  generalize (self.findMinimum feature channel).2 = self₁
  have h₂ := updateGaussian_arrays c self₁ vadflag feature t channel
    (self.findMinimum feature channel).1 tmp1S16 maxspe 0
  generalize updateGaussian c _ _ _ _ _ _ _ _ 0 = self₂ at h₂ ⊢
  have h₃ := updateGaussian_arrays c self₂ vadflag feature t channel
    (self.findMinimum feature channel).1 tmp1S16 maxspe 1
  generalize updateGaussian c _ _ _ _ _ _ _ _ 1 = self₃ at h₃ ⊢
  have h := (h₂.trans h₃).trans (self₃.separate_arrays channel)
  exact ⟨h.values, h.age⟩

theorem narrow_arrays (fs : Int) (audioFrame : List Int16)
    : SameArrays self (self.narrow r fs audioFrame).2 := by
  obtain ⟨_, _, heq⟩ := self.narrow_eq r fs audioFrame
  rw [heq]
  exact ⟨rfl, rfl⟩

theorem conclude_arrays (mode : Mode) (i : Fin 3) (d : Bool × VadInst ρ)
    : SameArrays d.2 (conclude mode i d).2 := by
  obtain ⟨_, _, _, heq⟩ := conclude_eq mode i d
  rw [heq]
  exact ⟨rfl, rfl⟩

theorem setMode_arrays (mode : Int) : SameArrays self (self.setMode mode).2 := by
  obtain ⟨_, heq⟩ := self.setMode_eq mode
  rw [heq]
  exact ⟨rfl, rfl⟩

/--
The features that the models see of the frame, if it is loud enough.
-/
def observed (fs : Int) (audioFrame : List Int16) : List (Vector Int16 6) :=
  let (speechNB, self) := self.narrow r fs audioFrame
  let (totalPower, featureVector, _) := self.calculateFeatures c speechNB
  if totalPower.toInt > kMinEnergy then [featureVector] else []

/--
The features since the last initialization, the last ones first.
-/
def heard (self : VadInst ρ) (history : List (Vector Int16 6)) : List Call → List (Vector Int16 6)
  | [] => history
  | .init :: calls => heard (self.call c r .init).2 [] calls
  | .setMode mode :: calls => heard (self.call c r (.setMode mode)).2 history calls
  | .process fs audioFrame :: calls =>
    let next := (self.call c r (.process fs audioFrame)).2
    if self.Accepts fs audioFrame then
      heard next (self.observed c r fs audioFrame ++ history) calls
    else
      heard next history calls

def RemembersAll (inst : VadInst ρ) (es : Fin 6 → List (Entry Int16)) : Prop :=
  ∀ channel, inst.Remembers channel (es channel)

def lowestOf (history : List (Vector Int16 6)) (channel : Fin 6) : List (Entry Int16) :=
  Lowest.lowest 100 16 (history.map (·[channel]))

variable {self}

theorem RemembersAll.updateChannel {es : Fin 6 → List (Entry Int16)} (h : self.RemembersAll es)
    (vadflag : Bool) {feature : Int16} (hfeature : feature < 10000) (t : Tested) (channel : Fin 6)
    (maxspe : Int16)
    : (self.updateChannel c vadflag feature t channel maxspe).RemembersAll fun channel' =>
        if channel' = channel then Lowest.observe 100 16 (es channel') feature else es channel' := by
  intro channel'
  apply Remembers.congr _ (self.updateChannel_arrays c vadflag feature t channel maxspe)
  dsimp only
  split
  . next heq =>
    rw [heq]
    exact (h channel).findMinimum hfeature
  . next hne => exact (h channel).findMinimum_other (h channel') hne hfeature

theorem RemembersAll.updateChannels {es es' : Fin 6 → List (Entry Int16)} (h : self.RemembersAll es)
    (vadflag : Bool) {features : Vector Int16 6} (hfeatures : ∀ channel : Fin 6, features[channel] < 10000)
    (tests : Vector Tested 6) {channels : List (Fin 6)} (hnodup : channels.Nodup) (maxspe : Int16)
    (hin : ∀ channel ∈ channels, es' channel = Lowest.observe 100 16 (es channel) features[channel])
    (hout : ∀ channel, channel ∉ channels → es' channel = es channel)
    : (updateChannels c vadflag features tests channels maxspe self).RemembersAll es' := by
  induction channels generalizing self es maxspe with
  | nil =>
    have hes : es' = es := funext fun channel => hout channel List.not_mem_nil
    rw [hes]
    exact h
  | cons channel channels ih =>
    obtain ⟨hnot, hnodup⟩ := List.nodup_cons.mp hnodup
    refine ih (h.updateChannel c vadflag (hfeatures channel) tests[channel] channel maxspe) hnodup
      kMaximumSpeech[channel] ?_ ?_
    . intro channel' hmem
      have hne : channel' ≠ channel := fun heq => hnot (heq ▸ hmem)
      rw [if_neg hne]
      exact hin channel' (List.mem_cons_of_mem _ hmem)
    . intro channel' hnotin
      by_cases heq : channel' = channel
      . rw [if_pos heq, heq]
        exact hin channel List.mem_cons_self
      . rw [if_neg heq]
        exact hout channel' (by simp [heq, hnotin])

theorem RemembersAll.update {es : Fin 6 → List (Entry Int16)} (h : self.RemembersAll es)
    (vadflag : Bool) {features : Vector Int16 6} (hfeatures : ∀ channel : Fin 6, features[channel] < 10000)
    (tests : Vector Tested 6)
    : (self.update c vadflag features tests).RemembersAll fun channel =>
        Lowest.observe 100 16 (es channel) features[channel] := by
  have hall : (VadInst.updateChannels c vadflag features tests (List.finRange 6) 12800 self).RemembersAll
      fun channel => Lowest.observe 100 16 (es channel) features[channel] :=
    h.updateChannels c vadflag hfeatures tests (List.nodup_finRange 6) 12800 (fun _ _ => rfl)
      fun channel hnot => absurd (List.mem_finRange channel) hnot
  intro channel
  have hchannel := hall channel
  unfold VadInst.update
  generalize VadInst.updateChannels c vadflag features tests _ _ self = self₁ at hchannel ⊢
  exact hchannel.congr ⟨rfl, rfl⟩

theorem RemembersAll.congr {es : Fin 6 → List (Entry Int16)} {t : VadInst ρ}
    (h : self.RemembersAll es) (hsame : SameArrays self t)
    : t.RemembersAll es :=
  fun channel => (h channel).congr hsame

theorem RemembersAll.process {history : List (Vector Int16 6)}
    (h : self.RemembersAll (lowestOf history)) {fs : Int} {audioFrame : List Int16}
    (haccepts : self.Accepts fs audioFrame)
    : (self.process c r.resample48khzTo8khz fs audioFrame).2.RemembersAll
        (lowestOf (self.observed c r fs audioFrame ++ history)) := by
  have hnarrow := h.congr (self.narrow_arrays r fs audioFrame)
  obtain ⟨ms, hms, hlen⟩ := self.length_narrow r (validRateAndFrameLength_iff.mp haccepts.2)
  rw [process_eq c r self haccepts]
  apply RemembersAll.congr _ (conclude_arrays _ _ _)
  unfold detect observed
  generalize self.narrow r fs audioFrame = narrowed at hnarrow hlen ⊢
  obtain ⟨speechNB, self₁⟩ := narrowed
  dsimp only at hnarrow hlen ⊢
  have hshort : speechNB.length ≤ 240 := by
    simp only [List.mem_cons, List.not_mem_nil, or_false] at hms
    omega
  have hrange := self₁.calculateFeatures_range c hshort
  have hfeatures := hnarrow.congr (t := (self₁.calculateFeatures c speechNB).2.2) ⟨rfl, rfl⟩
  generalize self₁.calculateFeatures c speechNB = f at hrange hfeatures ⊢
  obtain ⟨totalPower, featureVector, self₂⟩ := f
  dsimp only at hrange hfeatures ⊢
  unfold likelihoodTest
  dsimp only
  split
  . apply hfeatures.update
    intro channel
    have hupper := (hrange channel).2
    have hoffset := (kOffsetVector_range channel).2
    rw [Word16.lt_iff]
    show _ < (10000 : Int)
    omega
  . exact hfeatures

theorem remembersAll_init (memory : VadInst ρ)
    : (memory.call c r .init).2.RemembersAll (lowestOf []) := by
  intro channel
  have hdrop (v : Int16) : (List.replicate 96 v).drop (16 * channel)
      = [] ++ List.replicate 16 v ++ List.replicate (80 - 16 * channel) v := by
    rw [List.drop_replicate, List.nil_append, List.replicate_append_replicate]
    congr 1
    omega
  refine ⟨⟨List.replicate (80 - 16 * channel) 10000, List.replicate (80 - 16 * channel) 0, ?_⟩,
    List.Pairwise.nil⟩
  rw [smallest_eq]
  exact ⟨Nat.zero_le _, hdrop 10000, ⟨List.replicate 16 0, rfl, hdrop 0⟩,
    fun e he => absurd he List.not_mem_nil, fun e he => absurd he List.not_mem_nil⟩

theorem run_remembersAll {history : List (Vector Int16 6)}
    (h : self.RemembersAll (lowestOf history)) (memory : VadInst ρ) (calls : List Call)
    : ((machine c r memory).runFrom self calls).RemembersAll
        (lowestOf (self.heard c r history calls)) := by
  induction calls generalizing self history with
  | nil => exact h
  | cons e calls ih =>
    cases e with
    | init => exact ih (remembersAll_init c r self)
    | setMode mode => exact ih (h.congr (self.setMode_arrays mode))
    | process fs audioFrame =>
      rw [Machine.runFrom_cons, heard]
      split
      . next haccepts => exact ih (h.process c r haccepts)
      . next haccepts =>
        apply ih
        show (self.process c r.resample48khzTo8khz fs audioFrame).2.RemembersAll (lowestOf history)
        rw [process_of_not_accepts c r self haccepts]
        exact h

/--
From an initialization on, a channel holds the lowest of the features since the last initialization: its
values are in order, each of them came within the last 130, and one that came within the last 100 is there
if it is among the 16 lowest around it. The places that are left are 10000.
-/
theorem lowest_features (memory : VadInst ρ) (calls : List Call) (channel : Fin 6)
    : let self := (memory.call c r .init).2
      let history := (self.heard c r [] calls).map (·[channel])
      let s := ((machine c r memory).runFrom self calls).smallest channel
      (s.values.take 16).length = 16
        ∧ (s.values.take 16).Pairwise (· ≤ ·)
        ∧ (∀ v ∈ s.values.take 16, v = 10000 ∨ ∃ n < 130, history[n]? = some v)
        ∧ ∀ n < 100, ∀ v ∈ history[n]?, (history.take (n + 130)).countP (· ≤ v) ≤ 16 →
          v ∈ s.values.take 16 := by
  intro self history s
  obtain ⟨⟨values, age, hholds⟩, hsorted⟩ :=
    run_remembersAll c r (remembersAll_init c r memory) memory calls channel
  have hmap (n : Nat) : history[n]? = (self.heard c r [] calls)[n]?.map (·[channel]) :=
    List.getElem?_map
  have htake : s.values.take 16 = _ :=
    (congrArg (List.take 16) hholds.values).trans
      (List.take_left' (Smallest.length_part hholds.length _ List.length_replicate))
  have hrecent (e : Entry Int16) (he : e ∈ lowestOf (self.heard c r [] calls) channel)
      : e.since < 130 ∧ history[e.since]? = some e.value :=
    Lowest.lowest_recent (by decide) (by decide) history he
  rw [htake]
  refine ⟨Smallest.length_part hholds.length _ List.length_replicate, ?_, fun v hv => ?_,
    fun n hn v hv hfew => ?_⟩
  . rw [List.pairwise_append]
    refine ⟨List.pairwise_map.mpr hsorted, List.pairwise_replicate.mpr (Or.inr le_rfl), fun v hv w hw => ?_⟩
    obtain ⟨e, he, rfl⟩ := List.mem_map.mp hv
    rw [List.eq_of_mem_replicate hw]
    exact le_of_lt (hholds.low e he)
  . rcases List.mem_append.mp hv with hv | hv
    . obtain ⟨e, he, rfl⟩ := List.mem_map.mp hv
      obtain ⟨hlt, hsome⟩ := hrecent e he
      exact Or.inr ⟨e.since, hlt, hsome⟩
    . exact Or.inl (List.eq_of_mem_replicate hv)
  . have hkept : (∃ e ∈ lowestOf (self.heard c r [] calls) channel, e.since = n ∧ e.value = v) ∨ _ :=
      Lowest.lowest_kept (by decide) (by decide) (by decide) hv hn
    rcases hkept with ⟨e, he, -, rfl⟩ | hcrowded
    . exact List.mem_append_left _ (List.mem_map_of_mem he)
    . rw [show n + 100 + 2 * 16 - 2 = n + 130 by omega] at hcrowded
      exact absurd hfew (not_le_of_gt hcrowded)

end VadInst

end WebRtc
