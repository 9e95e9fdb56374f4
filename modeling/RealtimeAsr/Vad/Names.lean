import RealtimeAsr.Lib.Delimited
import RealtimeAsr.Vad.CutAt

/-!
This module contains the file names of the pieces of a run, and when two of them are the same: the text
is cut off at the size of `result_filename`.
-/

def beginText (b : Int) : List Char :=
  (toString (calTimeByFrame b)).toList

theorem beginText_eq {b : Int} (hb : 0 ≤ b) : beginText b = Nat.toDigits 10 (10 * b).toNat := by
  have hpos : 0 ≤ 10 * b := by omega
  unfold beginText calTimeByFrame multi
  rw [Int.toString_eq_repr, Int.one_mul, Int.repr_eq_if, if_pos hpos, Nat.toList_repr]

theorem minus_not_mem_beginText {b : Int} (hb : 0 ≤ b) : '-' ∉ beginText b := by
  rw [beginText_eq hb]
  exact Nat.minus_not_mem_toDigits _

theorem beginText_ne {a b : Int} (ha : 0 ≤ a) (hab : a < b) : beginText a ≠ beginText b := by
  rw [beginText_eq ha, beginText_eq (by omega)]
  intro h
  have hsame := Nat.toDigits_ten_injective h
  omega

/--
How many characters of `result_filename` are left for the times and the label.
-/
def room (dir filenamePrefix : List Char) : Nat :=
  CutInfo.resultFilenameSize - 1 - (dir.length + filenamePrefix.length + 2)

def Hidden (room : Nat) (a b : Int) : Prop :=
  room ≤ (beginText a).length
    ∧ room ≤ (beginText b).length
    ∧ (beginText a).take room = (beginText b).take room

namespace Cutter

def built (c : Cutter) (e : CutCall) : List (Int × List Char) :=
  ((c.writes e).filter (0 < ·)).map fun _ => (c.info.cutBeginFrame, (c.call e).2.info.resultFilename)

def namesBuilt (c : Cutter) : List CutCall → List (Int × List Char)
  | [] => []
  | e :: es => c.built e ++ namesBuilt (c.call e).2 es

structure Named (dir filenamePrefix : List Char) (p : Int × List Char) : Prop where
  begins : 0 ≤ p.1
  name : ∃ rest, p.2 = snprintf CutInfo.resultFilenameSize
    (dir ++ ['/'] ++ filenamePrefix ++ ['_'] ++ (beginText p.1 ++ '-' :: rest))

section

variable {dir filenamePrefix : List Char}

theorem Named.eq_iff {p q : Int × List Char} (hp : Named dir filenamePrefix p)
    (hq : Named dir filenamePrefix q) (hlt : p.1 < q.1)
    : p.2 = q.2 ↔ Hidden (room dir filenamePrefix) p.1 q.1 := by
  obtain ⟨s, hs⟩ := hp.name
  obtain ⟨t, ht⟩ := hq.name
  have hlength : (dir ++ ['/'] ++ filenamePrefix ++ ['_']).length
      = dir.length + filenamePrefix.length + 2 := by
    simp
    omega
  rw [hs, ht]
  unfold snprintf Hidden room
  rw [List.take_append_left_cancel, hlength]
  exact List.take_delimited_eq_iff (minus_not_mem_beginText hp.begins)
    (minus_not_mem_beginText hq.begins) (beginText_ne hp.begins hlt) s t _

theorem call_outputFileDir (c : Cutter) (e : CutCall)
    : (c.call e).2.info.outputFileDir = c.info.outputFileDir
      ∧ (c.call e).2.info.outputFilenamePrefix = c.info.outputFilenamePrefix := by
  have hcalled : c.Called e.ops e.isActive e.isLast (c.call e).1 (c.call e).2 :=
    c.called e.ops e.isActive e.isLast
  generalize (c.call e).1 = res, (c.call e).2 = c' at hcalled ⊢
  cases hcalled with
  | limit _ => simp [mark, cutTo_info]
  | after _ _ _ => simp [mark, cutTo_info]
  | continued _ _ _ => exact ⟨rfl, rfl⟩
  | before _ _ _ => simp [mark, cutTo_info]
  | changed _ _ _ => exact ⟨rfl, rfl⟩

structure Naming (dir filenamePrefix : List Char) (c : Cutter) : Prop where
  opened : c.Opened
  dir : c.info.outputFileDir = dir
  filenamePrefix : c.info.outputFilenamePrefix = filenamePrefix

theorem Naming.call {c : Cutter} (h : Naming dir filenamePrefix c) (e : CutCall)
    : Naming dir filenamePrefix (c.call e).2 := by
  obtain ⟨hdir, hprefix⟩ := c.call_outputFileDir e
  exact ⟨h.opened.call e, hdir.trans h.dir, hprefix.trans h.filenamePrefix⟩

theorem filename_split (c : Cutter) (lastFrame : Int)
    : ∃ rest, c.info.filename lastFrame
        =
        c.info.outputFileDir ++ ['/'] ++ c.info.outputFilenamePrefix ++ ['_']
          ++ (beginText c.info.cutBeginFrame ++ '-' :: rest) := by
  unfold CutInfo.filename beginText
  simp only [List.append_assoc, List.cons_append, List.nil_append]
  exact ⟨_, rfl⟩

theorem built_eq (c : Cutter) (e : CutCall)
    : c.built e = []
      ∨ ∃ last, c.CutDone e last (c.call e).2
          ∧ c.info.cutBeginFrame < last
          ∧ c.built e = [(c.info.cutBeginFrame, (c.call e).2.info.resultFilename)] := by
  unfold built
  cases c.cutCalled e with
  | cut last _ _ hdone =>
    rw [writes_eq hdone.asked]
    by_cases hlonger : 0 < last - c.info.cutBeginFrame
    . right
      refine ⟨last, hdone, by omega, ?_⟩
      rw [List.filter_eq_self.mpr (by simpa using hlonger)]
      rfl
    . left
      rw [List.filter_eq_nil_iff.mpr (by simp; omega)]
      rfl
  | kept _ _ hasked _ =>
    left
    rw [writes_eq (hasked.trans (List.append_nil _).symm)]
    rfl

theorem Naming.built {c : Cutter} (h : Naming dir filenamePrefix c) (e : CutCall)
    : ∀ p ∈ c.built e,
        Named dir filenamePrefix p
          ∧ c.info.cutBeginFrame ≤ p.1
          ∧ p.1 < (c.call e).2.info.cutBeginFrame := by
  intro p hp
  obtain hnone | ⟨last, hdone, hlonger, hbuilt⟩ := c.built_eq e
  . rw [hnone] at hp
    contradiction
  . rw [hbuilt, List.mem_singleton] at hp
    obtain ⟨rest, hsplit⟩ := c.filename_split last
    rw [h.dir, h.filenamePrefix] at hsplit
    rw [hp, hdone.name, hdone.begins]
    exact ⟨⟨h.opened.begins, rest, by rw [hsplit]⟩, le_refl _, hlonger⟩

theorem Opened.begin_le {c : Cutter} (h : c.Opened) (e : CutCall)
    : c.info.cutBeginFrame ≤ (c.call e).2.info.cutBeginFrame := by
  cases c.cutCalled e with
  | cut last hat _ hdone =>
    obtain ⟨hafter, _⟩ := h.cutAt hat
    have hend := hdone.begins
    omega
  | kept _ _ _ hkeeps => exact hkeeps.begins.ge

theorem built_pairwise (c : Cutter) (e : CutCall) (R : Int × List Char → Int × List Char → Prop)
    : (c.built e).Pairwise R := by
  obtain hnone | ⟨_, _, _, hbuilt⟩ := c.built_eq e
  . rw [hnone]
    exact List.Pairwise.nil
  . rw [hbuilt]
    exact List.pairwise_singleton R _

theorem Naming.namesBuilt {c : Cutter} (h : Naming dir filenamePrefix c) (es : List CutCall)
    : (∀ p ∈ c.namesBuilt es, Named dir filenamePrefix p ∧ c.info.cutBeginFrame ≤ p.1)
      ∧ (c.namesBuilt es).Pairwise fun p q => p.1 < q.1 := by
  induction es generalizing c with
  | nil =>
    constructor
    . intro p hp
      contradiction
    . exact List.Pairwise.nil
  | cons e es ih =>
    obtain ⟨hnamed, hpairwise⟩ := ih (h.call e)
    have hbuilt := h.built e
    have hle := h.opened.begin_le e
    unfold Cutter.namesBuilt
    constructor
    . intro p hp
      rw [List.mem_append] at hp
      cases hp with
      | inl hp =>
        obtain ⟨hname, hfrom, _⟩ := hbuilt p hp
        exact ⟨hname, hfrom⟩
      | inr hp =>
        obtain ⟨hname, hfrom⟩ := hnamed p hp
        exact ⟨hname, hle.trans hfrom⟩
    . rw [List.pairwise_append]
      refine ⟨c.built_pairwise e _, hpairwise, ?_⟩
      intro p hp q hq
      obtain ⟨_, _, hbefore⟩ := hbuilt p hp
      obtain ⟨_, hfrom⟩ := hnamed q hq
      exact lt_of_lt_of_le hbefore hfrom

theorem Naming.nodup_iff {c : Cutter} (h : Naming dir filenamePrefix c) (es : List CutCall)
    : ((c.namesBuilt es).map (·.2)).Nodup
        ↔
      (c.namesBuilt es).Pairwise fun p q => ¬Hidden (room dir filenamePrefix) p.1 q.1 := by
  obtain ⟨hnamed, hlt⟩ := h.namesBuilt es
  have heq : ∀ p ∈ c.namesBuilt es, ∀ q ∈ c.namesBuilt es, p.1 < q.1 →
      (p.2 = q.2 ↔ Hidden (room dir filenamePrefix) p.1 q.1) := by
    intro p hp q hq
    exact (hnamed p hp).1.eq_iff (hnamed q hq).1
  unfold List.Nodup
  rw [List.pairwise_map]
  constructor
  . intro hne
    apply (hlt.and hne).imp_of_mem
    rintro p q hp hq ⟨hpq, hdistinct⟩ hhidden
    exact hdistinct ((heq p hp q hq hpq).mpr hhidden)
  . intro htold
    apply (hlt.and htold).imp_of_mem
    rintro p q hp hq ⟨hpq, hshown⟩ hsame
    exact hshown ((heq p hp q hq hpq).mp hsame)

theorem Naming.begin_le {c : Cutter} (h : Naming dir filenamePrefix c) (es : List CutCall)
    : ∀ p ∈ c.namesBuilt es, p.1 ≤ c.info.currentFrame + es.length := by
  induction es generalizing c with
  | nil =>
    intro p hp
    contradiction
  | cons e es ih =>
    intro p hp
    unfold Cutter.namesBuilt at hp
    rw [List.mem_append] at hp
    have hcurrent := c.call_currentFrame e
    rw [List.length_cons]
    cases hp with
    | inl hp =>
      obtain ⟨_, _, hbefore⟩ := h.built e p hp
      have hopen := (h.opened.call e).open_
      omega
    | inr hp =>
      have hle := ih (h.call e) p hp
      omega

end

section

variable (samples : List UInt16) (dir filenamePrefix : List Char)

theorem naming_init : Naming dir filenamePrefix (cutInfoCreate samples dir filenamePrefix) :=
  ⟨opened_run samples dir filenamePrefix [], rfl, rfl⟩

/--
The names of a run are distinct exactly when the begin times of its pieces are told apart by the
characters that are left for them.
-/
theorem names_nodup_iff (calls : List CutCall)
    : let names := (cutInfoCreate samples dir filenamePrefix).namesBuilt calls
      (names.map (·.2)).Nodup
        ↔
      names.Pairwise fun p q => ¬Hidden (room dir filenamePrefix) p.1 q.1 :=
  (naming_init samples dir filenamePrefix).nodup_iff calls

theorem length_beginText_le {b : Int} (hb : 0 ≤ b) (hlt : 10 * b < 10000000000)
    : (beginText b).length ≤ 10 := by
  rw [beginText_eq hb, Nat.length_toDigits_le_iff (by decide) (by decide)]
  omega

theorem names_nodup_of_short (calls : List CutCall) (hcalls : 10 * calls.length ≤ Int32.maxValue.toInt)
    (hlength : dir.length + filenamePrefix.length ≤ 186)
    : (((cutInfoCreate samples dir filenamePrefix).namesBuilt calls).map (·.2)).Nodup := by
  have hnaming := naming_init samples dir filenamePrefix
  have hle := hnaming.begin_le calls
  rw [hnaming.nodup_iff]
  apply List.pairwise_of_forall_mem_list
  intro p hp q _ hhidden
  have hnonneg := ((hnaming.namesBuilt calls).1 p hp).1.begins
  have hbound := hle p hp
  have hzero : (cutInfoCreate samples dir filenamePrefix).info.currentFrame = 0 := rfl
  have hmax : Int32.maxValue.toInt = 2147483647 := by decide
  have htext := length_beginText_le hnonneg (by omega)
  have hroom := hhidden.1
  unfold room CutInfo.resultFilenameSize at hroom
  omega

end

theorem long_names_collide
    : let dir := List.replicate 99 'd'
      let filenamePrefix := List.replicate 99 'p'
      ¬(((cutInfoCreate [] dir filenamePrefix).namesBuilt
        (List.replicate 2001 { isActive := 1 })).map (·.2)).Nodup := by
  decide +kernel

end Cutter
