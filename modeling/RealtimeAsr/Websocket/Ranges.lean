import RealtimeAsr.Lib.Width
import RealtimeAsr.Websocket.Decode
import Mathlib.Data.List.Induction

/-!
This module contains `OnSpeechData` with the integer types it is written in, and shows when the ranges
it records tile the samples it appends.
-/

namespace ConnectionHandler

/--
`OnSpeechData`, where `num_samples` is an `int`, the bounds of the range are computed as `size_t`, and
the pair that is stored holds an `int` each.
-/
def onSpeechDataInt (buffer : Bytes) (h : ConnectionHandler) : ConnectionHandler :=
  let pdata := int16s buffer
  let numSamples := Width.int pdata.length
  let samples := h.samples ++ (pdata.take numSamples.toNat).drop header
  { h with
    samples
    rcvRangeSmps := h.rcvRangeSmps
      ++ [(Width.int (Width.size (Width.size (samples.length - numSamples) + header)),
        Width.int (Width.size (samples.length - 1)))]
    state := 1 }

def payload (buffer : Bytes) : List Int16 :=
  (int16s buffer).drop header

def payloads (buffers : List Bytes) : List Int16 :=
  buffers.flatMap payload

def ranges (buffers : List Bytes) : List (Int × Int) :=
  (List.range buffers.length).map fun k =>
    (((payloads (buffers.take k)).length : Int), ((payloads (buffers.take (k + 1))).length : Int) - 1)

def receive (buffers : List Bytes) (h : ConnectionHandler) : ConnectionHandler :=
  buffers.foldl (fun h buffer => onSpeechDataInt buffer h) h

structure Tiled (buffers : List Bytes) (h : ConnectionHandler) : Prop where
  samples : h.samples = payloads buffers
  ranges : h.rcvRangeSmps = ranges buffers

structure Fits (before : List Bytes) (buffer : Bytes) : Prop where
  header_le : header ≤ buffer.length / 2
  length_lt : buffer.length / 2 < 2 ^ 31
  start_lt : (payloads before).length < 2 ^ 31
  end_le : (payloads (before ++ [buffer])).length ≤ 2 ^ 31

theorem payload_length (buffer : Bytes) : (payload buffer).length = buffer.length / 2 - header := by
  rw [payload, List.length_drop, int16s_length]

theorem payloads_concat (before : List Bytes) (buffer : Bytes)
    : payloads (before ++ [buffer]) = payloads before ++ payload buffer := by
  simp [payloads]

theorem ranges_concat (before : List Bytes) (buffer : Bytes)
    : ranges (before ++ [buffer])
        =
      ranges before
        ++ [(((payloads before).length : Int), ((payloads (before ++ [buffer])).length : Int) - 1)] := by
  unfold ranges
  rw [List.length_append, List.length_singleton, List.range_succ, List.map_append, List.map_singleton]
  congr 1
  . apply List.map_congr_left
    intro k hk
    rw [List.mem_range] at hk
    rw [List.take_append_of_le_length (Nat.le_of_lt hk), List.take_append_of_le_length hk]
  . rw [List.take_left', List.take_of_length_le]
    . simp
    . rfl

theorem receive_concat (buffers : List Bytes) (buffer : Bytes) (h : ConnectionHandler)
    : receive (buffers ++ [buffer]) h = onSpeechDataInt buffer (receive buffers h) := by
  unfold receive
  rw [List.foldl_append]
  rfl

section Step

variable {before : List Bytes} {buffer : Bytes} {h : ConnectionHandler}

theorem onSpeechDataInt_samples
    : (onSpeechDataInt buffer h).samples
        =
      h.samples ++ ((int16s buffer).take (Width.int (buffer.length / 2 : Nat)).toNat).drop header := by
  rw [← int16s_length]
  rfl

theorem onSpeechDataInt_ranges (buffer : Bytes) (h : ConnectionHandler)
    : (onSpeechDataInt buffer h).rcvRangeSmps
        =
      h.rcvRangeSmps
        ++ [(Width.int ((onSpeechDataInt buffer h).samples.length
            - Width.int (buffer.length / 2 : Nat) + header),
          Width.int ((onSpeechDataInt buffer h).samples.length - 1))] := by
  rw [← int16s_length, ← Width.int_size ((_ : Int) + header), ← Width.size_add_left,
    ← Width.int_size ((_ : Int) - 1)]
  rfl

theorem onSpeechDataInt_samples_of_lt (hlength : buffer.length / 2 < 2 ^ 31)
    : (onSpeechDataInt buffer h).samples = h.samples ++ payload buffer := by
  have hint : Width.int (buffer.length / 2 : Nat) = (buffer.length / 2 : Nat) := by
    rw [Width.int_eq_self_iff]
    omega
  rw [onSpeechDataInt_samples, hint, Int.toNat_natCast, List.take_of_length_le]
  . rfl
  . rw [int16s_length]

-- As long as nothing overflows, the fields are those of the model with unbounded integers.
theorem onSpeechDataInt_eq (hlength : buffer.length / 2 < 2 ^ 31)
    (hstart : (h.samples ++ payload buffer).length + header < 2 ^ 31 + buffer.length / 2)
    (hend : (h.samples ++ payload buffer).length ≤ 2 ^ 31)
    : onSpeechDataInt buffer h = onSpeechData buffer h := by
  have hint : Width.int (buffer.length / 2 : Nat) = (buffer.length / 2 : Nat) := by
    rw [Width.int_eq_self_iff]
    omega
  have hsamples := onSpeechDataInt_samples_of_lt (h := h) hlength
  have hranges := onSpeechDataInt_ranges buffer h
  rw [hsamples, hint, (Width.int_eq_self_iff _).mpr ⟨by omega, by omega⟩,
    (Width.int_eq_self_iff _).mpr ⟨by omega, by omega⟩, ← int16s_length] at hranges
  have heta : onSpeechDataInt buffer h
      = { h with
          samples := (onSpeechDataInt buffer h).samples
          rcvRangeSmps := (onSpeechDataInt buffer h).rcvRangeSmps
          state := 1 } := rfl
  rw [heta, hsamples, hranges]
  rfl

theorem payloads_concat_length (before : List Bytes) (buffer : Bytes)
    : (payloads (before ++ [buffer])).length
        = (payloads before).length + (buffer.length / 2 - header) := by
  rw [payloads_concat, List.length_append, payload_length]

-- Of 2³¹ samples and more not all are copied.
theorem length_lt_of_samples (hsamples : (onSpeechDataInt buffer h).samples = h.samples ++ payload buffer)
    : buffer.length / 2 < 2 ^ 31 := by
  rw [onSpeechDataInt_samples, List.append_cancel_left_eq] at hsamples
  have hcopied := congrArg List.length hsamples
  rw [payload_length, List.length_drop, List.length_take, int16s_length] at hcopied
  have hlt : (Width.int (buffer.length / 2 : Nat)).toNat < 2 ^ 31 := by
    have := Width.int_lt (buffer.length / 2 : Nat)
    omega
  generalize (Width.int (buffer.length / 2 : Nat)).toNat = m at hcopied hlt
  rw [← not_le]
  intro hle
  rw [Nat.min_eq_left (Nat.le_of_lt (Nat.lt_of_lt_of_le hlt hle))] at hcopied
  unfold header at hcopied
  omega

theorem fits_of_tiled (htiled : Tiled before h)
    (hafter : Tiled (before ++ [buffer]) (onSpeechDataInt buffer h))
    : Fits before buffer := by
  have hsamples : (onSpeechDataInt buffer h).samples = h.samples ++ payload buffer := by
    rw [hafter.samples, payloads_concat, htiled.samples]
  have hlength := length_lt_of_samples hsamples
  have hconcat := payloads_concat_length before buffer
  have hint : Width.int (buffer.length / 2 : Nat) = (buffer.length / 2 : Nat) := by
    rw [Width.int_eq_self_iff]
    omega
  have hranges := hafter.ranges
  rw [onSpeechDataInt_ranges, ranges_concat, htiled.ranges, hafter.samples,
    List.append_cancel_left_eq, List.cons.injEq, Prod.mk.injEq, hint] at hranges
  obtain ⟨⟨hstart, hend⟩, _⟩ := hranges
  have hlt := Width.int_lt (((payloads (before ++ [buffer])).length : Int)
    - (buffer.length / 2 : Nat) + header)
  rw [hstart] at hlt
  refine ⟨?_, hlength, by omega, ?_⟩
  . -- Below the header the start is wrong by the samples that are missing.
    have hdvd := Width.dvd_sub_int (((payloads (before ++ [buffer])).length : Int)
      - (buffer.length / 2 : Nat) + header)
    rw [hstart] at hdvd
    unfold header at hdvd hconcat ⊢
    omega
  . have := (Width.int_eq_self_iff _).mp hend
    omega

theorem tiled_of_fits (htiled : Tiled before h) (hfits : Fits before buffer)
    : Tiled (before ++ [buffer]) (onSpeechDataInt buffer h) := by
  obtain ⟨hheader, hlength, hstart, hend⟩ := hfits
  have hconcat := payloads_concat_length before buffer
  have hall : (h.samples ++ payload buffer) = payloads (before ++ [buffer]) := by
    rw [payloads_concat, htiled.samples]
  rw [onSpeechDataInt_eq hlength]
  . constructor
    . exact hall
    . show h.rcvRangeSmps ++ [(((h.samples ++ payload buffer).length : Int)
          - (int16s buffer).length + header, ((h.samples ++ payload buffer).length : Int) - 1)] = _
      rw [hall, ranges_concat, htiled.ranges, int16s_length]
      have hst : ((payloads (before ++ [buffer])).length : Int) - (buffer.length / 2 : Nat) + header
          = (payloads before).length := by
        omega
      rw [hst]
  . rw [hall]
    omega
  . rw [hall]
    exact hend

end Step

theorem tiled_iff (state : Int) (buffers : List Bytes)
    : (∀ before, before <+: buffers → Tiled before (receive before { state }))
        ↔
      ∀ before buffer, before ++ [buffer] <+: buffers → Fits before buffer := by
  constructor
  . intro h before buffer hprefix
    have hafter := h _ hprefix
    rw [receive_concat] at hafter
    exact fits_of_tiled (h before ((List.prefix_append _ _).trans hprefix)) hafter
  . intro h before hprefix
    induction before using List.reverseRecOn with
    | nil => exact ⟨rfl, rfl⟩
    | append_singleton before buffer ih =>
      rw [receive_concat]
      exact tiled_of_fits (ih ((List.prefix_append _ _).trans hprefix)) (h before buffer hprefix)

theorem short_message_not_tiled
    : (receive [[]] { state := 0 }).rcvRangeSmps = [(22, -1)]
        ∧ ranges [[]] = [(0, -1)]
        ∧ ¬∀ before, before <+: [[]] → Tiled before (receive before { state := 0 }) := by
  refine ⟨by decide, by decide, ?_⟩
  intro h
  have hranges := (h [[]] (List.prefix_refl _)).ranges
  revert hranges
  decide

end ConnectionHandler
