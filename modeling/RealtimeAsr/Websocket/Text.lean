import RealtimeAsr.Lib.Join
import RealtimeAsr.Websocket.Basic

/-!
This module contains what `Get_segs_result` computes: the results that pass `Check`, joined by the
separator.
-/

namespace ConnectionHandler

theorem joinSegs_eq (valSegs : List Bytes) : joinSegs valSegs = (utf8 "，").intercalate valSegs := by
  unfold joinSegs
  split
  . next h =>
    have hne : valSegs ≠ [] := List.length_pos_iff.mp h
    generalize hlast : valSegs.getLast _ = last
    have hsplit : valSegs = valSegs.dropLast ++ [last] := by
      rw [← hlast, List.dropLast_append_getLast]
    rw [List.foldl_append_eq, List.nil_append]
    conv =>
      rhs
      rw [hsplit, List.intercalate_concat]
  . next h =>
    have : valSegs = [] := by
      rw [← List.length_eq_zero_iff]
      omega
    rw [this]
    rfl

theorem foldl_check_eq (h : ConnectionHandler) (infos : List Seginfo) (segs : List Bytes)
    : infos.foldl (fun segs info => if h.check info.result then segs ++ [info.result] else segs) segs
        =
      segs ++ (infos.map Seginfo.result).filter h.check := by
  induction infos generalizing segs with
  | nil => simp
  | cons info infos ih =>
    rw [List.foldl_cons, ih, List.map_cons, List.filter_cons]
    split
    . next hcheck => simp
    . next hcheck => rfl

theorem getSegsResult_eq (h : ConnectionHandler)
    : h.getSegsResult
        =
      (utf8 "，").intercalate ((h.seginfos.map Seginfo.result).filter h.check) := by
  unfold getSegsResult
  rw [foldl_check_eq, joinSegs_eq, List.nil_append]

theorem getSegsResult_prefix {h h' : ConnectionHandler} (hnoises : h'.noises = h.noises)
    (hinfos : h.seginfos <+: h'.seginfos)
    : h.getSegsResult <+: h'.getSegsResult := by
  have hcheck : h'.check = h.check := by
    funext segRt
    unfold check
    rw [hnoises]
  rw [getSegsResult_eq, getSegsResult_eq, hcheck]
  apply List.intercalate_prefix
  exact (hinfos.map Seginfo.result).filter h.check

end ConnectionHandler
