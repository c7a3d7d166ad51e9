import Mathlib.Tactic.Common
import Mathlib.Data.List.Basic

/-!
# Lists in segments

A list that is given as a list of segments, and the place of a position in it: the last segment that
begins at the position or before it. Empty segments share their beginning with the next one.

## Main definitions

* `Foundations.offsets`: where the segments begin.

## Main results

* `Foundations.offsets_append_singleton`: where a further segment begins.
* `Foundations.drop_flatten`: the list from a position in a segment on.
* `Foundations.locate`: the last segment that begins at a position or before it holds the position.
-/

namespace Foundations

variable {α : Type*} {segments : List (List α)} {k i position : ℕ}

/-- The positions at which the segments begin. -/
def offsets : List (List α) → List ℕ
  | [] => []
  | segment :: segments => 0 :: (offsets segments).map (segment.length + ·)

@[simp] theorem length_offsets (segments : List (List α)) :
    (offsets segments).length = segments.length := by
  induction segments with
  | nil => rfl
  | cons segment segments ih =>
    rw [offsets, List.length_cons, List.length_map, ih, List.length_cons]

/-- A further segment begins where the others end. -/
theorem offsets_append_singleton (segments : List (List α)) (segment : List α) :
    offsets (segments ++ [segment]) = offsets segments ++ [segments.flatten.length] := by
  induction segments with
  | nil => rfl
  | cons first segments ih =>
    rw [List.cons_append, offsets, ih, List.map_append, offsets, List.flatten_cons,
      List.length_append, List.cons_append]
    rfl

/-- A segment begins behind those in front of it. -/
theorem getElem?_offsets (hk : k < segments.length) :
    (offsets segments)[k]? = some (segments.take k).flatten.length := by
  induction segments generalizing k with
  | nil => exact absurd hk (Nat.not_lt_zero k)
  | cons segment segments ih =>
    cases k with
    | zero => rfl
    | succ k =>
      rw [offsets, List.getElem?_cons_succ, List.getElem?_map,
        ih (Nat.lt_of_succ_lt_succ hk), List.take_succ_cons, List.flatten_cons, List.length_append]
      rfl

private theorem flatten_eq (hk : k < segments.length) : segments.flatten =
    (segments.take k).flatten ++ (segments[k] ++ (segments.drop (k + 1)).flatten) := by
  rw [← List.flatten_cons, ← List.drop_eq_getElem_cons hk, ← List.flatten_append,
    List.take_append_drop]

/-- The list from a position in a segment on. -/
theorem drop_flatten (hk : k < segments.length) (hi : i ≤ segments[k].length) :
    segments.flatten.drop ((segments.take k).flatten.length + i) =
      segments[k].drop i ++ (segments.drop (k + 1)).flatten := by
  rw [flatten_eq hk, ← List.drop_drop, List.drop_left, List.drop_append_of_le_length hi]

/-- The last of ascending positions that is not behind a position. -/
def lastStart (starts : List ℕ) (position : ℕ) : ℕ :=
  starts.findIdx (fun start => decide (position < start)) - 1

/-- The first segment begins at 0, so the position is not in front of all of them. -/
private theorem findIdx_offsets_pos (hposition : position < segments.flatten.length) :
    0 < (offsets segments).findIdx (fun start => decide (position < start)) := by
  rcases segments with _ | ⟨segment, segments⟩
  · exact absurd hposition (Nat.not_lt_zero _)
  · rw [offsets, List.findIdx_cons]
    exact Nat.succ_pos _

/-- The last segment that begins at a position or before it holds the position. -/
theorem locate (hk : lastStart (offsets segments) position = k)
    (hposition : position < segments.flatten.length) :
    ∃ hlt : k < segments.length, (segments.take k).flatten.length ≤ position ∧
      position < (segments.take k).flatten.length + segments[k].length := by
  have hlength := length_offsets segments
  have hpos := findIdx_offsets_pos hposition
  have hle : (offsets segments).findIdx (fun start => decide (position < start)) ≤
      (offsets segments).length := List.findIdx_le_length
  rw [lastStart] at hk
  have hlt : k < segments.length := by omega
  have hstart := getElem?_offsets hlt
  rw [List.getElem?_eq_getElem (by omega)] at hstart
  refine ⟨hlt, ?_, ?_⟩
  · have hbefore := List.not_of_lt_findIdx
      (show k < (offsets segments).findIdx (fun start => decide (position < start)) by omega)
    rw [Option.some.inj hstart, decide_eq_false_iff_not] at hbefore
    exact Nat.le_of_not_lt hbefore
  · have hnext : position < (segments.take (k + 1)).flatten.length := by
      rcases Nat.lt_or_ge (k + 1) segments.length with hmore | hlast
      · have hfound :
            (offsets segments).findIdx (fun start => decide (position < start)) = k + 1 := by
          omega
        have hbehind := List.findIdx_getElem (p := fun start => decide (position < start))
          (w := show (offsets segments).findIdx _ < (offsets segments).length by omega)
        have hnext := getElem?_offsets hmore
        rw [← hfound, List.getElem?_eq_getElem (by omega)] at hnext
        rw [Option.some.inj hnext, decide_eq_true_iff, hfound] at hbehind
        exact hbehind
      · rwa [List.take_of_length_le hlast]
    rw [List.take_succ_eq_append_getElem hlt, List.flatten_append, List.length_append,
      List.flatten_singleton] at hnext
    exact hnext

end Foundations
