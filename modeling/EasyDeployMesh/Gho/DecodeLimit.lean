import EasyDeployMesh.Gho.DecodeAccounting

/-!
# The limit of the decoder

`decode_partition` of `crates/gho` stops where the bytes of the partition would exceed its limit.
The limit decides nothing else: a partition is decoded under a limit exactly when it is decoded
under a higher one and its bytes are within the limit, and its bytes are the same.

## Main results

* `EasyDeployMesh.Gho.total_le_decodeSpan`: the running total never decreases.
* `EasyDeployMesh.Gho.decodePartition_eq_ok_iff_of_le`: decoding under two limits.
-/

namespace EasyDeployMesh.Gho

open Foundations

variable {inflate : List UInt8 → Option (List UInt8)} {file : List UInt8}
  {compression : Compression} {limit limit' stop offset next stored : ℕ} {p q : Progress}

/-! ### The running total -/

theorem total_le_of_blockStep
    (h : blockStep inflate file compression limit stop offset p = .ok (some (next, q))) :
    p.total ≤ q.total := by
  obtain ⟨-, -, length, -, -, hstored⟩ := blockStep_eq_some_iff.1 h
  obtain ⟨data, count, expanded, -, -, -, -, -, -, -, -, -, rfl⟩ := storedStep_eq_ok_iff.1 hstored
  exact Nat.le_add_right _ _

theorem total_le_decodeSpan :
    p.total ≤ (decodeSpan inflate file compression limit stop offset p).2.total := by
  fun_induction decodeSpan inflate file compression limit stop offset p with
  | case1 | case2 => exact Nat.le_refl _
  | case3 offset p next q hstep ih => exact Nat.le_trans (total_le_of_blockStep hstep) ih

theorem total_le_decodeSpans {spans : List (ℕ × ℕ)} :
    p.total ≤ (decodeSpans inflate file compression limit spans p).2.total := by
  induction spans generalizing p with
  | nil => exact Nat.le_refl _
  | cons span spans ih =>
    have hspan : p.total ≤
        (decodeSpan inflate file compression limit span.2 span.1 p).2.total := total_le_decodeSpan
    rw [decodeSpans]
    rcases hcase : decodeSpan inflate file compression limit span.2 span.1 p with ⟨reason | _, q⟩
    · rwa [hcase] at hspan
    · rw [hcase] at hspan
      exact Nat.le_trans hspan ih

/-! ### Another limit -/

/-- A block that is written under a limit is written under every limit that holds its bytes. -/
theorem blockStep_of_total_le
    (h : blockStep inflate file compression limit stop offset p = .ok (some (next, q)))
    (hle : q.total ≤ limit') :
    blockStep inflate file compression limit' stop offset p = .ok (some (next, q)) := by
  obtain ⟨hoffset, hroom, length, hlength, hzero, hstored⟩ := blockStep_eq_some_iff.1 h
  obtain ⟨data, count, expanded, hnext, hmin, hmax, hfits, hstop, hdata, hblock, htotal, -, rfl⟩ :=
    storedStep_eq_ok_iff.1 hstored
  exact blockStep_eq_some_iff.2 ⟨hoffset, hroom, length, hlength, hzero, storedStep_eq_ok_iff.2
    ⟨data, count, expanded, hnext, hmin, hmax, hfits, hstop, hdata, hblock, htotal, hle, rfl⟩⟩

/-- Where the blocks of a span end does not depend on the limit. -/
theorem blockStep_none_of_limit
    (h : blockStep inflate file compression limit stop offset p = .ok none) :
    blockStep inflate file compression limit' stop offset p = .ok none := by
  unfold blockStep at h ⊢
  by_cases hroom : offset + 2 < 2 ^ 64 ∧ offset + 2 ≤ stop
  · rw [if_pos hroom] at h ⊢
    obtain ⟨length, hlength, hend⟩ := bind_eq_ok_iff.1 h
    refine bind_eq_ok_iff.2 ⟨length, hlength, ?_⟩
    by_cases hzero : readLE length = 0
    · rw [if_pos hzero]
      rfl
    · rw [if_neg hzero] at hend
      obtain ⟨r, -, hr⟩ := bind_eq_ok_iff.1 hend
      cases hr
  · rw [if_neg hroom]
    rfl

theorem decodeSpan_of_total_le
    (h : decodeSpan inflate file compression limit stop offset p = (.ok (), q))
    (hle : q.total ≤ limit') :
    decodeSpan inflate file compression limit' stop offset p = (.ok (), q) := by
  fun_induction decodeSpan inflate file compression limit stop offset p with
  | case1 offset p reason hstep => cases h
  | case2 offset p hstep =>
    rw [decodeSpan_eq, blockStep_none_of_limit hstep]
    exact h
  | case3 offset p next r hstep ih =>
    have htotal : r.total ≤ q.total := by
      have hspan : r.total ≤
          (decodeSpan inflate file compression limit stop next r).2.total := total_le_decodeSpan
      rwa [h] at hspan
    rw [decodeSpan_eq, blockStep_of_total_le hstep (Nat.le_trans htotal hle)]
    exact ih h

theorem decodeSpans_of_total_le {spans : List (ℕ × ℕ)}
    (h : decodeSpans inflate file compression limit spans p = (.ok (), q))
    (hle : q.total ≤ limit') :
    decodeSpans inflate file compression limit' spans p = (.ok (), q) := by
  induction spans generalizing p with
  | nil => exact h
  | cons span spans ih =>
    rw [decodeSpans] at h ⊢
    rcases hcase : decodeSpan inflate file compression limit span.2 span.1 p with ⟨reason | _, r⟩
    · rw [hcase] at h
      cases h
    · rw [hcase] at h
      change decodeSpans inflate file compression limit spans r = (.ok (), q) at h
      have htotal : r.total ≤ q.total := by
        have hspans : r.total ≤ (decodeSpans inflate file compression limit spans r).2.total :=
          total_le_decodeSpans
        rwa [h] at hspans
      rw [decodeSpan_of_total_le hcase (Nat.le_trans htotal hle)]
      exact ih h

/-! ### A partition -/

/-- What a decoded partition is: the spans of the partition are decoded to the end. -/
theorem decodePartition_eq_ok_iff {n total : ℕ} {info : ImageInfo} {written : List UInt8} :
    decodePartition inflate file n limit = (.ok (info, total), written) ↔
      ∃ partitions partition expanded, parse file = .ok (partitions, info) ∧
        selectPartition partitions info n = .ok partition ∧
        decodeSpans inflate file info.compression limit partition.spans .start =
          (.ok (), { total, expanded, written }) := by
  constructor
  · intro h
    obtain ⟨partitions, found, hparse⟩ := parse_of_decodePartition (congrArg Prod.fst h)
    cases hselect : selectPartition partitions found n with
    | error error =>
      rw [decodePartition, hparse] at h
      simp only [bind, Except.bind, hselect] at h
      cases h
    | ok partition =>
      rw [decodePartition_of_parse hparse hselect] at h
      obtain ⟨hresult, hwritten⟩ := Prod.mk.inj h
      obtain ⟨_, hspans, hpair⟩ := map_eq_ok_iff.1 hresult
      obtain ⟨rfl, htotal⟩ := Prod.mk.inj hpair
      refine ⟨partitions, partition, (decodeSpans inflate file found.compression limit
        partition.spans .start).2.expanded, hparse, hselect, Prod.ext hspans ?_⟩
      rw [← htotal, ← hwritten]
  · rintro ⟨partitions, partition, expanded, hparse, hselect, hspans⟩
    rw [decodePartition_of_parse hparse hselect, hspans]
    rfl

/-- The decoder counts the bytes that it writes, and keeps to its limit. -/
theorem length_of_decodePartition {n total : ℕ} {info : ImageInfo} {written : List UInt8}
    (h : decodePartition inflate file n limit = (.ok (info, total), written)) :
    written.length = total ∧ total ≤ limit := by
  obtain ⟨partitions, partition, expanded, -, -, hspans⟩ := decodePartition_eq_ok_iff.1 h
  have haccounted : Accounted limit
      (decodeSpans inflate file info.compression limit partition.spans .start).2 :=
    accounted_start.decodeSpans.2
  rw [hspans] at haccounted
  exact ⟨haccounted.length_written, haccounted.total_le⟩

/-- A partition is decoded under a limit exactly when it is decoded under a higher one to bytes
within the limit. -/
theorem decodePartition_eq_ok_iff_of_le {n total : ℕ} {info : ImageInfo} {written : List UInt8}
    (hle : limit ≤ limit') :
    decodePartition inflate file n limit = (.ok (info, total), written) ↔
      decodePartition inflate file n limit' = (.ok (info, total), written) ∧ total ≤ limit := by
  constructor
  · intro h
    have htotal := (length_of_decodePartition h).2
    obtain ⟨partitions, partition, expanded, hparse, hselect, hspans⟩ :=
      decodePartition_eq_ok_iff.1 h
    exact ⟨decodePartition_eq_ok_iff.2 ⟨partitions, partition, expanded, hparse, hselect,
      decodeSpans_of_total_le hspans (Nat.le_trans htotal hle)⟩, htotal⟩
  · rintro ⟨h, htotal⟩
    obtain ⟨partitions, partition, expanded, hparse, hselect, hspans⟩ :=
      decodePartition_eq_ok_iff.1 h
    exact decodePartition_eq_ok_iff.2 ⟨partitions, partition, expanded, hparse, hselect,
      decodeSpans_of_total_le hspans htotal⟩

end EasyDeployMesh.Gho
