import EasyDeployMesh.Gho.Reading

/-!
# Reading with full buffers

A reader that fills the buffer of every call, up to the end of the file. `find_record` then searches
window by window for what a scan of the file, byte by byte, finds: the windows overlap in nine
bytes, one less than a record header, so a header that straddles two windows lies in the second one,
and no position is looked at twice. `parse` ends as the parsing of the container model does, which
knows neither calls of `read` nor panics.

## Main definitions

* `EasyDeployMesh.Gho.ByteReader.Fills`: the reader fills every buffer.
* `EasyDeployMesh.Gho.scanRecord`: the scan byte by byte.

## Main results

* `EasyDeployMesh.Gho.findRecord_eq_scan`: the search of `find_record` is the scan.
* `EasyDeployMesh.Gho.Reading.answers_parse`: `parse` is the parsing of the container model.
-/

namespace EasyDeployMesh.Gho

open Foundations

/-- Every call of `read` gives what the search asks for, as far as the file has it. -/
def ByteReader.Fills (reader : ByteReader) : Prop := ∀ n, searchWindow ≤ reader.deliver n

/-- The scan from position `i` on, for `count` positions: the first one with a record header that
lies before `stop`. -/
def scanRecord (file : List UInt8) (stop : ℕ) : ℕ → ℕ → Option (ℕ × RecordHeader)
  | 0, _ => none
  | count + 1, i =>
    if i + recordHeaderSize ≤ stop then
      match recordAt (file.drop i) with
      | some record => some (i, record)
      | none => scanRecord file stop count (i + 1)
    else none

/-! ### The scan -/

section Scan

variable {file : List UInt8} {start stop i j count : ℕ} {record : RecordHeader}

theorem scanRecord_eq_some_iff (hcount : stop ≤ i + count) :
    scanRecord file stop count i = some (j, record) ↔
      i ≤ j ∧ j + recordHeaderSize ≤ stop ∧ recordAt (file.drop j) = some record ∧
        ∀ k, i ≤ k → k < j → recordAt (file.drop k) = none := by
  have hsize : recordHeaderSize = 10 := rfl
  induction count generalizing i with
  | zero =>
    refine iff_of_false (fun h => by cases h) ?_
    rintro ⟨hle, hstop, -⟩
    omega
  | succ count ih =>
    unfold scanRecord
    by_cases hroom : i + recordHeaderSize ≤ stop
    · rw [if_pos hroom]
      cases hrecord : recordAt (file.drop i) with
      | some found =>
        simp only [Option.some.injEq, Prod.mk.injEq]
        constructor
        · rintro ⟨rfl, rfl⟩
          exact ⟨Nat.le_refl _, hroom, hrecord, fun k hle hlt => by omega⟩
        · rintro ⟨hle, -, hj, hfirst⟩
          obtain rfl : i = j := by
            by_contra hne
            have hnone := hfirst i (Nat.le_refl _) (by omega)
            rw [hrecord] at hnone
            cases hnone
          exact ⟨rfl, Option.some.inj (hrecord.symm.trans hj)⟩
      | none =>
        refine (@ih (i + 1) (by omega)).trans ?_
        constructor
        · rintro ⟨hle, hj⟩
          refine ⟨by omega, hj.1, hj.2.1, fun k hle' hlt => ?_⟩
          by_cases hk : k = i
          · rw [hk, hrecord]
          · exact hj.2.2 k (by omega) hlt
        · rintro ⟨hle, hend, hj, hfirst⟩
          have hne : i ≠ j := by
            rintro rfl
            rw [hrecord] at hj
            cases hj
          exact ⟨by omega, hend, hj, fun k hle' hlt => hfirst k (by omega) hlt⟩
    · rw [if_neg hroom]
      refine iff_of_false (fun h => by cases h) ?_
      rintro ⟨hle, hend, -⟩
      omega

/-- The scan finds the first record header of the range. -/
theorem scanRecord_eq_firstRecord (hstop : stop ≤ file.length) :
    scanRecord file stop (stop - start) start = firstRecord file start stop := by
  refine Option.ext fun r => ?_
  rw [scanRecord_eq_some_iff (by omega), firstRecord_eq_some_iff hstop]

end Scan

/-! ### The search -/

section Search

variable {reader : ByteReader} {buffer : List UInt8} {i count fuel offset start stop wanted : ℕ}

theorem Reading.answers_read (hfills : reader.Fills) (hwanted : wanted ≤ searchWindow) :
    Answers (Reading.read reader offset wanted) (.ok ((reader.bytes.drop offset).take wanted)) := by
  refine ⟨fun calls => ⟨calls + 1, ?_⟩⟩
  have hdeliver := hfills calls
  show Outcome.ok ((reader.bytes.drop offset).take (min wanted (reader.deliver calls)), _) = _
  rw [Nat.min_eq_left (by omega)]

/-- Four bytes, or two, of a header. -/
private theorem take_drop_of_drop {l bytes rest : List UInt8}
    (h : buffer.drop i = l ++ bytes ++ rest)
    {j : ℕ} (hj : j = i + l.length) : (buffer.drop j).take bytes.length = bytes := by
  rw [hj, ← List.drop_drop, h, List.append_assoc, List.drop_left, List.take_left]

theorem Reading.answers_headerAt (h : i + recordHeaderSize ≤ buffer.length) :
    Answers (Reading.headerAt buffer i) (.ok (recordAt (buffer.drop i))) := by
  have hsize : recordHeaderSize = 10 := rfl
  have hlength : (buffer.drop i).length = buffer.length - i := List.length_drop
  obtain ⟨k₀, k₁, r₀, r₁, m₀, m₁, m₂, m₃, l₀, l₁, rest, hdrop⟩ :
      ∃ k₀ k₁ r₀ r₁ m₀ m₁ m₂ m₃ l₀ l₁ rest,
        buffer.drop i = k₀ :: k₁ :: r₀ :: r₁ :: m₀ :: m₁ :: m₂ :: m₃ :: l₀ :: l₁ :: rest := by
    rcases hbytes : buffer.drop i with
      _ | ⟨a, _ | ⟨b, _ | ⟨c, _ | ⟨d, _ | ⟨e, _ | ⟨f, _ | ⟨g, _ | ⟨h, _ | ⟨i, _ | ⟨j, l⟩⟩⟩⟩⟩⟩⟩⟩⟩⟩
    all_goals
      first
      | exact ⟨_, _, _, _, _, _, _, _, _, _, _, rfl⟩
      | rw [hbytes] at hlength
        simp only [List.length_cons, List.length_nil] at hlength
        omega
  have hmagic : (buffer.drop (i + 4)).take (i + 8 - (i + 4)) = [m₀, m₁, m₂, m₃] := by
    rw [Nat.add_sub_add_left]
    exact @take_drop_of_drop buffer i [k₀, k₁, r₀, r₁] [m₀, m₁, m₂, m₃]
      (l₀ :: l₁ :: rest) hdrop _ rfl
  have hkind : (buffer.drop i).take (i + 2 - i) = [k₀, k₁] := by
    rw [Nat.add_sub_cancel_left, hdrop]
    rfl
  have hlen : (buffer.drop (i + 8)).take (i + 10 - (i + 8)) = [l₀, l₁] := by
    rw [Nat.add_sub_add_left]
    exact @take_drop_of_drop buffer i [k₀, k₁, r₀, r₁, m₀, m₁, m₂, m₃] [l₀, l₁] rest hdrop _ rfl
  unfold Reading.headerAt
  refine (Answers.slice (by omega) (by omega)).bind_pure ?_
  rw [hmagic, hdrop, recordAt]
  by_cases hfound : readLE [m₀, m₁, m₂, m₃] = recordMagic
  · rw [if_pos hfound]
    refine (Answers.slice (by omega) (by omega)).bind_pure ?_
    rw [hkind]
    by_cases hkinds : readLE [k₀, k₁] ∈ [0x0006, 0x0603, 0x0703, 0x0023]
    · rw [if_pos hkinds, if_pos ⟨hfound, hkinds⟩]
      refine (Answers.slice (by omega) (by omega)).bind_pure ?_
      rw [hlen]
      exact Answers.pure _
    · rw [if_neg hkinds, if_neg fun h => hkinds h.2]
      exact Answers.pure _
  · rw [if_neg hfound, if_neg fun h => hfound h.1]
    exact Answers.pure _

/-- The loop over the buffer looks at the suffixes of the buffer, one after the other. -/
theorem Reading.answers_scanBuffer (h : i + count + (recordHeaderSize - 1) = buffer.length) :
    Answers (Reading.scanBuffer buffer count i)
      (.ok ((findSuffix recordAt (buffer.drop i)).map fun r => (i + r.1, r.2))) := by
  have hsize : recordHeaderSize = 10 := rfl
  induction count generalizing i with
  | zero =>
    have hnone : findSuffix recordAt (buffer.drop i) = none := by
      refine findSuffix_eq_none_iff.2 fun j hj => hasWidth_recordAt.short _ ?_
      rw [List.length_drop, List.length_drop]
      omega
    rw [hnone]
    exact Answers.pure _
  | succ count ih =>
    unfold Reading.scanBuffer
    refine (Reading.answers_headerAt (by omega)).bind_pure ?_
    have hcons : buffer.drop i = buffer[i] :: buffer.drop (i + 1) := List.drop_eq_getElem_cons _
    cases hrecord : recordAt (buffer.drop i) with
    | some record =>
      rw [hcons] at hrecord ⊢
      rw [findSuffix, hrecord]
      exact Answers.pure _
    | none =>
      rw [hcons] at hrecord ⊢
      rw [findSuffix, hrecord]
      dsimp only
      have hrest := @ih (i + 1) (by omega)
      rw [Option.map_map]
      have hplace : (fun r : ℕ × RecordHeader => (i + 1 + r.1, r.2)) =
          (fun r : ℕ × RecordHeader => (i + r.1, r.2)) ∘ fun r => (r.1 + 1, r.2) := by
        funext r
        simp only [Function.comp_apply, Prod.mk.injEq, and_true]
        omega
      rwa [hplace] at hrest

/-- The search for a record, in the container model and with its calls of `read`. -/
theorem Reading.answers_findRecord (hfills : reader.Fills) (hstop : stop ≤ reader.bytes.length)
    (hfuel : stop - offset < fuel) : Answers (Reading.findRecord reader fuel offset stop)
      (Gho.findRecord reader.bytes offset stop) := by
  have hsize : recordHeaderSize = 10 := rfl
  have hlength := reader.length_lt
  induction fuel generalizing offset with
  | zero => omega
  | succ fuel ih =>
    unfold Reading.findRecord
    rw [Gho.findRecord]
    by_cases hlt : offset < stop
    · rw [if_pos hlt, if_pos hlt]
      refine (Answers.minus (by omega)).bind_pure ?_
      refine (Reading.answers_read hfills (Nat.min_le_right _ _)).bind_pure ?_
      dsimp only
      generalize hbuffer :
        (reader.bytes.drop offset).take (min (stop - offset) searchWindow) = buffer
      have hle : buffer.length ≤ stop - offset := by
        rw [← hbuffer, List.length_take]
        omega
      by_cases hshort : buffer.length < recordHeaderSize
      · rw [if_pos hshort, dif_pos hshort]
        exact Answers.pure _
      · rw [if_neg hshort, dif_neg hshort]
        refine (Answers.minus (by omega)).bind_pure ?_
        refine (Reading.answers_scanBuffer (by omega)).bind_pure ?_
        rw [List.drop_zero]
        cases hfound : findSuffix recordAt buffer with
        | some r =>
          have hr := hasWidth_recordAt.add_le_of_findSuffix hfound
          simp only [Option.map_some, Nat.zero_add]
          refine (Answers.plus (by omega)).bind_pure (Answers.pure _)
        | none =>
          simp only [Option.map_none]
          refine (Answers.minus (by omega)).bind_pure ?_
          rw [if_pos (by omega)]
          have hnext : Answers (Run.checkedPlus .invalidRecord offset
              (buffer.length - (recordHeaderSize - 1)) : Reading ℕ)
              (.ok (offset + (buffer.length - (recordHeaderSize - 1)))) := by
            rw [Run.checkedPlus, if_pos (by omega)]
            exact Answers.pure _
          exact hnext.bind_pure (ih (by omega))
    · rw [if_neg hlt, if_neg hlt]
      exact Answers.pure _

/-- With enough fuel the search of `find_record` finds what the scan byte by byte finds. -/
theorem findRecord_eq_scan (reader : ByteReader) (hfills : reader.Fills) (start stop : ℕ)
    (hstop : stop ≤ reader.bytes.length) : ∃ enough, ∀ fuel, enough ≤ fuel →
      Answers (Reading.findRecord reader fuel start stop)
        (.ok (scanRecord reader.bytes stop (stop - start) start)) := by
  have hlength := reader.length_lt
  refine ⟨stop + 1, fun fuel hfuel => ?_⟩
  rw [scanRecord_eq_firstRecord hstop, ← findRecord_eq hstop (by omega)]
  exact Reading.answers_findRecord hfills hstop (by omega)

/-- An end record without a body. -/
def endRecord : List UInt8 := [0x23, 0, 0, 0, 0xd8, 0x18, 0x2f, 0x01, 0, 0]

/-- There is no record header before the end record. -/
private theorem recordAt_zeros (n : ℕ) (hn : 0 < n) :
    recordAt (List.replicate n 0 ++ endRecord) = none := by
  rcases Nat.lt_or_ge n 10 with hlt | hge
  · have hfew : ∀ n < 10, 0 < n → recordAt (List.replicate n 0 ++ endRecord) = none := by decide
    exact hfew n hlt hn
  · obtain ⟨m, rfl⟩ := Nat.exists_eq_add_of_le' hge
    rfl

private theorem length_straddling : (List.replicate 65540 0 ++ endRecord).length = 65550 := by
  rw [List.length_append, List.length_replicate]
  rfl

/-- The first window of the search ends inside the record header at the end of the file. -/
def straddlingReader : ByteReader where
  bytes := List.replicate 65540 0 ++ endRecord
  length_lt := by
    rw [length_straddling]
    decide
  deliver _ := searchWindow

/-- The header is found in the second window. -/
theorem findRecord_eq_scan_straddling :
    65540 < searchWindow ∧ searchWindow < 65540 + recordHeaderSize ∧
    ∃ enough, ∀ fuel, enough ≤ fuel → Answers (Reading.findRecord straddlingReader fuel 0 65550)
      (.ok (some (65540, { kind := 0x0023, bodyLen := 0 }))) := by
  have hscan : scanRecord straddlingReader.bytes 65550 (65550 - 0) 0 =
      some (65540, { kind := 0x0023, bodyLen := 0 }) := by
    refine (scanRecord_eq_some_iff (by omega)).2 ⟨by omega, by decide, ?_, fun k _ hk => ?_⟩
    · rw [straddlingReader, List.drop_left' List.length_replicate]
      decide
    · rw [straddlingReader, List.drop_append_of_le_length (by rw [List.length_replicate]; omega),
        List.drop_replicate]
      exact recordAt_zeros _ (by omega)
  refine ⟨by decide, by decide, ?_⟩
  rw [← hscan]
  exact findRecord_eq_scan straddlingReader (fun _ => Nat.le_refl _) 0 65550
    (Nat.le_of_eq length_straddling.symm)

end Search

/-! ### Parsing -/

section Parse

variable {reader : ByteReader} {fuel passes bodyEnd dataStart offset : ℕ}
  {partitions : List Partition}

theorem Reading.answers_dataEnd (hfills : reader.Fills) (hfuel : reader.bytes.length < fuel) :
    Answers (Reading.dataEnd reader fuel dataStart) (Gho.dataEnd reader.bytes dataStart) :=
  (Reading.answers_findRecord hfills (Nat.le_refl _) (by omega)).bind fun _ _ => Answers.pure _

/-- A checked sum of places in the file does not fail. -/
private theorem answers_checkedPlus {error : Error} {a b : ℕ} (h : a + b < 2 ^ 64) :
    Answers (Run.checkedPlus error a b : Reading ℕ) (.ok (a + b)) := by
  rw [Run.checkedPlus, if_pos h]
  exact Answers.pure _

theorem Reading.answers_partitionSpan (hfills : reader.Fills) (hfuel : reader.bytes.length < fuel)
    (hbody : bodyEnd ≤ reader.bytes.length) :
    Answers (Reading.partitionSpan reader fuel bodyEnd)
      (Gho.partitionSpan reader.bytes bodyEnd) := by
  have hsize : headerSize = 512 := rfl
  have hlength := reader.length_lt
  unfold Reading.partitionSpan Gho.partitionSpan
  refine (answers_checkedPlus (by omega)).bind_pure ?_
  have hfits : ¬ 2 ^ 64 ≤ bodyEnd + headerSize := by omega
  dsimp only
  rw [if_neg hfits]
  by_cases htruncated : reader.bytes.length < bodyEnd + headerSize
  · rw [if_pos htruncated, if_pos htruncated]
    exact Answers.fail _
  · rw [if_neg htruncated, if_neg htruncated]
    refine (Answers.ofExcept _).bind fun magic _ => ?_
    by_cases hmagic : readLE magic ≠ 0xeffe
    · rw [if_pos hmagic, if_pos hmagic]
      exact Answers.fail _
    · rw [if_neg hmagic, if_neg hmagic]
      exact (Reading.answers_dataEnd hfills hfuel).bind fun _ _ => Answers.pure _

theorem Reading.answers_continuationSpan (hfills : reader.Fills)
    (hfuel : reader.bytes.length < fuel)
    (hbody : bodyEnd ≤ reader.bytes.length) : Answers (Reading.continuationSpan reader fuel bodyEnd)
      (Gho.continuationSpan reader.bytes bodyEnd) := by
  have hsize : headerSize = 512 := rfl
  have hlength := reader.length_lt
  have hstart : Answers (Reading.continuationStart reader bodyEnd)
      (Gho.continuationStart reader.bytes bodyEnd) := by
    unfold Reading.continuationStart Gho.continuationStart
    refine (Answers.plus (by omega)).bind_pure ?_
    by_cases hheader : bodyEnd + headerSize ≤ reader.bytes.length
    · rw [if_pos hheader, if_pos hheader]
      refine (Answers.ofExcept _).bind fun magic _ => ?_
      by_cases hmagic : readLE magic = 0xeffe
      · rw [if_pos hmagic, if_pos hmagic]
        exact Answers.plus (by omega)
      · rw [if_neg hmagic, if_neg hmagic]
        exact Answers.pure _
    · rw [if_neg hheader, if_neg hheader]
      exact Answers.pure _
  unfold Reading.continuationSpan Gho.continuationSpan
  exact hstart.bind fun _ _ =>
    (Reading.answers_dataEnd hfills hfuel).bind fun _ _ => Answers.pure _

private theorem bodyLen_lt_of_recordAt {l : List UInt8} {record : RecordHeader}
    (h : recordAt l = some record) : record.bodyLen < 2 ^ 16 := by
  unfold recordAt at h
  split at h
  · split_ifs at h
    obtain rfl := Option.some.inj h
    refine Nat.lt_of_lt_of_le (readLE_lt _) ?_
    simp only [List.length_cons, List.length_nil]
    omega
  · cases h

theorem Reading.answers_recordStep (hfills : reader.Fills) (hfuel : reader.bytes.length < fuel) :
    Answers (Reading.recordStep reader fuel offset partitions)
      (Gho.recordStep reader.bytes offset partitions) := by
  have hsize : recordHeaderSize = 10 := rfl
  have hlength := reader.length_lt
  unfold Reading.recordStep Gho.recordStep
  refine (Reading.answers_findRecord hfills (Nat.le_refl _) (by omega)).bind fun found hfound => ?_
  cases found with
  | none => exact Answers.pure _
  | some r =>
    obtain ⟨recordOffset, record⟩ := r
    have hplace := findRecord_eq_ok (Nat.le_refl _) hfound
    obtain ⟨-, hend, hrecord, -⟩ := (firstRecord_eq_some_iff (Nat.le_refl _)).1 hplace.symm
    have hbody := bodyLen_lt_of_recordAt hrecord
    refine (answers_checkedPlus (by omega)).bind_pure ?_
    refine (answers_checkedPlus (by omega)).bind_pure ?_
    have hfits : ¬ 2 ^ 64 ≤ recordOffset + recordHeaderSize + record.bodyLen := by omega
    dsimp only
    rw [if_neg hfits]
    by_cases htruncated : reader.bytes.length < recordOffset + recordHeaderSize + record.bodyLen
    · rw [if_pos htruncated, if_pos htruncated]
      exact Answers.fail _
    · rw [if_neg htruncated, if_neg htruncated]
      by_cases hpartition : record.kind = 0x0603
      · rw [if_pos hpartition, if_pos hpartition]
        exact (Reading.answers_partitionSpan hfills hfuel (by omega)).bind fun _ _ => Answers.pure _
      · rw [if_neg hpartition, if_neg hpartition]
        by_cases hcontinuation : record.kind = 0x0703
        · rw [if_pos hcontinuation, if_pos hcontinuation]
          exact (Reading.answers_continuationSpan hfills hfuel (by omega)).bind fun _ _ =>
            (Answers.ofExcept _).bind fun _ _ => Answers.pure _
        · rw [if_neg hcontinuation, if_neg hcontinuation]
          by_cases hlast : record.kind = 0x0023
          · rw [if_pos hlast, if_pos hlast]
            exact Answers.pure _
          · rw [if_neg hlast, if_neg hlast]
            exact Answers.pure _

/-- The loop over the records, as its first pass and the rest of it. -/
private theorem parseRecords_eq_bind {file : List UInt8} (hlt : offset < file.length) :
    Gho.parseRecords file offset partitions =
      Gho.recordStep file offset partitions >>= fun step =>
        match step with
        | none => .ok partitions
        | some (result, next) => Gho.parseRecords file next result := by
  rw [parseRecords_eq hlt]
  rcases Gho.recordStep file offset partitions with error | _ | ⟨result, next⟩ <;> rfl

theorem Reading.answers_parseRecords (hfills : reader.Fills) (hfuel : reader.bytes.length < fuel)
    (hpasses : reader.bytes.length - offset < passes) :
    Answers (Reading.parseRecords reader fuel passes offset partitions)
      (Gho.parseRecords reader.bytes offset partitions) := by
  have hsize : recordHeaderSize = 10 := rfl
  induction passes generalizing offset partitions with
  | zero => omega
  | succ passes ih =>
    unfold Reading.parseRecords
    by_cases hlt : offset < reader.bytes.length
    · rw [if_pos hlt, parseRecords_eq_bind hlt]
      refine (Reading.answers_recordStep hfills hfuel).bind fun step hstep => ?_
      cases step with
      | none => exact Answers.pure _
      | some r =>
        have hnext := recordStep_next hstep
        exact ih (by omega)
    · rw [if_neg hlt, Gho.parseRecords, if_neg hlt]
      exact Answers.pure _

/-- With a reader that fills its buffers and enough fuel, `parse` is the parsing of the container
model. -/
theorem Reading.answers_parse (hfills : reader.Fills) (hfuel : reader.bytes.length < fuel) :
    Answers (Reading.parse reader fuel) (Gho.parse reader.bytes) := by
  have hparse : Gho.parse reader.bytes = Reading.parseHeader reader >>= fun compression =>
      Gho.parseRecords reader.bytes headerSize [] >>= fun partitions =>
        if 2 ^ 32 ≤ partitions.length then .error .invalidRecord
        else if partitions.length = 0 then .error (.partitionCount 0)
        else .ok (partitions, {
          compression
          partitionCount := partitions.length
          sourcePartition := 1
          encrypted := false
          spanned := false }) := by
    unfold Gho.parse Reading.parseHeader
    split_ifs
    · rfl
    · rcases readExact reader.bytes 0 headerSize with error | header
      · rfl
      · dsimp only [bind, Except.bind]
        split_ifs <;> rfl
  rw [hparse]
  unfold Reading.parse
  refine (Answers.ofExcept _).bind fun compression _ => ?_
  refine (Reading.answers_parseRecords hfills hfuel (by omega)).bind fun partitions _ => ?_
  by_cases hcount : 2 ^ 32 ≤ partitions.length
  · rw [if_pos hcount, if_pos hcount]
    exact Answers.fail _
  · rw [if_neg hcount, if_neg hcount]
    by_cases hnone : partitions.length = 0
    · rw [if_pos hnone, if_pos hnone]
      exact Answers.fail _
    · rw [if_neg hnone, if_neg hnone]
      exact Answers.pure _

end Parse

end EasyDeployMesh.Gho
