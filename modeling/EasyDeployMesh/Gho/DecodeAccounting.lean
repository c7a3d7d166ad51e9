import EasyDeployMesh.Gho.Decode
import EasyDeployMesh.Gho.FastLzSafety
import EasyDeployMesh.Gho.Reading

/-!
# What decoding a partition writes and reads

`decode_partition` of `crates/gho` on an arbitrary byte string, behind the parsing that panics and
may run out of fuel. A block never gives more bytes than the output buffer holds, and the running
total is the number of bytes written; the limit is checked before a block is written. The loop over
the blocks of a span reads a block only when the whole of it lies in the span, so the ranges that
the decoder reads lie in the spans of the partition that it is asked for, and it depends on nothing
else behind the parsing.

## Main definitions

* `EasyDeployMesh.Gho.Reading.decodePartition`: the operation, with the parsing of `Reading`.
* `EasyDeployMesh.Gho.SpanReads`, `EasyDeployMesh.Gho.SpansRead`: the ranges of the file that the
  loops over a span and over the spans of a partition read.
* `EasyDeployMesh.Gho.Accounts`, `EasyDeployMesh.Gho.StaysInPartition`: what an outcome says of the
  bytes written, and where a partition is read.

## Main results

* `EasyDeployMesh.Gho.decodePartition_accounts`: both hold for every container, partition and limit.
-/

namespace EasyDeployMesh.Gho

open Foundations

/-- A result of the decoder as an outcome. -/
def decodeOutcome {α : Type} : Except Stop α → Outcome Error α
  | .ok a => .ok a
  | .error (.error error) => .error error
  | .error .panicked => .panic

section Definitions

variable (inflate : List UInt8 → Option (List UInt8))

/-- `decode_partition` on a reader: its outcome, and the bytes that it writes. -/
def Reading.decodePartition (reader : ByteReader) (fuel sourcePartition expandedLimit : ℕ) :
    Outcome Error (ImageInfo × ℕ) × List UInt8 :=
  match Reading.parse reader fuel 0 with
  | .error error => (.error error, [])
  | .panic => (.panic, [])
  | .running => (.running, [])
  | .ok ((partitions, info), _) =>
    match selectPartition partitions info sourcePartition with
    | .error error => (.error error, [])
    | .ok partition =>
      let (result, p) := decodeSpans inflate reader.bytes info.compression expandedLimit
        partition.spans .start
      (decodeOutcome (result.map fun _ => (info, p.total)), p.written)

/-- The ranges of the file that the loop over a span reads, from an offset on: the stored length of
a block, the data of the block, and what the later passes read. -/
inductive SpanReads (file : List UInt8) (compression : Compression) (limit stop : ℕ) :
    ℕ → Progress → ℕ × ℕ → Prop
  | length {offset : ℕ} {p : Progress} (hroom : offset + 2 ≤ stop) :
      SpanReads file compression limit stop offset p (offset, offset + 2)
  | data {offset : ℕ} {p : Progress} {length : List UInt8} (hroom : offset + 2 ≤ stop)
      (hlength : readExact file offset 2 = .ok length) (hstored : 3 ≤ readLE length)
      (hmax : readLE length ≤ maxStoredLen) (hnext : offset + readLE length ≤ stop) :
      SpanReads file compression limit stop offset p (offset + 2, offset + readLE length)
  | later {offset next : ℕ} {p q : Progress} {range : ℕ × ℕ}
      (hstep : blockStep inflate file compression limit stop offset p = .ok (some (next, q)))
      (h : SpanReads file compression limit stop next q range) :
      SpanReads file compression limit stop offset p range

/-- What an outcome says of the bytes that were written. -/
def Accounts (limit : ℕ) (r : Outcome Error (ImageInfo × ℕ) × List UInt8) : Prop :=
  match r.1 with
  | .ok (_, total) => r.2.length = total ∧ total ≤ limit
  | .error _ => r.2.length ≤ limit
  | .panic => False
  | .running => False

/-- The ranges of the file that the loop over spans reads. -/
inductive SpansRead (file : List UInt8) (compression : Compression) (limit : ℕ) :
    List (ℕ × ℕ) → Progress → ℕ × ℕ → Prop
  | here {span : ℕ × ℕ} {spans : List (ℕ × ℕ)} {p : Progress} {range : ℕ × ℕ}
      (h : SpanReads inflate file compression limit span.2 span.1 p range) :
      SpansRead file compression limit (span :: spans) p range
  | later {span : ℕ × ℕ} {spans : List (ℕ × ℕ)} {p q : Progress} {range : ℕ × ℕ}
      (hspan : decodeSpan inflate file compression limit span.2 span.1 p = (.ok (), q))
      (h : SpansRead file compression limit spans q range) :
      SpansRead file compression limit (span :: spans) p range

/-- Two files with the same bytes in a range. -/
def AgreeOn (file other : List UInt8) (first last : ℕ) : Prop :=
  ∀ i, first ≤ i → i < last → other[i]? = file[i]?

/-- Behind its parsing, `decode_partition` reads the spans of the selected partition only. For every
other reader with the same partitions, it answers and writes the same if the bytes that it reads are
the same, in particular if the bytes of those spans are. -/
structure StaysInPartition (reader : ByteReader) (fuel sourcePartition limit : ℕ)
    (partitions : List Partition) (info : ImageInfo) (partition : Partition) : Prop where
  reads : ∀ range,
    SpansRead inflate reader.bytes info.compression limit partition.spans .start range →
      ∃ span ∈ partition.spans, span.1 ≤ range.1 ∧ range.1 ≤ range.2 ∧ range.2 ≤ span.2
  determined : ∀ (other : ByteReader) (calls : ℕ),
    Reading.parse other fuel 0 = .ok ((partitions, info), calls) →
    (∀ range, SpansRead inflate reader.bytes info.compression limit partition.spans .start range →
      AgreeOn reader.bytes other.bytes range.1 range.2) →
    Reading.decodePartition inflate other fuel sourcePartition limit =
      Reading.decodePartition inflate reader fuel sourcePartition limit
  unaffected : ∀ (other : ByteReader) (calls : ℕ),
    Reading.parse other fuel 0 = .ok ((partitions, info), calls) →
    (∀ span ∈ partition.spans, AgreeOn reader.bytes other.bytes span.1 span.2) →
    Reading.decodePartition inflate other fuel sourcePartition limit =
      Reading.decodePartition inflate reader fuel sourcePartition limit

end Definitions

variable {inflate : List UInt8 → Option (List UInt8)} {file other data : List UInt8}
  {compression : Compression} {limit stop offset next stored : ℕ} {p q : Progress}

/-! ### Blocks -/

section Blocks

variable {out : List UInt8}

/-- A block fits in the output buffer, whose length it keeps. -/
def BlockFits (out : List UInt8) (r : ℕ × List UInt8) : Prop :=
  r.1 ≤ out.length ∧ r.2.length = out.length

theorem safe_zlib : Safe (zlib inflate data out) (BlockFits out) := by
  unfold zlib
  by_cases hshort : data.length < 4
  · rw [if_pos hshort]
    exact Avoids.failed (by decide)
  · rw [if_neg hshort]
    by_cases hstored : data.head? = some 1
    · rw [if_pos hstored]
      exact safe_storedBlock.mono fun r hr => ⟨hr.1, hr.2.1⟩
    · rw [if_neg hstored]
      cases inflate (data.drop 4) with
      | none => exact Avoids.failed (by decide)
      | some bytes =>
        dsimp only
        split_ifs with hlong
        · exact Avoids.failed (by decide)
        · refine Avoids.ok ⟨by omega, ?_⟩
          rw [List.length_append, List.length_drop]
          omega

/-- No block panics, and none gives more bytes than the output buffer holds. -/
theorem safe_decodeBlock (hout : out.length < 2 ^ 31) :
    Safe (decodeBlock inflate compression data out) (BlockFits out) := by
  cases compression with
  | none =>
    unfold decodeBlock
    dsimp only
    split_ifs with hlong
    · exact Avoids.failed (by decide)
    · refine Avoids.ok ⟨by omega, ?_⟩
      rw [List.length_append, List.length_drop]
      omega
  | fast => exact (safe_fastLz hout).mono fun r hr => ⟨hr.1, hr.2.1⟩
  | high level => exact safe_zlib

end Blocks

/-! ### Accounting -/

/-- The total is the number of bytes written, within the limit, and the output buffer has its
length. -/
structure Accounted (limit : ℕ) (p : Progress) : Prop where
  length_expanded : p.expanded.length = expandedLen
  length_written : p.written.length = p.total
  total_le : p.total ≤ limit

theorem accounted_start : Accounted limit .start where
  length_expanded := List.length_replicate
  length_written := rfl
  total_le := Nat.zero_le _

theorem safe_mapError {α : Type} (x : Except Error α) :
    Safe (x.mapError Stop.error) fun a => x = .ok a := by
  cases x with
  | error error => exact Avoids.failed (by rintro ⟨⟩)
  | ok a => exact Avoids.ok rfl

theorem Accounted.storedStep (h : Accounted limit p) :
    Safe (storedStep inflate file compression limit stop offset stored p)
      fun r => Accounted limit r.2 := by
  have hexpanded := h.length_expanded
  have hlen : expandedLen < 2 ^ 31 := by decide
  refine Avoids.check (by decide) fun _ => Avoids.check (by decide) fun _ =>
    Avoids.check (by decide) fun _ => (safe_mapError _).bind fun data _ => ?_
  refine (safe_decodeBlock (by omega)).bind fun block hblock => ?_
  obtain ⟨count, expanded⟩ := block
  obtain ⟨hcount, hlength⟩ := hblock
  refine Avoids.check (by decide) fun hlimit => Avoids.pure ⟨?_, ?_, ?_⟩
  · exact hlength.trans hexpanded
  · show (p.written ++ expanded.take count).length = p.total + count
    rw [List.length_append, List.length_take, h.length_written]
    dsimp only at hcount hlength
    omega
  · show p.total + count ≤ limit
    omega

theorem Accounted.blockStep (h : Accounted limit p) :
    Safe (blockStep inflate file compression limit stop offset p)
      fun r => ∀ step ∈ r, Accounted limit step.2 := by
  unfold Gho.blockStep
  by_cases hroom : offset + 2 < 2 ^ 64 ∧ offset + 2 ≤ stop
  · rw [if_pos hroom]
    refine (safe_mapError _).bind fun length _ => ?_
    by_cases hzero : readLE length = 0
    · rw [if_pos hzero]
      exact Avoids.pure fun step hstep => by cases hstep
    · rw [if_neg hzero]
      exact h.storedStep.bind fun r hr => Avoids.pure fun step hstep => Option.some.inj hstep ▸ hr
  · rw [if_neg hroom]
    exact Avoids.pure fun step hstep => by cases hstep

/-- The loop over a span keeps the account, whether it ends well or not. -/
theorem Accounted.decodeSpan (h : Accounted limit p) :
    (decodeSpan inflate file compression limit stop offset p).1 ≠ .error .panicked ∧
      Accounted limit (decodeSpan inflate file compression limit stop offset p).2 := by
  fun_induction Gho.decodeSpan inflate file compression limit stop offset p with
  | case1 offset p reason hstep =>
    have hsafe : Safe (Gho.blockStep inflate file compression limit stop offset p) _ := h.blockStep
    rw [hstep] at hsafe
    exact ⟨fun heq => hsafe.ne_error (congrArg _ (Except.error.inj heq)), h⟩
  | case2 offset p hstep => exact ⟨by rintro ⟨⟩, h⟩
  | case3 offset p next q hstep ih => exact ih (h.blockStep.of_ok _ hstep _ rfl)

theorem Accounted.decodeSpans {spans : List (ℕ × ℕ)} (h : Accounted limit p) :
    (decodeSpans inflate file compression limit spans p).1 ≠ .error .panicked ∧
      Accounted limit (decodeSpans inflate file compression limit spans p).2 := by
  induction spans generalizing p with
  | nil => exact ⟨by rintro ⟨⟩, h⟩
  | cons span spans ih =>
    unfold Gho.decodeSpans
    have hspan : (Gho.decodeSpan inflate file compression limit span.2 span.1 p).1 ≠
        .error .panicked ∧ Accounted limit
          (Gho.decodeSpan inflate file compression limit span.2 span.1 p).2 := h.decodeSpan
    rcases hcase : Gho.decodeSpan inflate file compression limit span.2 span.1 p with
      ⟨reason | _, q⟩
    · rw [hcase] at hspan
      exact hspan
    · rw [hcase] at hspan
      exact ih hspan.2

/-! ### The range of a partition -/

/-- What the loop over a span reads lies in the span. -/
theorem SpanReads.within {range : ℕ × ℕ}
    (h : SpanReads inflate file compression limit stop offset p range) :
    offset ≤ range.1 ∧ range.1 ≤ range.2 ∧ range.2 ≤ stop := by
  induction h with
  | length hroom => exact ⟨Nat.le_refl _, Nat.le_add_right _ _, hroom⟩
  | data hroom hlength hstored hmax hnext => exact ⟨by omega, by omega, hnext⟩
  | later hstep h ih =>
    have hforward := (blockStep_next hstep).1
    omega

theorem SpansRead.within {spans : List (ℕ × ℕ)} {range : ℕ × ℕ}
    (h : SpansRead inflate file compression limit spans p range) :
    ∃ span ∈ spans, span.1 ≤ range.1 ∧ range.1 ≤ range.2 ∧ range.2 ≤ span.2 := by
  induction h with
  | here h => exact ⟨_, List.mem_cons_self, h.within⟩
  | later _ _ ih =>
    obtain ⟨span, hspan, hwithin⟩ := ih
    exact ⟨span, List.mem_cons_of_mem _ hspan, hwithin⟩

theorem AgreeOn.mono {first last first' last' : ℕ} (h : AgreeOn file other first last)
    (hfirst : first ≤ first') (hlast : last' ≤ last) : AgreeOn file other first' last' :=
  fun i hi hlt => h i (by omega) (by omega)

theorem AgreeOn.readExact_eq {n : ℕ} (h : AgreeOn file other offset (offset + n)) :
    readExact other offset n = readExact file offset n := by
  have htake : (other.drop offset).take n = (file.drop offset).take n := by
    refine List.ext_getElem? fun i => ?_
    by_cases hi : i < n
    · rw [List.getElem?_take_of_lt hi, List.getElem?_take_of_lt hi, List.getElem?_drop,
        List.getElem?_drop]
      exact h _ (by omega) (by omega)
    · rw [List.getElem?_take_eq_none (by omega), List.getElem?_take_eq_none (by omega)]
  unfold readExact
  rw [htake]

/-- A block whose data are read as in another file is the same there. -/
theorem storedStep_congr
    (h : 3 ≤ stored → stored ≤ maxStoredLen → offset + stored ≤ stop →
      AgreeOn file other (offset + 2) (offset + stored)) :
    storedStep inflate other compression limit stop offset stored p =
      storedStep inflate file compression limit stop offset stored p := by
  unfold storedStep
  dsimp only
  by_cases hstored : stored < 3 ∨ maxStoredLen < stored
  · rw [if_pos hstored, if_pos hstored]
    rfl
  · by_cases hnext : stop < offset + stored
    · rw [if_neg hstored, if_neg hstored, if_pos hnext, if_pos hnext]
      split_ifs <;> rfl
    · have hdata := h (by omega) (by omega) (by omega)
      have hend : offset + 2 + (stored - 2) = offset + stored := by omega
      rw [AgreeOn.readExact_eq (hend.symm ▸ hdata)]

/-- One pass depends only on what it reads. -/
theorem blockStep_congr
    (h : ∀ range, SpanReads inflate file compression limit stop offset p range →
      AgreeOn file other range.1 range.2) :
    blockStep inflate other compression limit stop offset p =
      blockStep inflate file compression limit stop offset p := by
  unfold blockStep
  by_cases hroom : offset + 2 < 2 ^ 64 ∧ offset + 2 ≤ stop
  · rw [if_pos hroom, if_pos hroom, (h _ (.length hroom.2)).readExact_eq]
    cases hlength : readExact file offset 2 with
    | error error => rfl
    | ok length =>
      have hstep : storedStep inflate other compression limit stop offset _ p = _ :=
        storedStep_congr fun hstored hmax hnext => h _ (.data hroom.2 hlength hstored hmax hnext)
      simp only [Except.mapError, bind, Except.bind, hstep]
  · rw [if_neg hroom, if_neg hroom]

/-- The loop over a span depends only on what it reads. -/
theorem decodeSpan_congr
    (h : ∀ range, SpanReads inflate file compression limit stop offset p range →
      AgreeOn file other range.1 range.2) :
    decodeSpan inflate other compression limit stop offset p =
      decodeSpan inflate file compression limit stop offset p := by
  fun_induction decodeSpan inflate file compression limit stop offset p with
  | case1 offset p reason hstep => rw [Gho.decodeSpan_eq, blockStep_congr h, hstep]
  | case2 offset p hstep => rw [Gho.decodeSpan_eq, blockStep_congr h, hstep]
  | case3 offset p next q hstep ih =>
    rw [Gho.decodeSpan_eq, blockStep_congr h, hstep]
    exact ih fun range hrange => h range (.later hstep hrange)

theorem decodeSpans_congr {spans : List (ℕ × ℕ)}
    (h : ∀ range, SpansRead inflate file compression limit spans p range →
      AgreeOn file other range.1 range.2) :
    decodeSpans inflate other compression limit spans p =
      decodeSpans inflate file compression limit spans p := by
  induction spans generalizing p with
  | nil => rfl
  | cons span spans ih =>
    unfold decodeSpans
    rw [decodeSpan_congr fun range hrange => h range (.here hrange)]
    rcases hspan : decodeSpan inflate file compression limit span.2 span.1 p with ⟨reason | _, q⟩
    · rfl
    · exact ih fun range hrange => h range (.later hspan hrange)

/-- What is decoded behind a parsing that selects a partition. -/
theorem Reading.decodePartition_of_parse {reader : ByteReader} {fuel sourcePartition calls : ℕ}
    {partitions : List Partition} {info : ImageInfo} {partition : Partition}
    (hparse : Reading.parse reader fuel 0 = .ok ((partitions, info), calls))
    (hselect : selectPartition partitions info sourcePartition = .ok partition) :
    Reading.decodePartition inflate reader fuel sourcePartition limit =
      (decodeOutcome ((decodeSpans inflate reader.bytes info.compression limit partition.spans
          .start).1.map fun _ => (info, (decodeSpans inflate reader.bytes info.compression limit
            partition.spans .start).2.total)),
        (decodeSpans inflate reader.bytes info.compression limit partition.spans
          .start).2.written) := by
  rw [Reading.decodePartition, hparse]
  simp only [hselect]

theorem staysInPartition {reader : ByteReader} {fuel sourcePartition calls : ℕ}
    {partitions : List Partition} {info : ImageInfo} {partition : Partition}
    (hparse : Reading.parse reader fuel 0 = .ok ((partitions, info), calls))
    (hselect : selectPartition partitions info sourcePartition = .ok partition) :
    StaysInPartition inflate reader fuel sourcePartition limit partitions info partition := by
  have hdetermined : ∀ (other : ByteReader) (calls : ℕ),
      Reading.parse other fuel 0 = .ok ((partitions, info), calls) →
      (∀ range,
        SpansRead inflate reader.bytes info.compression limit partition.spans .start range →
        AgreeOn reader.bytes other.bytes range.1 range.2) →
      Reading.decodePartition inflate other fuel sourcePartition limit =
        Reading.decodePartition inflate reader fuel sourcePartition limit := by
    intro other calls hother hagree
    rw [Reading.decodePartition_of_parse hother hselect,
      Reading.decodePartition_of_parse hparse hselect, decodeSpans_congr hagree]
  refine ⟨fun range hrange => hrange.within, hdetermined, fun other calls hother hagree =>
    hdetermined other calls hother fun range hrange => ?_⟩
  obtain ⟨span, hspan, hfirst, -, hlast⟩ := hrange.within
  exact (hagree span hspan).mono hfirst hlast

/-! ### The operation -/

/-- What an outcome says of the bytes written, with enough fuel. -/
theorem accounts_decodePartition {reader : ByteReader} {fuel sourcePartition : ℕ}
    (hfuel : reader.bytes.length < fuel) :
    Accounts limit (Reading.decodePartition inflate reader fuel sourcePartition limit) := by
  have houtcome := (Reading.ends_parse hfuel).outcome 0
  cases hparse : Reading.parse reader fuel 0 with
  | ok result =>
    obtain ⟨⟨partitions, info⟩, calls⟩ := result
    cases hselect : selectPartition partitions info sourcePartition with
    | error error =>
      rw [Reading.decodePartition, hparse]
      simp only [hselect]
      exact Nat.zero_le _
    | ok partition =>
      rw [Reading.decodePartition_of_parse hparse hselect]
      have hspans : (decodeSpans inflate reader.bytes info.compression limit partition.spans
          .start).1 ≠ .error .panicked ∧ Accounted limit (decodeSpans inflate reader.bytes
            info.compression limit partition.spans .start).2 := accounted_start.decodeSpans
      generalize decodeSpans inflate reader.bytes info.compression limit partition.spans
        .start = r at hspans ⊢
      rcases r with ⟨(error | _) | _, p⟩
      · show p.written.length ≤ limit
        rw [hspans.2.length_written]
        exact hspans.2.total_le
      · exact absurd rfl hspans.1
      · exact ⟨hspans.2.length_written, hspans.2.total_le⟩
  | error error =>
    rw [Reading.decodePartition, hparse]
    exact Nat.zero_le _
  | panic =>
    rw [hparse] at houtcome
    exact houtcome.elim
  | running =>
    rw [hparse] at houtcome
    exact houtcome.elim

/-- For every container, partition and limit, and whatever the deflate library makes of the blocks:
with more fuel than the container has bytes, decoding ends without a panic, its outcome accounts for
the bytes written, no block gives more bytes than the output buffer holds, and only the spans of the
selected partition are read. -/
theorem decodePartition_accounts (inflate : List UInt8 → Option (List UInt8))
    (reader : ByteReader) {fuel : ℕ} (hfuel : reader.bytes.length < fuel)
    (sourcePartition limit : ℕ) :
    Accounts limit (Reading.decodePartition inflate reader fuel sourcePartition limit) ∧
    (∀ compression data out, out.length = expandedLen →
      Safe (decodeBlock inflate compression data out) (BlockFits out)) ∧
    ∀ partitions info calls partition,
      Reading.parse reader fuel 0 = .ok ((partitions, info), calls) →
      selectPartition partitions info sourcePartition = .ok partition →
        StaysInPartition inflate reader fuel sourcePartition limit partitions info partition := by
  refine ⟨accounts_decodePartition hfuel, fun compression data out hout => ?_,
    fun partitions info calls partition hparse hselect => staysInPartition hparse hselect⟩
  have hlen : expandedLen < 2 ^ 31 := by decide
  exact safe_decodeBlock (by omega)

/-- An uncompressed container with two partitions of one block each. The block of the first one
begins with the given byte. Only the kernel is to compute with its bytes. -/
@[irreducible] def twoPartitions (byte : UInt8) : ByteReader where
  bytes :=
    -- the header of the container; the first partition, with its record and its header
    [0xfe, 0xef, 1, 0] ++ List.replicate 508 0 ++
    [0x03, 0x06, 0, 0, 0xd8, 0x18, 0x2f, 0x01, 0, 0] ++ [0xfe, 0xef] ++ List.replicate 510 0 ++
    [5, 0, byte, 66, 67] ++
    -- the second partition; the end record
    [0x03, 0x06, 0, 0, 0xd8, 0x18, 0x2f, 0x01, 0, 0] ++ [0xfe, 0xef] ++ List.replicate 510 0 ++
    [4, 0, 68, 69] ++
    [0x23, 0, 0, 0, 0xd8, 0x18, 0x2f, 0x01, 0, 0]
  length_lt := by
    simp only [List.length_append, List.length_cons, List.length_nil, List.length_replicate]
    decide
  deliver _ := 2000

/-- The second partition is decoded alike whatever is in the first one. -/
theorem decodePartition_accounts_twoPartitions :
    Accounts 10 (Reading.decodePartition (fun _ => none) (twoPartitions 65) 1600 2 10) ∧
      Reading.decodePartition (fun _ => none) (twoPartitions 0) 1600 2 10 =
        Reading.decodePartition (fun _ => none) (twoPartitions 65) 1600 2 10 := by
  have hparse : ∀ byte ∈ [0, 65], Reading.parse (twoPartitions byte) 1600 0 =
      .ok (([{ spans := [(1034, 1039)] }, { spans := [(1561, 1565)] }], {
        compression := .none
        partitionCount := 2
        sourcePartition := 1
        encrypted := false
        spanned := false }), 5) := by
    decide +kernel
  have hfuel : (twoPartitions 65).bytes.length < 1600 := by decide +kernel
  have hbytes : ∀ k < 4,
      (twoPartitions 0).bytes[1561 + k]? = (twoPartitions 65).bytes[1561 + k]? := by
    decide +kernel
  have hagree : AgreeOn (twoPartitions 65).bytes (twoPartitions 0).bytes 1561 1565 := by
    intro i hfirst hlast
    obtain ⟨k, rfl⟩ := Nat.exists_eq_add_of_le hfirst
    exact hbytes k (by omega)
  have hspans : ∀ span ∈ [(1561, 1565)],
      AgreeOn (twoPartitions 65).bytes (twoPartitions 0).bytes span.1 span.2 :=
    List.forall_mem_singleton.2 hagree
  have hselected := (decodePartition_accounts (fun _ => none) _ hfuel 2 10).2.2 _ _ 5
    { spans := [(1561, 1565)] } (hparse 65 (by decide)) rfl
  exact ⟨(decodePartition_accounts _ _ hfuel 2 10).1,
    hselected.unaffected _ 5 (hparse 0 (by decide)) hspans⟩

end EasyDeployMesh.Gho
