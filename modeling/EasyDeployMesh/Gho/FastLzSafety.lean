import EasyDeployMesh.Foundations.Avoids
import EasyDeployMesh.Gho.FastLz

/-!
# Fast decompression is memory safe

The decompressor of `crates/gho` on arbitrary bytes. Between two tokens the bytes of the output
before `dst` are those that this call has written, the table holds places before `dst` only, and at
most two literals wait to be entered. A token keeps this, so no index leaves its buffer and no sum
or difference leaves its type; what a match copies lies before the place where it is copied to.

## Main definitions

* `EasyDeployMesh.Gho.FastInvariant`: what holds between two tokens.
* `EasyDeployMesh.Gho.FastReach`: the states that a call goes through.
* `EasyDeployMesh.Gho.FastState.copies`: the bytes that a token copies, and where to.
* `EasyDeployMesh.Gho.FastLzSafe`: a call is memory safe.

## Main results

* `EasyDeployMesh.Gho.fastLzSafe`: every call is, with an output buffer below `2 ^ 31` bytes.
-/

namespace EasyDeployMesh.Gho

open Foundations

/-- The computation does not panic, and `post` holds of its value. -/
abbrev Safe {α : Type} (x : Except Stop α) (post : α → Prop) : Prop := Avoids Stop.panicked x post

/-! ### Buffers -/

section Buffers

variable {α : Type} {buffer : List α} {i : ℕ} {out : List UInt8} {pos : ℕ}

theorem safe_index (h : i < buffer.length) : Safe (index buffer i) (· ∈ buffer) := by
  rw [index, List.getElem?_eq_getElem h]
  exact Avoids.ok (List.getElem_mem h)

theorem safe_store {value : α} (h : i < buffer.length) :
    Safe (store buffer i value) (· = buffer.set i value) := by
  rw [store, if_pos h]
  exact Avoids.ok rfl

theorem safe_addIn {width a b : ℕ} (h : a + b < 2 ^ width) :
    Safe (addIn width a b) (· = a + b) := by
  rw [addIn, if_pos h]
  exact Avoids.ok rfl

/-- A hash is a place of the table. -/
theorem hash_lt (a b c : UInt8) : hash a b c < 4096 := by
  unfold hash
  rw [UInt32.toNat_and]
  exact Nat.lt_succ_of_le Nat.and_le_right

theorem safe_hashAt (h : pos + 2 < out.length) : Safe (hashAt out pos) (· < 4096) :=
  (safe_index (by omega)).bind fun _ _ => (safe_index (by omega)).bind fun _ _ =>
    (safe_index (by omega)).bind fun _ _ => Avoids.pure (hash_lt _ _ _)

/-- The products in `hash` fit in an `i32`. -/
theorem hash_fits (a b : UInt8) : 16 * (b.toNat ^^^ (16 * a.toNat)) < 2 ^ 31 := by
  have ha := a.toNat_lt
  have hb := b.toNat_lt
  have hxor : b.toNat ^^^ (16 * a.toNat) < 2 ^ 12 := Nat.xor_lt_two_pow (by omega) (by omega)
  omega

theorem asI32_eq (h : pos < 2 ^ 31) : asI32 pos = pos := by
  unfold asI32
  rw [Int.bmod_def]
  omega

end Buffers

/-! ### The states of a call -/

/-- The state before the first token. -/
def FastState.start (out : List UInt8) : FastState where
  src := 4
  dst := 0
  control := 1
  literalRun := 0
  previousRun := 0
  table := List.replicate 4096 (-1)
  out := out

/-- What holds between two tokens of a call on the buffer `out`. -/
structure FastInvariant (out : List UInt8) (s : FastState) : Prop where
  length_out : s.out.length = out.length
  dst_le : s.dst ≤ out.length
  /-- The bytes from `dst` on are not written yet. -/
  untouched : s.out.drop s.dst = out.drop s.dst
  length_table : s.table.length = 4096
  table_lt : ∀ pos ∈ s.table, pos < s.dst
  literalRun_le : s.literalRun ≤ 2
  literalRun_le_dst : s.literalRun ≤ s.dst

variable {data out : List UInt8} {s t : FastState} {dst pos : ℕ} {matchPos : ℤ}

theorem fastInvariant_start : FastInvariant out (.start out) where
  length_out := rfl
  dst_le := Nat.zero_le _
  untouched := rfl
  length_table := List.length_replicate
  table_lt pos h := by
    rw [List.eq_of_mem_replicate h]
    exact Int.negSucc_lt_zero 0
  literalRun_le := Nat.zero_le _
  literalRun_le_dst := Nat.zero_le _

/-! ### Matches -/

section Matches

variable {buffer : List UInt8} {count j : ℕ} {table : List ℤ}

theorem safe_matchByte (h : dst ≤ buffer.length) :
    Safe (matchByte buffer dst matchPos j) fun _ => True := by
  unfold matchByte
  dsimp only
  split_ifs with hneg hbig hahead
  · exact Avoids.ok trivial
  · exact Avoids.failed (by decide)
  · exact Avoids.failed (by decide)
  · exact (safe_index (by omega)).mono fun _ _ => trivial

/-- What copying a match does: `count` bytes are written from `dst` on, in the buffer. -/
structure MatchCopied (buffer : List UInt8) (dst count : ℕ) (r : ℕ × List UInt8) : Prop where
  dst_eq : r.1 = dst + count
  dst_le : r.1 ≤ buffer.length
  length : r.2.length = buffer.length
  untouched : r.2.drop r.1 = buffer.drop r.1

theorem safe_copyMatch (h : dst ≤ buffer.length) :
    Safe (copyMatch matchPos count j dst buffer) (MatchCopied buffer dst count) := by
  induction count generalizing j dst buffer with
  | zero => exact Avoids.ok ⟨rfl, h, rfl, rfl⟩
  | succ count ih =>
    refine Avoids.check (by decide) fun hroom => ?_
    refine (safe_matchByte h).bind fun byte _ => (safe_store (by omega)).bind ?_
    rintro stored rfl
    refine (ih (by rw [List.length_set]; omega)).mono fun r hr => ?_
    have hdst := hr.dst_eq
    have hle := hr.dst_le
    have hlength := hr.length
    rw [List.length_set] at hle hlength
    refine ⟨by omega, hle, hlength, ?_⟩
    rw [hr.untouched, List.drop_set_of_lt (by omega)]

/-- A table of places before `dst`. -/
structure TableBefore (dst : ℕ) (table : List ℤ) : Prop where
  length : table.length = 4096
  lt : ∀ pos ∈ table, pos < dst

theorem TableBefore.set {i : ℕ} (h : TableBefore dst table) (hpos : pos < dst) :
    TableBefore dst (table.set i pos) where
  length := by rw [List.length_set, h.length]
  lt p hp := by
    rcases List.mem_or_eq_of_mem_set hp with hp | rfl
    · exact h.lt p hp
    · exact Int.ofNat_lt.2 hpos

/-- Entering a place of three written bytes. -/
theorem safe_enter {key : ℕ} (h : TableBefore dst table) (hkey : key < 4096) (hpos : pos < dst)
    (hdst : dst < 2 ^ 31) : Safe (store table key (asI32 pos)) (TableBefore dst) := by
  rw [asI32_eq (by omega)]
  refine (safe_store (by rw [h.length]; exact hkey)).mono ?_
  rintro stored rfl
  exact h.set hpos

theorem safe_enterBefore (h : TableBefore dst table) (hdst : dst ≤ buffer.length)
    (hbound : buffer.length < 2 ^ 31) :
    Safe (enterBefore table buffer dst (pos + 2) pos) (TableBefore dst) := by
  unfold enterBefore
  split_ifs with hlast
  · exact (safe_hashAt (by omega)).bind fun key hkey => safe_enter h hkey (by omega) (by omega)
  · exact Avoids.ok h

/-- A match enters the literals before it. -/
theorem safe_enterLiterals (h : FastInvariant out s) (hbound : out.length < 2 ^ 31)
    (hlength : buffer.length = out.length) (hdst : s.dst ≤ dst) (hle : dst ≤ out.length) :
    Safe (enterLiterals s s.dst dst buffer) (TableBefore dst) := by
  have htable : TableBefore dst s.table :=
    ⟨h.length_table, fun pos hpos => Int.lt_of_lt_of_le (h.table_lt pos hpos) (Int.ofNat_le.2 hdst)⟩
  have hrun := h.literalRun_le_dst
  unfold enterLiterals
  by_cases hliterals : 0 < s.literalRun
  · rw [if_pos hliterals]
    refine Avoids.check (by decide) fun _ => ?_
    refine (safe_addIn (by omega)).bind ?_
    rintro last rfl
    refine (safe_enterBefore htable (by omega) (by omega)).bind fun table htable => ?_
    by_cases hprevious : s.previousRun = 2
    · rw [if_pos hprevious]
      refine (safe_addIn (by omega)).bind ?_
      rintro last rfl
      exact safe_enterBefore htable (by omega) (by omega)
    · rw [if_neg hprevious]
      exact Avoids.ok htable
  · rw [if_neg hliterals]
    exact Avoids.ok htable

theorem safe_matchToken (h : FastInvariant out s) (hbound : out.length < 2 ^ 31) :
    Safe (matchToken data s) (FastInvariant out) := by
  have hdst := h.dst_le
  have hlength := h.length_out
  refine Avoids.check (by decide) fun hend => ?_
  refine (safe_index (by omega)).bind fun low _ => (safe_index (by omega)).bind fun high _ => ?_
  have hplace : low.toNat ||| ((high &&& 0xf0).toNat <<< 4) < 4096 := by
    have hlow := low.toNat_lt
    have hhigh := (high &&& 0xf0).toNat_lt
    refine Nat.or_lt_two_pow (n := 12) (by omega) ?_
    rw [Nat.shiftLeft_eq]
    omega
  refine (safe_index (by rw [h.length_table]; exact hplace)).bind fun matchPos _ => ?_
  refine (safe_copyMatch (by omega)).bind fun r hr => ?_
  have hr₁ := hr.dst_eq
  have hr₂ := hr.dst_le
  have hr₃ := hr.length
  refine (safe_enterLiterals h hbound (by omega) (by omega) (by omega)).bind
    fun entered hentered => ?_
  refine (safe_enter hentered hplace (by omega) (by omega)).bind fun table htable => Avoids.pure ?_
  refine ⟨hr₃.trans hlength, hlength ▸ hr₂, ?_, htable.length, htable.lt, Nat.zero_le _,
    Nat.zero_le _⟩
  have hdrop := congrArg (List.drop (r.1 - s.dst)) h.untouched
  rw [List.drop_drop, List.drop_drop, Nat.add_sub_cancel' (by omega)] at hdrop
  exact hr.untouched.trans hdrop

end Matches

/-! ### Literals -/

/-- A written literal, before the run is entered. -/
structure LiteralWritten (out : List UInt8) (run : ℕ) (s : FastState) : Prop where
  length_out : s.out.length = out.length
  dst_le : s.dst ≤ out.length
  untouched : s.out.drop s.dst = out.drop s.dst
  table : TableBefore s.dst s.table
  run_le : run ≤ s.dst

theorem safe_enterRun (h : LiteralWritten out 3 s) (hbound : out.length < 2 ^ 31) :
    Safe (enterRun s) (FastInvariant out) := by
  have hlength := h.length_out
  have hdst := h.dst_le
  have hrun := h.run_le
  unfold enterRun
  rw [if_neg (by omega)]
  refine (safe_hashAt (by omega)).bind fun key hkey => ?_
  refine (safe_enter h.table hkey (by omega) (by omega)).bind fun table htable => Avoids.pure ?_
  exact ⟨hlength, hdst, h.untouched, htable.length, htable.lt, Nat.le_refl _, by
    show 2 ≤ s.dst
    omega⟩

theorem safe_literalToken (h : FastInvariant out s) (hsrc : s.src < data.length)
    (hbound : out.length < 2 ^ 31) : Safe (literalToken data s) (FastInvariant out) := by
  have hdst := h.dst_le
  have hlength := h.length_out
  have hrun := h.literalRun_le
  have hrun_dst := h.literalRun_le_dst
  refine Avoids.check (by decide) fun hroom => ?_
  refine (safe_index hsrc).bind fun byte _ => (safe_store (by omega)).bind ?_
  rintro stored rfl
  refine (safe_addIn (by omega)).bind ?_
  rintro run rfl
  have hwritten : LiteralWritten out (s.literalRun + 1) { s with
      src := s.src + 1
      dst := s.dst + 1
      literalRun := s.literalRun + 1
      previousRun := s.literalRun + 1
      out := s.out.set s.dst byte } := by
    refine ⟨by rw [List.length_set, hlength], by show s.dst + 1 ≤ _; omega, ?_, ?_, by
      show s.literalRun + 1 ≤ s.dst + 1; omega⟩
    · show (s.out.set s.dst byte).drop (s.dst + 1) = out.drop (s.dst + 1)
      rw [List.drop_set_of_lt (by omega), ← List.drop_drop, h.untouched, List.drop_drop]
    · exact ⟨h.length_table, fun pos hpos => Int.lt_trans (h.table_lt pos hpos) (by
      show (s.dst : ℤ) < (s.dst + 1 : ℕ)
      omega)⟩
  dsimp only
  split_ifs with hthree
  · exact safe_enterRun (hthree ▸ hwritten) hbound
  · exact Avoids.pure ⟨hwritten.length_out, hwritten.dst_le, hwritten.untouched,
      hwritten.table.length, hwritten.table.lt, by show s.literalRun + 1 ≤ 2; omega,
      hwritten.run_le⟩

/-! ### Tokens, batches and the loop -/

theorem safe_fastToken (h : FastInvariant out s) (hsrc : s.src < data.length)
    (hbound : out.length < 2 ^ 31) : Safe (fastToken data s) (FastInvariant out) := by
  have htoken : Safe (controlToken data s) (FastInvariant out) := by
    unfold controlToken
    split_ifs
    · exact safe_matchToken h hbound
    · exact safe_literalToken h hsrc hbound
  exact htoken.bind fun t ht => Avoids.pure ⟨ht.length_out, ht.dst_le, ht.untouched,
    ht.length_table, ht.table_lt, ht.literalRun_le, ht.literalRun_le_dst⟩

theorem safe_fastControl (h : FastInvariant out s) :
    Safe (fastControl data s) fun r => ∀ t ∈ r, FastInvariant out t := by
  unfold fastControl
  split_ifs with hcontrol hend
  · exact Avoids.ok fun t ht => by cases ht
  · refine (safe_index (by omega)).bind fun low _ => (safe_index (by omega)).bind fun high _ => ?_
    refine Avoids.pure fun t ht => ?_
    obtain rfl := Option.some.inj ht
    exact ⟨h.length_out, h.dst_le, h.untouched, h.length_table, h.table_lt, h.literalRun_le,
      h.literalRun_le_dst⟩
  · exact Avoids.ok fun t ht => Option.some.inj ht ▸ h

/-- The states that a call goes through: after each control word and after each token. -/
inductive FastReach (data out : List UInt8) : FastState → Prop
  | start : FastReach data out (.start out)
  | control {s t : FastState} (hs : FastReach data out s) (hsrc : s.src < data.length)
      (h : fastControl data s = .ok (some t)) : FastReach data out t
  | token {s t : FastState} (hs : FastReach data out s) (hsrc : s.src < data.length)
      (h : fastToken data s = .ok t) : FastReach data out t

theorem FastReach.invariant (h : FastReach data out s) (hbound : out.length < 2 ^ 31) :
    FastInvariant out s := by
  induction h with
  | start => exact fastInvariant_start
  | control _ _ h ih => exact (safe_fastControl ih).of_ok _ h _ rfl
  | token _ hsrc h ih => exact (safe_fastToken ih hsrc hbound).of_ok _ h

theorem safe_fastTokens {tokens : ℕ} (h : FastReach data out s) (hbound : out.length < 2 ^ 31) :
    Safe (fastTokens data tokens s) (FastReach data out) := by
  induction tokens generalizing s with
  | zero => exact Avoids.ok h
  | succ tokens ih =>
    unfold fastTokens
    split_ifs with hend
    · exact Avoids.ok h
    · have htoken : Safe (fastToken data s) (FastInvariant out) :=
        safe_fastToken (h.invariant hbound) (by omega) hbound
      refine Avoids.bind ⟨htoken.ne_error, fun t => FastReach.token h (by omega)⟩ fun t ht => ?_
      split_ifs
      · exact Avoids.pure ht
      · exact ih ht

theorem safe_fastBatch (h : FastReach data out s) (hsrc : s.src < data.length)
    (hbound : out.length < 2 ^ 31) :
    Safe (fastBatch data s) fun r => ∀ t ∈ r, FastReach data out t := by
  have hcontrol : Safe (fastControl data s) fun r => ∀ t ∈ r, FastReach data out t := by
    refine ⟨(safe_fastControl (h.invariant hbound)).ne_error, ?_⟩
    rintro r hr t rfl
    exact h.control hsrc hr
  refine hcontrol.bind fun r hr => ?_
  cases r with
  | none => exact Avoids.pure fun t ht => by cases ht
  | some u =>
    refine (safe_fastTokens (hr u rfl) hbound).bind fun t ht => Avoids.pure fun v hv => ?_
    exact Option.some.inj hv ▸ ht

theorem safe_fastLoop (h : FastReach data out s) (hbound : out.length < 2 ^ 31) :
    Safe (fastLoop data s) (FastReach data out) := by
  fun_induction fastLoop data s with
  | case1 s hsrc stop hbatch =>
    have hsafe := safe_fastBatch h hsrc hbound
    exact Avoids.failed fun heq => hsafe.ne_error (heq ▸ hbatch)
  | case2 s hsrc hbatch => exact Avoids.ok h
  | case3 s hsrc t hbatch ih => exact ih ((safe_fastBatch h hsrc hbound).of_ok _ hbatch t rfl)
  | case4 s hsrc => exact Avoids.ok h

/-! ### Back-references -/

/-- The entry of the table that a match names, and the number of bytes of the match. -/
def FastState.matchOf (data : List UInt8) (s : FastState) : Option (ℤ × ℕ) := do
  let low ← data[s.src + 1]?
  let high ← data[s.src]?
  let matchPos ← s.table[low.toNat ||| ((high &&& 0xf0).toNat <<< 4)]?
  return (matchPos, 3 + (high &&& 0x0f).toNat)

/-- The bytes that the next token copies: the place of each of them, and the place it is copied to.
A match that the table does not know copies from the sentinel. -/
def FastState.copies (data : List UInt8) (s : FastState) : List (ℕ × ℕ) :=
  match s.matchOf data with
  | none => []
  | some (matchPos, count) =>
    if s.control &&& 1 ≠ 0 ∧ 0 ≤ matchPos then
      (List.range count).map fun j => (matchPos.toNat + j, s.dst + j)
    else []

/-- What a match copies lies before the place that it is copied to. -/
theorem FastInvariant.backward (h : FastInvariant out s) : ∀ c ∈ s.copies data, c.1 < c.2 := by
  unfold FastState.copies
  cases hmatch : s.matchOf data with
  | none => exact fun c hc => absurd hc List.not_mem_nil
  | some r =>
    obtain ⟨matchPos, count⟩ := r
    dsimp only
    split_ifs with hcopies
    · have hentry : matchPos ∈ s.table := by
        simp only [FastState.matchOf, Option.bind_eq_bind, Option.bind_eq_some_iff, Option.pure_def,
          Option.some.injEq, Prod.mk.injEq] at hmatch
        obtain ⟨low, -, high, -, entry, hentry, rfl, -⟩ := hmatch
        exact List.mem_of_getElem? hentry
      intro c hc
      obtain ⟨j, -, rfl⟩ := List.mem_map.1 hc
      have hlt := h.table_lt matchPos hentry
      show matchPos.toNat + j < s.dst + j
      omega
    · exact fun c hc => absurd hc List.not_mem_nil

/-- A call of `fast_lz` is memory safe. -/
structure FastLzSafe (data out : List UInt8) : Prop where
  /-- The call ends without a panic: every index lies in its buffer, and every sum and difference in
  its type. -/
  total : fastLz data out ≠ .error .panicked
  /-- The products of the hash fit in their type as well. -/
  hash_fits : ∀ a b : UInt8, 16 * (b.toNat ^^^ (16 * a.toNat)) < 2 ^ 31
  /-- Only the first `n` bytes of the output buffer are written. -/
  written : ∀ n buffer, fastLz data out = .ok (n, buffer) →
    n ≤ out.length ∧ buffer.length = out.length ∧ buffer.drop n = out.drop n
  /-- In every state of the call the bytes before `dst` are those that it has written, and the next
  token copies bytes only that are written before they are copied. -/
  backward : ∀ s, FastReach data out s →
    s.out.drop s.dst = out.drop s.dst ∧ ∀ c ∈ s.copies data, c.1 < c.2
  /-- The call ends in one of these states, unless the block is stored as it is. -/
  reached : data.head? ≠ some 1 → ∀ n buffer, fastLz data out = .ok (n, buffer) →
    ∃ s, FastReach data out s ∧ s.dst = n ∧ s.out = buffer

theorem safe_storedBlock : Safe (storedBlock data out) fun r =>
    r.1 ≤ out.length ∧ r.2.length = out.length ∧ r.2.drop r.1 = out.drop r.1 := by
  unfold storedBlock
  dsimp only
  split_ifs with hlong
  · exact Avoids.failed (by decide)
  · refine Avoids.ok ⟨by omega, ?_, ?_⟩
    · simp only [List.length_append, List.length_drop] at hlong ⊢
      omega
    · exact List.drop_left

theorem safe_fastLz (hbound : out.length < 2 ^ 31) : Safe (fastLz data out) fun r =>
    r.1 ≤ out.length ∧ r.2.length = out.length ∧ r.2.drop r.1 = out.drop r.1 := by
  refine Avoids.check (by decide) fun hshort => ?_
  split_ifs with hstored
  · exact safe_storedBlock
  · refine (safe_fastLoop FastReach.start hbound).bind fun s hs => Avoids.pure ?_
    have hinvariant := hs.invariant hbound
    exact ⟨hinvariant.dst_le, hinvariant.length_out, hinvariant.untouched⟩

/-- For every input and every output buffer below `2 ^ 31` bytes. -/
theorem fastLzSafe (data out : List UInt8) (hbound : out.length < 2 ^ 31) :
    FastLzSafe data out where
  total := (safe_fastLz hbound).ne_error
  hash_fits := hash_fits
  written n buffer h := (safe_fastLz hbound).of_ok (n, buffer) h
  backward s hs := ⟨(hs.invariant hbound).untouched, (hs.invariant hbound).backward⟩
  reached hstored n buffer h := by
    unfold fastLz at h
    rw [check_eq_ok_iff, if_neg hstored, bind_eq_ok_iff] at h
    obtain ⟨-, s, hs, h⟩ := h
    obtain ⟨rfl, rfl⟩ := Prod.mk.inj (pure_eq_ok_iff.1 h)
    exact ⟨s, (safe_fastLoop FastReach.start hbound).of_ok s hs, rfl, rfl⟩

/-- Four literals, a match of ten bytes that begins at the first of them, and one more literal. -/
def overlappingBlock : List UInt8 := [0, 0, 0, 0, 16, 0, 97, 98, 97, 98, 103, 241, 99]

/-- The match copies bytes that it has written itself. -/
theorem fastLzSafe_overlappingBlock :
    fastLz overlappingBlock (List.replicate 16 0) =
      .ok (15, [97, 98, 97, 98, 97, 98, 97, 98, 97, 98, 97, 98, 97, 98, 99, 0]) ∧
    FastLzSafe overlappingBlock (List.replicate 16 0) :=
  ⟨by decide +kernel, fastLzSafe _ _ (by decide)⟩

end EasyDeployMesh.Gho
