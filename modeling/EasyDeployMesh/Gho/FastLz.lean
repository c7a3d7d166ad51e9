import EasyDeployMesh.Gho.Container
import Mathlib.Data.Int.Notation

/-!
# Fast compression

The decompressor `fast_lz` of `crates/gho`. The output buffer keeps what earlier blocks left in it,
and `dst` counts the bytes of this block; a table maps hashes of three bytes to places of the
output, and a token is a literal byte or a reference into the table. Indices outside a buffer, and
sums and differences that do not fit, stop the decompressor with a panic.

## Main definitions

* `EasyDeployMesh.Gho.Stop`: the ways in which decoding stops without a result.
* `EasyDeployMesh.Gho.FastState`, `EasyDeployMesh.Gho.fastToken`, `EasyDeployMesh.Gho.fastTokens`,
  `EasyDeployMesh.Gho.fastLoop`: the loops of the decompressor.
* `EasyDeployMesh.Gho.fastLz`: the decompressor.

## Main results

* `EasyDeployMesh.Gho.fastToken_src`, `EasyDeployMesh.Gho.fastTokens_src`: tokens are consumed.
-/

namespace EasyDeployMesh.Gho

open Foundations

/-- Why decoding stops without a result: an error, or a panic. -/
inductive Stop
  | error (error : Error)
  | panicked
  deriving DecidableEq

/-! ### Buffers and numbers -/

/-- `buffer[i]`. -/
def index {α : Type} (buffer : List α) (i : ℕ) : Except Stop α :=
  buffer[i]?.elim (.error .panicked) .ok

/-- `buffer[i] = value`. -/
def store {α : Type} (buffer : List α) (i : ℕ) (value : α) : Except Stop (List α) :=
  if i < buffer.length then .ok (buffer.set i value) else .error .panicked

/-- A sum in `width` bits. -/
def addIn (width a b : ℕ) : Except Stop ℕ :=
  if a + b < 2 ^ width then .ok (a + b) else .error .panicked

/-- `n as i32`. -/
def asI32 (n : ℕ) : ℤ :=
  (n : ℤ).bmod (2 ^ 32)

/-- The slot of three bytes in the table of matches. -/
def hash (a b c : UInt8) : ℕ :=
  let value : UInt32 := c.toUInt32 ^^^ (16 * (b.toUInt32 ^^^ (16 * a.toUInt32)))
  ((((0 - 24993 : UInt32) * value) >>> 4) &&& 0xfff).toNat

/-- The hash of the three bytes at a place of a buffer. -/
def hashAt (buffer : List UInt8) (pos : ℕ) : Except Stop ℕ := do
  return hash (← index buffer pos) (← index buffer (pos + 1)) (← index buffer (pos + 2))

/-- `b"123456789012345678"`. -/
def sentinel : List UInt8 :=
  [49, 50, 51, 52, 53, 54, 55, 56, 57, 48, 49, 50, 51, 52, 53, 54, 55, 56]

/-! ### Tokens -/

/-- The variables of `fast_lz`. -/
structure FastState where
  src : ℕ
  dst : ℕ
  control : ℕ
  literalRun : ℕ
  previousRun : ℕ
  table : List ℤ
  out : List UInt8
  deriving DecidableEq

/-- The byte with number `j` of a match; a place that the table does not know has the sentinel's. -/
def matchByte (out : List UInt8) (dst : ℕ) (matchPos : ℤ) (j : ℕ) : Except Stop UInt8 :=
  if matchPos < 0 then .ok (sentinel[j]?.getD 0)
  else
    let source := matchPos.toNat + j
    if 2 ^ 64 ≤ source then .error (.error .corruptBlock)
    else if dst ≤ source then .error (.error .corruptBlock)
    else index out source

/-- The bytes of a match from number `j` on. -/
def copyMatch (matchPos : ℤ) : ℕ → ℕ → ℕ → List UInt8 → Except Stop (ℕ × List UInt8)
  | 0, _, dst, out => .ok (dst, out)
  | count + 1, j, dst, out => do
    if out.length ≤ dst then
      .error (.error .corruptBlock)
    let byte ← matchByte out dst matchPos j
    copyMatch matchPos count (j + 1) (dst + 1) (← store out dst byte)

/-- Enters a place in the table when `last` is a place before `dst`. -/
def enterBefore (table : List ℤ) (out : List UInt8) (dst last pos : ℕ) : Except Stop (List ℤ) :=
  if last < dst then do store table (← hashAt out pos) (asI32 pos) else .ok table

/-- What a match makes of the table: the literals before it are entered. -/
def enterLiterals (s : FastState) (matchStart dst : ℕ) (out : List UInt8) :
    Except Stop (List ℤ) :=
  if 0 < s.literalRun then do
    if matchStart < s.literalRun then
      .error (.error .corruptBlock)
    let pos := matchStart - s.literalRun
    let table ← enterBefore s.table out dst (← addIn 64 pos 2) pos
    if s.previousRun = 2 then
      enterBefore table out dst (← addIn 64 pos 3) (pos + 1)
    else .ok table
  else .ok s.table

/-- A token that refers to the table. -/
def matchToken (data : List UInt8) (s : FastState) : Except Stop FastState := do
  if data.length ≤ s.src + 1 then
    .error (.error .truncated)
  let low ← index data (s.src + 1)
  let high ← index data s.src
  let place := low.toNat ||| ((high &&& 0xf0).toNat <<< 4)
  let extra := (high &&& 0x0f).toNat
  let matchPos ← index s.table place
  let (dst, out) ← copyMatch matchPos (3 + extra) 0 s.dst s.out
  let table ← store (← enterLiterals s s.dst dst out) place (asI32 s.dst)
  return { s with
    src := s.src + 2
    dst
    literalRun := 0
    previousRun := if 0 < s.literalRun then 0 else s.previousRun
    table
    out }

/-- Three literals in a row are entered in the table; the last two of them count as a run. -/
def enterRun (s : FastState) : Except Stop FastState := do
  if s.dst < 3 then
    .error .panicked
  let pos := s.dst - 3
  let table ← store s.table (← hashAt s.out pos) (asI32 pos)
  return { s with literalRun := 2, previousRun := 2, table }

/-- A token that is a byte. -/
def literalToken (data : List UInt8) (s : FastState) : Except Stop FastState := do
  if s.out.length ≤ s.dst then
    .error (.error .corruptBlock)
  let out ← store s.out s.dst (← index data s.src)
  let run ← addIn 16 s.literalRun 1
  let s := { s with src := s.src + 1, dst := s.dst + 1, literalRun := run, previousRun := run, out }
  if run = 3 then enterRun s else return s

/-- The token that the control bit announces. -/
def controlToken (data : List UInt8) (s : FastState) : Except Stop FastState :=
  if s.control &&& 1 ≠ 0 then matchToken data s else literalToken data s

/-- One token, and the control bit after it. -/
def fastToken (data : List UInt8) (s : FastState) : Except Stop FastState := do
  let s ← controlToken data s
  return { s with control := s.control >>> 1 }

/-- A batch of at most `tokens` tokens. -/
def fastTokens (data : List UInt8) : ℕ → FastState → Except Stop FastState
  | 0, s => .ok s
  | tokens + 1, s =>
    if data.length ≤ s.src then .ok s
    else do
      let s ← fastToken data s
      if s.control = 1 then return s else fastTokens data tokens s

/-- The control word at the beginning of a batch: the old one while bits are left, the next one of
the data, or `none` when the data have no whole word. -/
def fastControl (data : List UInt8) (s : FastState) : Except Stop (Option FastState) :=
  if s.control = 1 then
    if data.length ≤ s.src + 1 then .ok none
    else do
      let low ← index data s.src
      let high ← index data (s.src + 1)
      return some { s with
        control := low.toNat ||| (high.toNat <<< 8) ||| 0x10000
        src := s.src + 2 }
  else .ok (some s)

/-! ### Progress -/

variable {data : List UInt8} {s t : FastState}

private theorem matchToken_src (h : matchToken data s = .ok t) : t.src = s.src + 2 := by
  simp only [matchToken, check_eq_ok_iff, bind_eq_ok_iff, pure_eq_ok_iff] at h
  obtain ⟨-, low, -, high, -, matchPos, -, ⟨dst, out⟩, -, entered, -, table, -, rfl⟩ := h
  rfl

private theorem literalToken_src (h : literalToken data s = .ok t) : t.src = s.src + 1 := by
  simp only [literalToken, check_eq_ok_iff, bind_eq_ok_iff] at h
  obtain ⟨-, byte, -, out, -, run, -, h⟩ := h
  split_ifs at h
  · simp only [enterRun, check_eq_ok_iff, bind_eq_ok_iff, pure_eq_ok_iff] at h
    obtain ⟨-, key, -, table, -, rfl⟩ := h
    rfl
  · rw [← pure_eq_ok_iff.1 h]

/-- A token is one byte or two. -/
theorem fastToken_src (h : fastToken data s = .ok t) : s.src < t.src := by
  simp only [fastToken, bind_eq_ok_iff, pure_eq_ok_iff] at h
  obtain ⟨u, hu, rfl⟩ := h
  show s.src < u.src
  unfold controlToken at hu
  split_ifs at hu
  · have hsrc := matchToken_src hu
    omega
  · have hsrc := literalToken_src hu
    omega

theorem le_fastTokens_src {tokens : ℕ} (h : fastTokens data tokens s = .ok t) :
    s.src ≤ t.src := by
  induction tokens generalizing s with
  | zero => exact (Except.ok.inj h) ▸ Nat.le_refl _
  | succ tokens ih =>
    unfold fastTokens at h
    split_ifs at h with hend
    · exact (Except.ok.inj h) ▸ Nat.le_refl _
    · obtain ⟨u, hu, h⟩ := bind_eq_ok_iff.1 h
      have hlt := fastToken_src hu
      split_ifs at h
      · rw [← pure_eq_ok_iff.1 h]
        omega
      · exact Nat.le_trans (Nat.le_of_lt hlt) (ih h)

/-- A batch that begins inside the data consumes some of them. -/
theorem fastTokens_src {tokens : ℕ} (h : fastTokens data (tokens + 1) s = .ok t)
    (hsrc : s.src < data.length) : s.src < t.src := by
  unfold fastTokens at h
  rw [if_neg (by omega)] at h
  obtain ⟨u, hu, h⟩ := bind_eq_ok_iff.1 h
  have hlt := fastToken_src hu
  split_ifs at h
  · rw [← pure_eq_ok_iff.1 h]
    exact hlt
  · exact Nat.lt_of_lt_of_le hlt (le_fastTokens_src h)

/-- A control word is two bytes, or the old one. -/
theorem fastControl_src (h : fastControl data s = .ok (some t)) :
    t = s ∨ t.src = s.src + 2 := by
  unfold fastControl at h
  split_ifs at h with hcontrol hend
  · cases h
  · simp only [bind_eq_ok_iff, pure_eq_ok_iff, Option.some.injEq] at h
    obtain ⟨low, -, high, -, rfl⟩ := h
    exact .inr rfl
  · exact .inl (Option.some.inj (Except.ok.inj h)).symm

/-! ### The decompressor -/

/-- The number of tokens in a batch: near the end of the data a batch is a single token. -/
def batch (data : List UInt8) (src : ℕ) : ℕ :=
  if data.length - 32 < src then 1 else 16

/-- One batch, with the control word before it. -/
def fastBatch (data : List UInt8) (s : FastState) : Except Stop (Option FastState) := do
  match ← fastControl data s with
  | none => return none
  | some s => return some (← fastTokens data (batch data s.src) s)

theorem fastBatch_src (h : fastBatch data s = .ok (some t)) (hsrc : s.src < data.length) :
    s.src < t.src := by
  have hbatch : ∀ src, ∃ tokens, batch data src = tokens + 1 := fun src => by
    unfold batch
    split_ifs
    · exact ⟨0, rfl⟩
    · exact ⟨15, rfl⟩
  obtain ⟨u, hu, h⟩ := bind_eq_ok_iff.1 h
  cases u with
  | none => cases h
  | some u =>
    simp only [bind_eq_ok_iff, pure_eq_ok_iff, Option.some.injEq] at h
    obtain ⟨v, hv, rfl⟩ := h
    rcases fastControl_src hu with rfl | hword
    · obtain ⟨tokens, htokens⟩ := hbatch u.src
      exact fastTokens_src (htokens ▸ hv) hsrc
    · have hle := le_fastTokens_src hv
      omega

/-- The loop of `fast_lz` over the batches. -/
def fastLoop (data : List UInt8) (s : FastState) : Except Stop FastState :=
  if _hsrc : s.src < data.length then
    match _hbatch : fastBatch data s with
    | .error stop => .error stop
    | .ok none => .ok s
    | .ok (some t) => fastLoop data t
  else .ok s
termination_by data.length - s.src
decreasing_by
  have hlt := fastBatch_src _hbatch _hsrc
  omega

/-- A block that begins with 1 is stored as it is. -/
def storedBlock (data out : List UInt8) : Except Stop (ℕ × List UInt8) :=
  let raw := data.drop 4
  if out.length < raw.length then .error (.error .corruptBlock)
  else .ok (raw.length, raw ++ out.drop raw.length)

/-- The number of bytes that `fast_lz` writes to the output buffer, and the buffer. -/
def fastLz (data out : List UInt8) : Except Stop (ℕ × List UInt8) := do
  if data.length < 4 then
    .error (.error .corruptBlock)
  if data.head? = some 1 then
    storedBlock data out
  else
    let s ← fastLoop data {
      src := 4
      dst := 0
      control := 1
      literalRun := 0
      previousRun := 0
      table := List.replicate 4096 (-1)
      out }
    return (s.dst, s.out)

end EasyDeployMesh.Gho
