import EasyDeployMesh.Foundations.Arithmetic
import EasyDeployMesh.Foundations.Text

/-!
# Byte ranges

The single byte ranges of a `Range` header: a text such as `bytes=10-19`, the range that it asks
for, and the bytes of a resource that this range selects. A number is at least one decimal digit;
how many digits it has, and how large it is, is not bounded. Beside this grammar stands the
computation with `u64` that two number texts go through, for any reader of numbers.

## Main definitions

* `Foundations.Text.splitOnce`: a text cut at the first occurrence of a character.
* `Foundations.IsNumeral`: the texts of a number.
* `Foundations.RangeSpec`, `Foundations.RangeSpec.clamp`: the ranges, and what they select.
* `Foundations.RangeSpec.WrittenAs`, `Foundations.IsRangeHeader`: the texts of a range.
* `Foundations.rangeBounds`, `Foundations.boundsOfText`: the first and the last byte, as computed
  from two number texts, and from a text with a dash.

## Main results

* `Foundations.rangeBounds_mono`: a reader of more numbers yields the same bytes.
* `Foundations.bounds_of_rangeBounds`: the bytes lie in the resource.
* `Foundations.clamp_of_boundsOfText`: the bytes are those that the range selects.
-/

namespace Foundations

/-! ### Texts cut in two -/

/-- `str::split_once` of one character. -/
def Text.splitOnce (c : Char) (s : String) : Option (String × String) :=
  if c ∈ s.toList then
    some (String.ofList (s.toList.takeWhile (· != c)),
      String.ofList ((s.toList.dropWhile (· != c)).drop 1))
  else none

/-- The parts of a text that is cut at the first occurrence of a character. -/
theorem Text.splitOnce_eq_some_iff {c : Char} {s before after : String} :
    Text.splitOnce c s = some (before, after) ↔
      c ∉ before.toList ∧ s.toList = before.toList ++ c :: after.toList := by
  constructor
  · intro h
    unfold Text.splitOnce at h
    split_ifs at h with hmem
    simp only [Option.some.injEq, Prod.mk.injEq] at h
    obtain ⟨rfl, rfl⟩ := h
    simp only [String.toList_ofList]
    refine ⟨fun hc => by simpa using List.mem_takeWhile_imp hc, ?_⟩
    have hne : s.toList.dropWhile (· != c) ≠ [] := by
      intro hnil
      simpa using List.dropWhile_eq_nil_iff.1 hnil c hmem
    have hhead : (s.toList.dropWhile (· != c)).head hne = c := by
      simpa using List.head_dropWhile_not (· != c) hne
    calc s.toList
        = s.toList.takeWhile (· != c) ++ s.toList.dropWhile (· != c) :=
          List.takeWhile_append_dropWhile.symm
      _ = s.toList.takeWhile (· != c) ++ c :: (s.toList.dropWhile (· != c)).drop 1 := by
          rw [List.drop_one, ← List.cons_head_tail hne, hhead, List.tail_cons]
  · rintro ⟨hbefore, hs⟩
    have hpass : ∀ d ∈ before.toList, (d != c) = true := fun d hd =>
      bne_iff_ne.2 fun heq => hbefore (heq ▸ hd)
    have hstop : (fun d => d != c) c ≠ true := by simp
    have hmem : c ∈ s.toList := by
      rw [hs]
      exact List.mem_append_right _ List.mem_cons_self
    unfold Text.splitOnce
    rw [if_pos hmem, hs, List.takeWhile_append_of_pos hpass, List.dropWhile_append_of_pos hpass,
      List.takeWhile_cons_of_neg (p := (· != c)) hstop,
      List.dropWhile_cons_of_neg (p := (· != c)) hstop, List.append_nil,
      List.drop_one, List.tail_cons, String.ofList_toList, String.ofList_toList]

/-! ### Numbers -/

/-- The number that decimal digits write, the highest digit first. -/
def decimalValue (digits : List Char) : ℕ :=
  digits.foldl (fun value digit => 10 * value + (digit.toNat - '0'.toNat)) 0

/-- At least one decimal digit, and nothing else. -/
structure IsNumeral (text : String) (n : ℕ) : Prop where
  nonempty : text ≠ ""
  digits : text.toList.all Char.isDigit = true
  value : decimalValue text.toList = n

/-- A text without a plus sign at its front is read as the number that it writes. -/
theorem parseU64_eq {text : String} (h : ∀ l, text.toList ≠ '+' :: l) :
    Text.parseU64 text =
      if text.toList.isEmpty || !text.toList.all Char.isDigit || 2 ^ 64 ≤ decimalValue text.toList
      then none else some (UInt64.ofNat (decimalValue text.toList)) := by
  unfold Text.parseU64
  split
  next digits heq => exact absurd heq (h digits)
  next => rfl

namespace IsNumeral

variable {text : String} {n : ℕ} {m : UInt64}

/-- A character that is no digit does not occur in a number. -/
theorem notMem (h : IsNumeral text n) {c : Char} (hc : c.isDigit = false) : c ∉ text.toList := by
  intro hmem
  rw [List.all_eq_true.1 h.digits c hmem] at hc
  exact absurd hc (by decide)

/-- A number is read as what it is. -/
theorem toNat_of_parseU64 (h : IsNumeral text n) (hparse : Text.parseU64 text = some m) :
    m.toNat = n := by
  have hplus : ∀ l, text.toList ≠ '+' :: l := by
    intro l hl
    have hmem : '+' ∈ text.toList := hl ▸ List.mem_cons_self
    exact h.notMem (by decide) hmem
  rw [parseU64_eq hplus, h.value] at hparse
  split_ifs at hparse with hreject
  simp only [Bool.or_eq_true, decide_eq_true_eq, not_or, not_le] at hreject
  rw [← Option.some.inj hparse, UInt64.toNat_ofNat', Nat.mod_eq_of_lt hreject.2]

end IsNumeral

/-! ### Ranges -/

/-- From a first to a last byte, from a first byte to the end, or a number of bytes at the end. -/
inductive RangeSpec
  | closed (first last : ℕ)
  | openEnded (first : ℕ)
  | suffix (length : ℕ)

namespace RangeSpec

/-- The first and the last byte that a range selects in a resource of `total` bytes, if there are
any. A range that asks for more than there is ends with the resource. -/
def clamp (total : ℕ) : RangeSpec → Option (ℕ × ℕ)
  | closed first last =>
    if first ≤ last ∧ first < total then some (first, min last (total - 1)) else none
  | openEnded first => if first < total then some (first, total - 1) else none
  | suffix length => if 0 < length ∧ 0 < total then some (total - length, total - 1) else none

/-- The texts on the two sides of the dash. -/
inductive WrittenAs : RangeSpec → String → String → Prop
  | closed {before after : String} {first last : ℕ} (hfirst : IsNumeral before first)
      (hlast : IsNumeral after last) : WrittenAs (closed first last) before after
  | openEnded {before : String} {first : ℕ} (hfirst : IsNumeral before first) :
      WrittenAs (openEnded first) before ""
  | suffix {after : String} {length : ℕ} (hlength : IsNumeral after length) :
      WrittenAs (suffix length) "" after

theorem WrittenAs.notMem_before {spec : RangeSpec} {before after : String}
    (h : spec.WrittenAs before after) {c : Char} (hc : c.isDigit = false) : c ∉ before.toList := by
  cases h with
  | closed hfirst | openEnded hfirst => exact hfirst.notMem hc
  | suffix => exact List.not_mem_nil

end RangeSpec

/-- A well-formed header with a single range of bytes. -/
def IsRangeHeader (text : String) (spec : RangeSpec) : Prop :=
  ∃ before after, spec.WrittenAs before after ∧ text = "bytes=" ++ (before ++ "-" ++ after)

/-! ### Ranges computed with `u64` -/

section Bounds

variable (number : String → Option UInt64) (total : UInt64)

/-- The last byte of a range that is no suffix. -/
def lastByte (last : String) : Option UInt64 :=
  if last = "" then some (total - 1) else (number last).map (min · (total - 1))

/-- The first and the last of `total` bytes that two number texts select, for a reader of
numbers. -/
def rangeBounds (start last : String) : Option (UInt64 × UInt64) := do
  if start = "" then
    let suffixLength ← number last
    if suffixLength = 0 ∨ total = 0 then none
    else some (saturatingSub total (min suffixLength total), total - 1)
  else
    let start ← number start
    if total ≤ start then none
    else
      let last ← lastByte number total last
      if last < start then none else some (start, last)

variable {number total} {start last : String} {a b : UInt64}

theorem rangeBounds_eq_some_iff :
    rangeBounds number total start last = some (a, b) ↔
      (start = "" ∧ total ≠ 0 ∧ b = total - 1 ∧ ∃ n, number last = some n ∧ n ≠ 0 ∧
        a = saturatingSub total (min n total)) ∨
      (start ≠ "" ∧ number start = some a ∧ a < total ∧ lastByte number total last = some b ∧
        a ≤ b) := by
  unfold rangeBounds
  by_cases hstart : start = ""
  · simp only [hstart, if_true, Option.bind_eq_bind, Option.bind_eq_some_iff, ne_eq, not_true,
      false_and, or_false, true_and]
    constructor
    · rintro ⟨n, hn, h⟩
      split_ifs at h with hzero
      simp only [Option.some.injEq, Prod.mk.injEq] at h
      rw [not_or] at hzero
      exact ⟨hzero.2, h.2.symm, n, hn, hzero.1, h.1.symm⟩
    · rintro ⟨htotal, rfl, n, hn, hzero, rfl⟩
      exact ⟨n, hn, if_neg (not_or.2 ⟨hzero, htotal⟩)⟩
  · simp only [hstart, if_false, Option.bind_eq_bind, Option.bind_eq_some_iff, ne_eq,
      not_false_eq_true, false_and, false_or, true_and]
    constructor
    · rintro ⟨s, hs, h⟩
      split_ifs at h with htotal
      obtain ⟨l, hl, h⟩ := Option.bind_eq_some_iff.1 h
      split_ifs at h with horder
      simp only [Option.some.injEq, Prod.mk.injEq] at h
      obtain ⟨rfl, rfl⟩ := h
      exact ⟨hs, UInt64.not_le.1 htotal, hl, UInt64.not_lt.1 horder⟩
    · rintro ⟨hs, htotal, hl, horder⟩
      refine ⟨a, hs, ?_⟩
      rw [if_neg (UInt64.not_le.2 htotal), hl, Option.bind_some, if_neg (UInt64.not_lt.2 horder)]

private theorem toNat_min (n m : UInt64) : (min n m).toNat = min n.toNat m.toNat := by
  change (if n ≤ m then n else m).toNat = _
  have hle := UInt64.le_iff_toNat_le (a := n) (b := m)
  split_ifs with h
  · exact (Nat.min_eq_left (hle.1 h)).symm
  · exact (Nat.min_eq_right (Nat.le_of_not_le fun h' => h (hle.2 h'))).symm

private theorem pos_of_ne_zero (htotal : total ≠ 0) : 0 < total.toNat :=
  Nat.pos_of_ne_zero fun h => htotal (UInt64.toNat_inj.1 h)

private theorem toNat_pred (htotal : total ≠ 0) : (total - 1).toNat = total.toNat - 1 :=
  UInt64.toNat_sub_of_le _ _ (UInt64.le_iff_toNat_le.2 (pos_of_ne_zero htotal))

/-- The last byte of a range that is no suffix, as a number. -/
theorem lastByte_cases (htotal : total ≠ 0) (h : lastByte number total last = some b) :
    (last = "" ∧ b.toNat = total.toNat - 1) ∨
      ∃ n, number last = some n ∧ b.toNat = min n.toNat (total.toNat - 1) := by
  unfold lastByte at h
  split_ifs at h with hlast
  · exact Or.inl ⟨hlast, Option.some.inj h ▸ toNat_pred htotal⟩
  · obtain ⟨n, hn, rfl⟩ := Option.map_eq_some_iff.1 h
    exact Or.inr ⟨n, hn, by rw [toNat_min, toNat_pred htotal]⟩

/-- A reader that reads more numbers yields the same bytes. -/
theorem rangeBounds_mono {number' : String → Option UInt64}
    (hnumber : ∀ text n, number text = some n → number' text = some n)
    (h : rangeBounds number total start last = some (a, b)) :
    rangeBounds number' total start last = some (a, b) := by
  rw [rangeBounds_eq_some_iff] at h ⊢
  rcases h with ⟨hstart, htotal, hb, n, hn, hzero, ha⟩ | ⟨hstart, ha, htotal, hb, horder⟩
  · exact Or.inl ⟨hstart, htotal, hb, n, hnumber _ _ hn, hzero, ha⟩
  · refine Or.inr ⟨hstart, hnumber _ _ ha, htotal, ?_, horder⟩
    unfold lastByte at hb ⊢
    split_ifs at hb ⊢ with hlast
    · exact hb
    · obtain ⟨n, hn, rfl⟩ := Option.map_eq_some_iff.1 hb
      rw [hnumber _ _ hn, Option.map_some]

/-- Only the two texts are read as numbers. -/
theorem rangeBounds_congr {number' : String → Option UInt64} (hstart : number start = number' start)
    (hlast : number last = number' last) :
    rangeBounds number total start last = rangeBounds number' total start last := by
  simp only [rangeBounds, lastByte, hstart, hlast]

/-- The bytes lie in the resource, in order. -/
theorem bounds_of_rangeBounds (h : rangeBounds number total start last = some (a, b)) :
    a.toNat ≤ b.toNat ∧ b.toNat < total.toNat := by
  rcases rangeBounds_eq_some_iff.1 h with ⟨-, htotal, rfl, n, -, hzero, rfl⟩ | ⟨-, -, hlt, hb, hle⟩
  · have hpos := pos_of_ne_zero htotal
    have hn := pos_of_ne_zero hzero
    rw [toNat_saturatingSub, toNat_min, toNat_pred htotal]
    omega
  · have hlt := UInt64.lt_iff_toNat_lt.1 hlt
    have htotal : total ≠ 0 := by
      rintro rfl
      exact absurd hlt (Nat.not_lt_zero _)
    refine ⟨UInt64.le_iff_toNat_le.1 hle, ?_⟩
    rcases lastByte_cases htotal hb with ⟨-, hb⟩ | ⟨n, -, hb⟩ <;> omega

/-- The bytes are those that a well-formed range selects, for a reader that reads numbers as what
they are. -/
theorem clamp_of_rangeBounds
    (hnumber : ∀ {text n m}, IsNumeral text n → number text = some m → m.toNat = n)
    {spec : RangeSpec} (hspec : spec.WrittenAs start last)
    (h : rangeBounds number total start last = some (a, b)) :
    spec.clamp total.toNat = some (a.toNat, b.toNat) := by
  obtain ⟨horder, hend⟩ := bounds_of_rangeBounds h
  have htotal : total ≠ 0 := by
    rintro rfl
    exact absurd hend (Nat.not_lt_zero _)
  rcases rangeBounds_eq_some_iff.1 h with
    ⟨hstart, -, rfl, n, hn, hzero, rfl⟩ | ⟨hstart, ha, -, hb, -⟩
  · cases hspec with
    | closed hfirst | openEnded hfirst => exact absurd hstart hfirst.nonempty
    | suffix hlength =>
      have hn := hnumber hlength hn
      have hpos := pos_of_ne_zero hzero
      rw [RangeSpec.clamp, if_pos (by omega), toNat_saturatingSub, toNat_min, toNat_pred htotal]
      congr 2
      omega
  · cases hspec with
    | closed hfirst hlast =>
      have ha := hnumber hfirst ha
      obtain ⟨hnil, -⟩ | ⟨n, hn, hb⟩ := lastByte_cases htotal hb
      · exact absurd hnil hlast.nonempty
      · have hn := hnumber hlast hn
        rw [RangeSpec.clamp, if_pos (by omega), hb, ha, hn]
    | openEnded hfirst =>
      have ha := hnumber hfirst ha
      have hb : b.toNat = total.toNat - 1 := by
        simp only [lastByte, if_true, Option.some.injEq] at hb
        rw [← hb, toNat_pred htotal]
      rw [RangeSpec.clamp, if_pos (by omega), ha, hb]
    | suffix => exact absurd rfl hstart

/-- The first and the last byte of a text with a dash. -/
def boundsOfText (number : String → Option UInt64) (total : UInt64) (value : String) :
    Option (UInt64 × UInt64) :=
  (Text.splitOnce '-' value).bind fun parts => rangeBounds number total parts.1 parts.2

theorem boundsOfText_eq_some_iff {value : String} {bounds : UInt64 × UInt64} :
    boundsOfText number total value = some bounds ↔
      ∃ before after, Text.splitOnce '-' value = some (before, after) ∧
        rangeBounds number total before after = some bounds := by
  simp only [boundsOfText, Option.bind_eq_some_iff, Prod.exists]

theorem RangeSpec.WrittenAs.splitOnce {spec : RangeSpec} {before after : String}
    (h : spec.WrittenAs before after) :
    Text.splitOnce '-' (before ++ "-" ++ after) = some (before, after) := by
  refine Text.splitOnce_eq_some_iff.2 ⟨h.notMem_before (by decide), ?_⟩
  simp [String.toList_append]

/-- The bytes that a text with a well-formed range yields are those that the range selects. -/
theorem clamp_of_boundsOfText
    (hnumber : ∀ {text n m}, IsNumeral text n → number text = some m → m.toNat = n)
    {spec : RangeSpec} {value : String} (hspec : IsRangeHeader ("bytes=" ++ value) spec)
    (h : boundsOfText number total value = some (a, b)) :
    spec.clamp total.toNat = some (a.toNat, b.toNat) := by
  obtain ⟨before, after, hwritten, hvalue⟩ := hspec
  have hvalue : value = before ++ "-" ++ after := by
    rw [← String.toList_inj, String.toList_append, String.toList_append,
      List.append_cancel_left_eq, String.toList_inj] at hvalue
    exact hvalue
  rw [boundsOfText, hvalue, hwritten.splitOnce, Option.bind_some] at h
  exact clamp_of_rangeBounds hnumber hwritten h

end Bounds

end Foundations
