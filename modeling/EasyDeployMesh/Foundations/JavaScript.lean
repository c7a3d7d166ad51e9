import EasyDeployMesh.Foundations.Text
import EasyDeployMesh.Foundations.Tokens
import Mathlib.Data.Rat.Floor
import Mathlib.Tactic.Ring
import Mathlib.Tactic.FieldSimp

/-!
# Strings and numbers of JavaScript

A string is any sequence of 16-bit code units, also one with lone surrogates, and reaches the host
only if it is well formed. A number is a binary64 value; of its arithmetic only that is used that a
result with an exact representation is not rounded, so that computing with integers below `2 ^ 53`
is exact.

## Main definitions

* `Foundations.JsString`, `Foundations.decodeUtf16`: strings, and what the host receives.
* `Foundations.JsNumber`, `Foundations.Rounding`: numbers, and what is known of their rounding.

## Main results

* `Foundations.decodeUtf16_encodeUtf16`, `Foundations.decodeUtf16_of_ascii`: what is received.
* `Foundations.JsNumber.add_ofInt`, `Foundations.JsNumber.floor_div_ofInt`: exact results.
-/

namespace Foundations

/-! ### Strings -/

/-- The code units of a string. -/
abbrev JsString := List UInt16

/-- One code unit for a character of the basic plane, a surrogate pair for any other one. -/
def utf16Units (c : Char) : JsString :=
  if c.toNat < 0x10000 then [UInt16.ofNat c.toNat]
  else [UInt16.ofNat (0xD800 + (c.toNat - 0x10000) / 0x400),
    UInt16.ofNat (0xDC00 + (c.toNat - 0x10000) % 0x400)]

/-- A string of characters as the UTF-16 units of JavaScript. -/
def encodeUtf16 (s : String) : JsString := s.toList.flatMap utf16Units

/-- The characters of a well-formed string. -/
def decodeUnits : JsString → Option (List Char)
  | [] => some []
  | u :: units =>
    if u < 0xD800 ∨ 0xDFFF < u then (decodeUnits units).map (Char.ofNat u.toNat :: ·)
    else match units with
      | v :: units =>
        if u < 0xDC00 ∧ 0xDC00 ≤ v ∧ v ≤ 0xDFFF then
          (decodeUnits units).map
            (Char.ofNat (0x10000 + (u.toNat - 0xD800) * 0x400 + (v.toNat - 0xDC00)) :: ·)
        else none
      | [] => none

/-- The string that the host receives. -/
def decodeUtf16 (s : JsString) : Option String := (decodeUnits s).map String.ofList

private theorem decodeUnits_utf16Units_append (c : Char) (units : JsString) :
    decodeUnits (utf16Units c ++ units) = (decodeUnits units).map (c :: ·) := by
  have hvalid : c.toNat < 0xD800 ∨ 0xDFFF < c.toNat ∧ c.toNat < 0x110000 := c.valid
  have hofNat : Char.ofNat c.toNat = c := Char.ofNat_toNat c
  unfold utf16Units
  by_cases hsmall : c.toNat < 0x10000
  · have hunit : (UInt16.ofNat c.toNat).toNat = c.toNat := by
      rw [UInt16.toNat_ofNat']
      omega
    have hplain : UInt16.ofNat c.toNat < 0xD800 ∨ 0xDFFF < UInt16.ofNat c.toNat := by
      rw [UInt16.lt_iff_toNat_lt, UInt16.lt_iff_toNat_lt, hunit]
      exact hvalid.imp id And.left
    rw [if_pos hsmall, List.singleton_append, decodeUnits.eq_def]
    dsimp only
    rw [if_pos hplain, hunit, hofNat]
  · rw [if_neg hsmall]
    set n := c.toNat - 0x10000 with hn
    have hhigh : (UInt16.ofNat (0xD800 + n / 0x400)).toNat = 0xD800 + n / 0x400 := by
      rw [UInt16.toNat_ofNat']
      omega
    have hlow : (UInt16.ofNat (0xDC00 + n % 0x400)).toNat = 0xDC00 + n % 0x400 := by
      rw [UInt16.toNat_ofNat']
      omega
    have hsurrogate : ¬(UInt16.ofNat (0xD800 + n / 0x400) < 0xD800 ∨
        0xDFFF < UInt16.ofNat (0xD800 + n / 0x400)) := by
      rw [UInt16.lt_iff_toNat_lt, UInt16.lt_iff_toNat_lt, hhigh]
      change ¬(0xD800 + n / 0x400 < 0xD800 ∨ 0xDFFF < 0xD800 + n / 0x400)
      omega
    have hpair : UInt16.ofNat (0xD800 + n / 0x400) < 0xDC00 ∧
        0xDC00 ≤ UInt16.ofNat (0xDC00 + n % 0x400) ∧
        UInt16.ofNat (0xDC00 + n % 0x400) ≤ 0xDFFF := by
      rw [UInt16.lt_iff_toNat_lt, UInt16.le_iff_toNat_le, UInt16.le_iff_toNat_le, hhigh, hlow]
      change 0xD800 + n / 0x400 < 0xDC00 ∧ 0xDC00 ≤ 0xDC00 + n % 0x400 ∧
        0xDC00 + n % 0x400 ≤ 0xDFFF
      omega
    have hcode : 0x10000 + (0xD800 + n / 0x400 - 0xD800) * 0x400 +
        (0xDC00 + n % 0x400 - 0xDC00) = c.toNat := by
      omega
    rw [List.cons_append, List.singleton_append, decodeUnits.eq_def]
    dsimp only
    rw [if_neg hsurrogate, if_pos hpair, hhigh, hlow, hcode, hofNat]

/-- A string of the host is received as it was. -/
theorem decodeUtf16_encodeUtf16 (s : String) : decodeUtf16 (encodeUtf16 s) = some s := by
  have hunits : ∀ l : List Char, decodeUnits (l.flatMap utf16Units) = some l := by
    intro l
    induction l with
    | nil => rfl
    | cons c l ih =>
      rw [List.flatMap_cons, decodeUnits_utf16Units_append, ih, Option.map_some]
  rw [decodeUtf16, encodeUtf16, hunits, Option.map_some, String.ofList_toList]

/-- The character of an ASCII code unit. -/
def asciiChar (u : UInt16) : Char := Char.ofNat u.toNat

/-- The text of ASCII code units. -/
def asciiText (s : JsString) : String := String.ofList (s.map asciiChar)

theorem decodeUtf16_of_ascii {s : JsString} (h : ∀ u ∈ s, u < 128) :
    decodeUtf16 s = some (asciiText s) := by
  have hunits : decodeUnits s = some (s.map asciiChar) := by
    induction s with
    | nil => rfl
    | cons u s ih =>
      obtain ⟨hu, hs⟩ := List.forall_mem_cons.1 h
      have hplain : u < 0xD800 ∨ 0xDFFF < u := .inl (UInt16.lt_trans hu (by decide))
      rw [decodeUnits.eq_def]
      dsimp only
      rw [if_pos hplain, ih hs, Option.map_some, List.map_cons, asciiChar]
  rw [decodeUtf16, hunits, Option.map_some, asciiText]

section Ascii

variable {u : UInt16} {s t : JsString}

theorem toNat_asciiChar (h : u < 128) : (asciiChar u).toNat = u.toNat := by
  have hascii : ∀ n < 128, (Char.ofNat n).toNat = n := by decide
  exact hascii _ (UInt16.lt_iff_toNat_lt.1 h)

theorem toList_asciiText : (asciiText s).toList = s.map asciiChar := String.toList_ofList

theorem utf8ByteSize_asciiText (h : ∀ u ∈ s, u < 128) : (asciiText s).utf8ByteSize = s.length := by
  have hascii : ∀ n < 128, (Char.ofNat n).utf8Size = 1 := by decide
  rw [asciiText]
  induction s with
  | nil => rfl
  | cons u s ih =>
    obtain ⟨hu, hs⟩ := List.forall_mem_cons.1 h
    have hsize : (asciiChar u).utf8Size = 1 := hascii _ (UInt16.lt_iff_toNat_lt.1 hu)
    rw [List.map_cons, String.ofList_cons, String.utf8ByteSize_append,
      String.utf8ByteSize_singleton,
      ih hs, hsize, List.length_cons, Nat.add_comm]

theorem asciiText_inj (hs : ∀ u ∈ s, u < 128) (ht : ∀ u ∈ t, u < 128)
    (h : asciiText s = asciiText t) : s = t := by
  have hcodes : ∀ {l : JsString}, (∀ u ∈ l, u < 128) →
      (asciiText l).toList.map Char.toNat = l.map UInt16.toNat := by
    intro l hl
    rw [toList_asciiText, List.map_map]
    exact List.map_congr_left fun u hu => toNat_asciiChar (hl u hu)
  have hsame : s.map UInt16.toNat = t.map UInt16.toNat := by
    rw [← hcodes hs, ← hcodes ht, h]
  exact List.map_injective_iff.2 (fun _ _ => UInt16.toNat_inj.1) hsame

end Ascii

/-- What `trim` and `\s` take for white space. -/
def isJsWhitespace (u : UInt16) : Bool :=
  (9 ≤ u && u ≤ 13) || u == 0x20 || u == 0xA0 || u == 0x1680 || (0x2000 ≤ u && u ≤ 0x200A) ||
    u == 0x2028 || u == 0x2029 || u == 0x202F || u == 0x205F || u == 0x3000 || u == 0xFEFF

/-- `split` at runs of white space. -/
def splitWhitespace : JsString → List JsString
  | [] => [[]]
  | u :: s =>
    if isJsWhitespace u then
      if s.head?.any isJsWhitespace then splitWhitespace s else [] :: splitWhitespace s
    else (splitWhitespace s).modifyHead (u :: ·)

/-- `split` at a line feed, with a carriage return before it or not. -/
def splitJsLines : JsString → List JsString
  | [] => [[]]
  | 13 :: 10 :: s => [] :: splitJsLines s
  | u :: s => if u = 10 then [] :: splitJsLines s else (splitJsLines s).modifyHead (u :: ·)

/-! ### Numbers -/

/-- A finite number, or one of the values that are none. Which one of these it is makes no
difference to what is computed here, because `Number.isInteger` is false for all of them. -/
inductive JsNumber
  | finite (value : ℚ)
  | notFinite
  deriving DecidableEq

/-- The rounding of a result to binary64, of which only this is known: an integer of at most 53
bits, divided by a power of two, is a value of the format and is not rounded. -/
structure Rounding where
  round : ℚ → ℚ
  exact : ∀ (n : ℤ) (e : ℕ), |n| ≤ 2 ^ 53 → e ≤ 1074 → round (n / 2 ^ e) = n / 2 ^ e

namespace JsNumber

/-- A function of two numbers that is rounded. -/
def lift₂ (rounding : Rounding) (f : ℚ → ℚ → ℚ) : JsNumber → JsNumber → JsNumber
  | finite a, finite b => finite (rounding.round (f a b))
  | _, _ => notFinite

/-- The sum of two numbers. -/
def add (rounding : Rounding) : JsNumber → JsNumber → JsNumber := lift₂ rounding (· + ·)

/-- The difference of two numbers. -/
def sub (rounding : Rounding) : JsNumber → JsNumber → JsNumber := lift₂ rounding (· - ·)

/-- The product of two numbers. -/
def mul (rounding : Rounding) : JsNumber → JsNumber → JsNumber := lift₂ rounding (· * ·)

/-- The quotient of two numbers. -/
def div (rounding : Rounding) : JsNumber → JsNumber → JsNumber := lift₂ rounding (· / ·)

/-- `Math.floor`. -/
def floor : JsNumber → JsNumber
  | finite a => finite ⌊a⌋
  | notFinite => notFinite

/-- `Math.ceil`. -/
def ceil : JsNumber → JsNumber
  | finite a => finite ⌈a⌉
  | notFinite => notFinite

/-- `Math.max`. -/
def max : JsNumber → JsNumber → JsNumber
  | finite a, finite b => finite (Max.max a b)
  | _, _ => notFinite

/-- `>=`. -/
def ge : JsNumber → JsNumber → Bool
  | finite a, finite b => b ≤ a
  | _, _ => false

/-- `<`. -/
def lt : JsNumber → JsNumber → Bool
  | finite a, finite b => a < b
  | _, _ => false

/-- `Number.isInteger`. -/
def isInteger : JsNumber → Bool
  | finite a => a.den == 1
  | notFinite => false

/-- The value of a finite number, and zero for the others. -/
def value : JsNumber → ℚ
  | finite a => a
  | notFinite => 0

/-- An integer as a number. -/
def ofInt (n : ℤ) : JsNumber := finite n

/-- The number of a `u64`. -/
def ofUInt64 (n : UInt64) : JsNumber := .ofInt n.toNat

theorem exists_of_isInteger {x : JsNumber} (h : x.isInteger = true) : ∃ n : ℤ, x = ofInt n := by
  cases x with
  | finite a =>
    refine ⟨a.num, ?_⟩
    rw [ofInt, (Rat.den_eq_one_iff a).1 (beq_iff_eq.1 h)]
  | notFinite => cases h

section Exact

variable {rounding : Rounding} {a b : ℤ} {e : ℕ}

private theorem round_intCast (h : |a| ≤ 2 ^ 53) : rounding.round a = a := by
  have hexact := rounding.exact a 0 h (Nat.zero_le _)
  simpa using hexact

theorem add_ofInt (h : |a + b| ≤ 2 ^ 53) : add rounding (ofInt a) (ofInt b) = ofInt (a + b) := by
  have hround : rounding.round _ = _ := round_intCast h
  rw [Int.cast_add] at hround
  rw [add, ofInt, ofInt, lift₂, hround, ofInt, Int.cast_add]

theorem sub_ofInt (h : |a - b| ≤ 2 ^ 53) : sub rounding (ofInt a) (ofInt b) = ofInt (a - b) := by
  have hround : rounding.round _ = _ := round_intCast h
  rw [Int.cast_sub] at hround
  rw [sub, ofInt, ofInt, lift₂, hround, ofInt, Int.cast_sub]

theorem mul_ofInt (h : |a * b| ≤ 2 ^ 53) : mul rounding (ofInt a) (ofInt b) = ofInt (a * b) := by
  have hround : rounding.round _ = _ := round_intCast h
  rw [Int.cast_mul] at hround
  rw [mul, ofInt, ofInt, lift₂, hround, ofInt, Int.cast_mul]

private theorem div_ofInt (h : |a| ≤ 2 ^ 53) (he : e ≤ 1074) :
    div rounding (ofInt a) (ofInt (2 ^ e)) = finite (a / 2 ^ e) := by
  have hround := rounding.exact a e h he
  rw [div, ofInt, ofInt, lift₂, Int.cast_pow, Int.cast_ofNat, hround]

theorem floor_div_ofInt (h : |a| ≤ 2 ^ 53) (he : e ≤ 1074) :
    floor (div rounding (ofInt a) (ofInt (2 ^ e))) = ofInt (a / 2 ^ e) := by
  have hfloor : ⌊(a / 2 ^ e : ℚ)⌋ = a / 2 ^ e := by
    have hcast := Rat.floor_intCast_div_natCast a (2 ^ e)
    rw [Nat.cast_pow, Nat.cast_ofNat] at hcast
    rw [hcast, Nat.cast_pow, Nat.cast_ofNat]
  rw [div_ofInt h he, floor, hfloor, ofInt]

theorem ceil_div_ofInt (h : |a| ≤ 2 ^ 53) (he : e ≤ 1074) :
    ceil (div rounding (ofInt a) (ofInt (2 ^ e))) = ofInt (-(-a / 2 ^ e)) := by
  have hceil : ⌈(a / 2 ^ e : ℚ)⌉ = -(-a / 2 ^ e) := by
    have hcast := Rat.floor_intCast_div_natCast (-a) (2 ^ e)
    rw [Nat.cast_pow, Nat.cast_ofNat] at hcast
    have hneg : ((-a : ℤ) / 2 ^ e : ℚ) = -(a / 2 ^ e) := by
      rw [Int.cast_neg, neg_div]
    rw [hneg, Int.floor_neg, Nat.cast_pow, Nat.cast_ofNat] at hcast
    omega
  rw [div_ofInt h he, ceil, hceil, ofInt]

theorem max_ofInt : max (ofInt a) (ofInt b) = ofInt (Max.max a b) := by
  rw [ofInt, ofInt, max, ofInt, Int.cast_max]

theorem ge_ofInt : ge (ofInt a) (ofInt b) = decide (b ≤ a) := by
  rw [ofInt, ofInt, ge]
  exact decide_eq_decide.2 Int.cast_le

theorem lt_ofInt : lt (ofInt a) (ofInt b) = decide (a < b) := by
  rw [ofInt, ofInt, lt]
  exact decide_eq_decide.2 Int.cast_lt

theorem ofInt_inj : ofInt a = ofInt b ↔ a = b := by
  rw [ofInt, ofInt, finite.injEq, Int.cast_inj]

end Exact

end JsNumber

end Foundations
