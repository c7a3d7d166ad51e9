import EasyDeployMesh.Foundations.Text

/-!
# Reading JSON strings

A reader of JSON strings, with all escapes of the format, reads back what was written as a JSON
string.

## Main definitions

* `Foundations.Json.decodeString`: the text that a JSON string stands for.

## Main results

* `Foundations.Json.decodeString_jsonString`: a text that was written as a JSON string is read back.
* `Foundations.Json.isPrintable_jsonString`: an ASCII text becomes a JSON string without control
  characters.
-/

namespace Foundations.Json

/-- The value of a hexadecimal digit. -/
def hexValue (c : Char) : Option ℕ :=
  if '0' ≤ c ∧ c ≤ '9' then some (c.toNat - 48)
  else if 'a' ≤ c ∧ c ≤ 'f' then some (c.toNat - 87)
  else if 'A' ≤ c ∧ c ≤ 'F' then some (c.toNat - 55)
  else none

/-- The value of four hexadecimal digits. -/
def hexUnit (a b c d : Char) : Option ℕ := do
  let a ← hexValue a
  let b ← hexValue b
  let c ← hexValue c
  let d ← hexValue d
  some (((a * 16 + b) * 16 + c) * 16 + d)

/-- The character of an escape of one letter. -/
def simpleEscape (c : Char) : Option Char :=
  if c = '"' ∨ c = '\\' ∨ c = '/' then some c
  else if c = 'b' then some (Char.ofNat 0x08)
  else if c = 'f' then some (Char.ofNat 0x0C)
  else if c = 'n' then some '\n'
  else if c = 'r' then some '\r'
  else if c = 't' then some '\t'
  else none

/-- The characters of a JSON string behind its first quotation mark. A pair of surrogates stands for
one character, and a surrogate on its own for none; `high` is the first one of a pair. -/
def decodeChars : Option ℕ → List Char → Option (List Char)
  | none, ['"'] => some []
  | high, '\\' :: 'u' :: a :: b :: c :: d :: rest =>
    match hexUnit a b c d, high with
    | none, _ => none
    | some unit, none =>
      if 0xD800 ≤ unit ∧ unit < 0xDC00 then decodeChars (some unit) rest
      else if 0xDC00 ≤ unit ∧ unit < 0xE000 then none
      else (decodeChars none rest).map (Char.ofNat unit :: ·)
    | some unit, some high =>
      if 0xDC00 ≤ unit ∧ unit < 0xE000 then
        (decodeChars none rest).map
          (Char.ofNat (0x10000 + (high - 0xD800) * 0x400 + (unit - 0xDC00)) :: ·)
      else none
  | none, '\\' :: c :: rest =>
    match simpleEscape c with
    | some c => (decodeChars none rest).map (c :: ·)
    | none => none
  | none, c :: rest =>
    if c = '"' ∨ c = '\\' ∨ c.toNat < 0x20 then none
    else (decodeChars none rest).map (c :: ·)
  | _, _ => none

/-- The text that a JSON string stands for. -/
def decodeString (s : String) : Option String :=
  match s.toList with
  | '"' :: rest => (decodeChars none rest).map String.ofList
  | _ => none

example : decodeString "\"a\\u00e9\\ud83d\\ude00\\n\"" = some "aé😀\n" := by decide +kernel

/-! ### Reading back -/

/-- A character that is not escaped stands for itself. -/
theorem decodeChars_cons {c : Char} (hquote : c ≠ '"') (hescape : c ≠ '\\')
    (hcontrol : 0x20 ≤ c.toNat) (l : List Char) :
    decodeChars none (c :: l) = (decodeChars none l).map (c :: ·) := by
  have hplain : ¬ (c = '"' ∨ c = '\\' ∨ c.toNat < 0x20) := by
    simp only [hquote, hescape, false_or]
    omega
  rw [decodeChars.eq_6 c l (fun h _ => hquote h) (fun _ _ _ _ _ h _ => hescape h)
    fun _ _ h _ => hescape h, if_neg hplain]

/-- The escape of a character is read back. -/
theorem decodeChars_jsonEscape (c : Char) (l : List Char) :
    decodeChars none (Text.jsonEscape c ++ l) = (decodeChars none l).map (c :: ·) := by
  have hunit : ∀ n < 0x20, hexUnit '0' '0' (Text.hexDigit (n / 16 ^ 1 % 16))
      (Text.hexDigit (n / 16 ^ 0 % 16)) = some n := by decide
  have hchar {n : ℕ} (h : c.toNat = n) : c = Char.ofNat n := by
    rw [← h, Char.ofNat_toNat]
  rw [Text.jsonEscape]
  split_ifs with h₁ h₂ h₃ h₄ h₅ h₆ h₇ h₈
  · subst h₁
    rfl
  · subst h₂
    rfl
  · rw [hchar h₃]
    rfl
  · rw [hchar h₄]
    rfl
  · rw [hchar h₅]
    rfl
  · rw [hchar h₆]
    rfl
  · rw [hchar h₇]
    rfl
  · have hvalue := hunit c.toNat h₈
    simp only [Text.hexDigits, List.cons_append, List.nil_append]
    rw [decodeChars.eq_3 _ _ _ _ _ _ hvalue, if_neg (by omega), if_neg (by omega), Char.ofNat_toNat]
  · exact decodeChars_cons h₁ h₂ (by omega) l

/-- A text that was written as a JSON string is read back. -/
theorem decodeString_jsonString (s : String) : decodeString (Text.jsonString s) = some s := by
  have hchars (l : List Char) :
      decodeChars none (l.flatMap Text.jsonEscape ++ ['"']) = some l := by
    induction l with
    | nil => rfl
    | cons c l ih =>
      rw [List.flatMap_cons, List.append_assoc, decodeChars_jsonEscape, ih]
      rfl
  rw [decodeString, Text.jsonString, String.toList_ofList]
  simp only [hchars, Option.map_some, String.ofList_toList]

/-- A printable ASCII character, or the last one of the ASCII range. -/
def isPrintable (c : Char) : Bool := 0x20 ≤ c.toNat && Text.isAscii c

theorem isPrintable_jsonEscape {c : Char} (h : Text.isAscii c = true) :
    (Text.jsonEscape c).all isPrintable = true := by
  have hdigits : ∀ n < 0x20, (Text.hexDigits 2 n).all isPrintable = true := by decide
  rw [Text.jsonEscape]
  split_ifs with h₁ h₂ h₃ h₄ h₅ h₆ h₇ h₈
  · decide
  · decide
  · decide
  · decide
  · decide
  · decide
  · decide
  · rw [List.all_append, hdigits c.toNat h₈]
    decide
  · simp only [List.all_cons, List.all_nil, isPrintable, h, Bool.and_true, decide_eq_true_iff]
    omega

/-- An ASCII text becomes a JSON string without control characters. -/
theorem isPrintable_jsonString {s : String} (h : s.toList.all Text.isAscii = true) :
    (Text.jsonString s).toList.all isPrintable = true := by
  rw [List.all_eq_true] at h
  rw [Text.jsonString, String.toList_ofList, List.all_cons, List.all_append, List.all_flatMap]
  have hescaped : s.toList.all (fun c => (Text.jsonEscape c).all isPrintable) = true :=
    List.all_eq_true.mpr fun c hc => isPrintable_jsonEscape (h c hc)
  rw [hescaped]
  decide

end Foundations.Json
