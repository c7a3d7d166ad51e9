import Mathlib

/-!
# Text operations of the Rust standard library

Text is `String`; the operations are those of `str`, defined on the list of characters: trimming
of Unicode white space, comparison and case mapping that look at ASCII letters only, prefixes,
fields, lines, and the text of a JSON string. The length of a text is its number of UTF-8 bytes,
`String.utf8ByteSize`.

## Main definitions

* `Foundations.Text.trim`, `Foundations.Text.takeChars`, `Foundations.Text.stripPrefix`,
  `Foundations.Text.replaceAll`, `Foundations.Text.splitAsciiWhitespace`.
* `Foundations.Text.eqIgnoreAsciiCase`, `Foundations.Text.toAsciiLowercase`,
  `Foundations.Text.parseU32`, `Foundations.Text.parseU64`.
* `Foundations.Text.lines`: the lines of a text; `Foundations.Text.unlines`: lines as one text;
  `Foundations.Text.indentLines`: the lines of a text, each indented.
* `Foundations.Text.jsonString`: a text as a JSON string.

## Main results

* `Foundations.Text.lines_unlines_append`: lines without a newline are read back.
* `Foundations.Text.newline_notMem_jsonString`: a JSON string is a single line.
-/

namespace Foundations.Text

/-! ### Characters -/

/-- The Unicode property `White_Space`, which `str::trim` removes. -/
def isWhitespace (c : Char) : Bool :=
  (9 ≤ c.toNat && c.toNat ≤ 13) || c.toNat == 0x20 || c.toNat == 0x85 || c.toNat == 0xA0 ||
    c.toNat == 0x1680 || (0x2000 ≤ c.toNat && c.toNat ≤ 0x200A) || c.toNat == 0x2028 ||
    c.toNat == 0x2029 || c.toNat == 0x202F || c.toNat == 0x205F || c.toNat == 0x3000

/-- White space as `split_ascii_whitespace` reads it: space, tab, line feed, form feed and carriage
return. -/
def isAsciiWhitespace (c : Char) : Bool :=
  c == ' ' || c == '\t' || c == '\n' || c.toNat == 0x0C || c == '\r'

/-- A hexadecimal digit of either case. -/
def isAsciiHexdigit (c : Char) : Bool :=
  c.isDigit || ('a' ≤ c && c ≤ 'f') || ('A' ≤ c && c ≤ 'F')

/-- A character below 128. -/
def isAscii (c : Char) : Bool := c.toNat < 128

theorem isAscii_of_isAlphanum {c : Char} (h : c.isAlphanum = true) : isAscii c = true := by
  simp only [Char.isAlphanum, Char.isAlpha, Char.isUpper, Char.isLower, Char.isDigit,
    Bool.or_eq_true, Bool.and_eq_true, decide_eq_true_iff, ge_iff_le, UInt32.le_iff_toNat_le] at h
  have hupper : 'Z'.val.toNat = 90 := by decide
  have hlower : 'z'.val.toNat = 122 := by decide
  have hdigit : '9'.val.toNat = 57 := by decide
  simp only [isAscii, Char.toNat, decide_eq_true_iff]
  omega

/-! ### Whole texts -/

/-- `str::trim`. -/
def trim (s : String) : String :=
  String.ofList ((s.toList.dropWhile isWhitespace).rdropWhile isWhitespace)

/-- Nothing remains to be trimmed after `trim`. -/
theorem trim_trim (s : String) : trim (trim s) = trim s := by
  set l := s.toList.dropWhile isWhitespace with hl
  -- the trimmed text still begins as `l` does, with a character that is not white space
  have hdrop : (l.rdropWhile isWhitespace).dropWhile isWhitespace = l.rdropWhile isWhitespace := by
    rw [List.dropWhile_eq_self_iff]
    intro hlength
    have hpre := List.rdropWhile_prefix isWhitespace l
    have hfirst : l.dropWhile isWhitespace = l := List.dropWhile_idempotent _ _
    rw [hpre.getElem hlength]
    exact List.dropWhile_eq_self_iff.1 hfirst (hlength.trans_le hpre.length_le)
  simp only [trim, String.toList_ofList, ← hl, hdrop, List.rdropWhile_idempotent]

/-- `chars().take(n).collect()`. -/
def takeChars (n : ℕ) (s : String) : String :=
  String.ofList (s.toList.take n)

/-- `str::to_ascii_lowercase`; `Char.toLower` maps the letters `A` to `Z` and nothing else. -/
def toAsciiLowercase (s : String) : String :=
  String.ofList (s.toList.map Char.toLower)

/-- `str::eq_ignore_ascii_case`. -/
def eqIgnoreAsciiCase (s t : String) : Bool :=
  s.toList.map Char.toLower == t.toList.map Char.toLower

theorem eqIgnoreAsciiCase_iff {s t : String} :
    eqIgnoreAsciiCase s t = true ↔ toAsciiLowercase s = toAsciiLowercase t := by
  simp only [eqIgnoreAsciiCase, toAsciiLowercase, beq_iff_eq, String.ofList_inj]

/-- `str::strip_prefix`. -/
def stripPrefix (p s : String) : Option String :=
  if p.toList.isPrefixOf s.toList then some (String.ofList (s.toList.drop p.toList.length))
  else none

/-- `u32::from_str`: an optional plus sign and at least one decimal digit, in range. -/
def parseU32 (s : String) : Option UInt32 :=
  let digits := match s.toList with
    | '+' :: l => l
    | l => l
  let value := digits.foldl (fun value digit => 10 * value + (digit.toNat - '0'.toNat)) 0
  if digits.isEmpty || !digits.all Char.isDigit || 2 ^ 32 ≤ value then none
  else some (UInt32.ofNat value)

example : parseU32 "+007" = some 7 ∧ parseU32 "+" = none ∧ parseU32 "4294967296" = none := by decide

/-- `u64::from_str`, of the same form. -/
def parseU64 (s : String) : Option UInt64 :=
  let digits := match s.toList with
    | '+' :: l => l
    | l => l
  let value := digits.foldl (fun value digit => 10 * value + (digit.toNat - '0'.toNat)) 0
  if digits.isEmpty || !digits.all Char.isDigit || 2 ^ 64 ≤ value then none
  else some (UInt64.ofNat value)

/-- `str::contains` of one character. -/
def containsChar (c : Char) (s : String) : Bool := s.toList.contains c

/-- The fields between runs of ASCII white space, for `str::split_ascii_whitespace`. -/
def fields : List Char → List (List Char)
  | [] => []
  | c :: l =>
    if isAsciiWhitespace c then fields l
    else match l, fields l with
      | [], _ => [[c]]
      | d :: _, fs => if isAsciiWhitespace d then [c] :: fs
        else match fs with
          | [] => [[c]]
          | f :: fs => (c :: f) :: fs

/-- The non-empty words between blanks. -/
def splitAsciiWhitespace (s : String) : List String :=
  (fields s.toList).map String.ofList

/-- The occurrences of the non-empty `pat`, from left to right and not overlapping, replaced by
`rep`; `skip` counts the characters of an occurrence that are still to be passed over. -/
def replaceFrom (pat rep : List Char) : ℕ → List Char → List Char
  | _, [] => []
  | skip + 1, _ :: l => replaceFrom pat rep skip l
  | 0, c :: l =>
    if pat.isPrefixOf (c :: l) then rep ++ replaceFrom pat rep (pat.length - 1) l
    else c :: replaceFrom pat rep 0 l

/-- `str::replace` of a non-empty text. -/
def replaceAll (pat rep s : String) : String :=
  String.ofList (replaceFrom pat.toList rep.toList 0 s.toList)

/-! ### Lines -/

/-- The text cut after every newline, for `split_inclusive('\n')`. -/
def cutLines : List Char → List (List Char)
  | [] => []
  | c :: l =>
    if c = '\n' then ['\n'] :: cutLines l
    else match cutLines l with
      | [] => [[c]]
      | x :: xs => (c :: x) :: xs

/-- A line without its ending, which is a line feed or a carriage return and a line feed. -/
def stripLineEnd (l : List Char) : List Char :=
  if l.getLast? = some '\n' then
    if l.dropLast.getLast? = some '\r' then l.dropLast.dropLast else l.dropLast
  else l

/-- `str::lines`. -/
def lines (s : String) : List String :=
  (cutLines s.toList).map fun l => String.ofList (stripLineEnd l)

/-- The lines, each ended by a newline. -/
def unlines (ls : List String) : String := String.join (ls.map fun l => l ++ "\n")

/-- Every line of the text after `spaces` spaces and ended by a newline. -/
def indentLines (s : String) (spaces : ℕ) : String :=
  String.join ((lines s).map fun l => String.ofList (List.replicate spaces ' ') ++ l ++ "\n")

theorem cutLines_append_newline {l : List Char} (h : '\n' ∉ l) (rest : List Char) :
    cutLines (l ++ '\n' :: rest) = (l ++ ['\n']) :: cutLines rest := by
  induction l with
  | nil => simp [cutLines]
  | cons c l ih =>
    have hc : c ≠ '\n' := fun e => h (e ▸ List.mem_cons_self)
    have hl : '\n' ∉ l := fun m => h (List.mem_cons_of_mem _ m)
    simp [cutLines, hc, ih hl]

/-- A first line that holds no line feed and ends in no carriage return is split off. -/
theorem lines_append_newline {s : String} (h : '\n' ∉ s.toList)
    (hr : s.toList.getLast? ≠ some '\r') (rest : String) :
    lines (s ++ "\n" ++ rest) = s :: lines rest := by
  have htext : (s ++ "\n" ++ rest).toList = s.toList ++ '\n' :: rest.toList := by
    simp [String.toList_append]
  have hstrip : stripLineEnd (s.toList ++ ['\n']) = s.toList := by
    simp [stripLineEnd, hr]
  simp [lines, htext, cutLines_append_newline h, hstrip]

/-- Lines that hold no line feed and end in no carriage return are read back. -/
theorem lines_unlines_append {ls : List String}
    (h : ∀ l ∈ ls, '\n' ∉ l.toList ∧ l.toList.getLast? ≠ some '\r') (rest : String) :
    lines (unlines ls ++ rest) = ls ++ lines rest := by
  induction ls with
  | nil => simp [unlines]
  | cons l ls ih =>
    rw [List.forall_mem_cons] at h
    have hcons : unlines (l :: ls) ++ rest = l ++ "\n" ++ (unlines ls ++ rest) := by
      simp [unlines, String.append_assoc]
    rw [hcons, lines_append_newline h.1.1 h.1.2, ih h.2, List.cons_append]

/-- A text that starts with the prefix loses it. -/
theorem stripPrefix_append (p s : String) : stripPrefix p (p ++ s) = some s := by
  simp [stripPrefix, String.toList_append]

theorem stripPrefix_eq_some_iff {p s rest : String} :
    stripPrefix p s = some rest ↔ s = p ++ rest := by
  constructor
  · intro h
    unfold stripPrefix at h
    split_ifs at h with hpre
    obtain ⟨l, hl⟩ := List.isPrefixOf_iff_prefix.mp hpre
    have hrest : rest = String.ofList l := by
      rw [← Option.some.inj h, ← hl, List.drop_left]
    rw [hrest, ← String.toList_inj, String.toList_append, String.toList_ofList, hl]
  · rintro rfl
    exact stripPrefix_append p rest

/-! ### Numerals -/

/-- The lowercase hexadecimal digit of a number below 16. -/
def hexDigit (n : ℕ) : Char :=
  if n < 10 then Char.ofNat (48 + n) else Char.ofNat (87 + n)

/-- The lowest `k` hexadecimal digits of `n`, the highest first. -/
def hexDigits : ℕ → ℕ → List Char
  | 0, _ => []
  | k + 1, n => hexDigit (n / 16 ^ k % 16) :: hexDigits k n

theorem utf8ByteSize_hexDigits (k n : ℕ) : (String.ofList (hexDigits k n)).utf8ByteSize = k := by
  have hdigit : ∀ d < 16, (hexDigit d).utf8Size = 1 := by decide
  induction k with
  | zero => rfl
  | succ k ih =>
    have hsize := hdigit (n / 16 ^ k % 16) (Nat.mod_lt _ (by decide))
    rw [hexDigits, String.ofList_cons, String.utf8ByteSize_append, String.utf8ByteSize_singleton,
      ih, hsize]
    omega

/-! ### JSON strings -/

/-- The text of one character inside a JSON string, as `serde_json` writes it. -/
def jsonEscape (c : Char) : List Char :=
  if c = '"' then ['\\', '"']
  else if c = '\\' then ['\\', '\\']
  else if c.toNat = 0x08 then ['\\', 'b']
  else if c.toNat = 0x09 then ['\\', 't']
  else if c.toNat = 0x0A then ['\\', 'n']
  else if c.toNat = 0x0C then ['\\', 'f']
  else if c.toNat = 0x0D then ['\\', 'r']
  else if c.toNat < 0x20 then ['\\', 'u', '0', '0'] ++ hexDigits 2 c.toNat
  else [c]

/-- `serde_json::to_string` of a text, which does not fail. -/
def jsonString (s : String) : String :=
  String.ofList ('"' :: (s.toList.flatMap jsonEscape ++ ['"']))

theorem newline_notMem_jsonEscape (c : Char) : '\n' ∉ jsonEscape c := by
  have hdigits : ∀ n < 0x20, '\n' ∉ hexDigits 2 n := by decide
  unfold jsonEscape
  split_ifs with h1 h2 h3 h4 h5 h6 h7 h8
  · simp
  · simp
  · simp
  · simp
  · simp
  · simp
  · simp
  · simpa using hdigits c.toNat h8
  · simp only [List.mem_singleton]
    rintro rfl
    exact h5 rfl

/-- A JSON string holds no line feed. -/
theorem newline_notMem_jsonString (s : String) : '\n' ∉ (jsonString s).toList := by
  simp [jsonString, newline_notMem_jsonEscape]

/-- A JSON string ends in a quotation mark. -/
theorem getLast?_jsonString (s : String) : (jsonString s).toList.getLast? = some '"' := by
  simp only [jsonString, String.toList_ofList, ← List.cons_append, List.getLast?_concat]

end Foundations.Text
