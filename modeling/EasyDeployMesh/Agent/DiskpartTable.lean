import EasyDeployMesh.Foundations.Network
import EasyDeployMesh.Foundations.Tokens

/-!
# The disk table of DiskPart

`parse_diskpart_disk_numbers` of `crates/agent/src/windows_inventory.rs` reads the numbers of the
disks from what `list disk` prints. The words are localized and the code page is not known, so the
table is found by its header `###` with a dashed line below, and a row by its shape: words, the
number, two blanks and later a unit of size. The bytes are arbitrary.

## Main definitions

* `EasyDeployMesh.parseDiskpartDiskNumbers`: the parser.
* `EasyDeployMesh.DiskRow`, `EasyDeployMesh.DiskpartTable`: the grammar of a row and of the output.

## Main results

* `EasyDeployMesh.parseDiskpartRow_trimAscii_eq_some_iff`: the rows that are recognized.
* `EasyDeployMesh.DiskpartTable.readsRows`: the parser returns the numbers of the rows of the table.
-/

namespace EasyDeployMesh

open Foundations

/-! ### The parser -/

/-- `u8::is_ascii_whitespace`. -/
def isBlankByte (byte : UInt8) : Bool :=
  byte == 32 || byte == 9 || byte == 10 || byte == 12 || byte == 13

/-- `u8::is_ascii_digit`. -/
def isDigitByte (byte : UInt8) : Bool := 48 ≤ byte && byte ≤ 57

/-- A line without the blanks at its two ends. -/
def trimAscii (bytes : List UInt8) : List UInt8 := trimmed isBlankByte bytes

/-- `###`, the column of the numbers. -/
def numberColumn : List UInt8 := [35, 35, 35]

/-- Whether three bytes in a row are `###`. -/
def hasNumberColumn (line : List UInt8) : Bool :=
  line.tails.any fun rest => numberColumn.isPrefixOf rest

/-- A line of blanks and hyphens with at least two groups of three hyphens or more. -/
def isDiskpartSeparator (line : List UInt8) : Bool :=
  let line := trimAscii line
  (line.all fun byte => isBlankByte byte || byte == 45) &&
    2 ≤ (((line.splitOnP isBlankByte).filter fun group => !group.isEmpty).filter fun group =>
      (group.all fun byte => byte == 45) && 3 ≤ group.length).length

/-- The units from `B` to `PB`, in upper or lower case. -/
def isSizeUnit : List UInt8 → Bool
  | [b] => b == 66 || b == 98
  | [factor, b] => (stringBytes "KkMmGgTtPp").contains factor && (b == 66 || b == 98)
  | _ => false

/-- Some word of a row is a unit of size. -/
def containsSizeUnit (bytes : List UInt8) : Bool :=
  ((bytes.splitOnP isBlankByte).filter fun token => !token.isEmpty).any isSizeUnit

/-- The number that decimal digits write. -/
def digitsValue (digits : List UInt8) : ℕ :=
  digits.foldl (fun value digit => 10 * value + (digit.toNat - 48)) 0

/-- `str::parse::<u32>` on digits. -/
def parseDiskNumber (digits : List UInt8) : Option ℕ :=
  if digitsValue digits < 2 ^ 32 then some (digitsValue digits) else none

/-- The number at the end of the first cell. -/
def firstCellNumber (firstCell : List UInt8) : Option ℕ :=
  let front := firstCell.takeWhile fun byte => !isDigitByte byte
  let back := firstCell.dropWhile fun byte => !isDigitByte byte
  if back.isEmpty then none
  else if !front.getLast?.any isBlankByte then none
  else if (trimAscii front).isEmpty || (trimAscii front).any isDigitByte then none
  else if !(trimAscii (back.dropWhile isDigitByte)).isEmpty then none
  else parseDiskNumber (back.takeWhile isDigitByte)

/-- The disk number of a row; the row counts only if a size follows the first pair of blanks. -/
def parseDiskpartRow (line : List UInt8) : Option ℕ :=
  (cutAtPair isBlankByte line).bind fun cut =>
    (firstCellNumber (trimAscii cut.1)).bind fun number =>
      if containsSizeUnit cut.2 then some number else none

/-- Whether the nearest line above that is not empty has the column of the numbers. -/
def headerAbove (above : List (List UInt8)) : Bool :=
  ((above.map trimAscii).find? fun line => !line.isEmpty).any hasNumberColumn

/-- The lines below the first separator that has a header, `above` being the lines above. -/
def belowSeparator (above : List (List UInt8)) : List (List UInt8) → Option (List (List UInt8))
  | [] => none
  | line :: lines =>
    if isDiskpartSeparator line && headerAbove above then some lines
    else belowSeparator (line :: above) lines

/-- `BTreeSet::insert`. -/
def insertNumber (number : ℕ) : List ℕ → List ℕ
  | [] => [number]
  | n :: numbers =>
    if number < n then number :: n :: numbers
    else if number = n then n :: numbers
    else n :: insertNumber number numbers

/-- What a line that is not empty adds to the numbers. -/
def addRow (numbers : List ℕ) (line : List UInt8) : List ℕ :=
  match parseDiskpartRow (trimAscii line) with
  | some number => insertNumber number numbers
  | none => numbers

/-- The rows up to the first empty line behind a number. -/
def readRows (numbers : List ℕ) : List (List UInt8) → List ℕ
  | [] => numbers
  | line :: lines =>
    if (trimAscii line).isEmpty then
      if numbers.isEmpty then readRows numbers lines else numbers
    else readRows (addRow numbers line) lines

/-- The disk numbers of the rows below the separator. -/
def parseDiskpartDiskNumbers (output : List UInt8) : Except String (List ℕ) :=
  match belowSeparator [] (output.splitOn 10) with
  | none => .error "disk table separator was not found"
  | some rows =>
    if (readRows [] rows).isEmpty then .error "no disk rows were found" else .ok (readRows [] rows)

/-! ### The grammar -/

/-- Blanks, the mark `* ` or none, words that single blanks separate, a blank, the digits, and a
rest that begins with two blanks and has a unit of size. -/
structure DiskRow where
  lead : List UInt8
  mark : List UInt8
  words : List UInt8
  blank : UInt8
  digits : List UInt8
  rest : List UInt8
  lead_blank : ∀ byte ∈ lead, isBlankByte byte = true
  mark_eq : mark = [] ∨ mark = [42, 32]
  words_bare : Bare isBlankByte words
  words_single : SingleSeparated isBlankByte words
  words_digits : ∀ byte ∈ words, isDigitByte byte = false
  blank_blank : isBlankByte blank = true
  digits_ne : digits ≠ []
  digits_digits : ∀ byte ∈ digits, isDigitByte byte = true
  digits_lt : digitsValue digits < 2 ^ 32
  rest_blank : ∃ a b tail, rest = a :: b :: tail ∧ isBlankByte a = true ∧ isBlankByte b = true
  rest_unit : ∃ token, IsToken isBlankByte token rest ∧ isSizeUnit token = true

/-- The row as `diskpart` prints it. -/
def DiskRow.text (row : DiskRow) : List UInt8 :=
  row.lead ++ (row.mark ++ row.words ++ row.blank :: row.digits) ++ row.rest

/-- The line is a row with this number. -/
def IsDiskRow (line : List UInt8) (number : ℕ) : Prop :=
  ∃ row : DiskRow, line = row.text ∧ digitsValue row.digits = number

/-- A line with nothing but blanks, which ends the table. -/
def IsBlankLine (line : List UInt8) : Prop := ∀ byte ∈ line, isBlankByte byte = true

/-- The nearest of the lines above that is not blank has the column of the numbers. -/
def UnderHeader (above : List (List UInt8)) : Prop :=
  ∃ before header gap, above = before ++ header :: gap ∧ numberColumn <:+: header ∧
    ∀ line ∈ gap, IsBlankLine line

/-- Banner lines without a table, a header with its dashed line, a block of lines, and what follows
the first blank line behind a row. -/
structure DiskpartTable where
  banner : List (List UInt8)
  header : List UInt8
  gap : List (List UInt8)
  separator : List UInt8
  block : List (List UInt8)
  tail : List (List UInt8)
  lines_free : ∀ line ∈ banner ++ header :: gap ++ separator :: (block ++ tail), (10 : UInt8) ∉ line
  banner_noTable : ∀ before line after, banner = before ++ line :: after →
    isDiskpartSeparator line = true → ¬UnderHeader before
  header_column : numberColumn <:+: header
  gap_blank : ∀ line ∈ gap, IsBlankLine line
  separator_dashed : isDiskpartSeparator separator = true
  block_blank : ∀ before line after, block = before ++ line :: after → IsBlankLine line →
    ∀ row ∈ before, ∀ number, ¬IsDiskRow row number
  tail_blank : tail = [] ∨ (∃ line rest, tail = line :: rest ∧ IsBlankLine line) ∧
    ∃ row ∈ block, ∃ number, IsDiskRow row number

/-- What DiskPart prints. -/
def DiskpartTable.output (table : DiskpartTable) : List UInt8 :=
  [10].intercalate (table.banner ++ table.header :: table.gap ++
    table.separator :: (table.block ++ table.tail))

/-- The numbers are read in order, each once, and nothing else is; there is an error if there are
none. -/
structure ReadsRows (table : DiskpartTable) : Prop where
  ordered : ∀ numbers, parseDiskpartDiskNumbers table.output = .ok numbers →
    numbers.Pairwise (· < ·)
  exact : ∀ numbers, parseDiskpartDiskNumbers table.output = .ok numbers →
    ∀ number, number ∈ numbers ↔ ∃ row ∈ table.block, IsDiskRow row number
  error : (∃ error, parseDiskpartDiskNumbers table.output = .error error) ↔
    ∀ row ∈ table.block, ∀ number, ¬IsDiskRow row number

/-! ### The numbers -/

section Numbers

variable {number n : ℕ} {numbers : List ℕ}

theorem mem_insertNumber : n ∈ insertNumber number numbers ↔ n = number ∨ n ∈ numbers := by
  induction numbers with
  | nil => simp [insertNumber]
  | cons m numbers ih =>
    unfold insertNumber
    by_cases hlt : number < m
    · rw [if_pos hlt, List.mem_cons]
    · rw [if_neg hlt]
      by_cases heq : number = m
      · rw [if_pos heq, List.mem_cons, heq, or_self_left]
      · rw [if_neg heq, List.mem_cons, ih, List.mem_cons, or_left_comm]

theorem pairwise_insertNumber (h : numbers.Pairwise (· < ·)) :
    (insertNumber number numbers).Pairwise (· < ·) := by
  induction numbers with
  | nil => exact List.pairwise_singleton _ _
  | cons m numbers ih =>
    obtain ⟨hm, hnumbers⟩ := List.pairwise_cons.1 h
    unfold insertNumber
    by_cases hlt : number < m
    · rw [if_pos hlt]
      refine List.pairwise_cons.2 ⟨fun k hk => ?_, h⟩
      rcases List.mem_cons.1 hk with rfl | hk
      · exact hlt
      · exact hlt.trans (hm k hk)
    · rw [if_neg hlt]
      by_cases heq : number = m
      · rw [if_pos heq]
        exact h
      · rw [if_neg heq]
        refine List.pairwise_cons.2 ⟨fun k hk => ?_, ih hnumbers⟩
        rcases mem_insertNumber.1 hk with rfl | hk
        · omega
        · exact hm k hk

end Numbers

/-! ### Rows -/

section Rows

variable {line : List UInt8} {number : ℕ}

private theorem notBlank_of_digit {byte : UInt8} (h : isDigitByte byte = true) :
    isBlankByte byte = false := by
  rw [← Bool.not_eq_true]
  intro hblank
  simp only [isBlankByte, Bool.or_eq_true, beq_iff_eq] at hblank
  rcases hblank with (((rfl | rfl) | rfl) | rfl) | rfl <;> exact absurd h (by decide)

theorem containsSizeUnit_eq_true_iff {bytes : List UInt8} : containsSizeUnit bytes = true ↔
    ∃ token, IsToken isBlankByte token bytes ∧ isSizeUnit token = true := by
  rw [containsSizeUnit, List.any_eq_true]
  constructor
  · rintro ⟨token, hmem, hunit⟩
    exact ⟨token, mem_splitOnP_iff.1 (List.mem_filter.1 hmem).1, hunit⟩
  · rintro ⟨token, htoken, hunit⟩
    refine ⟨token, List.mem_filter.2 ⟨mem_splitOnP_iff.2 htoken, ?_⟩, hunit⟩
    cases token with
    | nil => cases hunit
    | cons byte token => rfl

theorem parseDiskNumber_eq_some_iff {digits : List UInt8} :
    parseDiskNumber digits = some number ↔
      digitsValue digits < 2 ^ 32 ∧ digitsValue digits = number := by
  rw [parseDiskNumber]
  by_cases hlt : digitsValue digits < 2 ^ 32
  · rw [if_pos hlt, Option.some_inj, and_iff_right hlt]
  · rw [if_neg hlt]
    exact iff_of_false nofun fun h => hlt h.1

private theorem firstCellNumber_eq_some_iff_aux {cell : List UInt8} :
    firstCellNumber cell = some number ↔
      cell.dropWhile (fun byte => !isDigitByte byte) ≠ [] ∧
      (cell.takeWhile fun byte => !isDigitByte byte).getLast?.any isBlankByte = true ∧
      trimAscii (cell.takeWhile fun byte => !isDigitByte byte) ≠ [] ∧
      (trimAscii (cell.takeWhile fun byte => !isDigitByte byte)).any isDigitByte = false ∧
      trimAscii ((cell.dropWhile fun byte => !isDigitByte byte).dropWhile isDigitByte) = [] ∧
      parseDiskNumber ((cell.dropWhile fun byte => !isDigitByte byte).takeWhile isDigitByte) =
        some number := by
  rw [firstCellNumber]
  split_ifs with hback hlast hname hafter
  · exact iff_of_false nofun fun h => h.1 (List.isEmpty_iff.1 hback)
  · refine iff_of_false nofun fun h => ?_
    rw [h.2.1] at hlast
    exact absurd hlast (by decide)
  · refine iff_of_false nofun fun h => ?_
    rcases Bool.or_eq_true _ _ ▸ hname with hempty | hany
    · exact h.2.2.1 (List.isEmpty_iff.1 hempty)
    · rw [h.2.2.2.1] at hany
      cases hany
  · refine iff_of_false nofun fun h => ?_
    rw [h.2.2.2.2.1] at hafter
    exact absurd hafter (by decide)
  · obtain ⟨hempty, hany⟩ := Bool.or_eq_false_iff.1 (Bool.eq_false_iff.2 hname)
    refine ⟨fun h => ⟨fun hnil => hback (List.isEmpty_iff.2 hnil), by simpa using hlast,
      fun hnil => ?_, hany, by simpa using hafter, h⟩, fun h => h.2.2.2.2.2⟩
    rw [hnil] at hempty
    cases hempty

/-- Nothing but blanks may follow the digits of a cell, and the cell does not end with a blank. -/
private theorem dropWhile_digits_eq_nil {cell : List UInt8} (hcell : Bare isBlankByte cell)
    (hafter : trimAscii
      ((cell.dropWhile fun byte => !isDigitByte byte).dropWhile isDigitByte) = []) :
    (cell.dropWhile fun byte => !isDigitByte byte).dropWhile isDigitByte = [] := by
  have hsplit := List.takeWhile_append_dropWhile (p := fun byte => !isDigitByte byte) (l := cell)
  have hdigits := List.takeWhile_append_dropWhile (p := isDigitByte)
    (l := cell.dropWhile fun byte => !isDigitByte byte)
  by_contra hne
  have hlast := hcell.last
  have hall := trimmed_eq_nil_iff.1 hafter _ (List.getLast_mem hne)
  have hcellLast : cell.getLast? = some (((cell.dropWhile fun byte =>
      !isDigitByte byte).dropWhile isDigitByte).getLast hne) := by
    conv_lhs => rw [← hsplit, ← hdigits]
    rw [← List.append_assoc, List.getLast?_append_of_ne_nil _ hne,
      List.getLast?_eq_some_getLast]
  rw [List.getLast?_eq_some_getLast hcell.ne_nil] at hcellLast
  rw [Option.some_inj.1 hcellLast, hall] at hlast
  cases hlast

/-- The first digit parts the name and the blank from the digits. -/
private theorem split_at_digits {name digits : List UInt8} {blank : UInt8}
    (hnodigit : ∀ byte ∈ name, isDigitByte byte = false) (hblank : isBlankByte blank = true)
    (hdigits : digits ≠ []) (hdigit : ∀ byte ∈ digits, isDigitByte byte = true) :
    (∀ byte ∈ name ++ [blank], (!isDigitByte byte) = true) ∧
    (name ++ blank :: digits).takeWhile (fun byte => !isDigitByte byte) = name ++ [blank] ∧
    (name ++ blank :: digits).dropWhile (fun byte => !isDigitByte byte) = digits := by
  have hblankDigit : isDigitByte blank = false := by
    by_contra hd
    rw [notBlank_of_digit (Bool.not_eq_false _ ▸ hd)] at hblank
    cases hblank
  have hfront : ∀ byte ∈ name ++ [blank], (!isDigitByte byte) = true := by
    intro byte hbyte
    rcases List.mem_append.1 hbyte with hbyte | hbyte
    · rw [hnodigit byte hbyte, Bool.not_false]
    · rw [List.mem_singleton.1 hbyte, hblankDigit, Bool.not_false]
  obtain ⟨digit, tail, rfl⟩ := List.exists_cons_of_ne_nil hdigits
  have hstop : ¬(!isDigitByte digit) = true := by
    rw [hdigit digit List.mem_cons_self]
    decide
  have hcell : name ++ blank :: digit :: tail = (name ++ [blank]) ++ digit :: tail := by
    rw [List.append_assoc, List.singleton_append]
  refine ⟨hfront, ?_, ?_⟩
  · rw [hcell, List.takeWhile_append_of_pos hfront,
      List.takeWhile_cons_of_neg (p := fun byte => !isDigitByte byte) hstop, List.append_nil]
  · rw [hcell, List.dropWhile_append_of_pos hfront,
      List.dropWhile_cons_of_neg (p := fun byte => !isDigitByte byte) hstop]

/-- The first cell consists of a name without digits, a blank and the digits. -/
theorem firstCellNumber_eq_some_iff {cell : List UInt8} (hcell : Bare isBlankByte cell) :
    firstCellNumber cell = some number ↔ ∃ name blank digits,
      cell = name ++ blank :: digits ∧ name ≠ [] ∧ (∀ byte ∈ name, isDigitByte byte = false) ∧
      isBlankByte blank = true ∧ digits ≠ [] ∧ (∀ byte ∈ digits, isDigitByte byte = true) ∧
      digitsValue digits < 2 ^ 32 ∧ digitsValue digits = number := by
  rw [firstCellNumber_eq_some_iff_aux]
  constructor
  · rintro ⟨hback, hlast, hname, -, hafter, hnumber⟩
    obtain ⟨blank, hblank, hisBlank⟩ := (Option.any_eq_true _ _).1 hlast
    have hfront := List.dropLast_append_getLast? blank hblank
    have hsplit := List.takeWhile_append_dropWhile (p := fun byte => !isDigitByte byte) (l := cell)
    have hdigits := List.takeWhile_append_dropWhile (p := isDigitByte)
      (l := cell.dropWhile fun byte => !isDigitByte byte)
    rw [dropWhile_digits_eq_nil hcell hafter, List.append_nil] at hdigits
    refine ⟨(cell.takeWhile fun byte => !isDigitByte byte).dropLast, blank, _, ?_, fun hnil => ?_,
      fun byte hbyte => ?_, hisBlank, ?_, fun byte hbyte => List.mem_takeWhile_imp hbyte,
      parseDiskNumber_eq_some_iff.1 hnumber⟩
    · rw [hdigits]
      conv_lhs => rw [← hsplit, ← hfront]
      rw [List.append_assoc, List.singleton_append]
    · rw [hnil, List.nil_append] at hfront
      rw [← hfront] at hname
      exact hname (trimmed_eq_nil_iff.2 fun byte hbyte => List.mem_singleton.1 hbyte ▸ hisBlank)
    · simpa using List.mem_takeWhile_imp (List.mem_of_mem_dropLast hbyte)
    · rw [hdigits]
      exact hback
  · rintro ⟨name, blank, digits, rfl, hname, hnodigit, hblank, hdigits, hdigit, hnumber⟩
    obtain ⟨hfront, htake, hdrop⟩ := split_at_digits hnodigit hblank hdigits hdigit
    rw [htake, hdrop, List.dropWhile_eq_nil_iff.2 hdigit, List.takeWhile_eq_self_iff.2 hdigit]
    refine ⟨hdigits, ?_, fun hnil => ?_, ?_, rfl, parseDiskNumber_eq_some_iff.2 hnumber⟩
    · rw [List.getLast?_concat, Option.any_some, hblank]
    · -- the cell begins with a byte of the name
      have hhead := hcell.head
      rw [List.head_append_of_ne_nil hname] at hhead
      rw [trimmed_eq_nil_iff.1 hnil _ (List.mem_append_left _ (List.head_mem hname))] at hhead
      cases hhead
    · rw [List.any_eq_false]
      intro byte hbyte hd
      obtain ⟨before, after, heq, -⟩ := exists_trimmed isBlankByte (name ++ [blank])
      have hmem : byte ∈ name ++ [blank] := by
        rw [heq]
        exact List.mem_append_left _ (List.mem_append_right _ hbyte)
      have hnot := hfront byte hmem
      rw [hd] at hnot
      cases hnot

/-- What stands in front of the number: words, the first of which may be the mark. -/
private theorem words_of_mark {mark words : List UInt8} (hmark : mark = [] ∨ mark = [42, 32])
    (hwords : Bare isBlankByte words) (hsingle : SingleSeparated isBlankByte words)
    (hdigits : ∀ byte ∈ words, isDigitByte byte = false) :
    Bare isBlankByte (mark ++ words) ∧ SingleSeparated isBlankByte (mark ++ words) ∧
      ∀ byte ∈ mark ++ words, isDigitByte byte = false := by
  rcases hmark with rfl | rfl
  · exact ⟨hwords, hsingle, hdigits⟩
  · obtain ⟨byte, rest, rfl⟩ := List.exists_cons_of_ne_nil hwords.ne_nil
    have hbyte : isBlankByte byte = false := hwords.head
    refine ⟨⟨List.cons_ne_nil _ _, rfl, ?_⟩, ?_, ?_⟩
    · rw [List.getLast_append_of_ne_nil (List.cons_ne_nil _ _) hwords.ne_nil]
      exact hwords.last
    · refine List.isChain_cons_cons.2 ⟨by decide, List.isChain_cons_cons.2 ⟨?_, hsingle⟩⟩
      rw [hbyte, Bool.and_false]
    · have hmark : ∀ byte ∈ [42, 32], isDigitByte byte = false :=
        List.forall_mem_cons.2 ⟨rfl, List.forall_mem_singleton.2 rfl⟩
      exact List.forall_mem_append.2 ⟨hmark, hdigits⟩

/-- The first cell of a row has no two blanks in a row, and two blanks follow. -/
private theorem cutAtPair_row {name digits rest : List UInt8} {blank : UInt8}
    (hname : Bare isBlankByte name) (hsingle : SingleSeparated isBlankByte name)
    (hdigits : digits ≠ []) (hdigit : ∀ byte ∈ digits, isDigitByte byte = true)
    (hrest : ∃ a b tail, rest = a :: b :: tail ∧ isBlankByte a = true ∧ isBlankByte b = true) :
    cutAtPair isBlankByte (name ++ blank :: digits ++ rest) =
      some (name ++ blank :: digits, rest) := by
  obtain ⟨a, b, tail, rfl, ha, hb⟩ := hrest
  refine cutAtPair_eq_some_iff.2 ⟨rfl, a, b, tail, rfl, by rw [ha, hb, Bool.and_self], ?_⟩
  have hclean : ∀ byte ∈ digits, isBlankByte byte = false := fun byte hbyte =>
    notBlank_of_digit (hdigit byte hbyte)
  have hdigitsChain : ∀ l, (∀ byte ∈ l, isBlankByte byte = false) →
      SingleSeparated isBlankByte (l ++ [a]) := by
    intro l hl
    induction l with
    | nil => exact List.isChain_singleton a
    | cons byte l ih =>
      obtain ⟨hbyte, hl⟩ := List.forall_mem_cons.1 hl
      cases l with
      | nil =>
        refine List.isChain_cons_cons.2 ⟨?_, List.isChain_singleton a⟩
        rw [hbyte, Bool.false_and]
      | cons byte' l =>
        refine List.isChain_cons_cons.2 ⟨?_, ih hl⟩
        rw [hbyte, Bool.false_and]
  obtain ⟨digit, more, rfl⟩ := List.exists_cons_of_ne_nil hdigits
  rw [SingleSeparated, List.append_assoc, List.cons_append]
  refine List.isChain_append.2 ⟨hsingle, ?_, fun x hx y hy => ?_⟩
  · refine List.isChain_cons_cons.2 ⟨?_, hdigitsChain _ hclean⟩
    rw [hclean digit List.mem_cons_self, Bool.and_false]
  · rw [List.getLast?_eq_some_getLast hname.ne_nil] at hx
    cases hx
    rw [hname.last, Bool.false_and]

/-- What stands before the first two blanks in a row of a trimmed line is trimmed. -/
private theorem bare_of_cutAtPair {cell rest : List UInt8} (hline : Bare isBlankByte line)
    (hcut : cutAtPair isBlankByte line = some (cell, rest)) : Bare isBlankByte cell := by
  obtain ⟨rfl, a, b, tail, rfl, hab, hsingle⟩ := cutAtPair_eq_some_iff.1 hcut
  have ha : isBlankByte a = true := (Bool.and_eq_true_iff.1 hab).1
  have hne : cell ≠ [] := by
    rintro rfl
    have hhead : isBlankByte a = false := hline.head
    rw [ha] at hhead
    cases hhead
  refine ⟨hne, ?_, ?_⟩
  · have hhead := hline.head
    rwa [List.head_append_of_ne_nil hne] at hhead
  · have hlast := (List.isChain_append.1 hsingle).2.2 _
      (List.getLast?_eq_some_getLast hne) a rfl
    rwa [ha, Bool.and_true] at hlast

/-- A trimmed line that is not empty is recognized if and only if it is a row. -/
theorem parseDiskpartRow_eq_some_iff (hline : Bare isBlankByte line) :
    parseDiskpartRow line = some number ↔ IsDiskRow line number := by
  rw [parseDiskpartRow, Option.bind_eq_some_iff]
  constructor
  · rintro ⟨⟨cell, rest⟩, hcut, hrow⟩
    obtain ⟨found, hcell, hunit⟩ := Option.bind_eq_some_iff.1 hrow
    obtain ⟨hlineEq, a, b, tail, hrest, hab, hsingle⟩ := cutAtPair_eq_some_iff.1 hcut
    dsimp only at hcell hunit hlineEq hrest hsingle
    by_cases hunits : containsSizeUnit rest = true
    · rw [if_pos hunits, Option.some_inj] at hunit
      cases hunit
      have hbare := bare_of_cutAtPair hline hcut
      rw [trimAscii, hbare.trimmed_eq] at hcell
      obtain ⟨name, blank, digits, rfl, hname, hnodigit, hblank, hdigits, hdigit, hlt, hvalue⟩ :=
        (firstCellNumber_eq_some_iff hbare).1 hcell
      rw [List.append_assoc] at hsingle
      obtain ⟨hnameSingle, -, hjoin⟩ := List.isChain_append.1 hsingle
      have hnameBare : Bare isBlankByte name := by
        refine ⟨hname, ?_, ?_⟩
        · have hhead := hbare.head
          rwa [List.head_append_of_ne_nil hname] at hhead
        · have hlast := hjoin _ (List.getLast?_eq_some_getLast hname) blank rfl
          rwa [hblank, Bool.and_true] at hlast
      exact ⟨{
        lead := [], mark := [], words := name, blank, digits, rest
        lead_blank := fun _ h => absurd h List.not_mem_nil
        mark_eq := .inl rfl
        words_bare := hnameBare
        words_single := hnameSingle
        words_digits := hnodigit
        blank_blank := hblank
        digits_ne := hdigits
        digits_digits := hdigit
        digits_lt := hlt
        rest_blank := ⟨a, b, tail, hrest, Bool.and_eq_true_iff.1 hab⟩
        rest_unit := containsSizeUnit_eq_true_iff.1 hunits }, hlineEq, hvalue⟩
    · rw [if_neg hunits] at hunit
      cases hunit
  · rintro ⟨row, rfl, rfl⟩
    obtain ⟨hname, hsingle, hnodigit⟩ :=
      words_of_mark row.mark_eq row.words_bare row.words_single row.words_digits
    have hlead : row.lead = [] := by
      rw [DiskRow.text, List.append_assoc] at hline
      exact hline.eq_nil_of_append row.lead_blank
    have hcut : cutAtPair isBlankByte row.text =
        some (row.mark ++ row.words ++ row.blank :: row.digits, row.rest) := by
      rw [DiskRow.text, hlead, List.nil_append]
      exact cutAtPair_row hname hsingle row.digits_ne row.digits_digits row.rest_blank
    have hbare := bare_of_cutAtPair hline hcut
    refine ⟨_, hcut, Option.bind_eq_some_iff.2 ⟨digitsValue row.digits, ?_, ?_⟩⟩
    · rw [trimAscii, hbare.trimmed_eq, firstCellNumber_eq_some_iff hbare]
      exact ⟨_, row.blank, row.digits, rfl, hname.ne_nil, hnodigit, row.blank_blank, row.digits_ne,
        row.digits_digits, row.digits_lt, rfl⟩
    · rw [if_pos (containsSizeUnit_eq_true_iff.2 row.rest_unit)]

/-- The unit stands behind the two blanks, so that these stay when the blanks at the end go. -/
private theorem DiskRow.rest_blank_rdropWhile (row : DiskRow) {front token back : List UInt8}
    (hrest : row.rest = front ++ token ++ back) (hne : token ≠ [])
    (hclean : ∀ byte ∈ token, isBlankByte byte = false)
    (hdrop : front ++ token ++ back.rdropWhile isBlankByte = row.rest.rdropWhile isBlankByte) :
    ∃ a b tail, row.rest.rdropWhile isBlankByte = a :: b :: tail ∧
      isBlankByte a = true ∧ isBlankByte b = true := by
  obtain ⟨a, b, tail, hab, ha, hb⟩ := row.rest_blank
  obtain ⟨byte, more, rfl⟩ := List.exists_cons_of_ne_nil hne
  have hbyte := hclean byte List.mem_cons_self
  rw [← hdrop]
  rw [hab] at hrest
  rcases front with _ | ⟨x, _ | ⟨y, front⟩⟩
  · rw [← (List.cons.inj hrest).1, ha] at hbyte
    cases hbyte
  · rw [← (List.cons.inj (List.cons.inj hrest).2).1, hb] at hbyte
    cases hbyte
  · obtain ⟨hx, hrest⟩ := List.cons.inj hrest
    obtain ⟨hy, -⟩ := List.cons.inj hrest
    exact ⟨x, y, _, rfl, hx ▸ ha, hy ▸ hb⟩

/-- A row without the blanks at its ends is a row. -/
private theorem DiskRow.isDiskRow_trimAscii (row : DiskRow) :
    IsDiskRow (trimAscii row.text) (digitsValue row.digits) := by
  obtain ⟨token, htoken, hunit⟩ := row.rest_unit
  have hne : token ≠ [] := by
    rintro rfl
    cases hunit
  obtain ⟨hname, -, -⟩ :=
    words_of_mark row.mark_eq row.words_bare row.words_single row.words_digits
  obtain ⟨⟨front, back, hrest, hends⟩, hclean⟩ := htoken
  have hunitBare : Bare isBlankByte token :=
    ⟨hne, hclean _ (List.head_mem hne), hclean _ (List.getLast_mem hne)⟩
  -- the line from its words to the unit stays
  have hbare : Bare isBlankByte
      ((row.mark ++ row.words ++ row.blank :: row.digits) ++ front ++ token) := by
    have hjoin := hname.join (l := row.blank :: row.digits ++ front) hunitBare
    simpa only [List.append_assoc] using hjoin
  have htrim : trimAscii row.text = (row.mark ++ row.words ++ row.blank :: row.digits) ++
      (front ++ token ++ back.rdropWhile isBlankByte) := by
    have hsplit : row.text = row.lead ++
        ((row.mark ++ row.words ++ row.blank :: row.digits) ++ front ++ token) ++ back := by
      rw [DiskRow.text, hrest]
      simp only [List.append_assoc]
    rw [trimAscii, hsplit, trimmed_append_append hbare,
      List.dropWhile_eq_nil_iff.2 row.lead_blank, List.nil_append]
    simp only [List.append_assoc]
  have hdrop :
      front ++ token ++ back.rdropWhile isBlankByte = row.rest.rdropWhile isBlankByte := by
    rw [hrest]
    exact hunitBare.rdropWhile_append.symm
  exact ⟨{ row with
    lead := []
    rest := row.rest.rdropWhile isBlankByte
    lead_blank := fun _ h => absurd h List.not_mem_nil
    rest_blank := row.rest_blank_rdropWhile hrest hne hclean hdrop
    rest_unit := ⟨token, (isToken_rdropWhile_iff hne).2 ⟨⟨front, back, hrest, hends⟩, hclean⟩,
      hunit⟩ }, htrim.trans (congrArg _ hdrop), rfl⟩

/-- Blanks at the ends of a line make no difference. -/
theorem isDiskRow_trimAscii_iff : IsDiskRow (trimAscii line) number ↔ IsDiskRow line number := by
  obtain ⟨before, after, hlineEq, hbefore, hafter⟩ := exists_trimmed isBlankByte line
  constructor
  · rintro ⟨row, htext, hnumber⟩
    obtain ⟨a, b, tail, hrest, hab⟩ := row.rest_blank
    refine ⟨{ row with
      lead := before ++ row.lead
      rest := row.rest ++ after
      lead_blank := List.forall_mem_append.2 ⟨hbefore, row.lead_blank⟩
      rest_blank := ⟨a, b, tail ++ after, by rw [hrest]; rfl, hab⟩
      rest_unit := ?_ }, ?_, hnumber⟩
    · obtain ⟨token, htoken, hunit⟩ := row.rest_unit
      have hne : token ≠ [] := by
        rintro rfl
        cases hunit
      refine ⟨token, (isToken_rdropWhile_iff hne).1 ?_, hunit⟩
      rw [rdropWhile_append_of_pos hafter]
      exact (isToken_rdropWhile_iff hne).2 htoken
    · rw [trimAscii] at htext
      rw [hlineEq, htext, DiskRow.text, DiskRow.text]
      simp only [List.append_assoc]
  · rintro ⟨row, rfl, rfl⟩
    exact row.isDiskRow_trimAscii

/-- The parser recognizes exactly the rows. -/
theorem parseDiskpartRow_trimAscii_eq_some_iff :
    parseDiskpartRow (trimAscii line) = some number ↔ IsDiskRow line number := by
  rw [← isDiskRow_trimAscii_iff]
  by_cases hempty : trimAscii line = []
  · rw [hempty]
    refine iff_of_false nofun ?_
    rintro ⟨row, htext, -⟩
    have hlength := congrArg List.length htext
    simp only [DiskRow.text, List.length_nil, List.length_append, List.length_cons] at hlength
    omega
  · exact parseDiskpartRow_eq_some_iff (bare_trimmed hempty)

end Rows

/-! ### The table -/

section Table

variable {line : List UInt8} {above front lines : List (List UInt8)} {numbers : List ℕ} {number : ℕ}

private theorem isEmpty_trimAscii_iff : (trimAscii line).isEmpty = true ↔ IsBlankLine line := by
  rw [List.isEmpty_iff, trimAscii, trimmed_eq_nil_iff]
  rfl

private theorem hasNumberColumn_eq_true_iff :
    hasNumberColumn line = true ↔ numberColumn <:+: line := by
  rw [hasNumberColumn, List.any_eq_true, List.infix_iff_prefix_suffix]
  constructor
  · rintro ⟨rest, hrest, hfront⟩
    exact ⟨rest, List.isPrefixOf_iff_prefix.1 hfront, (List.mem_tails _ _).1 hrest⟩
  · rintro ⟨rest, hfront, hrest⟩
    exact ⟨rest, (List.mem_tails _ _).2 hrest, List.isPrefixOf_iff_prefix.2 hfront⟩

private theorem not_isBlankLine_of_numberColumn (h : numberColumn <:+: line) : ¬IsBlankLine line :=
  fun hblank => absurd (hblank 35 (h.subset (by decide))) (by decide)

private theorem numberColumn_infix_trimAscii_iff :
    numberColumn <:+: trimAscii line ↔ numberColumn <:+: line := by
  constructor
  · intro h
    obtain ⟨before, after, hline, -⟩ := exists_trimmed isBlankByte line
    rw [hline]
    exact h.trans ⟨before, after, rfl⟩
  · rintro ⟨before, after, rfl⟩
    have hbare : Bare isBlankByte numberColumn := ⟨by decide, by decide, by decide⟩
    rw [trimAscii, trimmed_append_append hbare]
    exact ⟨_, _, rfl⟩

private theorem headerAbove_reverse_eq_true_iff :
    headerAbove above.reverse = true ↔ UnderHeader above := by
  rw [headerAbove, List.find?_map, Option.any_map]
  constructor
  · intro h
    obtain ⟨header, hfind, hcolumn⟩ := (Option.any_eq_true _ _).1 h
    obtain ⟨-, gap, before, habove, hgap⟩ := List.find?_eq_some_iff_append.1 hfind
    refine ⟨before.reverse, header, gap.reverse, ?_, ?_, fun line hline => ?_⟩
    · rw [← List.reverse_reverse above, habove, List.reverse_append, List.reverse_cons,
        List.append_assoc, List.singleton_append]
    · exact numberColumn_infix_trimAscii_iff.1 (hasNumberColumn_eq_true_iff.1 hcolumn)
    · have hempty := hgap line (List.mem_reverse.1 hline)
      exact isEmpty_trimAscii_iff.1 (by simpa using hempty)
  · rintro ⟨before, header, gap, rfl, hcolumn, hgap⟩
    refine (Option.any_eq_true _ _).2 ⟨header, List.find?_eq_some_iff_append.2
      ⟨?_, gap.reverse, before.reverse, ?_, fun line hline => ?_⟩, ?_⟩
    · have hnot : (trimAscii header).isEmpty = false := by
        rw [← Bool.not_eq_true, isEmpty_trimAscii_iff]
        exact not_isBlankLine_of_numberColumn hcolumn
      rw [Function.comp_apply, hnot, Bool.not_false]
    · rw [List.reverse_append, List.reverse_cons, List.append_assoc, List.singleton_append]
    · have hempty := isEmpty_trimAscii_iff.2 (hgap line (List.mem_reverse.1 hline))
      simpa using hempty
    · exact hasNumberColumn_eq_true_iff.2 (numberColumn_infix_trimAscii_iff.2 hcolumn)

/-- Lines that are no separators below a header are passed over. -/
private theorem belowSeparator_append (h : ∀ before line after, front = before ++ line :: after →
      isDiskpartSeparator line = true → headerAbove (before.reverse ++ above) = false) :
    belowSeparator above (front ++ lines) = belowSeparator (front.reverse ++ above) lines := by
  induction front generalizing above with
  | nil => rfl
  | cons line front ih =>
    have hline : ¬(isDiskpartSeparator line && headerAbove above) = true := by
      intro hboth
      obtain ⟨hseparator, habove⟩ := Bool.and_eq_true_iff.1 hboth
      have hnot : headerAbove above = false := h [] line front rfl hseparator
      rw [habove] at hnot
      cases hnot
    rw [List.cons_append, belowSeparator, if_neg hline,
      ih fun before line' after hfront hseparator => ?_,
      List.reverse_cons, List.append_assoc, List.singleton_append]
    have hnot := h (line :: before) line' after (by rw [hfront, List.cons_append]) hseparator
    rwa [List.reverse_cons, List.append_assoc, List.singleton_append] at hnot

private theorem not_isDiskpartSeparator_of_blank (h : IsBlankLine line) :
    isDiskpartSeparator line = false := by
  have hempty : trimAscii line = [] := List.isEmpty_iff.1 (isEmpty_trimAscii_iff.2 h)
  rw [isDiskpartSeparator, hempty]
  rfl

private theorem not_isDiskpartSeparator_of_numberColumn (h : numberColumn <:+: line) :
    isDiskpartSeparator line = false := by
  have hmem : (35 : UInt8) ∈ trimAscii line :=
    (numberColumn_infix_trimAscii_iff.2 h).subset (by decide)
  rw [isDiskpartSeparator]
  refine Bool.and_eq_false_iff.2 (.inl (List.all_eq_false.2 ⟨35, hmem, by decide⟩))

/-- The rows of a table are what stands below its separator. -/
theorem DiskpartTable.belowSeparator_eq (table : DiskpartTable) :
    belowSeparator [] (table.banner ++ table.header :: table.gap ++
      table.separator :: (table.block ++ table.tail)) = some (table.block ++ table.tail) := by
  rw [List.append_assoc, belowSeparator_append, belowSeparator_append, belowSeparator, if_pos]
  · rw [table.separator_dashed, Bool.true_and, List.append_nil, ← List.reverse_append,
      headerAbove_reverse_eq_true_iff]
    exact ⟨table.banner, table.header, table.gap, rfl, table.header_column, table.gap_blank⟩
  · -- neither the header nor an empty line is a separator
    intro before line after hsplit hseparator
    have hline : line ∈ table.header :: table.gap := by
      rw [hsplit]
      exact List.mem_append_right _ List.mem_cons_self
    rcases List.mem_cons.1 hline with rfl | hline
    · rw [not_isDiskpartSeparator_of_numberColumn table.header_column] at hseparator
      cases hseparator
    · rw [not_isDiskpartSeparator_of_blank (table.gap_blank line hline)] at hseparator
      cases hseparator
  · intro before line after hsplit hseparator
    rw [List.append_nil, ← Bool.not_eq_true, headerAbove_reverse_eq_true_iff]
    exact table.banner_noTable before line after hsplit hseparator

/-- A blank line adds nothing. -/
private theorem addRow_of_blank (h : IsBlankLine line) : addRow numbers line = numbers := by
  have hempty : trimAscii line = [] := List.isEmpty_iff.1 (isEmpty_trimAscii_iff.2 h)
  rw [addRow, hempty]
  rfl

private theorem mem_addRow :
    number ∈ addRow numbers line ↔ IsDiskRow line number ∨ number ∈ numbers := by
  rw [addRow, ← parseDiskpartRow_trimAscii_eq_some_iff]
  cases hrow : parseDiskpartRow (trimAscii line) with
  | none => simp
  | some n => rw [mem_insertNumber, Option.some_inj, eq_comm]

private theorem mem_foldl_addRow : number ∈ lines.foldl addRow numbers ↔
    (∃ row ∈ lines, IsDiskRow row number) ∨ number ∈ numbers := by
  induction lines generalizing numbers with
  | nil => simp
  | cons line lines ih =>
    rw [List.foldl_cons, ih, mem_addRow, List.exists_mem_cons_iff, or_assoc, or_left_comm]

private theorem pairwise_foldl_addRow (h : numbers.Pairwise (· < ·)) :
    (lines.foldl addRow numbers).Pairwise (· < ·) := by
  induction lines generalizing numbers with
  | nil => exact h
  | cons line lines ih =>
    refine ih ?_
    rw [addRow]
    cases parseDiskpartRow (trimAscii line) with
    | none => exact h
    | some n => exact pairwise_insertNumber h

/-- Lines without an empty one behind a number are all read. -/
private theorem readRows_append (h : ∀ before line after, front = before ++ line :: after →
      IsBlankLine line → before.foldl addRow numbers = []) :
    readRows numbers (front ++ lines) = readRows (front.foldl addRow numbers) lines := by
  induction front generalizing numbers with
  | nil => rfl
  | cons line front ih =>
    have htail : ∀ before line' after, front = before ++ line' :: after → IsBlankLine line' →
        before.foldl addRow (addRow numbers line) = [] := fun before line' after hfront hblank =>
      h (line :: before) line' after (by rw [hfront, List.cons_append]) hblank
    rw [List.cons_append, readRows, List.foldl_cons, ← ih htail]
    by_cases hempty : (trimAscii line).isEmpty = true
    · have hblank := isEmpty_trimAscii_iff.1 hempty
      have hnumbers : numbers = [] := h [] line front rfl hblank
      rw [if_pos hempty, hnumbers, addRow_of_blank hblank]
      rfl
    · rw [if_neg hempty]

/-- The block is read to its end, and nothing behind it. -/
theorem DiskpartTable.readRows_eq (table : DiskpartTable) :
    readRows [] (table.block ++ table.tail) = table.block.foldl addRow [] := by
  rw [readRows_append fun before line after hblock hblank => ?_]
  · rcases table.tail_blank with htail | ⟨⟨line, rest, htail, hblank⟩, row, hrow, number, hnumber⟩
    · rw [htail, readRows]
    · have hmem : number ∈ table.block.foldl addRow [] :=
        mem_foldl_addRow.2 (.inl ⟨row, hrow, hnumber⟩)
      rw [htail, readRows, if_pos (isEmpty_trimAscii_iff.2 hblank), if_neg fun hempty => ?_]
      rw [List.isEmpty_iff.1 hempty] at hmem
      exact absurd hmem List.not_mem_nil
  · refine List.eq_nil_iff_forall_not_mem.2 fun number hmem => ?_
    rcases mem_foldl_addRow.1 hmem with ⟨row, hrow, hnumber⟩ | hmem
    · exact table.block_blank before line after hblock hblank row hrow number hnumber
    · exact absurd hmem List.not_mem_nil

theorem DiskpartTable.parseDiskpartDiskNumbers_eq (table : DiskpartTable) :
    parseDiskpartDiskNumbers table.output =
      if (table.block.foldl addRow []).isEmpty then .error "no disk rows were found"
      else .ok (table.block.foldl addRow []) := by
  have hlines : table.output.splitOn 10 = table.banner ++ table.header :: table.gap ++
      table.separator :: (table.block ++ table.tail) :=
    List.splitOn_intercalate 10 table.lines_free
      (List.append_ne_nil_of_right_ne_nil _ (List.cons_ne_nil _ _))
  rw [parseDiskpartDiskNumbers, hlines, table.belowSeparator_eq]
  dsimp only
  rw [table.readRows_eq]

end Table

/-- The parser returns exactly the numbers of the rows of the table, in order. -/
theorem DiskpartTable.readsRows (table : DiskpartTable) : ReadsRows table := by
  have hparse := table.parseDiskpartDiskNumbers_eq
  have hmem : ∀ number, number ∈ table.block.foldl addRow [] ↔
      ∃ row ∈ table.block, IsDiskRow row number := by
    intro number
    rw [mem_foldl_addRow, or_iff_left List.not_mem_nil]
  by_cases hempty : (table.block.foldl addRow []).isEmpty = true
  · rw [if_pos hempty] at hparse
    rw [List.isEmpty_iff.1 hempty] at hmem
    refine ⟨?_, ?_, iff_of_true ⟨_, hparse⟩ fun row hrow number hnumber => ?_⟩
    · rw [hparse]
      nofun
    · rw [hparse]
      nofun
    · exact absurd ((hmem number).2 ⟨row, hrow, hnumber⟩) List.not_mem_nil
  · rw [if_neg hempty] at hparse
    refine ⟨fun numbers h => ?_, fun numbers h => ?_, ?_⟩
    · rw [hparse] at h
      cases h
      exact pairwise_foldl_addRow List.Pairwise.nil
    · rw [hparse] at h
      cases h
      exact hmem
    · rw [hparse]
      refine iff_of_false nofun fun hnone => hempty (List.isEmpty_iff.2 ?_)
      refine List.eq_nil_iff_forall_not_mem.2 fun number hnumber => ?_
      obtain ⟨row, hrow, hrowNumber⟩ := (hmem number).1 hnumber
      exact hnone row hrow number hrowNumber

/-! ### A console output -/

/-- A banner with a dashed line and with what would be a row. -/
def consoleBanner : List (List UInt8) :=
  [stringBytes "Microsoft DiskPart 10.0.26100.1", stringBytes "---  ---",
    stringBytes "Disk 7   1 GB", stringBytes "\r"]

/-- Rows that are not in order, one of them without a number. -/
def consoleRows : List (List UInt8) :=
  [stringBytes "* Disk 12   Online          476 GB",
    stringBytes "  Disk M9   Missing           0 B",
    stringBytes "  Disk 0    Online           64 GB\r"]

/-- What DiskPart prints, with a row behind the blank line. -/
def consoleTable : DiskpartTable where
  banner := consoleBanner
  header := stringBytes "  Disk ###  Status         Size\r"
  gap := [stringBytes "\r"]
  separator := stringBytes "  --------  -------------  -------\r"
  block := consoleRows
  tail := [stringBytes "\r", stringBytes "  Disk 5    Online            1 GB"]
  lines_free := by decide +kernel
  banner_noTable := by
    rintro before line after hbanner - ⟨above, header, gap, rfl, hcolumn, -⟩
    have hbare : ∀ line ∈ consoleBanner, ¬ numberColumn <:+: line := by decide +kernel
    exact hbare header (by simp [hbanner]) hcolumn
  header_column :=
    ⟨stringBytes "  Disk ", stringBytes "  Status         Size\r", by decide +kernel⟩
  gap_blank := by
    intro line hline
    rw [List.mem_singleton.1 hline]
    exact isEmpty_trimAscii_iff.1 (by decide +kernel)
  separator_dashed := by decide +kernel
  block_blank := by
    intro before line after hblock hblank
    have hfull : ∀ line ∈ consoleRows, ¬ (trimAscii line).isEmpty := by decide +kernel
    exact absurd (isEmpty_trimAscii_iff.2 hblank) (hfull line (by simp [hblock]))
  tail_blank := .inr ⟨⟨_, _, rfl, isEmpty_trimAscii_iff.1 (by decide +kernel)⟩, _,
    List.mem_cons_self, 12, parseDiskpartRow_trimAscii_eq_some_iff.1 (by decide +kernel)⟩

/-- Only the rows of the table are read. -/
theorem readsRows_consoleTable :
    parseDiskpartDiskNumbers consoleTable.output = .ok [0, 12] ∧ ReadsRows consoleTable :=
  ⟨by decide +kernel, consoleTable.readsRows⟩

end EasyDeployMesh
