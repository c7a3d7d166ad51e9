import EasyDeployMesh.Foundations.ByteRange
import EasyDeployMesh.Foundations.Result
import Mathlib.Data.Char
import Mathlib.Data.List.Lex
import Mathlib.Data.List.Sort
import Mathlib.Data.Prod.Lex

/-!
# The spans of a Ghost image

`discover_ghost_spans` of `crates/service/src/image_library.rs` looks in a directory for the further
parts of a Ghost image: files of the extension `ghs` whose names consist of the first five
characters of the primary name and three or five digits, or files of the primary name with a numeric
extension.

What is found is refused unless it is numbered from one on in one scheme. So a successful discovery
depends on the directory as a set only, and finds the same spans again where they are copied to.

## Main definitions

* `EasyDeployMesh.discoverGhostSpans`: the discovery as the service runs it.
* `EasyDeployMesh.InGhostFamily`, `EasyDeployMesh.IsGhostSpan`: the files that belong to a primary.
* `EasyDeployMesh.IsSpanSet`: what a list of spans is for a directory.
* `EasyDeployMesh.DiscoversExactly`: what the discovery is for.

## Main results

* `EasyDeployMesh.discoverGhostSpans_eq_ok_iff`: the discovery returns a list just if it is the span
  set.
* `EasyDeployMesh.discoverGhostSpans_exact`: the discovery is exact in every directory.
-/

namespace EasyDeployMesh

open Foundations

/-! ### File names -/

/-- A file name: characters, and bytes that are no text. -/
abbrev OsString := List (Char ⊕ List ℕ)

namespace OsString

/-- The name as a text, if it is one. -/
def toStr (name : OsString) : Option (List Char) := name.mapM Sum.getLeft?

/-- The name with the replacement character for each unit that is not Unicode. -/
def toStringLossy (name : OsString) : List Char := name.map (Sum.elim id fun _ => '\uFFFD')

/-- The bytes of a name, by which names are compared. -/
def encodedBytes (name : OsString) : List ℕ :=
  name.flatMap (Sum.elim (fun c => (String.singleton c).toUTF8.toList.map UInt8.toNat) id)

/-- `rsplit_file_at_dot`: the parts of a name before and after its last dot. -/
def rsplitFileAtDot (file : OsString) : Option OsString × Option OsString :=
  let before := file.rdropWhile (· ≠ .inl '.')
  if file = [.inl '.', .inl '.'] then (some file, none)
  else if before = [] then (none, some file)
  else if before.dropLast = [] then (some file, none)
  else (some before.dropLast, some (file.rtakeWhile (· ≠ .inl '.')))

end OsString

/-- A path: the components before its file name, and the file name, which a path that ends in a root
or in `..` does not have. -/
structure PathBuf where
  parent : List OsString
  fileName : Option OsString
  deriving DecidableEq

namespace PathBuf

/-- The text of `file_stem`. -/
def fileStem (path : PathBuf) : Option (List Char) :=
  (path.fileName.bind fun file => file.rsplitFileAtDot.1.or file.rsplitFileAtDot.2).bind
    OsString.toStr

/-- The text of `extension`. -/
def extension (path : PathBuf) : Option (List Char) :=
  (path.fileName.bind fun file => file.rsplitFileAtDot.1.bind fun _ => file.rsplitFileAtDot.2).bind
    OsString.toStr

/-- The components of a path, its file name last. -/
def components (path : PathBuf) : List OsString := path.parent ++ path.fileName.toList

/-- `eq_ignore_ascii_case` on the extension. -/
def hasExtension (path : PathBuf) (extension : List Char) : Bool :=
  path.extension.any fun value => value.map Char.toLower = extension.map Char.toLower

end PathBuf

/-! ### The discovery -/

/-- The naming schemes of the spans of an image. -/
inductive GhostSpanScheme
  | ghsThreeDigit
  | ghsFiveDigit
  | cnsNumericExtension
  deriving DecidableEq

/-- A file whose name fits a scheme. -/
structure GhostSpanCandidate where
  path : PathBuf
  sequence : ℕ
  scheme : GhostSpanScheme
  deriving DecidableEq

/-- The reasons of `ImageLibraryError::InvalidSpanSet`, with what their texts name. -/
inductive SpanError
  | notUnicode
  | unsupportedWidth (candidate : PathBuf) (width : ℕ)
  | invalidSequence (candidate : PathBuf)
  | mixes (conflicting : PathBuf) (scheme other : GhostSpanScheme)
  | sharesPrefix (candidate : PathBuf) (ghostPrefix : List Char)
  | conflictsWithPrimary (candidate : PathBuf)
  | duplicates (candidate : PathBuf) (sequence : ℕ)
  | unexpected (candidate : PathBuf) (sequence expected : ℕ)
  deriving DecidableEq

section Discovery

variable (upper : Char → List Char)

/-- `names_equal_for_windows`, with the upper case of a character. -/
def namesEqualForWindows (left right : List Char) : Bool :=
  left.flatMap upper = right.flatMap upper

/-- The name by which Windows tells two files apart. -/
def windowsNameKey (name : OsString) : List Char := name.toStringLossy.flatMap upper

/-- What follows a prefix that Windows holds equal to the given one. -/
def stripNamePrefixForWindows (value ghostPrefix : List Char) : Option (List Char) :=
  if namesEqualForWindows upper (value.take ghostPrefix.length) ghostPrefix then
    some (value.drop ghostPrefix.length)
  else none

/-- The number of a span, which has to fit in 32 bits. -/
def parseSpanSequence (candidate : PathBuf) (digits : List Char) : Except SpanError ℕ :=
  if decimalValue digits < 2 ^ 32 then .ok (decimalValue digits)
  else .error (.invalidSequence candidate)

/-- The scheme of a GHS name with so many digits. -/
def ghsScheme : ℕ → Option GhostSpanScheme
  | 3 => some .ghsThreeDigit
  | 5 => some .ghsFiveDigit
  | _ => none

/-- One round of the loop over the directory. -/
def ghostSpanCandidate (primary : PathBuf) (primaryStem : List Char) (candidate : PathBuf) :
    Except SpanError (Option GhostSpanCandidate) :=
  if candidate = primary then .ok none
  else
    match candidate.extension, candidate.fileStem with
    | some extension, some stem =>
      if candidate.hasExtension ['g', 'h', 's'] then
        match stripNamePrefixForWindows upper stem (primaryStem.take 5) with
        | none => .ok none
        | some digits =>
          if digits.isEmpty || !digits.all Char.isDigit then .ok none
          else
            match ghsScheme digits.length with
            | none => .error (.unsupportedWidth candidate digits.length)
            | some scheme =>
              (parseSpanSequence candidate digits).map fun sequence =>
                some { path := candidate, sequence, scheme }
      else if extension.length = 3 && extension.all Char.isDigit &&
          namesEqualForWindows upper stem primaryStem then
        (parseSpanSequence candidate extension).map fun sequence =>
          some { path := candidate, sequence, scheme := .cnsNumericExtension }
      else .ok none
    | _, _ => .ok none

/-- The loop over the directory. -/
def ghostSpanCandidates (primary : PathBuf) (primaryStem : List Char) :
    List PathBuf → Except SpanError (List GhostSpanCandidate)
  | [] => .ok []
  | candidate :: files => do
    let found ← ghostSpanCandidate upper primary primaryStem candidate
    let candidates ← ghostSpanCandidates primary primaryStem files
    return found.toList ++ candidates

/-- Another GHO file whose stem agrees with that of the primary. -/
def conflictingPrimary (primary : PathBuf) (files : List PathBuf) (agrees : List Char → Bool) :
    Option PathBuf :=
  files.find? fun candidate =>
    candidate ≠ primary && candidate.hasExtension ['g', 'h', 'o'] && candidate.fileStem.any agrees

/-- No other primary file shares the five characters of the scheme. -/
def rejectAmbiguousGhostPrefix (primary : PathBuf) (files : List PathBuf)
    (ghostPrefix : List Char) :
    Except SpanError Unit :=
  match conflictingPrimary primary files fun stem =>
      namesEqualForWindows upper (stem.take 5) ghostPrefix with
  | some candidate => .error (.sharesPrefix candidate ghostPrefix)
  | none => .ok ()

/-- No other primary file differs from this one only in case. -/
def rejectCaseConflictingCnsPrimary (primary : PathBuf) (files : List PathBuf)
    (primaryStem : List Char) : Except SpanError Unit :=
  match conflictingPrimary primary files fun stem =>
      namesEqualForWindows upper stem primaryStem with
  | some candidate => .error (.conflictsWithPrimary candidate)
  | none => .ok ()

/-- By the number, then by the name without case, then by the path. -/
def GhostSpanCandidate.sortKey (candidate : GhostSpanCandidate) :
    ℕ ×ₗ List Char ×ₗ List (List ℕ) :=
  toLex (candidate.sequence, toLex (windowsNameKey upper (candidate.path.fileName.getD []),
    candidate.path.components.map OsString.encodedBytes))

/-- The check of the numbers, behind a candidate with the number `previous`. -/
def checkSpanSequences : ℕ → Option ℕ → List GhostSpanCandidate → Except SpanError Unit
  | _, _, [] => .ok ()
  | expected, previous, candidate :: candidates =>
    if candidate.sequence ≠ expected then
      if previous = some candidate.sequence then
        .error (.duplicates candidate.path candidate.sequence)
      else .error (.unexpected candidate.path candidate.sequence expected)
    else checkSpanSequences (expected + 1) (some candidate.sequence) candidates

/-- The check that all candidates have the scheme of the first one. -/
def rejectMixedGhostSchemes (first : GhostSpanCandidate) (candidates : List GhostSpanCandidate) :
    Except SpanError Unit :=
  match candidates.find? fun candidate => candidate.scheme ≠ first.scheme with
  | some conflicting => .error (.mixes conflicting.path first.scheme conflicting.scheme)
  | none => .ok ()

/-- The check of the other GHO files, for spans of a scheme. -/
def rejectOtherPrimaries (primary : PathBuf) (primaryStem : List Char) (files : List PathBuf)
    (scheme : GhostSpanScheme) : Except SpanError Unit :=
  if scheme = .cnsNumericExtension then
    rejectCaseConflictingCnsPrimary upper primary files primaryStem
  else rejectAmbiguousGhostPrefix upper primary files (primaryStem.take 5)

/-- The checks of the candidates, and their order. -/
def orderGhostSpans (primary : PathBuf) (primaryStem : List Char) (files : List PathBuf)
    (first : GhostSpanCandidate) (candidates : List GhostSpanCandidate) :
    Except SpanError (List PathBuf) := do
  rejectMixedGhostSchemes first candidates
  rejectOtherPrimaries upper primary primaryStem files first.scheme
  let sorted := candidates.insertionSort fun left right => left.sortKey upper ≤ right.sortKey upper
  checkSpanSequences 1 none sorted
  return sorted.map GhostSpanCandidate.path

/-- The spans of a primary file in the order of their numbers. -/
def discoverGhostSpans (primary : PathBuf) (files : List PathBuf) :
    Except SpanError (List PathBuf) :=
  match primary.fileStem with
  | none => .error .notUnicode
  | some primaryStem => do
    match ← ghostSpanCandidates upper primary primaryStem files with
    | [] => return []
    | first :: candidates =>
      orderGhostSpans upper primary primaryStem files first (first :: candidates)

/-! ### The family of a primary -/

/-- The characters of a GHS file's name behind the first five characters of the primary name. -/
structure GhsName (primaryStem : List Char) (file : PathBuf) (digits : List Char) : Prop where
  extension : file.hasExtension ['g', 'h', 's'] = true
  stem : ∃ front, file.fileStem = some (front ++ digits) ∧
    front.length = (primaryStem.take 5).length ∧
    namesEqualForWindows upper front (primaryStem.take 5) = true
  nonempty : digits ≠ []
  digits : digits.all Char.isDigit = true

/-- The numeric extension of a file with the primary name. -/
structure CnsName (primaryStem : List Char) (file : PathBuf) (digits : List Char) : Prop where
  extension : file.extension = some digits
  stem : ∃ stem, file.fileStem = some stem ∧ namesEqualForWindows upper stem primaryStem = true
  length : digits.length = 3
  digits : digits.all Char.isDigit = true

/-- The scheme and the number of a name. -/
inductive SpanName (primaryStem : List Char) (file : PathBuf) : GhostSpanScheme → ℕ → Prop
  | ghsThreeDigit {digits : List Char} (name : GhsName upper primaryStem file digits)
      (length : digits.length = 3) : SpanName primaryStem file .ghsThreeDigit (decimalValue digits)
  | ghsFiveDigit {digits : List Char} (name : GhsName upper primaryStem file digits)
      (length : digits.length = 5) : SpanName primaryStem file .ghsFiveDigit (decimalValue digits)
  | cnsNumericExtension {digits : List Char} (name : CnsName upper primaryStem file digits) :
      SpanName primaryStem file .cnsNumericExtension (decimalValue digits)

/-- A file other than the primary with a name of its family. -/
def InGhostFamily (primary file : PathBuf) : Prop :=
  file ≠ primary ∧ ∃ primaryStem digits, primary.fileStem = some primaryStem ∧
    (GhsName upper primaryStem file digits ∨ CnsName upper primaryStem file digits)

/-- A file other than the primary that is a span of it. -/
def IsGhostSpan (primary file : PathBuf) (scheme : GhostSpanScheme) (sequence : ℕ) : Prop :=
  file ≠ primary ∧ ∃ primaryStem, primary.fileStem = some primaryStem ∧
    SpanName upper primaryStem file scheme sequence

/-- What the spans of a scheme have in common with the name of their primary. -/
def GhostSpanScheme.familyPart : GhostSpanScheme → List Char → List Char
  | .cnsNumericExtension, stem => stem
  | _, stem => stem.take 5

/-- The name of another file agrees with that of the primary in what the spans of a scheme have. -/
def SharesFamily (primary other : PathBuf) (scheme : GhostSpanScheme) : Prop :=
  ∃ primaryStem stem, primary.fileStem = some primaryStem ∧ other.fileStem = some stem ∧
    namesEqualForWindows upper (scheme.familyPart stem) (scheme.familyPart primaryStem) = true

/-- The directory has a span of the primary and another GHO file that its scheme does not tell from
the primary. -/
def IsAmbiguous (primary : PathBuf) (files : List PathBuf) : Prop :=
  ∃ span ∈ files, ∃ scheme sequence, IsGhostSpan upper primary span scheme sequence ∧
    ∃ other ∈ files, other ≠ primary ∧ other.hasExtension ['g', 'h', 'o'] = true ∧
      SharesFamily upper primary other scheme

/-- The files of the family, in one scheme and numbered from one on. -/
structure IsSpanSet (primary : PathBuf) (files spans : List PathBuf) : Prop where
  unicode : ∃ primaryStem, primary.fileStem = some primaryStem
  mem_iff : ∀ file, file ∈ spans ↔ file ∈ files ∧ InGhostFamily upper primary file
  numbered : ∃ scheme, ∀ i (h : i < spans.length), IsGhostSpan upper primary spans[i] scheme (i + 1)
  unambiguous : ¬ IsAmbiguous upper primary files

/-- A number is missing below the number of a span. -/
def HasGap (primary : PathBuf) (files : List PathBuf) : Prop :=
  ∃ span ∈ files, ∃ scheme sequence, IsGhostSpan upper primary span scheme sequence ∧
    ∃ missing, 0 < missing ∧ missing < sequence ∧
      ∀ other ∈ files, ∀ scheme', ¬ IsGhostSpan upper primary other scheme' missing

/-- Two files have the same number. -/
def HasDuplicate (primary : PathBuf) (files : List PathBuf) : Prop :=
  ∃ first ∈ files, ∃ second ∈ files, first ≠ second ∧ ∃ scheme scheme' sequence,
    IsGhostSpan upper primary first scheme sequence ∧
    IsGhostSpan upper primary second scheme' sequence

/-- Two files are spans of different schemes. -/
def MixesSchemes (primary : PathBuf) (files : List PathBuf) : Prop :=
  ∃ first ∈ files, ∃ second ∈ files, ∃ scheme scheme' sequence sequence', scheme ≠ scheme' ∧
    IsGhostSpan upper primary first scheme sequence ∧
    IsGhostSpan upper primary second scheme' sequence'

/-- What the discovery is for: it does not depend on the order of the directory, returns exactly the
span set, refuses what is none, and finds the same spans where they are copied to. -/
structure DiscoversExactly (primary : PathBuf) (files : List PathBuf) : Prop where
  order_independent : ∀ files', files'.Perm files →
    (discoverGhostSpans upper primary files').toOption =
      (discoverGhostSpans upper primary files).toOption
  spans_exact : ∀ spans, discoverGhostSpans upper primary files = .ok spans →
    IsSpanSet upper primary files spans
  refused : HasGap upper primary files ∨ HasDuplicate upper primary files ∨
    MixesSchemes upper primary files ∨ IsAmbiguous upper primary files →
      ∃ error, discoverGhostSpans upper primary files = .error error
  found_again : ∀ spans, discoverGhostSpans upper primary files = .ok spans →
    ∀ (place : PathBuf → PathBuf) (files' : List PathBuf),
      (∀ file ∈ primary :: spans, (place file).fileName = file.fileName) →
      files'.Perm ((primary :: spans).map place) → files'.Nodup →
      discoverGhostSpans upper (place primary) files' = .ok (spans.map place)

end Discovery

/-! ### Names -/

section Name

variable {upper : Char → List Char} {primary file file' : PathBuf} {primaryStem digits : List Char}
  {scheme scheme' : GhostSpanScheme} {sequence sequence' : ℕ}

theorem stripNamePrefixForWindows_eq_some_iff {value ghostPrefix : List Char}
    (hdigits : digits ≠ []) :
    stripNamePrefixForWindows upper value ghostPrefix = some digits ↔
      ∃ front, value = front ++ digits ∧ front.length = ghostPrefix.length ∧
        namesEqualForWindows upper front ghostPrefix = true := by
  rw [stripNamePrefixForWindows, Option.ite_none_right_eq_some, Option.some.injEq]
  constructor
  · rintro ⟨hnames, hdrop⟩
    refine ⟨_, ?_, ?_, hnames⟩
    · rw [← hdrop, List.take_append_drop]
    · have hpos := List.length_pos_of_ne_nil (hdrop ▸ hdigits)
      rw [List.length_drop] at hpos
      rw [List.length_take]
      omega
  · rintro ⟨front, rfl, hlength, hnames⟩
    rw [← hlength, List.take_left, List.drop_left]
    exact ⟨hnames, rfl⟩

theorem decimalValue_lt (hdigits : digits.all Char.isDigit = true) :
    decimalValue digits < 10 ^ digits.length := by
  induction digits using List.reverseRecOn with
  | nil => exact Nat.one_pos
  | append_singleton digits digit ih =>
    rw [List.all_append, Bool.and_eq_true, List.all_cons, List.all_nil, Bool.and_true] at hdigits
    have hvalue : decimalValue (digits ++ [digit]) =
        10 * decimalValue digits + (digit.toNat - '0'.toNat) := by
      rw [decimalValue, List.foldl_append]
      rfl
    have hdigit : digit.toNat - '0'.toNat < 10 := by
      have hle : digit.toNat ≤ '9'.toNat := by
        have := hdigits.2
        simp only [Char.isDigit, ge_iff_le, Bool.and_eq_true, decide_eq_true_eq] at this
        exact this.2
      have h9 : '9'.toNat = 57 := rfl
      have h0 : '0'.toNat = 48 := rfl
      omega
    rw [hvalue, List.length_append, List.length_singleton, pow_succ]
    have := ih hdigits.1
    omega

theorem parseSpanSequence_eq_ok (file : PathBuf) (hdigits : digits.all Char.isDigit = true)
    (hlength : digits.length ≤ 5) : parseSpanSequence file digits = .ok (decimalValue digits) := by
  have hpow : 10 ^ digits.length ≤ 10 ^ 5 := Nat.pow_le_pow_right (by decide) hlength
  have hlt := (decimalValue_lt hdigits).trans_le hpow
  rw [parseSpanSequence, if_pos (by omega)]

theorem PathBuf.exists_extension_of_hasExtension {extension : List Char}
    (h : file.hasExtension extension = true) : ∃ value, file.extension = some value ∧
      value.map Char.toLower = extension.map Char.toLower := by
  rw [PathBuf.hasExtension, Option.any_eq_true] at h
  obtain ⟨value, hvalue, hlower⟩ := h
  exact ⟨value, hvalue, of_decide_eq_true hlower⟩

/-- A numeric extension is no other one. -/
theorem CnsName.hasExtension_eq_false (h : CnsName upper primaryStem file digits) {c : Char}
    {extension : List Char} (hc : c.toLower.isDigit = false) :
    file.hasExtension (c :: extension) = false := by
  refine Bool.eq_false_iff.2 fun hextension => ?_
  obtain ⟨value, hvalue, hmap⟩ := PathBuf.exists_extension_of_hasExtension hextension
  obtain rfl := Option.some.inj (h.extension.symm.trans hvalue)
  obtain ⟨digit, rest, rfl⟩ : ∃ digit rest, digits = digit :: rest :=
    List.exists_cons_of_length_eq_add_one h.length
  have hdigit : digit.isDigit = true := List.all_eq_true.1 h.digits digit List.mem_cons_self
  have hlower : digit.toLower = digit := by
    refine dif_neg fun hupper => ?_
    simp only [Char.isDigit, ge_iff_le, Bool.and_eq_true, decide_eq_true_eq] at hdigit
    exact absurd (UInt32.le_trans hupper.1 hdigit.2) (by decide)
  rw [List.map_cons, List.map_cons, List.cons.injEq, hlower] at hmap
  rw [← hmap.1, hdigit] at hc
  cases hc

/-! ### One round of the loop -/

/-- What the loop does with a GHS name. -/
theorem GhsName.ghostSpanCandidate_eq (h : GhsName upper primaryStem file digits)
    (hne : file ≠ primary) : ghostSpanCandidate upper primary primaryStem file =
      match ghsScheme digits.length with
      | none => .error (.unsupportedWidth file digits.length)
      | some scheme => (parseSpanSequence file digits).map fun sequence =>
          some { path := file, sequence, scheme } := by
  obtain ⟨front, hstem, hlength, hnames⟩ := h.stem
  obtain ⟨extension, hextension, -⟩ := PathBuf.exists_extension_of_hasExtension h.extension
  have hstrip : stripNamePrefixForWindows upper (front ++ digits)
    (primaryStem.take 5) = some digits :=
    (stripNamePrefixForWindows_eq_some_iff h.nonempty).2 ⟨front, rfl, hlength, hnames⟩
  have hcheck : (digits.isEmpty || !digits.all Char.isDigit) = false := by
    rw [h.digits, List.isEmpty_eq_false_iff.2 h.nonempty]
    rfl
  simp only [ghostSpanCandidate, if_neg hne, hextension, hstem, h.extension, if_true,
    hstrip, hcheck,
    Bool.false_eq_true, if_false]

theorem CnsName.ghostSpanCandidate_eq (h : CnsName upper primaryStem file digits)
    (hne : file ≠ primary) : ghostSpanCandidate upper primary primaryStem file =
      .ok (some ⟨file, decimalValue digits, .cnsNumericExtension⟩) := by
  obtain ⟨stem, hstem, hnames⟩ := h.stem
  have hghs : file.hasExtension ['g', 'h', 's'] = false := h.hasExtension_eq_false (by decide)
  have hparse :=
    parseSpanSequence_eq_ok file h.digits (h.length.le.trans (by decide))
  simp only [ghostSpanCandidate, if_neg hne, h.extension, hstem, hghs, Bool.false_eq_true, if_false,
    h.length, decide_true, h.digits, hnames, Bool.and_self, if_true, hparse]
  rfl

/-- Other files are passed over. -/
theorem ghostSpanCandidate_eq_none (hghs : ∀ digits, ¬ GhsName upper primaryStem file digits)
    (hcns : ∀ digits, ¬ CnsName upper primaryStem file digits) :
    ghostSpanCandidate upper primary primaryStem file = .ok none := by
  by_cases hprimary : file = primary
  · rw [ghostSpanCandidate, if_pos hprimary]
  rw [ghostSpanCandidate, if_neg hprimary]
  split
  next extension stem hextension hstem =>
    split_ifs with hghsExtension hnumeric
    · split
      next => rfl
      next digits hstrip =>
        split_ifs with hdigits
        · rfl
        · simp only [Bool.or_eq_true, not_or, Bool.not_eq_true', Bool.not_eq_false,
            List.isEmpty_iff] at hdigits
          obtain ⟨front, rfl, hlength, hnames⟩ :=
            (stripNamePrefixForWindows_eq_some_iff hdigits.1).1 hstrip
          exact absurd ⟨hghsExtension, ⟨front, hstem, hlength, hnames⟩, hdigits.1, hdigits.2⟩
            (hghs digits)
    · simp only [Bool.and_eq_true, decide_eq_true_eq] at hnumeric
      exact absurd ⟨hextension, ⟨stem, hstem, hnumeric.2⟩, hnumeric.1.1, hnumeric.1.2⟩
        (hcns extension)
    · rfl
  next => rfl

theorem SpanName.ghostSpanCandidate_eq (h : SpanName upper primaryStem file scheme sequence)
    (hne : file ≠ primary) :
    ghostSpanCandidate upper primary primaryStem file = .ok (some ⟨file, sequence, scheme⟩) := by
  cases h with
  | ghsThreeDigit name length =>
    have hparse := parseSpanSequence_eq_ok file name.digits (length.le.trans (by decide))
    simp only [name.ghostSpanCandidate_eq hne, length, ghsScheme, hparse]
    rfl
  | ghsFiveDigit name length =>
    have hparse := parseSpanSequence_eq_ok file name.digits length.le
    simp only [name.ghostSpanCandidate_eq hne, length, ghsScheme, hparse]
    rfl
  | cnsNumericExtension name => exact name.ghostSpanCandidate_eq hne

/-- A name of the family that the loop does not refuse is that of a span. -/
theorem exists_spanName_of_ghostSpanCandidate {found : Option GhostSpanCandidate}
    (hne : file ≠ primary)
    (hname : GhsName upper primaryStem file digits ∨ CnsName upper primaryStem file digits)
    (h : ghostSpanCandidate upper primary primaryStem file = .ok found) :
    ∃ scheme sequence, SpanName upper primaryStem file scheme sequence := by
  rcases hname with hghs | hcns
  · rw [hghs.ghostSpanCandidate_eq hne] at h
    by_cases h3 : digits.length = 3
    · exact ⟨_, _, .ghsThreeDigit hghs h3⟩
    by_cases h5 : digits.length = 5
    · exact ⟨_, _, .ghsFiveDigit hghs h5⟩
    have hscheme : ghsScheme digits.length = none := by
      unfold ghsScheme
      split <;> first | rfl | contradiction
    rw [hscheme] at h
    cases h
  · exact ⟨_, _, .cnsNumericExtension hcns⟩

theorem spanName_of_ghostSpanCandidate {candidate : GhostSpanCandidate}
    (h : ghostSpanCandidate upper primary primaryStem file = .ok (some candidate)) :
    candidate.path = file ∧ file ≠ primary ∧
      SpanName upper primaryStem file candidate.scheme candidate.sequence := by
  by_cases hne : file = primary
  · rw [ghostSpanCandidate, if_pos hne] at h
    cases h
  by_cases hname : ∃ digits,
      GhsName upper primaryStem file digits ∨ CnsName upper primaryStem file digits
  · obtain ⟨digits, hname⟩ := hname
    obtain ⟨scheme, sequence, hspan⟩ := exists_spanName_of_ghostSpanCandidate hne hname h
    rw [hspan.ghostSpanCandidate_eq hne] at h
    cases h
    exact ⟨rfl, hne, hspan⟩
  · simp only [not_exists, not_or] at hname
    rw [ghostSpanCandidate_eq_none (fun digits => (hname digits).1) fun digits =>
      (hname digits).2] at h
    cases h

/-- A file has one scheme and one number. -/
theorem IsGhostSpan.unique (h : IsGhostSpan upper primary file scheme sequence)
    (h' : IsGhostSpan upper primary file scheme' sequence') :
    scheme = scheme' ∧ sequence = sequence' := by
  obtain ⟨hne, primaryStem, hstem, hname⟩ := h
  obtain ⟨-, primaryStem', hstem', hname'⟩ := h'
  obtain rfl := Option.some.inj (hstem.symm.trans hstem')
  have heq := (hname.ghostSpanCandidate_eq hne).symm.trans (hname'.ghostSpanCandidate_eq hne)
  simp only [Except.ok.injEq, Option.some.injEq, GhostSpanCandidate.mk.injEq, true_and] at heq
  exact ⟨heq.2, heq.1⟩

theorem IsGhostSpan.inGhostFamily (h : IsGhostSpan upper primary file scheme sequence) :
    InGhostFamily upper primary file := by
  obtain ⟨hne, primaryStem, hstem, hname⟩ := h
  cases hname with
  | ghsThreeDigit name => exact ⟨hne, primaryStem, _, hstem, .inl name⟩
  | ghsFiveDigit name => exact ⟨hne, primaryStem, _, hstem, .inl name⟩
  | cnsNumericExtension name => exact ⟨hne, primaryStem, _, hstem, .inr name⟩

end Name

/-! ### The loop and the checks -/

section Loop

variable {upper : Char → List Char} {primary file other : PathBuf} {files spans : List PathBuf}
  {primaryStem : List Char} {scheme : GhostSpanScheme} {candidate first : GhostSpanCandidate}
  {candidates : List GhostSpanCandidate}

theorem ghostSpanCandidates_cons_eq_ok_iff :
    ghostSpanCandidates upper primary primaryStem (file :: files) = .ok candidates ↔
      ∃ found others, ghostSpanCandidate upper primary primaryStem file = .ok found ∧
        ghostSpanCandidates upper primary primaryStem files = .ok others ∧
        candidates = found.toList ++ others := by
  simp only [ghostSpanCandidates, bind_eq_ok_iff, pure_eq_ok_iff, exists_and_left,
    eq_comm (a := candidates)]

/-- The loop collects what its rounds find. -/
theorem mem_ghostSpanCandidates
    (h : ghostSpanCandidates upper primary primaryStem files = .ok candidates) :
    candidate ∈ candidates ↔ candidate.path ∈ files ∧
      ghostSpanCandidate upper primary primaryStem candidate.path = .ok (some candidate) := by
  induction files generalizing candidates with
  | nil =>
    obtain rfl : [] = candidates := Except.ok.inj h
    simp
  | cons file files ih =>
    obtain ⟨found, others, hfound, hothers, rfl⟩ := ghostSpanCandidates_cons_eq_ok_iff.1 h
    rw [List.mem_append, Option.mem_toList, ih hothers, List.mem_cons]
    constructor
    · rintro (rfl | ⟨hmem, heq⟩)
      · obtain ⟨rfl, -⟩ := spanName_of_ghostSpanCandidate hfound
        exact ⟨.inl rfl, hfound⟩
      · exact ⟨.inr hmem, heq⟩
    · rintro ⟨rfl | hmem, heq⟩
      · exact .inl (Except.ok.inj (hfound.symm.trans heq))
      · exact .inr ⟨hmem, heq⟩

theorem map_path_sublist
    (h : ghostSpanCandidates upper primary primaryStem files = .ok candidates) :
    (candidates.map GhostSpanCandidate.path).Sublist files := by
  induction files generalizing candidates with
  | nil =>
    obtain rfl : [] = candidates := Except.ok.inj h
    exact List.Sublist.refl _
  | cons file files ih =>
    obtain ⟨found, others, hfound, hothers, rfl⟩ := ghostSpanCandidates_cons_eq_ok_iff.1 h
    cases found with
    | none => exact (ih hothers).cons file
    | some candidate =>
      obtain ⟨rfl, -⟩ := spanName_of_ghostSpanCandidate hfound
      exact (ih hothers).cons_cons candidate.path

theorem exists_ghostSpanCandidates_iff :
    (∃ candidates, ghostSpanCandidates upper primary primaryStem files = .ok candidates) ↔
      ∀ file ∈ files, ∃ found, ghostSpanCandidate upper primary primaryStem file = .ok found := by
  induction files with
  | nil => simp [ghostSpanCandidates]
  | cons file files ih =>
    rw [List.forall_mem_cons, ← ih]
    simp only [ghostSpanCandidates_cons_eq_ok_iff]
    constructor
    · rintro ⟨-, found, others, hfound, hothers, -⟩
      exact ⟨⟨found, hfound⟩, others, hothers⟩
    · rintro ⟨⟨found, hfound⟩, others, hothers⟩
      exact ⟨_, found, others, hfound, hothers, rfl⟩

theorem checkSpanSequences_eq_ok_iff {expected : ℕ} {previous : Option ℕ} :
    checkSpanSequences expected previous candidates = .ok () ↔
      candidates.map GhostSpanCandidate.sequence = List.range' expected candidates.length := by
  induction candidates generalizing expected previous with
  | nil => simp [checkSpanSequences]
  | cons candidate candidates ih =>
    rw [checkSpanSequences, List.map_cons, List.length_cons, List.range'_succ,
      List.cons.injEq, ← ih]
    by_cases hsequence : candidate.sequence = expected
    · rw [if_neg (not_not.2 hsequence)]
      exact (and_iff_right hsequence).symm
    · rw [if_pos hsequence]
      split_ifs <;> simp [hsequence]

/-- No other GHO file shares the family of the primary. -/
theorem rejectOtherPrimaries_eq_ok_iff (hstem : primary.fileStem = some primaryStem) :
    rejectOtherPrimaries upper primary primaryStem files scheme = .ok () ↔
      ∀ other ∈ files, other ≠ primary → other.hasExtension ['g', 'h', 'o'] = true →
        ¬ SharesFamily upper primary other scheme := by
  have hfind : rejectOtherPrimaries upper primary primaryStem files scheme = .ok () ↔
      conflictingPrimary primary files (fun stem => namesEqualForWindows upper
        (scheme.familyPart stem) (scheme.familyPart primaryStem)) = none := by
    cases scheme <;>
      simp only [rejectOtherPrimaries, GhostSpanScheme.familyPart, rejectCaseConflictingCnsPrimary,
        rejectAmbiguousGhostPrefix, reduceCtorEq, if_true, if_false] <;>
      split <;> simp_all only [reduceCtorEq]
  rw [hfind, conflictingPrimary, List.find?_eq_none]
  refine forall₂_congr fun other _ => ?_
  simp only [SharesFamily, hstem, Option.some.injEq, Bool.and_eq_true, decide_eq_true_eq,
    Option.any_eq_true, not_and, and_imp, not_exists]
  constructor
  · rintro h hne hextension _ stem rfl hother
    exact h hne hextension stem hother
  · exact fun h hne hextension stem hother => h hne hextension primaryStem stem rfl hother

/-- The order of the candidates is by their numbers. -/
theorem insertionSort_sortKey_eq {sorted : List GhostSpanCandidate} (hperm : candidates.Perm sorted)
    (hsorted : (sorted.map GhostSpanCandidate.sequence).Pairwise (· < ·)) :
    candidates.insertionSort (fun left right => left.sortKey upper ≤ right.sortKey upper) =
      sorted := by
  set r : GhostSpanCandidate → GhostSpanCandidate → Prop :=
    fun left right => left.sortKey upper ≤ right.sortKey upper with hr
  have htotal : Std.Total r := ⟨fun left right => le_total _ _⟩
  have htrans : IsTrans GhostSpanCandidate r := ⟨fun _ _ _ => le_trans⟩
  rw [List.pairwise_map] at hsorted
  have hordered : sorted.Pairwise r := hsorted.imp fun h => (Prod.Lex.toLex_lt_toLex.2 (.inl h)).le
  refine ((List.perm_insertionSort r candidates).trans hperm).eq_of_pairwise ?_
    (List.pairwise_insertionSort r candidates) hordered
  intro left right hleft hright hle hge
  have hsequence : left.sequence = right.sequence :=
    congrArg (fun key => (ofLex key).1) (le_antisymm hle hge)
  have hnodup : (sorted.map GhostSpanCandidate.sequence).Nodup :=
    (List.pairwise_map.2 hsorted).imp ne_of_lt
  exact List.inj_on_of_nodup_map hnodup
    (hperm.subset ((List.perm_insertionSort r candidates).subset hleft)) hright hsequence

theorem orderGhostSpans_eq_ok_iff (hstem : primary.fileStem = some primaryStem) :
    orderGhostSpans upper primary primaryStem files first candidates = .ok spans ↔
      (∀ candidate ∈ candidates, candidate.scheme = first.scheme) ∧
      (∀ other ∈ files, other ≠ primary → other.hasExtension ['g', 'h', 'o'] = true →
        ¬ SharesFamily upper primary other first.scheme) ∧
      ∃ sorted, sorted = candidates.insertionSort
          (fun left right => left.sortKey upper ≤ right.sortKey upper) ∧
        sorted.map GhostSpanCandidate.sequence = List.range' 1 sorted.length ∧
        sorted.map GhostSpanCandidate.path = spans := by
  have hmixed : rejectMixedGhostSchemes first candidates = .ok () ↔
      ∀ candidate ∈ candidates, candidate.scheme = first.scheme := by
    have hfind : (candidates.find? fun candidate => candidate.scheme ≠ first.scheme) = none ↔
        ∀ candidate ∈ candidates, candidate.scheme = first.scheme := by
      simp only [List.find?_eq_none, decide_eq_true_eq, ne_eq, not_not]
    rw [← hfind, rejectMixedGhostSchemes]
    cases candidates.find? fun candidate => candidate.scheme ≠ first.scheme with
    | none => exact iff_of_true rfl rfl
    | some conflicting => simp only [reduceCtorEq]
  unfold orderGhostSpans
  rw [bind_unit_eq_ok_iff, hmixed, bind_unit_eq_ok_iff, rejectOtherPrimaries_eq_ok_iff hstem]
  simp only [bind_unit_eq_ok_iff, pure_eq_ok_iff, checkSpanSequences_eq_ok_iff, exists_eq_left]

end Loop

/-! ### The span set -/

section SpanSet

variable {upper : Char → List Char} {primary file : PathBuf} {files files' spans : List PathBuf}
  {primaryStem : List Char} {scheme : GhostSpanScheme} {sequence : ℕ}
  {candidates : List GhostSpanCandidate}

theorem isGhostSpan_iff (hstem : primary.fileStem = some primaryStem) :
    IsGhostSpan upper primary file scheme sequence ↔
      file ≠ primary ∧ SpanName upper primaryStem file scheme sequence := by
  simp only [IsGhostSpan, hstem, Option.some.injEq, exists_eq_left']

/-- The candidates are the spans in the directory. -/
theorem mem_ghostSpanCandidates_iff (hstem : primary.fileStem = some primaryStem)
    (h : ghostSpanCandidates upper primary primaryStem files = .ok candidates) :
    ⟨file, sequence, scheme⟩ ∈ candidates ↔
      file ∈ files ∧ IsGhostSpan upper primary file scheme sequence := by
  rw [mem_ghostSpanCandidates h, isGhostSpan_iff hstem]
  refine and_congr_right fun _ => ⟨fun heq => (spanName_of_ghostSpanCandidate heq).2, ?_⟩
  exact fun hspan => hspan.2.ghostSpanCandidate_eq hspan.1

theorem exists_isGhostSpan_of_inGhostFamily (hstem : primary.fileStem = some primaryStem)
    (h : ghostSpanCandidates upper primary primaryStem files = .ok candidates)
    (hfile : file ∈ files)
    (hfamily : InGhostFamily upper primary file) :
    ∃ scheme sequence, IsGhostSpan upper primary file scheme sequence := by
  obtain ⟨hne, primaryStem', digits, hstem', hname⟩ := hfamily
  obtain rfl := Option.some.inj (hstem.symm.trans hstem')
  obtain ⟨found, hfound⟩ := exists_ghostSpanCandidates_iff.1 ⟨candidates, h⟩ file hfile
  obtain ⟨scheme, sequence, hspan⟩ := exists_spanName_of_ghostSpanCandidate hne hname hfound
  exact ⟨scheme, sequence, hne, primaryStem, hstem, hspan⟩

/-- The files of the candidates are those of the family. -/
theorem mem_map_path_iff (hstem : primary.fileStem = some primaryStem)
    (h : ghostSpanCandidates upper primary primaryStem files = .ok candidates) :
    file ∈ candidates.map GhostSpanCandidate.path ↔
      file ∈ files ∧ InGhostFamily upper primary file := by
  rw [List.mem_map]
  constructor
  · rintro ⟨⟨file, sequence, scheme⟩, hmem, rfl⟩
    obtain ⟨hfile, hspan⟩ := (mem_ghostSpanCandidates_iff hstem h).1 hmem
    exact ⟨hfile, hspan.inGhostFamily⟩
  · rintro ⟨hfile, hfamily⟩
    obtain ⟨scheme, sequence, hspan⟩ := exists_isGhostSpan_of_inGhostFamily hstem h hfile hfamily
    exact ⟨_, (mem_ghostSpanCandidates_iff hstem h).2 ⟨hfile, hspan⟩, rfl⟩

/-- A discovery that succeeds returns the span set. -/
theorem isSpanSet_of_discoverGhostSpans (h : discoverGhostSpans upper primary files = .ok spans) :
    IsSpanSet upper primary files spans := by
  rw [discoverGhostSpans] at h
  split at h
  next => cases h
  next primaryStem hstem =>
    obtain ⟨candidates, hcandidates, h⟩ := bind_eq_ok_iff.1 h
    have hmem {file : PathBuf} : file ∈ candidates.map GhostSpanCandidate.path ↔
        file ∈ files ∧ InGhostFamily upper primary file := mem_map_path_iff hstem hcandidates
    cases candidates with
    | nil =>
      obtain rfl : [] = spans := Except.ok.inj h
      refine ⟨⟨_, hstem⟩, fun file => hmem, ⟨.ghsThreeDigit, nofun⟩, ?_⟩
      rintro ⟨span, hspanMem, scheme, sequence, hspan, -⟩
      exact List.not_mem_nil (hmem.2 ⟨hspanMem, hspan.inGhostFamily⟩)
    | cons first candidates =>
      obtain ⟨hscheme, hothers, sorted, hsorted, hsequences, rfl⟩ :=
        (orderGhostSpans_eq_ok_iff hstem).1 h
      have hperm : sorted.Perm (first :: candidates) := hsorted ▸ List.perm_insertionSort _ _
      have hspans {candidate : GhostSpanCandidate} (hcandidate : candidate ∈ first :: candidates) :=
        (mem_ghostSpanCandidates_iff hstem hcandidates).1 hcandidate
      refine ⟨⟨_, hstem⟩, fun file => ?_, ⟨first.scheme, fun i hi => ?_⟩, ?_⟩
      · rw [(hperm.map _).mem_iff, hmem]
      · rw [List.length_map] at hi
        have hcandidate := hperm.subset (List.getElem_mem hi)
        have hnumber : sorted[i].sequence = i + 1 := by
          have := congrArg (fun l => l[i]?) hsequences
          simp only [List.getElem?_map, List.getElem?_eq_getElem hi, Option.map_some] at this
          rw [List.getElem?_range' hi, Option.some.injEq] at this
          omega
        rw [List.getElem_map, ← hscheme _ hcandidate, ← hnumber]
        exact (hspans hcandidate).2
      · rintro ⟨span, hspanMem, scheme, sequence, hspan, other, hother, hne, hextension, hshares⟩
        have hcandidate := (mem_ghostSpanCandidates_iff hstem hcandidates).2 ⟨hspanMem, hspan⟩
        obtain rfl : scheme = first.scheme := hscheme _ hcandidate
        exact hothers other hother hne hextension hshares

/-- No name of a directory with a span set is refused. -/
theorem IsSpanSet.exists_ghostSpanCandidates (h : IsSpanSet upper primary files spans)
    (hstem : primary.fileStem = some primaryStem) :
    ∃ candidates, ghostSpanCandidates upper primary primaryStem files = .ok candidates := by
  refine exists_ghostSpanCandidates_iff.2 fun file hfile => ?_
  by_cases hne : file = primary
  · exact ⟨none, by rw [ghostSpanCandidate, if_pos hne]⟩
  by_cases hname : ∃ digits,
      GhsName upper primaryStem file digits ∨ CnsName upper primaryStem file digits
  · obtain ⟨digits, hname⟩ := hname
    obtain ⟨scheme, hnumbered⟩ := h.numbered
    obtain ⟨i, hi, rfl⟩ := List.getElem_of_mem
      ((h.mem_iff file).2 ⟨hfile, hne, primaryStem, digits, hstem, hname⟩)
    have hspan := ((isGhostSpan_iff hstem).1 (hnumbered i hi)).2
    exact ⟨_, hspan.ghostSpanCandidate_eq hne⟩
  · simp only [not_exists, not_or] at hname
    exact ⟨none, ghostSpanCandidate_eq_none (fun digits => (hname digits).1)
      fun digits => (hname digits).2⟩

/-- The spans of a list as candidates of one scheme, numbered from one on. -/
def numberedCandidates (scheme : GhostSpanScheme) (spans : List PathBuf) :
    List GhostSpanCandidate :=
  spans.mapIdx fun i path => { path, sequence := i + 1, scheme }

theorem map_path_numberedCandidates :
    (numberedCandidates scheme spans).map GhostSpanCandidate.path = spans := by
  refine List.ext_getElem (by simp [numberedCandidates]) fun i _ _ => ?_
  simp [numberedCandidates]

theorem map_sequence_numberedCandidates :
    (numberedCandidates scheme spans).map GhostSpanCandidate.sequence =
      List.range' 1 (numberedCandidates scheme spans).length := by
  refine List.ext_getElem (by simp [numberedCandidates]) fun i _ _ => ?_
  simp [numberedCandidates, Nat.add_comm]

theorem pairwise_sequence_numberedCandidates :
    ((numberedCandidates scheme spans).map GhostSpanCandidate.sequence).Pairwise (· < ·) := by
  rw [map_sequence_numberedCandidates]
  exact List.pairwise_lt_range'

theorem mem_numberedCandidates {candidate : GhostSpanCandidate} :
    candidate ∈ numberedCandidates scheme spans ↔
      ∃ i, ∃ h : i < spans.length, candidate = ⟨spans[i], i + 1, scheme⟩ := by
  rw [numberedCandidates, List.mem_mapIdx]
  simp only [eq_comm]

/-- The candidates of a directory with a span set are the numbered spans. -/
theorem IsSpanSet.perm_numberedCandidates (h : IsSpanSet upper primary files spans)
    (hnodup : files.Nodup) (hstem : primary.fileStem = some primaryStem)
    (hcandidates : ghostSpanCandidates upper primary primaryStem files = .ok candidates)
    (hnumbered : ∀ i (h : i < spans.length), IsGhostSpan upper primary spans[i] scheme (i + 1)) :
    candidates.Perm (numberedCandidates scheme spans) := by
  have hleft : candidates.Nodup := ((map_path_sublist hcandidates).nodup hnodup).of_map
  have hright : (numberedCandidates scheme spans).Nodup :=
    List.Nodup.of_map GhostSpanCandidate.sequence
      (pairwise_sequence_numberedCandidates.imp ne_of_lt)
  refine (List.perm_ext_iff_of_nodup hleft hright).2 fun ⟨file, sequence, scheme'⟩ => ?_
  rw [mem_ghostSpanCandidates_iff hstem hcandidates, mem_numberedCandidates]
  constructor
  · rintro ⟨hfile, hspan⟩
    obtain ⟨i, hi, rfl⟩ := List.getElem_of_mem ((h.mem_iff file).2 ⟨hfile, hspan.inGhostFamily⟩)
    obtain ⟨rfl, rfl⟩ := hspan.unique (hnumbered i hi)
    exact ⟨i, hi, rfl⟩
  · rintro ⟨i, hi, heq⟩
    rw [GhostSpanCandidate.mk.injEq] at heq
    obtain ⟨rfl, rfl, rfl⟩ := heq
    exact ⟨((h.mem_iff _).1 (List.getElem_mem hi)).1, hnumbered i hi⟩

/-- Where there is a span set, the discovery returns it. -/
theorem IsSpanSet.discoverGhostSpans_eq (h : IsSpanSet upper primary files spans)
    (hnodup : files.Nodup) : discoverGhostSpans upper primary files = .ok spans := by
  obtain ⟨primaryStem, hstem⟩ := h.unicode
  obtain ⟨scheme, hnumbered⟩ := h.numbered
  obtain ⟨candidates, hcandidates⟩ := h.exists_ghostSpanCandidates hstem
  have hperm := h.perm_numberedCandidates hnodup hstem hcandidates hnumbered
  simp only [discoverGhostSpans, hstem, hcandidates]
  cases candidates with
  | nil =>
    have hnil : spans = [] := by
      have hpaths : (numberedCandidates scheme spans).map GhostSpanCandidate.path = spans :=
        map_path_numberedCandidates
      rw [← hpaths, ← hperm.nil_eq, List.map_nil]
    rw [hnil]
    rfl
  | cons first candidates =>
    have hscheme {candidate : GhostSpanCandidate} (hmem : candidate ∈ first :: candidates) :
        candidate.scheme = scheme := by
      obtain ⟨i, hi, rfl⟩ := mem_numberedCandidates.1 (hperm.subset hmem)
      rfl
    have hfirst := (mem_ghostSpanCandidates_iff hstem hcandidates).1
      (List.mem_cons_self (a := first) (l := candidates))
    refine (orderGhostSpans_eq_ok_iff hstem).2 ⟨fun candidate hmem => ?_, ?_, ?_⟩
    · rw [hscheme hmem, hscheme List.mem_cons_self]
    · intro other hother hne hextension hshares
      exact h.unambiguous ⟨_, hfirst.1, _, _, hfirst.2, other, hother, hne, hextension, hshares⟩
    · exact ⟨_, (insertionSort_sortKey_eq hperm pairwise_sequence_numberedCandidates).symm,
        map_sequence_numberedCandidates, map_path_numberedCandidates⟩

/-- The discovery returns a list just if it is the span set of the directory. -/
theorem discoverGhostSpans_eq_ok_iff (hnodup : files.Nodup) :
    discoverGhostSpans upper primary files = .ok spans ↔ IsSpanSet upper primary files spans :=
  ⟨isSpanSet_of_discoverGhostSpans, fun h => h.discoverGhostSpans_eq hnodup⟩

/-! ### What the discovery does not depend on -/

theorem IsAmbiguous.mono (h : IsAmbiguous upper primary files) (hsub : files ⊆ files') :
    IsAmbiguous upper primary files' := by
  obtain ⟨span, hspanMem, scheme, sequence, hspan, other, hother, hrest⟩ := h
  exact ⟨span, hsub hspanMem, scheme, sequence, hspan, other, hsub hother, hrest⟩

/-- The span set depends on the directory as a set. -/
theorem IsSpanSet.congr (h : IsSpanSet upper primary files spans)
    (hmem : ∀ file, file ∈ files ↔ file ∈ files') : IsSpanSet upper primary files' spans where
  unicode := h.unicode
  mem_iff := fun file => by rw [h.mem_iff, hmem]
  numbered := h.numbered
  unambiguous := fun hambiguous => h.unambiguous (hambiguous.mono fun file => (hmem file).2)

/-- A span of a directory with a span set stands in it, under its number. -/
theorem IsSpanSet.exists_getElem (h : IsSpanSet upper primary files spans) (hfile : file ∈ files)
    (hspan : IsGhostSpan upper primary file scheme sequence) :
    ∃ i, ∃ hi : i < spans.length, spans[i] = file ∧ sequence = i + 1 := by
  obtain ⟨scheme', hnumbered⟩ := h.numbered
  obtain ⟨i, hi, rfl⟩ := List.getElem_of_mem ((h.mem_iff file).2 ⟨hfile, hspan.inGhostFamily⟩)
  exact ⟨i, hi, rfl, (hspan.unique (hnumbered i hi)).2⟩

theorem IsSpanSet.not_hasGap (h : IsSpanSet upper primary files spans) :
    ¬ HasGap upper primary files := by
  rintro ⟨span, hspanMem, scheme, sequence, hspan, missing, hpos, hlt, hmissing⟩
  obtain ⟨i, hi, -, hsequence⟩ := h.exists_getElem hspanMem hspan
  obtain ⟨scheme', hnumbered⟩ := h.numbered
  have hj : missing - 1 < spans.length := by omega
  have hother := hnumbered (missing - 1) hj
  rw [Nat.sub_add_cancel hpos] at hother
  exact hmissing _ ((h.mem_iff _).1 (List.getElem_mem hj)).1 scheme' hother

theorem IsSpanSet.not_hasDuplicate (h : IsSpanSet upper primary files spans) :
    ¬ HasDuplicate upper primary files := by
  rintro ⟨first, hfirstMem, second, hsecondMem, hne, scheme, scheme', sequence, hfirst, hsecond⟩
  obtain ⟨i, hi, rfl, hsequence⟩ := h.exists_getElem hfirstMem hfirst
  obtain ⟨j, hj, rfl, hsequence'⟩ := h.exists_getElem hsecondMem hsecond
  obtain rfl : i = j := by omega
  exact hne rfl

theorem IsSpanSet.not_mixesSchemes (h : IsSpanSet upper primary files spans) :
    ¬ MixesSchemes upper primary files := by
  rintro ⟨first, hfirstMem, second, hsecondMem, scheme, scheme', sequence, sequence', hne, hfirst,
    hsecond⟩
  obtain ⟨common, hnumbered⟩ := h.numbered
  obtain ⟨i, hi, rfl, -⟩ := h.exists_getElem hfirstMem hfirst
  obtain ⟨j, hj, rfl, -⟩ := h.exists_getElem hsecondMem hsecond
  have hcommon := (hfirst.unique (hnumbered i hi)).1
  have hcommon' := (hsecond.unique (hnumbered j hj)).1
  exact hne (hcommon.trans hcommon'.symm)

/-! ### Copies -/

theorem PathBuf.fileStem_congr {file' : PathBuf} (h : file'.fileName = file.fileName) :
    file'.fileStem = file.fileStem := by
  rw [fileStem, fileStem, h]

theorem PathBuf.extension_congr {file' : PathBuf} (h : file'.fileName = file.fileName) :
    file'.extension = file.extension := by
  rw [extension, extension, h]

theorem PathBuf.hasExtension_congr {file' : PathBuf} (h : file'.fileName = file.fileName)
    (extension : List Char) : file'.hasExtension extension = file.hasExtension extension := by
  rw [hasExtension, hasExtension, extension_congr h]

/-- The scheme and the number of a span are those of its file name. -/
theorem SpanName.copy {file' : PathBuf} (h : SpanName upper primaryStem file scheme sequence)
    (hname : file'.fileName = file.fileName) :
    SpanName upper primaryStem file' scheme sequence := by
  have hghs {digits : List Char} (name : GhsName upper primaryStem file digits) :
      GhsName upper primaryStem file' digits :=
    ⟨by rw [PathBuf.hasExtension_congr hname, name.extension],
      by rw [PathBuf.fileStem_congr hname]; exact name.stem, name.nonempty, name.digits⟩
  cases h with
  | ghsThreeDigit name length => exact .ghsThreeDigit (hghs name) length
  | ghsFiveDigit name length => exact .ghsFiveDigit (hghs name) length
  | cnsNumericExtension name =>
    refine .cnsNumericExtension ⟨?_, ?_, name.length, name.digits⟩
    · rw [PathBuf.extension_congr hname, name.extension]
    · rw [PathBuf.fileStem_congr hname]
      exact name.stem

theorem IsGhostSpan.copy {primary' file' : PathBuf}
    (h : IsGhostSpan upper primary file scheme sequence)
    (hprimary : primary'.fileName = primary.fileName) (hname : file'.fileName = file.fileName)
    (hne : file' ≠ primary') : IsGhostSpan upper primary' file' scheme sequence := by
  obtain ⟨-, primaryStem, hstem, hspan⟩ := h
  exact ⟨hne, primaryStem, (PathBuf.fileStem_congr hprimary).trans hstem, hspan.copy hname⟩

/-- A span is no primary. -/
theorem IsGhostSpan.hasExtension_gho (h : IsGhostSpan upper primary file scheme sequence) :
    file.hasExtension ['g', 'h', 'o'] = false := by
  obtain ⟨-, primaryStem, -, hspan⟩ := h
  have hghs {digits : List Char} (name : GhsName upper primaryStem file digits) :
      file.hasExtension ['g', 'h', 'o'] = false := by
    refine Bool.eq_false_iff.2 fun hgho => ?_
    obtain ⟨value, hvalue, hmap⟩ := PathBuf.exists_extension_of_hasExtension name.extension
    obtain ⟨value', hvalue', hmap'⟩ := PathBuf.exists_extension_of_hasExtension hgho
    obtain rfl := Option.some.inj (hvalue.symm.trans hvalue')
    exact absurd (hmap.symm.trans hmap') (by decide)
  cases hspan with
  | ghsThreeDigit name => exact hghs name
  | ghsFiveDigit name => exact hghs name
  | cnsNumericExtension name => exact name.hasExtension_eq_false (by decide)

/-- The spans of a primary are its span set also where both are copied to. -/
theorem IsSpanSet.copy (h : IsSpanSet upper primary files spans) {place : PathBuf → PathBuf}
    (hplace : ∀ file ∈ primary :: spans, (place file).fileName = file.fileName)
    (hperm : files'.Perm ((primary :: spans).map place)) (hnodup : files'.Nodup) :
    IsSpanSet upper (place primary) files' (spans.map place) := by
  obtain ⟨scheme, hnumbered⟩ := h.numbered
  have hne : place primary ∉ spans.map place := by
    have := hperm.nodup_iff.1 hnodup
    rw [List.map_cons, List.nodup_cons] at this
    exact this.1
  have hmem {file : PathBuf} : file ∈ files' ↔ file = place primary ∨ file ∈ spans.map place := by
    rw [hperm.mem_iff, List.map_cons, List.mem_cons]
  have hprimary := hplace primary List.mem_cons_self
  have hcopy (i : ℕ) (hi : i < spans.length) :
      IsGhostSpan upper (place primary) (place spans[i]) scheme (i + 1) := by
    have hspan : spans[i] ∈ spans := List.getElem_mem hi
    refine (hnumbered i hi).copy hprimary (hplace _ (List.mem_cons_of_mem _ hspan)) fun heq => ?_
    exact hne (heq ▸ List.mem_map_of_mem hspan)
  refine ⟨?_, fun file => ⟨fun hfile => ?_, fun hfile => ?_⟩, ⟨scheme, fun i hi => ?_⟩, ?_⟩
  · obtain ⟨primaryStem, hstem⟩ := h.unicode
    exact ⟨primaryStem, (PathBuf.fileStem_congr hprimary).trans hstem⟩
  · obtain ⟨i, hi, rfl⟩ := List.getElem_of_mem hfile
    rw [List.length_map] at hi
    rw [List.getElem_map] at hfile ⊢
    exact ⟨hmem.2 (.inr hfile), (hcopy i hi).inGhostFamily⟩
  · exact (hmem.1 hfile.1).resolve_left hfile.2.1
  · rw [List.length_map] at hi
    rw [List.getElem_map]
    exact hcopy i hi
  · rintro ⟨-, -, -, -, -, other, hother, hotherNe, hextension, -⟩
    obtain ⟨i, hi, rfl⟩ := List.getElem_of_mem ((hmem.1 hother).resolve_left hotherNe)
    rw [List.length_map] at hi
    rw [List.getElem_map, (hcopy i hi).hasExtension_gho] at hextension
    cases hextension

/-- The discovery is exact in every directory whose paths are distinct. -/
theorem discoverGhostSpans_exact (hnodup : files.Nodup) : DiscoversExactly upper primary files where
  order_independent := by
    intro files' hperm
    refine Option.ext fun spans => ?_
    rw [toOption_eq_some_iff, toOption_eq_some_iff,
      discoverGhostSpans_eq_ok_iff (hperm.nodup_iff.2 hnodup), discoverGhostSpans_eq_ok_iff hnodup]
    exact ⟨fun h => h.congr fun _ => hperm.mem_iff, fun h => h.congr fun _ => hperm.mem_iff.symm⟩
  spans_exact := fun _ => isSpanSet_of_discoverGhostSpans
  refused := by
    intro hrefused
    cases hresult : discoverGhostSpans upper primary files with
    | error error => exact ⟨error, rfl⟩
    | ok spans =>
      have hset := isSpanSet_of_discoverGhostSpans hresult
      rcases hrefused with hgap | hduplicate | hmixes | hambiguous
      · exact absurd hgap hset.not_hasGap
      · exact absurd hduplicate hset.not_hasDuplicate
      · exact absurd hmixes hset.not_mixesSchemes
      · exact absurd hambiguous hset.unambiguous
  found_again := by
    intro spans hresult place files' hplace hperm hnodup'
    have hset := isSpanSet_of_discoverGhostSpans hresult
    exact (hset.copy hplace hperm hnodup').discoverGhostSpans_eq hnodup'

/-- A primary of a longer name with two spans, listed in another order and another case. -/
theorem discoverGhostSpans_exact_windows :
    let file (name : List Char) : PathBuf := { parent := [], fileName := some (name.map .inl) }
    let primary := file ['W', 'i', 'n', 'd', 'o', 'w', 's', '.', 'g', 'h', 'o']
    let first := file ['W', 'i', 'n', 'd', 'o', '0', '0', '1', '.', 'G', 'H', 'S']
    let second := file ['w', 'i', 'n', 'd', 'o', '0', '0', '2', '.', 'g', 'h', 's']
    let files := [second, primary, first]
    discoverGhostSpans (fun c => [c.toUpper]) primary files = .ok [first, second] ∧
      DiscoversExactly (fun c => [c.toUpper]) primary files := by
  intro file primary first second files
  exact ⟨by decide +kernel, discoverGhostSpans_exact (by decide +kernel)⟩

end SpanSet

end EasyDeployMesh
