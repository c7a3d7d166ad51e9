import EasyDeployMesh.Service.ControlPlane.MediaResponse
import EasyDeployMesh.Service.Pxe.NativeIso

/-!
# The two range parsers beside each other

The control plane and the PXE server read the same header with two parsers. The control plane limits
the length of a header and of a number and takes decimal digits only; the PXE server reads what
`u64::from_str` reads. So the control plane refuses more, and what it accepts the PXE server reads
in the same way. What either of them sends is an exact range of the file.

## Main definitions

* `EasyDeployMesh.SameVerdict`: the parsers accept the same bytes, or both refuse.
* `EasyDeployMesh.WithinRangeLimits`: the headers that no limit of the control plane concerns.

## Main results

* `EasyDeployMesh.rangeParsers_agree`: how far the parsers agree.
* `EasyDeployMesh.servedRanges_exact`: both servers send exact ranges.
-/

namespace EasyDeployMesh

open Foundations

/-! ### Agreement -/

/-- The two parsers choose the same bytes, or both refuse the header. -/
def SameVerdict (header : Option HeaderValue) (total : UInt64) : Prop :=
  (parseSingleRange header total).toOption = (parseHttpByteRange header total).toOption

instance (header : Option HeaderValue) (total : UInt64) : Decidable (SameVerdict header total) :=
  inferInstanceAs (Decidable (_ = _))

/-- The header is no longer than 128 bytes, has no plus sign, and the texts before and behind a dash
are no longer than 20 bytes. -/
structure WithinRangeLimits (text : String) : Prop where
  short : text.utf8ByteSize ≤ 128
  unsigned : '+' ∉ text.toList
  numbers : ∀ before after, text = "bytes=" ++ (before ++ "-" ++ after) →
    before.utf8ByteSize ≤ 20 ∧ after.utf8ByteSize ≤ 20

variable {total : UInt64} {value : String}

/-- A short text without a plus sign is read by both readers of numbers in the same way. -/
theorem parseRangeNumber_eq_parseU64 (hsize : value.utf8ByteSize ≤ 20)
    (hplus : '+' ∉ value.toList) :
    parseRangeNumber value = Text.parseU64 value := by
  have hfront : ∀ l, value.toList ≠ '+' :: l := fun l hl => hplus (hl ▸ List.mem_cons_self)
  unfold parseRangeNumber
  split_ifs with h
  · rw [parseU64_eq hfront, if_pos]
    rcases h with rfl | hlong | hdigits
    · rfl
    · omega
    · simp only [Bool.or_eq_true, hdigits, or_true, true_or]
  · rfl

/-- Within the limits the texts around the dash are read in the same way, too. -/
theorem WithinRangeLimits.boundsOfText_eq (h : WithinRangeLimits ("bytes=" ++ value)) :
    boundsOfText parseRangeNumber total value = boundsOfText Text.parseU64 total value := by
  unfold boundsOfText
  cases hsplit : Text.splitOnce '-' value with
  | none => rfl
  | some parts =>
    obtain ⟨before, after⟩ := parts
    have hvalue : value = before ++ "-" ++ after := by
      rw [← String.toList_inj, (Text.splitOnce_eq_some_iff.1 hsplit).2]
      simp [String.toList_append]
    have hplus := h.unsigned
    simp only [hvalue, String.toList_append, List.mem_append, not_or] at hplus
    obtain ⟨hbefore, hafter⟩ := h.numbers before after (hvalue ▸ rfl)
    exact rangeBounds_congr (parseRangeNumber_eq_parseU64 hbefore hplus.2.1.1)
      (parseRangeNumber_eq_parseU64 hafter hplus.2.2)

/-- What the control plane accepts, the PXE server reads in the same way. -/
theorem parseHttpByteRange_of_parseSingleRange (htotal : total ≠ 0) {header : Option HeaderValue}
    {range : Option (UInt64 × UInt64)} (h : parseSingleRange header total = .ok range) :
    parseHttpByteRange header total = .ok range := by
  cases header with
  | none =>
    rw [← Except.ok.inj h]
    rfl
  | some headerValue =>
    obtain ⟨text⟩ := headerValue
    obtain ⟨value, bounds, htext, -, hcomma, hbounds, hrange⟩ := parseSingleRange_eq_ok_iff.1 h
    obtain ⟨before, after, hsplit, hbounds⟩ := boundsOfText_eq_some_iff.1 hbounds
    have hread : ∀ text n, parseRangeNumber text = some n → Text.parseU64 text = some n :=
      fun text n hn => (parseRangeNumber_eq_some_iff.1 hn).2.2.2
    have hbounds :=
      boundsOfText_eq_some_iff.2 ⟨before, after, hsplit, rangeBounds_mono hread hbounds⟩
    exact parseHttpByteRange_eq_ok_iff.2 ⟨value, bounds, htext, hcomma, htotal, hbounds, hrange⟩

/-- What the control plane accepts, the PXE server reads in the same way; and no header within the
limits of the control plane is refused by one of the servers alone. -/
theorem rangeParsers_agree (header : Option HeaderValue) (htotal : 0 < total) :
    (∀ range, parseSingleRange header total = .ok range →
      parseHttpByteRange header total = .ok range) ∧
    ((∀ text, header = some ⟨some text⟩ → WithinRangeLimits text) → SameVerdict header total) := by
  have hzero : total ≠ 0 := by
    rintro rfl
    exact absurd htotal (by decide)
  refine ⟨fun range => parseHttpByteRange_of_parseSingleRange hzero, fun hlimits => ?_⟩
  refine Option.ext fun range => ?_
  rw [toOption_eq_some_iff, toOption_eq_some_iff]
  refine ⟨parseHttpByteRange_of_parseSingleRange hzero, fun h => ?_⟩
  cases header with
  | none =>
    rw [← Except.ok.inj h]
    rfl
  | some headerValue =>
    obtain ⟨text⟩ := headerValue
    obtain ⟨value, bounds, rfl, hcomma, -, hbounds, hrange⟩ := parseHttpByteRange_eq_ok_iff.1 h
    have hwithin := hlimits _ rfl
    rw [← hwithin.boundsOfText_eq] at hbounds
    exact parseSingleRange_eq_ok_iff.2
      ⟨value, bounds, rfl, hwithin.short, hcomma, hbounds, hrange⟩

/-- A header for the bytes 10 to 19 with leading zeros. -/
def paddedRange : HeaderValue := ⟨some "bytes=000000000000000000010-19"⟩

/-- A text of at most 20 bytes without a plus sign is within the limits. -/
theorem withinRangeLimits_of_size {text : String} (hsize : text.utf8ByteSize ≤ 20)
    (hplus : '+' ∉ text.toList) : WithinRangeLimits text where
  short := hsize.trans (by decide)
  unsigned := hplus
  numbers before after htext := by
    have hlength := congrArg String.utf8ByteSize htext
    simp only [String.utf8ByteSize_append] at hlength
    omega

theorem rangeParsers_agree_suffix : SameVerdict (some ⟨some "bytes=-5"⟩) 100 := by
  refine (@rangeParsers_agree 100 (some ⟨some "bytes=-5"⟩) (by decide)).2 ?_
  intro text htext
  simp only [Option.some.injEq, HeaderValue.mk.injEq] at htext
  exact htext ▸ withinRangeLimits_of_size (by decide) (by decide)

/-- The first number of this header has 21 digits, one more than the control plane reads. -/
theorem sameVerdict_fails_of_paddedRange :
    ¬ ∀ (header : Option HeaderValue) (total : UInt64), 0 < total → SameVerdict header total := by
  intro h
  exact absurd (h (some paddedRange) 100 (by decide)) (by decide +kernel)

/-! ### Exact ranges -/

/-- Whatever the header is, the two servers send exact ranges of a file that is not empty, the
control plane does so without an overflow, and a header that a server accepts is served. -/
theorem servedRanges_exact (short : ℕ → ℕ) (header : Option HeaderValue) :
    (∀ (files : String → ServedFile) (fetch : Uuid → Except ApiError InstallerMedia) (id : Uuid)
        (media : InstallerMedia), fetch id = .ok media →
        0 < (files media.canonicalPath).bytes.length →
      installerMediaResponse short files fetch (some id) header ≠ .error .overflow ∧
      (∀ response, installerMediaResponse short files fetch (some id) header = .ok response →
        ServesRange (files media.canonicalPath).bytes header response) ∧
      ∀ range, parseSingleRange header media.sizeBytes = .ok range →
        (files media.canonicalPath).Works → (files media.canonicalPath).len = media.sizeBytes →
        HasHeaderTexts media →
        ∃ response, installerMediaResponse short files fetch (some id) header = .ok response ∧
          ServesRange (files media.canonicalPath).bytes header response) ∧
    ∀ iso : ServedFile, 0 < iso.bytes.length →
      ((serveNativeIso short iso header).status < 300 →
        ServesRange iso.bytes header (serveNativeIso short iso header)) ∧
      ∀ range, parseHttpByteRange header iso.len = .ok range → iso.Works →
        ServesRange iso.bytes header (serveNativeIso short iso header) := by
  refine ⟨fun files fetch id media hmedia hpos => ?_, fun iso hpos => ?_⟩
  · refine ⟨installerMediaResponse_ne_overflow hmedia hpos, fun response hresponse => ?_, ?_⟩
    · obtain ⟨id', media', hid, hmedia', hserves⟩ := servesRange_of_installerMediaResponse hresponse
      obtain rfl := Option.some.inj hid
      obtain rfl := Except.ok.inj (hmedia.symm.trans hmedia')
      exact hserves hpos
    · intro range hrange hworks hsize htexts
      exact servesRange_of_parseSingleRange hmedia htexts hpos hworks hsize hrange
  · exact ⟨servesRange_of_serveNativeIso hpos, fun range hrange hworks =>
      servesRange_of_parseHttpByteRange hpos hworks hrange⟩

/-- A file of five bytes that can be read. -/
def labFile : ServedFile where
  bytes := [1, 2, 3, 4, 5]
  length_lt := by decide
  opens := true
  measures := true
  seeks := true

theorem servedRanges_exact_labFile :
    ServesRange [1, 2, 3, 4, 5] (some ⟨some "bytes=-2"⟩)
      (serveNativeIso (fun _ => 1) labFile (some ⟨some "bytes=-2"⟩)) :=
  ((servedRanges_exact (fun _ => 1) (some ⟨some "bytes=-2"⟩)).2 labFile (by decide)).2
    (some (3, 4)) (by decide +kernel) ⟨rfl, rfl, rfl⟩

end EasyDeployMesh
