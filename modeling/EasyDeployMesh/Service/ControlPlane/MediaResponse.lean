import EasyDeployMesh.Service.ControlPlane.JobEndpoints
import EasyDeployMesh.Service.ServedFile

/-!
# Installer media of the control plane

`installer_media_response` of `crates/service/src/control_plane.rs`: the kernel, the initial RAM
disk and the ISO of an installer session, whole or a single range of them. The arithmetic on sizes
is that of `u64`, where an overflow panics.

## Main definitions

* `EasyDeployMesh.parseRangeNumber`, `EasyDeployMesh.parseSingleRange`: the range of a request.
* `EasyDeployMesh.MediaFailure`, `EasyDeployMesh.installerMediaResponse`: the endpoint.

## Main results

* `EasyDeployMesh.parseSingleRange_eq_ok_iff`: the headers that are accepted.
* `EasyDeployMesh.servesRange_of_installerMediaResponse`: a response serves the request.
* `EasyDeployMesh.installerMediaResponse_ne_overflow`: a file that is not empty causes no overflow.
* `EasyDeployMesh.servesRange_of_parseSingleRange`: an accepted request is served.
-/

namespace EasyDeployMesh

open Foundations

/-! ### The range of a request -/

/-- A number of at most 20 digits that fits in 64 bits. -/
def parseRangeNumber (value : String) : Option UInt64 :=
  if value = "" ∨ 20 < value.utf8ByteSize ∨ !value.toList.all Char.isDigit then none
  else Text.parseU64 value

/-- The one range of a header, cut to the length of the file. -/
def parseSingleRange (header : Option HeaderValue) (totalLength : UInt64) :
    Except ApiError (Option (UInt64 × UInt64)) :=
  match header with
  | none => .ok none
  | some headerValue =>
    let value := ((headerValue.toStr.filter fun value => value.utf8ByteSize ≤ 128).bind
      (Text.stripPrefix "bytes=")).filter fun value => !Text.containsChar ',' value
    match value.bind (boundsOfText parseRangeNumber totalLength) with
    | none => .error (.rangeNotSatisfiable totalLength)
    | some bounds => .ok (some bounds)

theorem parseRangeNumber_eq_some_iff {text : String} {n : UInt64} :
    parseRangeNumber text = some n ↔ text ≠ "" ∧ text.utf8ByteSize ≤ 20 ∧
      text.toList.all Char.isDigit = true ∧ Text.parseU64 text = some n := by
  unfold parseRangeNumber
  split_ifs with h
  · simp only [false_iff, not_and]
    intro hne hsize hdigits
    simp only [hne, hdigits, false_or, Bool.not_true, or_false, Bool.false_eq_true] at h
    omega
  · simp only [not_or, not_lt, Bool.not_eq_true', Bool.not_eq_false] at h
    simp only [h, ne_eq, not_false_eq_true, true_and]

/-- The headers that the control plane accepts. -/
theorem parseSingleRange_eq_ok_iff {text : Option String} {total : UInt64}
    {range : Option (UInt64 × UInt64)} :
    parseSingleRange (some ⟨text⟩) total = .ok range ↔
      ∃ value bounds, text = some ("bytes=" ++ value) ∧ ("bytes=" ++ value).utf8ByteSize ≤ 128 ∧
        Text.containsChar ',' value = false ∧
        boundsOfText parseRangeNumber total value = some bounds ∧ range = some bounds := by
  have hresult : ∀ x : Option (UInt64 × UInt64),
      (match x with
        | none => Except.error (ApiError.rangeNotSatisfiable total)
        | some bounds => .ok (some bounds)) = .ok range ↔ ∃ bounds, x = some bounds ∧
          range = some bounds := by
    intro x
    cases x with
    | none => simp
    | some bounds => simp [eq_comm]
  rw [parseSingleRange, hresult]
  simp only [Option.bind_eq_some_iff, Option.filter_eq_some_iff, decide_eq_true_eq,
    Text.stripPrefix_eq_some_iff, Bool.not_eq_true']
  constructor
  · rintro ⟨bounds, ⟨value, ⟨⟨_, ⟨htext, hsize⟩, rfl⟩, hcomma⟩, hbounds⟩, hrange⟩
    exact ⟨value, bounds, htext, hsize, hcomma, hbounds, hrange⟩
  · rintro ⟨value, bounds, htext, hsize, hcomma, hbounds, hrange⟩
    exact ⟨bounds, ⟨value, ⟨⟨_, ⟨htext, hsize⟩, rfl⟩, hcomma⟩, hbounds⟩, hrange⟩

/-- What the control plane reads from a request. -/
theorem parsedRange_of_parseSingleRange {header : Option HeaderValue} {total : UInt64}
    {range : Option (UInt64 × UInt64)} (h : parseSingleRange header total = .ok range) :
    ParsedRange parseRangeNumber total header range := by
  cases header with
  | none =>
    have hrange : range = none := (Except.ok.inj h).symm
    exact hrange ▸ .absent
  | some headerValue =>
    obtain ⟨text⟩ := headerValue
    obtain ⟨value, bounds, rfl, -, -, hbounds, rfl⟩ := parseSingleRange_eq_ok_iff.1 h
    exact .bounds hbounds

/-! ### The endpoint -/

/-- An overflow of the arithmetic, which panics, or an error of the endpoint. -/
inductive MediaFailure
  | overflow
  | api (source : ApiError)

/-- The text can be the value of a header: no control character but the tab. -/
def isHeaderText (text : String) : Bool :=
  text.toList.all fun c => (32 ≤ c.toNat && c.toNat ≠ 127) || c == '\t'

theorem isHeaderText_append (s t : String) :
    isHeaderText (s ++ t) = (isHeaderText s && isHeaderText t) := by
  rw [isHeaderText, String.toList_append, List.all_append]
  rfl

theorem isHeaderText_repr (n : ℕ) : isHeaderText n.repr = true := by
  rw [isHeaderText, Nat.toList_repr, List.all_eq_true]
  intro c hc
  have hdigit := Nat.isDigit_of_mem_toDigits (by decide) (by decide) hc
  have hzero : '0'.val.toNat = 48 := by decide
  have hnine : '9'.val.toNat = 57 := by decide
  simp only [Char.isDigit, Bool.and_eq_true, decide_eq_true_iff, ge_iff_le,
    UInt32.le_iff_toNat_le] at hdigit
  simp only [Char.toNat, Bool.or_eq_true, Bool.and_eq_true, decide_eq_true_iff]
  omega

/-- The texts of a medium can be values of headers. -/
structure HasHeaderTexts (media : InstallerMedia) : Prop where
  contentType : isHeaderText media.contentType = true
  sha256 : isHeaderText media.sha256 = true
  fileName : isHeaderText media.fileName = true

/-- The headers of a response with a part of a file. -/
def mediaHeaders (media : InstallerMedia) (status : ℕ) (start last length : UInt64) :
    List (String × String) :=
  [("content-type", media.contentType),
    ("content-length", toString length.toNat),
    ("accept-ranges", "bytes"),
    ("cache-control", "no-store"),
    ("etag", "\"" ++ media.sha256 ++ "\""),
    ("content-disposition", "attachment; filename=\"" ++ media.fileName ++ "\"")] ++
  if status = 206 then [("content-range", "bytes " ++ toString start.toNat ++ "-" ++
    toString last.toNat ++ "/" ++ toString media.sizeBytes.toNat)] else []

/-- The response, unless one of the texts cannot be the value of a header. -/
def mediaPart (media : InstallerMedia) (status : ℕ) (start last length : UInt64)
    (body : List (List UInt8)) : Except MediaFailure FileResponse :=
  let headers := mediaHeaders media status start last length
  if headers.all fun header => isHeaderText header.2 then .ok { status, headers, body }
  else .error (.api .installerTask)

/-- The endpoint for a session id that parses, when `fetch` is the call on the installer and `files`
the file at a path. -/
def installerMediaResponse (short : ℕ → ℕ) (files : String → ServedFile)
    (fetch : Uuid → Except ApiError InstallerMedia) (sessionId : Option Uuid)
    (header : Option HeaderValue) : Except MediaFailure FileResponse := do
  let sessionId ← sessionId.elim (.error (.api .notFound)) .ok
  let media ← (fetch sessionId).mapError .api
  let requestedRange ← (parseSingleRange header media.sizeBytes).mapError .api
  let file := files media.canonicalPath
  if !file.opens ∨ !file.measures ∨ file.len ≠ media.sizeBytes then
    .error (.api (.installer .mediaIntegrity))
  let last ← (checkedSub media.sizeBytes 1).elim (.error .overflow) .ok
  let status := if requestedRange.isSome then 206 else 200
  let bounds := requestedRange.getD (0, last)
  if bounds.1 ≠ 0 ∧ !file.seeks then
    .error (.api (.installer .mediaIntegrity))
  let span ← (checkedSub bounds.2 bounds.1).elim (.error .overflow) .ok
  let length ← (checkedAdd span 1).elim (.error .overflow) .ok
  mediaPart media status bounds.1 bounds.2 length
    (takeStream short file.bytes 0 bounds.1.toNat length.toNat)

section Response

variable {short : ℕ → ℕ} {files : String → ServedFile}
  {fetch : Uuid → Except ApiError InstallerMedia} {sessionId : Option Uuid}
  {header : Option HeaderValue} {response : FileResponse}

theorem header_of_mediaPart {media : InstallerMedia} {status : ℕ} {start last length : UInt64}
    {body : List (List UInt8)} (h : mediaPart media status start last length body = .ok response) :
    response.header "content-length" = some (toString length.toNat) ∧ response.body = body := by
  simp only [mediaPart] at h
  split_ifs at h
  rw [← Except.ok.inj h]
  refine ⟨?_, rfl⟩
  simp [FileResponse.header, mediaHeaders, List.lookup]

theorem mediaPart_ne_overflow {media : InstallerMedia} {status : ℕ} {start last length : UInt64}
    {body : List (List UInt8)} :
    mediaPart media status start last length body ≠ .error .overflow := by
  simp only [mediaPart]
  split_ifs <;> simp

private theorem getD_eq_chosenBytes {total last : UInt64} {range : Option (UInt64 × UInt64)}
    (h : checkedSub total 1 = some last) : range.getD (0, last) = chosenBytes total range := by
  unfold checkedSub at h
  split_ifs at h
  rw [chosenBytes, Option.some.inj h]

/-- A number text is read as what it is. -/
theorem toNat_of_parseRangeNumber {text : String} {n : ℕ} {m : UInt64} (htext : IsNumeral text n)
    (h : parseRangeNumber text = some m) : m.toNat = n :=
  htext.toNat_of_parseU64 (parseRangeNumber_eq_some_iff.1 h).2.2.2

/-- A response serves the request, when the file is not empty. -/
theorem servesRange_of_installerMediaResponse
    (h : installerMediaResponse short files fetch sessionId header = .ok response) :
    ∃ id media, sessionId = some id ∧ fetch id = .ok media ∧
      (0 < (files media.canonicalPath).bytes.length →
        ServesRange (files media.canonicalPath).bytes header response) := by
  simp only [installerMediaResponse, bind_eq_ok_iff, check_eq_ok_iff, elim_eq_ok_iff,
    mapError_eq_ok_iff] at h
  obtain ⟨id, hid, media, hmedia, range, hrange, hfile, last, hlast, hseek, span, hspan, length,
    hlength, hpart⟩ := h
  refine ⟨id, media, hid, hmedia, fun hpos => ?_⟩
  have hsize : media.sizeBytes = (files media.canonicalPath).len := by
    simp only [ne_eq, not_or, not_not] at hfile
    exact hfile.2.2.symm
  rw [getD_eq_chosenBytes hlast, hsize] at hspan hpart
  rw [hsize] at hrange
  obtain ⟨hheader, hbody⟩ := header_of_mediaPart hpart
  refine (parsedRange_of_parseSingleRange hrange).servesRange toNat_of_parseRangeNumber hpos ?_
    hheader hbody
  have hspan := toNat_of_checkedSub hspan
  rw [toNat_of_checkedAdd hlength, UInt64.toNat_one]
  omega

/-- The sizes of an accepted request for a file that is not empty are in range. -/
private theorem exists_length {total : UInt64} {range : Option (UInt64 × UInt64)}
    (hrange : parseSingleRange header total = .ok range) (htotal : 0 < total.toNat) :
    ∃ last span length, checkedSub total 1 = some last ∧
      checkedSub (range.getD (0, last)).2 (range.getD (0, last)).1 = some span ∧
      checkedAdd span 1 = some length := by
  obtain ⟨horder, hinside, -⟩ := (parsedRange_of_parseSingleRange hrange).chosenBytes_spec
    toNat_of_parseRangeNumber htotal
  obtain ⟨last, hlast, -⟩ := exists_checkedSub (b := 1) htotal
  obtain ⟨span, hspan, hspanLength⟩ := exists_checkedSub horder
  have hbound := total.toNat_lt
  obtain ⟨length, hlength, -⟩ := exists_checkedAdd (a := span) (b := 1)
    (by rw [UInt64.toNat_one]; omega)
  exact ⟨last, span, length, hlast, getD_eq_chosenBytes hlast ▸ hspan, hlength⟩

variable {id : Uuid} {media : InstallerMedia}

/-- A file that is not empty causes no overflow. -/
theorem installerMediaResponse_ne_overflow (hmedia : fetch id = .ok media)
    (hpos : 0 < (files media.canonicalPath).bytes.length) :
    installerMediaResponse short files fetch (some id) header ≠ .error .overflow := by
  intro h
  -- every other error of the endpoint is an error of the API
  simp only [installerMediaResponse, bind_eq_error_iff, check_eq_error_iff, elim_eq_error_iff,
    mapError_eq_error_iff, elim_eq_ok_iff, mapError_eq_ok_iff, reduceCtorEq, and_false,
    exists_false, false_or, Option.some.injEq, exists_eq_left', hmedia, Except.ok.injEq,
    and_true] at h
  obtain ⟨range, hrange, hfile, h⟩ := h
  simp only [ne_eq, not_or, not_not] at hfile
  have htotal : 0 < media.sizeBytes.toNat := by rwa [← hfile.2.2, ServedFile.toNat_len]
  obtain ⟨last, span, length, hlast, hspan, hlength⟩ := exists_length hrange htotal
  rcases h with hnone | ⟨last', hlast', -, h⟩
  · exact absurd (hlast.symm.trans hnone) (Option.some_ne_none _)
  obtain rfl := Option.some.inj (hlast.symm.trans hlast')
  rcases h with hnone | ⟨span', hspan', h⟩
  · exact absurd (hspan.symm.trans hnone) (Option.some_ne_none _)
  obtain rfl := Option.some.inj (hspan.symm.trans hspan')
  rcases h with hnone | ⟨length', -, hpart⟩
  · exact absurd (hlength.symm.trans hnone) (Option.some_ne_none _)
  · exact mediaPart_ne_overflow hpart

theorem exists_mediaPart (h : HasHeaderTexts media) (status : ℕ) (start last length : UInt64)
    (body : List (List UInt8)) :
    ∃ response, mediaPart media status start last length body = .ok response := by
  have hheaders : (mediaHeaders media status start last length).all
      (fun header => isHeaderText header.2) = true := by
    have hquote : isHeaderText "\"" = true := by decide
    have hattachment : isHeaderText "attachment; filename=\"" = true := by decide
    have hbytes : isHeaderText "bytes " = true := by decide
    have hconst : isHeaderText "bytes" = true ∧ isHeaderText "no-store" = true ∧
        isHeaderText "-" = true ∧ isHeaderText "/" = true := by decide
    unfold mediaHeaders
    split_ifs <;>
      simp [isHeaderText_append, isHeaderText_repr, h.contentType, h.sha256, h.fileName, hquote,
        hattachment, hbytes, hconst]
  exact ⟨_, if_pos hheaders⟩

/-- An accepted request for a file that is not empty is served. -/
theorem servesRange_of_parseSingleRange (hmedia : fetch id = .ok media)
    (htexts : HasHeaderTexts media) (hpos : 0 < (files media.canonicalPath).bytes.length)
    (hworks : (files media.canonicalPath).Works)
    (hsize : (files media.canonicalPath).len = media.sizeBytes) {range : Option (UInt64 × UInt64)}
    (hrange : parseSingleRange header media.sizeBytes = .ok range) :
    ∃ response, installerMediaResponse short files fetch (some id) header = .ok response ∧
      ServesRange (files media.canonicalPath).bytes header response := by
  have htotal : 0 < media.sizeBytes.toNat := by rwa [← hsize, ServedFile.toNat_len]
  obtain ⟨last, span, length, hlast, hspan, hlength⟩ := exists_length hrange htotal
  obtain ⟨response, hpart⟩ := exists_mediaPart htexts (if range.isSome then 206 else 200)
    (range.getD (0, last)).1 (range.getD (0, last)).2 length
    (takeStream short (files media.canonicalPath).bytes 0
      (range.getD (0, last)).1.toNat length.toNat)
  have hresponse : installerMediaResponse short files fetch (some id) header = .ok response := by
    simp only [installerMediaResponse, bind_eq_ok_iff, check_eq_ok_iff, elim_eq_ok_iff,
      mapError_eq_ok_iff]
    refine ⟨id, rfl, media, hmedia, range, hrange, ?_, last, hlast, ?_, span, hspan,
      length, hlength, hpart⟩
    · simp [hworks.opens, hworks.measures, hsize]
    · simp [hworks.seeks]
  obtain ⟨id', media', hid, hmedia', hserves⟩ := servesRange_of_installerMediaResponse hresponse
  obtain rfl := Option.some.inj hid
  obtain rfl := Except.ok.inj (hmedia.symm.trans hmedia')
  exact ⟨response, hresponse, hserves hpos⟩

end Response

end EasyDeployMesh
