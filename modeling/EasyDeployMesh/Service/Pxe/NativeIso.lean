import EasyDeployMesh.Service.ServedFile

/-!
# The native ISO of the PXE server

`serve_native_iso` of `crates/service/src/pxe.rs`: the ISO that iPXE boots from over HTTP, whole or
a single range of it. The stage of the client, which the server updates on the way, is left out.

## Main definitions

* `EasyDeployMesh.parseHttpByteRange`: the range of a request.
* `EasyDeployMesh.serveNativeIso`: the endpoint.

## Main results

* `EasyDeployMesh.parseHttpByteRange_eq_ok_iff`: the headers that are accepted.
* `EasyDeployMesh.servesRange_of_parseHttpByteRange`: an accepted request is served.
* `EasyDeployMesh.servesRange_of_serveNativeIso`: the ISO is sent in exact ranges only.
-/

namespace EasyDeployMesh

open Foundations

/-- The one range of a header; a suffix is counted from the end. -/
def parseHttpByteRange (header : Option HeaderValue) (total : UInt64) :
    Except Unit (Option (UInt64 × UInt64)) :=
  match header with
  | none => .ok none
  | some value => do
    let value ← value.toStr.elim (.error ()) .ok
    let value ← (Text.stripPrefix "bytes=" value).elim (.error ()) .ok
    if Text.containsChar ',' value ∨ total = 0 then
      .error ()
    let bounds ← (boundsOfText Text.parseU64 total value).elim (.error ()) .ok
    return some bounds

/-- The headers that the PXE server accepts. -/
theorem parseHttpByteRange_eq_ok_iff {text : Option String} {total : UInt64}
    {range : Option (UInt64 × UInt64)} :
    parseHttpByteRange (some ⟨text⟩) total = .ok range ↔
      ∃ value bounds, text = some ("bytes=" ++ value) ∧ Text.containsChar ',' value = false ∧
        total ≠ 0 ∧ boundsOfText Text.parseU64 total value = some bounds ∧ range = some bounds := by
  simp only [parseHttpByteRange, bind_eq_ok_iff, check_eq_ok_iff, elim_eq_ok_iff, pure_eq_ok_iff,
    Text.stripPrefix_eq_some_iff, not_or, Bool.not_eq_true]
  constructor
  · rintro ⟨_, htext, value, rfl, ⟨hcomma, htotal⟩, bounds, hbounds, hrange⟩
    exact ⟨value, bounds, htext, hcomma, htotal, hbounds, hrange.symm⟩
  · rintro ⟨value, bounds, htext, hcomma, htotal, hbounds, hrange⟩
    exact ⟨_, htext, value, rfl, ⟨hcomma, htotal⟩, bounds, hbounds, hrange.symm⟩

/-- What the PXE server reads from a request. -/
theorem parsedRange_of_parseHttpByteRange {header : Option HeaderValue} {total : UInt64}
    {range : Option (UInt64 × UInt64)} (h : parseHttpByteRange header total = .ok range) :
    ParsedRange Text.parseU64 total header range := by
  cases header with
  | none =>
    have hrange : range = none := (Except.ok.inj h).symm
    exact hrange ▸ .absent
  | some headerValue =>
    obtain ⟨text⟩ := headerValue
    obtain ⟨value, bounds, rfl, -, -, hbounds, rfl⟩ := parseHttpByteRange_eq_ok_iff.1 h
    exact .bounds hbounds

/-- The headers of a response with a part of the ISO. -/
def nativeIsoHeaders (total : UInt64) (status : ℕ) (start last length : UInt64) :
    List (String × String) :=
  [("accept-ranges", "bytes"), ("content-length", toString length.toNat),
    ("content-type", "application/octet-stream")] ++
  if status = 206 then [("content-range", "bytes " ++ toString start.toNat ++ "-" ++
    toString last.toNat ++ "/" ++ toString total.toNat)] else []

/-- The response with the bytes that a request asks for. -/
def nativeIsoPart (short : ℕ → ℕ) (iso : ServedFile) (range : Option (UInt64 × UInt64)) :
    FileResponse :=
  let status := if range.isSome then 206 else 200
  let bounds := range.getD (0, saturatingSub iso.len 1)
  let length := saturatingAdd (saturatingSub bounds.2 bounds.1) 1
  { status
    headers := nativeIsoHeaders iso.len status bounds.1 bounds.2 length
    body := takeStream short iso.bytes 0 bounds.1.toNat length.toNat }

/-- The answer to a request for the native ISO. -/
def serveNativeIso (short : ℕ → ℕ) (iso : ServedFile) (header : Option HeaderValue) :
    FileResponse :=
  if !iso.opens then .ofStatus 404
  else if !iso.measures then .ofStatus 500
  else match parseHttpByteRange header iso.len with
    | .error () =>
      { status := 416, headers := [("content-range", "bytes */" ++ toString iso.len.toNat)],
        body := [] }
    | .ok range => if !iso.seeks then .ofStatus 500 else nativeIsoPart short iso range

section Response

variable {short : ℕ → ℕ} {iso : ServedFile} {header : Option HeaderValue}

/-- An accepted request for a file that is not empty is served. -/
theorem servesRange_of_parseHttpByteRange (hpos : 0 < iso.bytes.length) (hworks : iso.Works)
    {range : Option (UInt64 × UInt64)} (hrange : parseHttpByteRange header iso.len = .ok range) :
    ServesRange iso.bytes header (serveNativeIso short iso header) := by
  have htotal : 0 < iso.len.toNat := by rwa [ServedFile.toNat_len]
  have hparsed := parsedRange_of_parseHttpByteRange hrange
  obtain ⟨horder, hinside, -⟩ := hparsed.chosenBytes_spec IsNumeral.toNat_of_parseU64 htotal
  have hchosen : range.getD (0, saturatingSub iso.len 1) = chosenBytes iso.len range := by
    have hone : (1 : UInt64) ≤ iso.len := UInt64.le_iff_toNat_le.2 htotal
    rw [chosenBytes, ← UInt64.toNat_inj.1 ((toNat_saturatingSub _ _).trans
      (UInt64.toNat_sub_of_le _ _ hone).symm)]
  have hbound := iso.len.toNat_lt
  have hlength : (saturatingAdd (saturatingSub (chosenBytes iso.len range).2
      (chosenBytes iso.len range).1) 1).toNat =
      (chosenBytes iso.len range).2.toNat - (chosenBytes iso.len range).1.toNat + 1 := by
    rw [toNat_saturatingAdd, toNat_saturatingSub, UInt64.toNat_one]
    omega
  have hserved : serveNativeIso short iso header = nativeIsoPart short iso range := by
    simp [serveNativeIso, hworks.opens, hworks.measures, hworks.seeks, hrange]
  have hheader : (nativeIsoPart short iso range).header "content-length" =
      some (toString (saturatingAdd (saturatingSub (chosenBytes iso.len range).2
        (chosenBytes iso.len range).1) 1).toNat) := by
    simp [nativeIsoPart, FileResponse.header, nativeIsoHeaders, List.lookup, hchosen]
  have hbody : (nativeIsoPart short iso range).body =
      takeStream short iso.bytes 0 (chosenBytes iso.len range).1.toNat
        (saturatingAdd (saturatingSub (chosenBytes iso.len range).2
          (chosenBytes iso.len range).1) 1).toNat := by
    rw [nativeIsoPart, hchosen]
  rw [hserved]
  exact hparsed.servesRange IsNumeral.toNat_of_parseU64 hpos hlength hheader hbody

/-- The ISO is sent only for an accepted request. -/
theorem exists_of_status_serveNativeIso (h : (serveNativeIso short iso header).status < 300) :
    iso.Works ∧ ∃ range, parseHttpByteRange header iso.len = .ok range := by
  unfold serveNativeIso at h
  split at h
  next => simp [FileResponse.ofStatus] at h
  next hopens =>
    split at h
    next => simp [FileResponse.ofStatus] at h
    next hmeasures =>
      split at h
      next => simp at h
      next range hrange =>
        split at h
        next => simp [FileResponse.ofStatus] at h
        next hseeks =>
          simp only [Bool.not_eq_true', Bool.not_eq_false] at hopens hmeasures hseeks
          exact ⟨⟨hopens, hmeasures, hseeks⟩, range, hrange⟩

/-- A response with the ISO serves the request. -/
theorem servesRange_of_serveNativeIso (hpos : 0 < iso.bytes.length)
    (h : (serveNativeIso short iso header).status < 300) :
    ServesRange iso.bytes header (serveNativeIso short iso header) := by
  obtain ⟨hworks, range, hrange⟩ := exists_of_status_serveNativeIso h
  exact servesRange_of_parseHttpByteRange hpos hworks hrange

end Response

end EasyDeployMesh
