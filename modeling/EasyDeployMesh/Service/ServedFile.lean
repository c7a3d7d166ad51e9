import EasyDeployMesh.Foundations.ByteRange
import EasyDeployMesh.Gho.SpanReader

/-!
# Files served over HTTP

What the two HTTP servers share when they serve a file: the value of a header, a file of the
operating system, the stream of a part of it, and a response. A file keeps its bytes while it is
served; it may fail to open, to tell its length or to seek, and a read of it may return fewer bytes
than there are, although not none. A response has its headers by name and the chunks of its body.

## Main definitions

* `EasyDeployMesh.HeaderValue`, `EasyDeployMesh.ServedFile`, `EasyDeployMesh.FileResponse`.
* `EasyDeployMesh.takeStream`: the chunks that a limited reader yields.
* `EasyDeployMesh.Means`, `EasyDeployMesh.ServesRange`: the bytes that a request means, and a
  response that carries them.
* `EasyDeployMesh.ParsedRange`, `EasyDeployMesh.chosenBytes`: what the servers read from a request.

## Main results

* `EasyDeployMesh.flatten_takeStream`: the chunks are that part of the file.
* `EasyDeployMesh.ParsedRange.servesRange`: a stream of the chosen bytes serves the request.
-/

namespace EasyDeployMesh

open Foundations Gho

/-- The value of a header, as `to_str` reads it: nothing for a value that is not visible ASCII. -/
structure HeaderValue where
  toStr : Option String
  deriving DecidableEq

/-! ### Files -/

/-- A file that a server serves, and what the operating system lets it do. -/
structure ServedFile where
  bytes : List UInt8
  length_lt : bytes.length < 2 ^ 64
  opens : Bool
  measures : Bool
  seeks : Bool

namespace ServedFile

/-- No operation of the operating system fails. -/
structure Works (file : ServedFile) : Prop where
  opens : file.opens = true
  measures : file.measures = true
  seeks : file.seeks = true

/-- `metadata.len()`. -/
def len (file : ServedFile) : UInt64 := UInt64.ofNat file.bytes.length

theorem toNat_len (file : ServedFile) : file.len.toNat = file.bytes.length := by
  rw [len, UInt64.toNat_ofNat', Nat.mod_eq_of_lt file.length_lt]

end ServedFile

/-- The capacity of the buffer of a `ReaderStream`. -/
def streamCapacity : ℕ := 4096

/-- One read of `file.take(limit)` behind a position, which returns no more than `short` bytes, or
one. -/
def takeRead (bytes : List UInt8) (position limit short : ℕ) : List UInt8 :=
  readAt bytes position (min streamCapacity limit) short

/-- A read returns the first bytes behind the position. -/
theorem takeRead_eq_take (bytes : List UInt8) (position limit short : ℕ) :
    takeRead bytes position limit short =
      (bytes.drop position).take (takeRead bytes position limit short).length := by
  rw [takeRead, readAt, List.length_take, List.take_eq_take_iff]
  omega

theorem length_takeRead_le (bytes : List UInt8) (position limit short : ℕ) :
    (takeRead bytes position limit short).length ≤ limit := by
  rw [takeRead, readAt, List.length_take]
  omega

/-- A read returns nothing only at the end. -/
theorem take_eq_nil_of_takeRead {bytes : List UInt8} {position limit short : ℕ}
    (h : takeRead bytes position limit short = []) : (bytes.drop position).take limit = [] := by
  rw [takeRead, readAt, List.take_eq_nil_iff] at h
  rw [List.take_eq_nil_iff]
  refine h.imp (fun hzero => ?_) id
  have hcapacity : 0 < streamCapacity := by decide
  omega

/-- The chunks of `ReaderStream::new(file.take(limit))` behind a position, where `short` bounds what
the read with a number returns. -/
def takeStream (short : ℕ → ℕ) (bytes : List UInt8) (reads position limit : ℕ) :
    List (List UInt8) :=
  if _hmore : takeRead bytes position limit (short reads) ≠ [] then
    takeRead bytes position limit (short reads) ::
      takeStream short bytes (reads + 1)
        (position + (takeRead bytes position limit (short reads)).length)
        (limit - (takeRead bytes position limit (short reads)).length)
  else []
termination_by limit
decreasing_by
  have hpos := List.length_pos_of_ne_nil _hmore
  have hle := length_takeRead_le bytes position limit (short reads)
  omega

/-- The chunks are the bytes behind the position, up to the limit. -/
theorem flatten_takeStream (short : ℕ → ℕ) (bytes : List UInt8) (reads position limit : ℕ) :
    (takeStream short bytes reads position limit).flatten = (bytes.drop position).take limit := by
  fun_induction takeStream short bytes reads position limit with
  | case1 reads position limit hmore ih =>
    have hgot := takeRead_eq_take bytes position limit (short reads)
    have hle := length_takeRead_le bytes position limit (short reads)
    -- the rest of the stream is what lies behind the first read
    set got := takeRead bytes position limit (short reads)
    rw [List.flatten_cons, ih, ← List.drop_drop]
    calc got ++ ((bytes.drop position).drop got.length).take (limit - got.length)
        = (bytes.drop position).take got.length ++
            ((bytes.drop position).drop got.length).take (limit - got.length) := by rw [← hgot]
      _ = (bytes.drop position).take (got.length + (limit - got.length)) := List.take_add.symm
      _ = (bytes.drop position).take limit := by rw [Nat.add_sub_cancel' hle]
  | case2 reads position limit hend =>
    exact (take_eq_nil_of_takeRead (not_not.1 hend)).symm

/-! ### Responses -/

/-- An answer with its headers and the blocks of its body. -/
structure FileResponse where
  status : ℕ
  headers : List (String × String)
  body : List (List UInt8)
  deriving DecidableEq

namespace FileResponse

/-- The value of a header. -/
def header (response : FileResponse) (name : String) : Option String := response.headers.lookup name

/-- A response with a status alone. -/
def ofStatus (status : ℕ) : FileResponse where
  status
  headers := []
  body := []

/-- The response announces and carries the bytes of a file from `first` to `last`. -/
structure Serves (response : FileResponse) (bytes : List UInt8) (first last : ℕ) : Prop where
  ordered : first ≤ last
  inside : last < bytes.length
  contentLength : response.header "content-length" = some (toString (last - first + 1))
  body : response.body.flatten = (bytes.drop first).take (last - first + 1)

end FileResponse

/-! ### Ranges -/

/-- The bytes from `first` to `last` are what a request for `total` bytes means: all of them without
a header, and those that a well-formed range selects. -/
structure Means (range : Option HeaderValue) (total first last : ℕ) : Prop where
  whole : range = none → first = 0 ∧ last = total - 1
  clamped : ∀ text spec, range = some ⟨some text⟩ → IsRangeHeader text spec →
    spec.clamp total = some (first, last)

/-- The response carries an exact range of a file, the one that the request means. -/
def ServesRange (bytes : List UInt8) (range : Option HeaderValue)
    (response : FileResponse) : Prop :=
  ∃ first last, response.Serves bytes first last ∧ Means range bytes.length first last

/-- What a parser reads from a request for `total` bytes, with its reader of numbers. -/
inductive ParsedRange (number : String → Option UInt64) (total : UInt64) :
    Option HeaderValue → Option (UInt64 × UInt64) → Prop
  | absent : ParsedRange number total none none
  | bounds {value : String} {bounds : UInt64 × UInt64}
      (h : boundsOfText number total value = some bounds) :
      ParsedRange number total (some ⟨some ("bytes=" ++ value)⟩) (some bounds)

/-- The first and the last byte that a server chooses: those of the header, or all. -/
def chosenBytes (total : UInt64) (range : Option (UInt64 × UInt64)) : UInt64 × UInt64 :=
  range.getD (0, total - 1)

variable {number : String → Option UInt64} {total : UInt64} {header : Option HeaderValue}
  {range : Option (UInt64 × UInt64)}

/-- The chosen bytes lie in the resource, and the request means them. -/
theorem ParsedRange.chosenBytes_spec (h : ParsedRange number total header range)
    (hnumber : ∀ {text n m}, IsNumeral text n → number text = some m → m.toNat = n)
    (htotal : 0 < total.toNat) :
    (chosenBytes total range).1.toNat ≤ (chosenBytes total range).2.toNat ∧
      (chosenBytes total range).2.toNat < total.toNat ∧
      Means header total.toNat (chosenBytes total range).1.toNat
        (chosenBytes total range).2.toNat := by
  cases h with
  | absent =>
    have hone : (1 : UInt64) ≤ total := UInt64.le_iff_toNat_le.2 htotal
    have hlast : (total - 1).toNat = total.toNat - 1 := UInt64.toNat_sub_of_le _ _ hone
    simp only [chosenBytes, Option.getD_none, hlast, UInt64.toNat_zero]
    refine ⟨Nat.zero_le _, by omega, fun _ => ⟨rfl, rfl⟩, fun text spec habsurd => ?_⟩
    exact absurd habsurd (Option.some_ne_none _).symm
  | @bounds value bounds h =>
    obtain ⟨first, last⟩ := bounds
    obtain ⟨before, after, -, hbounds⟩ := boundsOfText_eq_some_iff.1 h
    obtain ⟨horder, hinside⟩ := bounds_of_rangeBounds hbounds
    refine ⟨horder, hinside, fun habsurd => absurd habsurd (Option.some_ne_none _), ?_⟩
    intro text spec htext hspec
    simp only [Option.some.injEq, HeaderValue.mk.injEq] at htext
    exact clamp_of_boundsOfText hnumber (htext ▸ hspec) h

/-- A response that announces the number of the chosen bytes and streams so many bytes of a file
from the first of them on serves the range that the request means. -/
theorem ParsedRange.servesRange {file : ServedFile} (h : ParsedRange number file.len header range)
    (hnumber : ∀ {text n m}, IsNumeral text n → number text = some m → m.toNat = n)
    (hpos : 0 < file.bytes.length) {short : ℕ → ℕ} {response : FileResponse} {length : UInt64}
    (hlength : length.toNat = (chosenBytes file.len range).2.toNat -
      (chosenBytes file.len range).1.toNat + 1)
    (hheader : response.header "content-length" = some (toString length.toNat))
    (hbody : response.body = takeStream short file.bytes 0
      (chosenBytes file.len range).1.toNat length.toNat) :
    ServesRange file.bytes header response := by
  obtain ⟨horder, hinside, hmeans⟩ :=
    h.chosenBytes_spec hnumber (file.toNat_len.symm ▸ hpos)
  rw [file.toNat_len] at hinside hmeans
  refine ⟨_, _, ⟨horder, hinside, ?_, ?_⟩, hmeans⟩
  · rw [hheader, hlength]
  · rw [hbody, flatten_takeStream, hlength]

end EasyDeployMesh
