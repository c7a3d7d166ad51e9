import EasyDeployMesh.Gho.SpanReader

/-!
# The image stream of the control plane

What `download_job_image` sends for a GHO image: the primary file, chained with each continuation
behind a seek over its header. A chained reader asks its second part when the first one returns
nothing, and the stream asks the reader until it returns nothing. The files may return fewer bytes
than there are.

## Main definitions

* `EasyDeployMesh.ByteSource`, `EasyDeployMesh.ByteSource.poll`: readers and their reads.
* `EasyDeployMesh.ByteSource.stream`, `EasyDeployMesh.imageSource`: the chunks of the response, and
  the reader for the files of an image.

## Main results

* `EasyDeployMesh.flatten_stream`: the chunks are the content of the reader.
* `EasyDeployMesh.flatten_stream_imageSource`: the response is the stream that `SpanReader`
  presents.
* `EasyDeployMesh.refinesImageBytes_of_new`: what `SpanReader` answers, and that it is what is sent.
-/

namespace EasyDeployMesh

open Foundations Gho

/-- A file behind a seek, or two readers one behind the other. -/
inductive ByteSource
  | file (bytes : List UInt8) (position : ℕ)
  | chain (first second : ByteSource) (doneFirst : Bool)

namespace ByteSource

/-- A read to a buffer of `capacity` bytes, when a file returns no more than `short` bytes, or
one. -/
def poll (capacity short : ℕ) : ByteSource → List UInt8 × ByteSource
  | file bytes position =>
    let got := readAt bytes position capacity short
    (got, file bytes (position + got.length))
  | chain first second true =>
    let (got, second) := second.poll capacity short
    (got, chain first second true)
  | chain first second false =>
    let (got, first) := first.poll capacity short
    if got = [] then
      let (got, second) := second.poll capacity short
      (got, chain first second true)
    else (got, chain first second false)

/-- The bytes that a reader has still to return. -/
def content : ByteSource → List UInt8
  | file bytes position => bytes.drop position
  | chain _ second true => second.content
  | chain first second false => first.content ++ second.content

variable {capacity short : ℕ}

private theorem take_append_drop_length {α : Type} (l : List α) (n : ℕ) :
    l.take n ++ l.drop (l.take n).length = l := by
  rw [List.length_take]
  rcases Nat.le_total n l.length with hle | hle
  · rw [Nat.min_eq_left hle, List.take_append_drop]
  · rw [Nat.min_eq_right hle, List.take_of_length_le hle, List.drop_length, List.append_nil]

/-- A read returns the first bytes of the content, and nothing only when there are none. -/
theorem content_poll (hcapacity : 0 < capacity) (source : ByteSource) :
    (source.poll capacity short).1 ++ (source.poll capacity short).2.content = source.content ∧
      ((source.poll capacity short).1 = [] → source.content = []) := by
  induction source with
  | file bytes position =>
    refine ⟨?_, fun hnone => ?_⟩
    · simp only [poll, content, readAt, ← List.drop_drop]
      exact take_append_drop_length _ _
    · rcases List.take_eq_nil_iff.1 hnone with hzero | hnil
      · omega
      · exact hnil
  | chain first second doneFirst ihFirst ihSecond =>
    cases doneFirst with
    | true => exact ihSecond
    | false =>
      obtain ⟨hfirst, hfirstEnd⟩ := ihFirst
      simp only [poll]
      split_ifs with hnone
      · -- the first reader is at its end, and the read goes on to the second one
        simp only [content, hfirstEnd hnone, List.nil_append]
        exact ihSecond
      · refine ⟨?_, fun h => absurd h hnone⟩
        simp only [content]
        rw [← List.append_assoc, hfirst]

/-- The chunks of a stream; `reads` is the number of reads before it. -/
def stream (short : ℕ → ℕ) (capacity reads : ℕ) (source : ByteSource) : List (List UInt8) :=
  if _hnone : 0 < capacity ∧ (source.poll capacity (short reads)).1 ≠ [] then
    (source.poll capacity (short reads)).1 ::
      stream short capacity (reads + 1) (source.poll capacity (short reads)).2
  else []
termination_by source.content.length
decreasing_by
  have hpoll : (source.poll capacity (short reads)).1 ++
      (source.poll capacity (short reads)).2.content = source.content :=
    (content_poll _hnone.1 source).1
  have hlength := congrArg List.length hpoll
  have hpos := List.length_pos_of_ne_nil _hnone.2
  rw [List.length_append] at hlength
  omega

/-- The chunks are the content of the reader. -/
theorem flatten_stream (short : ℕ → ℕ) (hcapacity : 0 < capacity) (reads : ℕ)
    (source : ByteSource) :
    (source.stream short capacity reads).flatten = source.content := by
  fun_induction stream short capacity reads source with
  | case1 reads source hmore ih =>
    rw [List.flatten_cons, ih, (content_poll hcapacity source).1]
  | case2 reads source hend =>
    have hnone : (source.poll capacity (short reads)).1 = [] := by
      by_contra hmore
      exact hend ⟨hcapacity, hmore⟩
    exact ((content_poll hcapacity source).2 hnone).symm

end ByteSource

/-! ### The files of an image -/

/-- The reader that `download_job_image` makes: the primary file, and each continuation behind its
header. -/
def imageSource (primary : List UInt8) (spans : List (List UInt8)) : ByteSource :=
  spans.foldl (fun reader span => .chain reader (.file span headerSize) false) (.file primary 0)

private theorem content_foldl (reader : ByteSource) (spans : List (List UInt8)) :
    (spans.foldl (fun reader span => .chain reader (.file span headerSize) false) reader).content =
      reader.content ++ (spans.map (List.drop headerSize)).flatten := by
  induction spans generalizing reader with
  | nil => exact (List.append_nil _).symm
  | cons span spans ih =>
    rw [List.foldl_cons, ih, List.map_cons, List.flatten_cons, ← List.append_assoc]
    rfl

/-- The response is the stream that `SpanReader` presents. -/
theorem flatten_stream_imageSource (short : ℕ → ℕ) {capacity : ℕ} (hcapacity : 0 < capacity)
    (primary : List UInt8) (spans : List (List UInt8)) :
    ((imageSource primary spans).stream short capacity 0).flatten =
      flatImage (primary :: spans) := by
  rw [ByteSource.flatten_stream short hcapacity, imageSource, content_foldl, flatImage_cons]
  rfl

/-- The bytes of an image: the primary file, and each continuation without its first 512 bytes. -/
def imageBytes (primary : List UInt8) (spans : List (List UInt8)) : List UInt8 :=
  primary ++ (spans.map (List.drop 512)).flatten

/-- Whatever the calls are and however short the reads of the files, `SpanReader` answers as the
byte string of the image with a position does, and the response of the control plane is that byte
string. -/
theorem refinesImageBytes_of_new {primary : List UInt8} {spans : List (List UInt8)} {r : SpanReader}
    (h : SpanReader.new (primary :: spans) = .ok r) (short : ℕ → ℕ) (calls : List StreamCall) :
    (r.run short calls).1 = ((FlatStream.mk (imageBytes primary spans) 0).run calls).1 ∧
      (r.run short calls).2.position =
        ((FlatStream.mk (imageBytes primary spans) 0).run calls).2.position ∧
      (r.run short calls).2.Reads short (imageBytes primary spans) ∧
      ∀ (polls : ℕ → ℕ) (capacity : ℕ), 0 < capacity →
        ((imageSource primary spans).stream polls capacity 0).flatten =
          imageBytes primary spans := by
  have hflat : flatImage (primary :: spans) = imageBytes primary spans :=
    flatImage_cons primary spans
  obtain ⟨-, hnew⟩ := presents_new h
  rw [hflat] at hnew
  obtain ⟨hanswers, hpresents⟩ := hnew.run short calls
  have hreads := hpresents.reads short
  rw [FlatStream.bytes_run] at hreads
  refine ⟨hanswers, hpresents.position.symm, hreads, fun polls capacity hcapacity => ?_⟩
  rw [flatten_stream_imageSource polls hcapacity, hflat]

/-- A primary file with two bytes of data. -/
def labPrimary : List UInt8 :=
  [0xfe, 0xef, 1, 0, 1, 2, 3, 4] ++ List.replicate 504 0 ++ [5, 6]

/-- A continuation with these bytes of data. -/
def labSpan (payload : List UInt8) : List UInt8 :=
  [0xfe, 0xef, 9, 0, 1, 2, 3, 4] ++ List.replicate 504 0 ++ payload

/-- A reader for a primary file and two continuations, the first of them without data. -/
def labReader : SpanReader where
  readers := [labPrimary, labSpan [], labSpan [7, 8]]
  starts := [0, 514, 514]
  lengths := [514, 0, 2]
  position := 0
  total := 516
  reads := 0

theorem refinesImageBytes_of_new_labReader :
    (labReader.run (fun _ => 1) [.seek (.fromEnd (-3)), .read 5]).2.Reads (fun _ => 1)
      (imageBytes labPrimary [labSpan [], labSpan [7, 8]]) :=
  (refinesImageBytes_of_new (show SpanReader.new _ = .ok labReader by decide +kernel)
    (fun _ => 1) [.seek (.fromEnd (-3)), .read 5]).2.2.1

end EasyDeployMesh
