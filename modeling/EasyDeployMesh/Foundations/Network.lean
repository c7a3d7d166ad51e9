import Mathlib.Tactic.Common
import Mathlib.Data.List.Basic
import Mathlib.Data.BitVec

/-!
# Byte buffers and network addresses

Slices of a byte buffer, where a range that leaves the buffer panics, and the addresses of
`std::net`. An IPv4 address is its number `u32::from`, whose four bytes are its octets.

## Main definitions

* `Foundations.slice`: the bytes of a range, if the range lies in the buffer;
  `Foundations.stringBytes`: the bytes of a text.
* `Foundations.Ipv4Addr`, `Foundations.Ipv4Addr.octets`, `Foundations.Ipv4Addr.parse`,
  `Foundations.Ipv4Addr.range`.
* `Foundations.IpAddr`, `Foundations.SocketAddr`.

## Main results

* `Foundations.Ipv4Addr.ofOctets_octet`: an address is read back from its octets.
* `Foundations.Ipv4Addr.mem_range`: the addresses of a range.
-/

namespace Foundations

/-! ### Slices -/

/-- `&buffer[start..end]`, which is undefined (a panic) outside the buffer. -/
def slice {α : Type} (l : List α) (first last : ℕ) : Option (List α) :=
  if first ≤ last ∧ last ≤ l.length then some ((l.drop first).take (last - first)) else none

theorem exists_slice {α : Type} {l : List α} {first last : ℕ} (h : first ≤ last)
    (hlast : last ≤ l.length) :
    ∃ part, slice l first last = some part ∧ part.length = last - first := by
  refine ⟨_, if_pos ⟨h, hlast⟩, ?_⟩
  rw [List.length_take, List.length_drop]
  omega

/-- The part of a buffer between two others is a slice. -/
theorem slice_append {α : Type} {pre part post : List α} {first last : ℕ}
    (hfirst : pre.length = first) (hlast : pre.length + part.length = last) :
    slice (pre ++ part ++ post) first last = some part := by
  subst hfirst hlast
  rw [slice, if_pos (by simp), List.append_assoc, List.drop_left, Nat.add_sub_cancel_left,
    List.take_left]

/-! ### Texts as bytes -/

/-- `str::as_bytes`. -/
def stringBytes (s : String) : List UInt8 := s.toByteArray.data.toList

theorem stringBytes_append (s t : String) :
    stringBytes (s ++ t) = stringBytes s ++ stringBytes t := by
  simp [stringBytes]

/-- A character has at most four bytes. -/
theorem length_stringBytes_le (s : String) : (stringBytes s).length ≤ 4 * s.toList.length := by
  rw [stringBytes, ← String.utf8Encode_toList]
  generalize s.toList = l
  induction l with
  | nil => simp
  | cons c l ih =>
    have hc := c.utf8Size_le_four
    rw [List.utf8Encode_cons]
    simp only [ByteArray.data_append, Array.toList_append, List.length_append,
      List.utf8Encode_singleton, List.data_toByteArray, List.length_cons,
      String.length_utf8EncodeChar] at ih ⊢
    omega

/-! ### IPv4 addresses -/

/-- `std::net::Ipv4Addr` as a number, for `u32::from`. -/
structure Ipv4Addr where
  bits : UInt32
  deriving DecidableEq, Repr

namespace Ipv4Addr

/-- `Ipv4Addr::new`. -/
def ofOctets (a b c d : UInt8) : Ipv4Addr :=
  ⟨UInt32.ofNat (((a.toNat * 256 + b.toNat) * 256 + c.toNat) * 256 + d.toNat)⟩

/-- The octet at the bit `k`. -/
def octet (ip : Ipv4Addr) (k : ℕ) : UInt8 := UInt8.ofNat (ip.bits.toNat / 2 ^ k)

/-- `Ipv4Addr::octets`. -/
def octets (ip : Ipv4Addr) : List UInt8 := [ip.octet 24, ip.octet 16, ip.octet 8, ip.octet 0]

/-- The address in the first four bytes, if there are as many. -/
def ofBytes : List UInt8 → Option Ipv4Addr
  | a :: b :: c :: d :: _ => some (ofOctets a b c d)
  | _ => none

/-- The address `0.0.0.0`. -/
def isUnspecified (ip : Ipv4Addr) : Bool := ip.bits == 0

/-- `Ipv4Addr::BROADCAST`. -/
def broadcast : Ipv4Addr := ⟨0xFFFFFFFF⟩

/-- The addresses from the first to the last one, in order. -/
def range (first last : Ipv4Addr) : List Ipv4Addr :=
  (List.range' first.bits.toNat (last.bits.toNat + 1 - first.bits.toNat)).map
    fun n => ⟨UInt32.ofNat n⟩

/-- A decimal number of at most three digits that fits a byte, without a leading zero. -/
def parseOctet (l : List Char) : Option UInt8 :=
  let value := l.foldl (fun value digit => 10 * value + (digit.toNat - '0'.toNat)) 0
  if l.isEmpty || 3 < l.length || !l.all Char.isDigit || (1 < l.length && l.head? == some '0') ||
      255 < value then none
  else some (UInt8.ofNat value)

/-- `Ipv4Addr::from_str`: four decimal octets with dots between them. -/
def parse (s : String) : Option Ipv4Addr :=
  match (s.toList.splitOn '.').mapM parseOctet with
  | some [a, b, c, d] => some (ofOctets a b c d)
  | _ => none

example : parse "192.168.10.100" = some (ofOctets 192 168 10 100) ∧ parse "192.168.010.1" = none ∧
    parse "1.2.3" = none ∧ parse "1.2.3.256" = none := by decide

private theorem length_of_parseOctet {l : List Char} {octet : UInt8}
    (h : parseOctet l = some octet) : l.length ≤ 3 := by
  unfold parseOctet at h
  dsimp only at h
  split_ifs at h with hchecks
  simp only [Bool.or_eq_true, decide_eq_true_eq, not_or, not_lt] at hchecks
  exact hchecks.1.1.1.2

private theorem length_of_mapM_parseOctet {parts : List (List Char)} {octets : List UInt8}
    (h : parts.mapM parseOctet = some octets) :
    (['.'].intercalate parts).length ≤ 4 * octets.length := by
  induction parts generalizing octets with
  | nil => simp [List.intercalate]
  | cons part parts ih =>
    simp only [List.mapM_cons, Option.bind_eq_bind, Option.bind_eq_some_iff, Option.pure_def,
      Option.some.injEq] at h
    obtain ⟨octet, hoctet, rest, hrest, rfl⟩ := h
    have hpart := length_of_parseOctet hoctet
    have hparts := ih hrest
    cases parts with
    | nil =>
      simp only [List.intercalate, List.intersperse, List.flatten_cons, List.flatten_nil,
        List.append_nil, List.length_cons]
      omega
    | cons next parts =>
      simp only [List.intercalate, List.intersperse, List.flatten_cons, List.length_append,
        List.length_cons, List.length_nil] at hparts ⊢
      omega

/-- The text of an address is short. -/
theorem length_of_parse {s : String} {ip : Ipv4Addr} (h : parse s = some ip) :
    s.toList.length ≤ 16 := by
  have hparts : ['.'].intercalate (s.toList.splitOn '.') = s.toList :=
    List.intercalate_splitOn '.'
  unfold parse at h
  split at h
  · rename_i a b c d hmap
    have hlength := length_of_mapM_parseOctet hmap
    rwa [hparts] at hlength
  · cases h

theorem ofOctets_octet (ip : Ipv4Addr) :
    ofOctets (ip.octet 24) (ip.octet 16) (ip.octet 8) (ip.octet 0) = ip := by
  obtain ⟨bits⟩ := ip
  have hlt := bits.toNat_lt
  simp only [ofOctets, octet, mk.injEq]
  apply UInt32.toNat_inj.1
  simp only [UInt32.toNat_ofNat', UInt8.toNat_ofNat']
  omega

theorem ofBytes_octets_append (ip : Ipv4Addr) (rest : List UInt8) :
    ofBytes (ip.octets ++ rest) = some ip := by
  simp [octets, ofBytes, ofOctets_octet]

@[simp] theorem length_octets (ip : Ipv4Addr) : ip.octets.length = 4 := rfl

theorem mem_range {first last ip : Ipv4Addr} :
    ip ∈ range first last ↔ first.bits ≤ ip.bits ∧ ip.bits ≤ last.bits := by
  simp only [range, List.mem_map, List.mem_range'_1, UInt32.le_iff_toNat_le]
  constructor
  · rintro ⟨n, hn, rfl⟩
    have hlast := last.bits.toNat_lt
    simp only [UInt32.toNat_ofNat']
    omega
  · intro h
    exact ⟨ip.bits.toNat, by omega, by simp⟩

end Ipv4Addr

/-! ### Socket addresses -/

/-- `std::net::IpAddr`. -/
inductive IpAddr
  | v4 (ip : Ipv4Addr)
  | v6 (ip : BitVec 128)
  deriving DecidableEq, Repr

/-- The unspecified address of either family. -/
def IpAddr.isUnspecified : IpAddr → Bool
  | .v4 ip => ip.isUnspecified
  | .v6 ip => ip == 0

/-- `std::net::SocketAddr`. -/
structure SocketAddr where
  ip : IpAddr
  port : UInt16
  deriving DecidableEq, Repr

end Foundations
