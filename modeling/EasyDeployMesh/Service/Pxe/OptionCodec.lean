import EasyDeployMesh.Service.Pxe.ReplyOptions

/-!
# The options of a packet as a codec

Options that are written one behind the other are read back, and the walk over the options of a
packet from the network stays inside it. The walk is given a second time as the loop over indices
that it is in the source, in which a read outside the packet panics; it reads what `dhcpOption`
reads.

## Main definitions

* `EasyDeployMesh.writeOptions`: options behind a header, with the end mark.
* `EasyDeployMesh.dhcpOptionLoop`, `EasyDeployMesh.checkedDhcpOption`: the loop over indices.

## Main results

* `EasyDeployMesh.dhcpOption_writeOptions`: the first option with a code is read back.
* `EasyDeployMesh.checkedDhcpOption_eq`: the loop ends and reads inside the packet.
* `EasyDeployMesh.processDhcp_ne_panicked`: no packet makes the answer panic.
-/

namespace EasyDeployMesh

open Foundations

/-! ### Writing options -/

/-- An option that `push_option` writes and `dhcp_option` finds. -/
structure IsCodable (option : UInt8 × List UInt8) : Prop where
  code : option.1 ≠ 0 ∧ option.1 ≠ 255
  length : option.2.length ≤ 255

/-- The options behind a header, one `push_option` after the other, and the end mark. -/
def writeOptions (header : List UInt8) (options : List (UInt8 × List UInt8)) : List UInt8 :=
  options.foldl (fun out option => pushOption out option.1 option.2) header ++ [255]

theorem writeOptions_eq (header : List UInt8) (options : List (UInt8 × List UInt8)) :
    writeOptions header options = header ++ encodeOptions options ++ [255] := by
  unfold writeOptions
  congr 1
  induction options generalizing header with
  | nil => rw [List.foldl_nil, encodeOptions, List.flatMap_nil, List.append_nil]
  | cons option options ih =>
    rw [List.foldl_cons, ih, pushOption_eq_append, List.append_assoc]
    rfl

private theorem find?_and_length_of_isCodable {options : List (UInt8 × List UInt8)}
    (hoptions : ∀ option ∈ options, IsCodable option) (wanted : UInt8) :
    (options.find? fun option => option.1 = wanted ∧ option.2.length ≤ 255) =
      options.find? fun option => option.1 = wanted := by
  induction options with
  | nil => rfl
  | cons option options ih =>
    obtain ⟨hoption, hrest⟩ := List.forall_mem_cons.mp hoptions
    rw [List.find?_cons, List.find?_cons, ih hrest,
      decide_eq_decide.mpr (and_iff_left hoption.length)]

/-- A reader finds the first option with the code, and nothing when there is none. -/
theorem dhcpOption_writeOptions {header : List UInt8} (hheader : header.length = 240)
    {options : List (UInt8 × List UInt8)} (hoptions : ∀ option ∈ options, IsCodable option)
    (wanted : UInt8) :
    dhcpOption (writeOptions header options) wanted =
      (options.find? fun option => option.1 = wanted).map Prod.snd := by
  have hdrop : (header ++ encodeOptions options ++ [255]).drop 240 =
      encodeOptions options ++ [255] := by
    rw [List.append_assoc, ← hheader, List.drop_left]
  rw [writeOptions_eq, dhcpOption, if_neg (by simp [hheader]), hdrop,
    optionFrom_encodeOptions fun option hmem => (hoptions option hmem).code,
    find?_and_length_of_isCodable hoptions]

/-! ### The loop over indices -/

/-- The loop of `dhcp_option` from the index `i`. -/
def dhcpOptionLoop (packet : List UInt8) (wanted : UInt8) (i : ℕ) :
    Except DhcpStop (Option (List UInt8)) := do
  if _h : i < packet.length then
    let code ← unwrap packet[i]?
    if code = 255 then .ok none
    else if code = 0 then dhcpOptionLoop packet wanted (i + 1)
    else if packet.length ≤ i + 1 then .ok none
    else
      let len ← unwrap packet[i + 1]?
      if packet.length < i + 2 + len.toNat then .ok none
      else if code = wanted then
        let value ← unwrap (slice packet (i + 2) (i + 2 + len.toNat))
        .ok (some value)
      else dhcpOptionLoop packet wanted (i + 2 + len.toNat)
  else .ok none
termination_by packet.length - i

/-- The lookup of an option as the source writes it, with each access to the packet. -/
def checkedDhcpOption (packet : List UInt8) (wanted : UInt8) :
    Except DhcpStop (Option (List UInt8)) :=
  if packet.length < 240 then .ok none else dhcpOptionLoop packet wanted 240

/-- The bytes of a value are passed over. -/
theorem optionFrom_skip (wanted : UInt8) (skip : ℕ) (l : List UInt8) :
    optionFrom wanted skip l = optionFrom wanted 0 (l.drop skip) := by
  induction l generalizing skip with
  | nil => rw [List.drop_nil, optionFrom, optionFrom]
  | cons b l ih =>
    cases skip with
    | zero => rw [List.drop_zero]
    | succ skip => rw [optionFrom, List.drop_succ_cons, ih]

/-- The loop reads the options behind its index, and it reads inside the packet. -/
theorem dhcpOptionLoop_eq (packet : List UInt8) (wanted : UInt8) (i : ℕ) :
    dhcpOptionLoop packet wanted i = .ok (optionFrom wanted 0 (packet.drop i)) := by
  induction hk : packet.length - i using Nat.strong_induction_on generalizing i with
  | h k ih =>
    unfold dhcpOptionLoop
    by_cases hi : i < packet.length
    · have hdrop : packet.drop i = packet[i] :: packet.drop (i + 1) := List.drop_eq_getElem_cons hi
      rw [dif_pos hi, List.getElem?_eq_getElem hi, hdrop, optionFrom.eq_def]
      change (if packet[i] = 255 then _ else _) = Except.ok (if packet[i] = 255 then _ else _)
      by_cases hend : packet[i] = 255
      · rw [if_pos hend, if_pos hend]
      by_cases hpad : packet[i] = 0
      · rw [if_neg hend, if_neg hend, if_pos hpad, if_pos hpad]
        exact ih _ (by omega) (i + 1) rfl
      rw [if_neg hend, if_neg hend, if_neg hpad, if_neg hpad]
      by_cases hlast : packet.length ≤ i + 1
      · rw [if_pos hlast, List.drop_of_length_le hlast]
      have hlen : i + 1 < packet.length := by omega
      have hvalue : (packet.drop (i + 1 + 1)).length = packet.length - (i + 2) := List.length_drop
      rw [if_neg hlast, List.getElem?_eq_getElem hlen, List.drop_eq_getElem_cons hlen]
      change (if packet.length < i + 2 + (packet[i + 1]).toNat then _ else _) =
        Except.ok (if (packet.drop (i + 1 + 1)).length < (packet[i + 1]).toNat then _ else _)
      rw [hvalue]
      by_cases hshort : packet.length < i + 2 + packet[i + 1].toNat
      · rw [if_pos hshort, if_pos (by omega)]
      have hfits : ¬ packet.length - (i + 2) < packet[i + 1].toNat := by omega
      rw [if_neg hshort, if_neg hfits]
      by_cases hcode : packet[i] = wanted
      · rw [if_pos hcode, if_pos hcode, slice, if_pos (by omega), Nat.add_sub_cancel_left]
        rfl
      · rw [if_neg hcode, if_neg hcode, ih _ (by omega) (i + 2 + packet[i + 1].toNat) rfl,
          optionFrom_skip wanted (1 + _), Nat.add_comm 1, List.drop_succ_cons, List.drop_drop]
    · rw [dif_neg hi, List.drop_of_length_le (Nat.le_of_not_lt hi)]
      rfl

/-- The loop ends, and no read leaves the packet. -/
theorem checkedDhcpOption_eq (packet : List UInt8) (wanted : UInt8) :
    checkedDhcpOption packet wanted = .ok (dhcpOption packet wanted) := by
  unfold checkedDhcpOption dhcpOption
  split_ifs
  · rfl
  · exact dhcpOptionLoop_eq packet wanted 240

/-! ### Packets from the network -/

/-- The address that the standalone server offers is found without a panic. -/
theorem offeredAddress_ne_panicked {config : PxeConfig} {packet : List UInt8}
    (hlen : 240 ≤ packet.length) (message : UInt8) (mac : String) (leases : LeaseTable)
    (now : Instant) :
    (offeredAddress config packet message mac leases now).1 ≠ .error .panicked := by
  obtain ⟨requested, hrequested⟩ := exists_requestedAddress hlen
  unfold offeredAddress
  split_ifs
  · split <;> simp
  · rw [hrequested]
    cases requested with
    | none => simp
    | some ip =>
      dsimp only
      split <;> simp
  · simp
  · simp

/-- With a checked configuration, no packet makes the answer panic. -/
theorem processDhcp_ne_panicked {host : PxeHost} {config : PxeConfig}
    (hconfig : validatePxeConfig host config = .ok ()) (packet : List UInt8) (peer : SocketAddr)
    (leases : LeaseTable) (now : Instant) :
    (processDhcp config packet peer leases now).1 ≠ .error .panicked := by
  obtain ⟨server, mask, start, last, hvalid⟩ := exists_validated hconfig
  unfold processDhcp
  cases hclient : dhcpClient packet with
  | error stop =>
    have hstop := dhcpClient_ne_panicked packet
    rw [hclient] at hstop
    simpa using hstop
  | ok client =>
    obtain ⟨message, mac⟩ := client
    obtain ⟨hlen, -⟩ := dhcpClient_eq_ok hclient
    have hoffered := @offeredAddress_ne_panicked config _ hlen message mac leases now
    dsimp only
    split_ifs
    · simp
    · cases hoffer : offeredAddress config packet message mac leases now with
      | mk offer leases' =>
        rw [hoffer] at hoffered
        cases offer with
        | error stop => simpa using hoffered
        | ok offer =>
          obtain ⟨reply, hreply, -⟩ := exists_dhcpReply hvalid hlen peer mac offer.1 offer.2
          simp [hreply]

/-- Options with codes other than 0 and 255 and values of at most 255 bytes, written behind a
header, are read back, the first one with the code; and for every packet, however it is cut off or
damaged, the walk over the options ends inside the packet and the answer to it does not panic. -/
theorem optionCodec :
    (∀ (header : List UInt8) (options : List (UInt8 × List UInt8)) (wanted : UInt8),
      header.length = 240 → (∀ option ∈ options, IsCodable option) →
        dhcpOption (writeOptions header options) wanted =
          (options.find? fun option => option.1 = wanted).map Prod.snd) ∧
    (∀ (packet : List UInt8) (wanted : UInt8),
      checkedDhcpOption packet wanted = .ok (dhcpOption packet wanted)) ∧
    ∀ (host : PxeHost) (config : PxeConfig), validatePxeConfig host config = .ok () →
      ∀ (packet : List UInt8) (peer : SocketAddr) (leases : LeaseTable) (now : Instant),
        (processDhcp config packet peer leases now).1 ≠ .error .panicked :=
  ⟨fun _ _ wanted hheader hoptions => dhcpOption_writeOptions hheader hoptions wanted,
    checkedDhcpOption_eq, fun _ _ hconfig => processDhcp_ne_panicked hconfig⟩

/-- Options of which two have the same code. -/
def repeatedOptions : List (UInt8 × List UInt8) := [(53, [1]), (60, [80, 88, 69]), (53, [3])]

/-- A packet that ends inside the value of its second option. -/
def cutOffPacket : List UInt8 := (labPacket 1 1 [60, 9, 80, 88, 69]).dropLast

theorem optionCodec_repeatedOptions :
    (dhcpOption (writeOptions (List.replicate 240 0) repeatedOptions) 53 = some [1] ∧
      dhcpOption (writeOptions (List.replicate 240 0) repeatedOptions) 60 = some [80, 88, 69] ∧
      dhcpOption (writeOptions (List.replicate 240 0) repeatedOptions) 61 = none) ∧
    checkedDhcpOption cutOffPacket 60 = .ok none ∧
    (processDhcp labPxeConfig cutOffPacket { ip := .v4 ⟨0⟩, port := dhcpClientPort } ∅ 0).1 ≠
      .error .panicked := by
  obtain ⟨hroundTrip, hchecked, hanswer⟩ := optionCodec
  have hcodable : ∀ option ∈ repeatedOptions, IsCodable option := by
    intro option hoption
    have hall : repeatedOptions.all (fun option =>
        decide ((option.1 ≠ 0 ∧ option.1 ≠ 255) ∧ option.2.length ≤ 255)) = true := by decide
    obtain ⟨hcode, hlength⟩ := of_decide_eq_true (List.all_eq_true.1 hall option hoption)
    exact ⟨hcode, hlength⟩
  have hread wanted := hroundTrip (List.replicate 240 0) repeatedOptions wanted
    List.length_replicate hcodable
  have hcutOff : dhcpOption cutOffPacket 60 = none := by decide +kernel
  refine ⟨⟨hread 53, hread 60, hread 61⟩, ?_, ?_⟩
  · rw [hchecked, hcutOff]
  · exact hanswer labPxeHost labPxeConfig (by decide +kernel) _ _ _ _

end EasyDeployMesh
