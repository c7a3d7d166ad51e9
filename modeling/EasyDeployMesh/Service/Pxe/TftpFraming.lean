import EasyDeployMesh.Foundations.Framing
import EasyDeployMesh.Service.Pxe.Tftp

/-!
# The framing of a file transfer

Whatever the network loses, repeats, delays or garbles: when the TFTP server of
`crates/service/src/pxe.rs` reports that a file was sent, the blocks it sent are a framing of the
file. The block numbers wrap at 65536, so only neighbouring packets are sure to differ.

## Main definitions

* `EasyDeployMesh.isData`, `EasyDeployMesh.packetBlock`: how a client reads a packet.
* `EasyDeployMesh.IsTransferOf`: the exchanges of a complete transfer.

## Main results

* `EasyDeployMesh.exists_ackedRun_of_sendTftpWithAck`: the attempts to send one packet.
* `EasyDeployMesh.isTransferOf_of_serveTftpRequest`: a request that was answered with a file.
-/

namespace EasyDeployMesh

open Foundations

/-! ### What was sent -/

/-- The packet is a data packet. -/
def isData : List UInt8 → Bool
  | 0 :: 3 :: _ => true
  | _ => false

/-- The block that the acknowledgement of a packet names. -/
def packetBlock : List UInt8 → UInt16
  | 0 :: 3 :: high :: low :: _ => u16FromBeBytes high low
  | _ => 0

/-- The exchanges of a complete transfer of a file in blocks of `size` bytes. -/
structure IsTransferOf (size : ℕ) (file : List UInt8) (trace : List TftpExchange) : Prop where
  /-- The payloads, numbered modulo 65536, are what was sent with the repetitions taken out. -/
  exists_payloads : ∃ payloads, IsFraming size file payloads ∧
    ((trace.map TftpExchange.packet).filter isData).destutter (· ≠ ·) =
      payloads.mapIdx fun k payload => dataPacket (UInt16.ofNat (k + 1)) payload
  /-- A new packet is sent only after an acknowledgement of the one before it. -/
  acknowledged : trace.IsChain fun previous exchange => previous.packet ≠ exchange.packet →
    previous.Acknowledged (packetBlock previous.packet)

@[simp] theorem packetBlock_dataPacket (block : UInt16) (payload : List UInt8) :
    packetBlock (dataPacket block payload) = block :=
  u16FromBeBytes_ofNat block

/-- The attempts to send one packet. -/
abbrev IsAckedRun : List UInt8 → List TftpExchange → Prop :=
  AckedRun TftpExchange.packet fun packet exchange => exchange.Acknowledged (packetBlock packet)

/-- The packets of the blocks from a number on. -/
def blockPackets (block : UInt16) (payloads : List (List UInt8)) : List (List UInt8) :=
  payloads.mapIdx fun k payload => dataPacket (block + UInt16.ofNat k) payload

theorem blockPackets_cons (block : UInt16) (payload : List UInt8) (payloads : List (List UInt8)) :
    blockPackets block (payload :: payloads) =
      dataPacket block payload :: blockPackets (block + 1) payloads := by
  have hnext (k : ℕ) : block + UInt16.ofNat (k + 1) = block + 1 + UInt16.ofNat k := by
    rw [UInt16.ofNat_add, UInt16.add_comm (UInt16.ofNat k), ← UInt16.add_assoc]
    rfl
  have hzero : block + UInt16.ofNat 0 = block := UInt16.add_zero block
  simp only [blockPackets, List.mapIdx_cons, hnext, hzero]

theorem blockPackets_append (block : UInt16) (payloads rest : List (List UInt8)) :
    blockPackets block (payloads ++ rest) =
      blockPackets block payloads ++ blockPackets (block + UInt16.ofNat payloads.length) rest := by
  have hlater (k : ℕ) : block + UInt16.ofNat (k + payloads.length) =
      block + UInt16.ofNat payloads.length + UInt16.ofNat k := by
    rw [UInt16.ofNat_add, UInt16.add_comm (UInt16.ofNat k), ← UInt16.add_assoc]
  simp only [blockPackets, List.mapIdx_append, hlater]

theorem isData_of_mem_blockPackets {block : UInt16} {payloads : List (List UInt8)} :
    ∀ packet ∈ blockPackets block payloads, isData packet = true := by
  intro packet hpacket
  obtain ⟨k, hk, rfl⟩ := List.mem_mapIdx.mp hpacket
  rfl

/-- Neighbouring blocks have different numbers. -/
theorem isChain_blockPackets (block : UInt16) (payloads : List (List UInt8)) :
    (blockPackets block payloads).IsChain (· ≠ ·) := by
  refine List.isChain_iff_getElem.mpr fun k hk heq => ?_
  simp only [blockPackets, List.getElem_mapIdx] at heq
  have hblock := congrArg packetBlock heq
  rw [packetBlock_dataPacket, packetBlock_dataPacket, UInt16.add_right_inj] at hblock
  have hnat := congrArg UInt16.toNat hblock
  rw [UInt16.toNat_ofNat', UInt16.toNat_ofNat'] at hnat
  omega

/-! ### Sending one packet -/

section Send

variable {network : TftpNetwork} {packet : List UInt8} {block : UInt16} {seconds : ℕ}
  {trace trace' : List TftpExchange}

private theorem exists_ackedRun_of_attemptTftp (hblock : packetBlock packet = block)
    {attempts : ℕ} (h : attemptTftp network packet block seconds attempts trace =
      (.ok true, trace')) : ∃ run, IsAckedRun packet run ∧ trace' = trace ++ run := by
  induction attempts generalizing trace with
  | zero => simp [attemptTftp] at h
  | succ attempts ih =>
    rw [attemptTftp] at h
    split at h
    · simp at h
    · dsimp only at h
      split at h
      next hanswer =>
        obtain ⟨datagram, hdatagram, hack⟩ := Option.any_eq_true _ _ |>.mp hanswer
        refine ⟨_, AckedRun.singleton rfl ⟨datagram, hdatagram, ?_⟩, (Prod.mk.inj h).2.symm⟩
        rwa [hblock]
      next =>
        obtain ⟨run, hrun, rfl⟩ := ih h
        exact ⟨_ :: run, hrun.cons rfl, by rw [List.append_assoc, List.singleton_append]⟩

/-- A packet that was sent with success was sent up to four times, and acknowledged at last. -/
theorem exists_ackedRun_of_sendTftpWithAck (hblock : packetBlock packet = block)
    (h : sendTftpWithAck network packet block seconds trace = (.ok true, trace')) :
    ∃ run, IsAckedRun packet run ∧ trace' = trace ++ run :=
  exists_ackedRun_of_attemptTftp hblock h

end Send

/-! ### Sending a file -/

namespace TftpTransfer

variable {network : TftpNetwork} {transfer : TftpTransfer} {trace trace' : List TftpExchange}

theorem exists_ackedRun_of_send {stage : String} {packet : List UInt8} {block : UInt16}
    (hblock : packetBlock packet = block)
    (h : transfer.send network stage packet block trace = (.ok (), trace')) :
    ∃ run, IsAckedRun packet run ∧ trace' = trace ++ run := by
  rw [send] at h
  split at h
  · simp at h
  · simp at h
  next hsend =>
    obtain rfl := (Prod.mk.inj h).2
    exact exists_ackedRun_of_sendTftpWithAck hblock hsend

theorem exists_ackedRuns_of_sendOptions
    (h : transfer.sendOptions network = (.ok (), trace)) :
    ∃ packets runs, List.Forall₂ IsAckedRun packets runs ∧ trace = runs.flatten ∧
      ∀ packet ∈ packets, isData packet = false := by
  rw [sendOptions] at h
  split at h
  · exact ⟨[], [], .nil, (Prod.mk.inj h).2.symm, by simp⟩
  · obtain ⟨run, hrun, htrace⟩ := exists_ackedRun_of_send rfl h
    exact ⟨_, [run], .cons hrun .nil, by simpa using htrace, by simp [oackPacket, isData]⟩

theorem exists_ackedRuns_of_sendLast {block : UInt16}
    (h : transfer.sendLast network block trace = (.ok (), trace')) :
    ∃ runs, List.Forall₂ IsAckedRun
      (blockPackets block
        (if transfer.file.contents.length % transfer.options.blockSize.bytes = 0 then [[]] else []))
      runs ∧ trace' = trace ++ runs.flatten := by
  rw [sendLast] at h
  split at h
  next hfull =>
    obtain ⟨run, hrun, rfl⟩ := exists_ackedRun_of_send (packetBlock_dataPacket _ _) h
    rw [if_pos hfull, blockPackets_cons]
    exact ⟨[run], .cons hrun .nil, by simp⟩
  next hfull =>
    obtain rfl := (Prod.mk.inj h).2
    rw [if_neg hfull]
    exact ⟨[], .nil, by simp⟩

/-- The blocks of the bytes that remain are sent one after the other. -/
theorem exists_ackedRuns_of_sendBlocks {block next : UInt16} {remaining : List UInt8}
    (h : transfer.sendBlocks network block remaining trace = (.ok next, trace')) :
    next = block + UInt16.ofNat (chunks transfer.options.blockSize.bytes remaining).length ∧
      ∃ runs, List.Forall₂ IsAckedRun
        (blockPackets block (chunks transfer.options.blockSize.bytes remaining)) runs ∧
        trace' = trace ++ runs.flatten := by
  induction hk : remaining.length using Nat.strong_induction_on
    generalizing block remaining trace with
  | h k ih =>
    have hpos := transfer.options.blockSize.pos
    rw [sendBlocks] at h
    split at h
    next hnil =>
      obtain ⟨hnext, rfl⟩ := Prod.mk.inj h
      subst hnil
      rw [chunks_nil]
      exact ⟨by simpa using (Except.ok.inj hnext).symm, [], .nil, by simp⟩
    next hne =>
      have hlength := List.length_pos_of_ne_nil hne
      split at h
      · simp at h
      · dsimp only at h
        split at h
        · simp at h
        next sent hsend =>
          obtain ⟨run, hrun, rfl⟩ := exists_ackedRun_of_send (packetBlock_dataPacket _ _) hsend
          obtain ⟨hnext, runs, hruns, rfl⟩ :=
            ih _ (by rw [List.length_drop]; omega) h rfl
          rw [chunks_of_ne_nil hpos hne, blockPackets_cons, List.length_cons]
          refine ⟨?_, run :: runs, .cons hrun hruns, ?_⟩
          · rw [hnext, UInt16.ofNat_add, UInt16.add_comm (UInt16.ofNat _), ← UInt16.add_assoc]
            rfl
          · rw [List.flatten_cons, List.append_assoc]

/-- The confirmation of the options is no part of the data. -/
private theorem filter_isData {packets : List (List UInt8)} {block : UInt16}
    {payloads : List (List UInt8)} {optionRuns runs : List (List TftpExchange)}
    (hoptions : List.Forall₂ IsAckedRun packets optionRuns)
    (hnoData : ∀ packet ∈ packets, isData packet = false)
    (hruns : List.Forall₂ IsAckedRun (blockPackets block payloads) runs) :
    ((optionRuns ++ runs).flatten.map TftpExchange.packet).filter isData =
      runs.flatten.map TftpExchange.packet := by
  rw [List.flatten_append, List.map_append, List.filter_append, List.filter_eq_nil_iff.mpr,
    List.filter_eq_self.mpr, List.nil_append]
  · intro packet hpacket
    obtain ⟨exchange, hexchange, rfl⟩ := List.mem_map.mp hpacket
    exact isData_of_mem_blockPackets _ (sent_mem_of_ackedRun hruns exchange hexchange)
  · intro packet hpacket
    obtain ⟨exchange, hexchange, rfl⟩ := List.mem_map.mp hpacket
    simp [hnoData _ (sent_mem_of_ackedRun hoptions exchange hexchange)]

/-- The transfer of a file sends the blocks of its framing, each until it is acknowledged. -/
theorem isTransferOf_of_sendFile (h : transfer.sendFile network = (.ok (), trace)) :
    IsTransferOf transfer.options.blockSize.bytes transfer.file.contents trace := by
  rw [sendFile] at h
  split at h
  · simp at h
  · split at h
    · simp at h
    next sentOptions hoptions =>
      split at h
      · simp at h
      next block sentBlocks hblocks =>
        obtain ⟨packets, optionRuns, hoptionRuns, rfl, hnoData⟩ :=
          exists_ackedRuns_of_sendOptions hoptions
        obtain ⟨hnext, blockRuns, hblockRuns, rfl⟩ := exists_ackedRuns_of_sendBlocks hblocks
        obtain ⟨lastRuns, hlastRuns, rfl⟩ := exists_ackedRuns_of_sendLast h
        have hsent : List.Forall₂ IsAckedRun (blockPackets 1
            (chunks transfer.options.blockSize.bytes transfer.file.contents ++
              if transfer.file.contents.length % transfer.options.blockSize.bytes = 0 then [[]]
              else [])) (blockRuns ++ lastRuns) := by
          rw [blockPackets_append, ← hnext]
          exact List.rel_append hblockRuns hlastRuns
        have htrace : optionRuns.flatten ++ blockRuns.flatten ++ lastRuns.flatten =
            (optionRuns ++ (blockRuns ++ lastRuns)).flatten := by simp
        rw [htrace]
        refine ⟨⟨_, isFraming_chunks transfer.options.blockSize.pos _, ?_⟩,
          isChain_flatten_of_ackedRun (List.rel_append hoptionRuns hsent)⟩
        rw [filter_isData hoptionRuns hnoData hsent,
          destutter_flatten_of_ackedRun hsent (isChain_blockPackets _ _)]
        simp only [blockPackets, UInt16.ofNat_add, UInt16.add_comm 1]
        rfl

end TftpTransfer

/-! ### Answering a request -/

section Request

variable {network : TftpNetwork} {host : TftpHost} {transfer : TftpTransfer}
  {trace : List TftpExchange}

private theorem sendTftpError_ne_transferred {code : UInt16} {message : String} :
    sendTftpError network code message ≠ (.ok (.transferred transfer), trace) := by
  rw [sendTftpError]
  split <;> simp

theorem exists_openFile_of_serveFile {clientIp : IpAddr} {relativeName : String}
    {options : List (List UInt8)}
    (h : serveFile network host clientIp relativeName options =
      (.ok (.transferred transfer), trace)) :
    (∃ root path, host.canonicalRoot = .ok root ∧ root <+: path ∧
      host.openFile path = .ok transfer.file) ∧
      transfer.sendFile network = (.ok (), trace) := by
  rw [serveFile] at h
  split at h
  · simp at h
  next root hroot =>
    split at h
    · exact absurd h sendTftpError_ne_transferred
    next path hpath =>
      split at h
      · exact absurd h sendTftpError_ne_transferred
      next hinside =>
        split at h
        · simp at h
        next file hfile =>
          obtain ⟨hresult, htrace⟩ := Prod.mk.inj h
          obtain ⟨_, hsent, htransfer⟩ := map_eq_ok_iff.mp hresult
          obtain rfl := TftpOutcome.transferred.inj htransfer
          have hprefix := (not_or.mp hinside).1
          rw [not_not, List.isPrefixOf_iff_prefix] at hprefix
          exact ⟨⟨root, path, hroot, hprefix, hfile⟩, Prod.ext hsent htrace⟩

/-- A request that was answered with a file: the file is below the root. -/
theorem exists_openFile_of_serveTftpRequest {peer : SocketAddr} {request : List UInt8}
    (h : serveTftpRequest network host peer request = (.ok (.transferred transfer), trace)) :
    (∃ root path, host.canonicalRoot = .ok root ∧ root <+: path ∧
      host.openFile path = .ok transfer.file) ∧
      transfer.sendFile network = (.ok (), trace) := by
  unfold serveTftpRequest at h
  split at h
  · dsimp only at h
    split at h
    · exact absurd h sendTftpError_ne_transferred
    · split at h
      · simp at h
      · split at h
        · simp at h
        · split at h
          · exact absurd h sendTftpError_ne_transferred
          · exact exists_openFile_of_serveFile h
  · exact absurd (Prod.mk.inj h).1 (by simp)

/-- Whatever the network answers, a request that was answered with a file got the blocks of its
framing, in their order. -/
theorem isTransferOf_of_serveTftpRequest {peer : SocketAddr} {request : List UInt8}
    (h : serveTftpRequest network host peer request = (.ok (.transferred transfer), trace)) :
    IsTransferOf transfer.options.blockSize.bytes transfer.file.contents trace :=
  TftpTransfer.isTransferOf_of_sendFile (exists_openFile_of_serveTftpRequest h).2

end Request

/-! ### A transfer -/

/-- A host with one file, of the size of one block. -/
def oneFileHost : TftpHost where
  isAbsolute name := name.startsWith "/"
  components name := [.normal name]
  isDir _ := true
  isFile _ file := file == "large.bin"
  canonicalRoot := .ok ["srv"]
  canonicalize name := if name = "large.bin" then some ["srv", name] else none
  isRegular _ := true
  openFile _ := .ok ⟨[1, 2, 3, 4, 5, 6, 7, 8], fun _ => none⟩

/-- A network that loses the first answer and repeats another one. -/
def lossyNetwork : TftpNetwork where
  connectError := none
  sendError _ := none
  received attempt _ := [none, some [0, 4, 0, 0], some [0, 4, 0, 0], some [0, 4, 0, 1],
    some [0, 4, 0, 1], some [0, 4, 0, 2]].getD attempt none
  refusalError := none

/-- The read request of a client that asks for the smallest block size. -/
def blksizeRequest : List UInt8 := [0, 1] ++ stringBytes "large.bin" ++ [0] ++
  stringBytes "octet" ++ [0] ++ stringBytes "blksize" ++ [0] ++ stringBytes "8" ++ [0]

/-- The client of the example. -/
def bootClient : SocketAddr := ⟨.v4 (.ofOctets 192 168 10 100), 2070⟩

/-- The exchanges with the client: an empty block ends the transfer. -/
def largeBinTrace : List TftpExchange :=
  [⟨[0, 6] ++ stringBytes "blksize" ++ [0] ++ stringBytes "8" ++ [0], none⟩,
    ⟨[0, 6] ++ stringBytes "blksize" ++ [0] ++ stringBytes "8" ++ [0], some [0, 4, 0, 0]⟩,
    ⟨[0, 3, 0, 1, 1, 2, 3, 4, 5, 6, 7, 8], some [0, 4, 0, 0]⟩,
    ⟨[0, 3, 0, 1, 1, 2, 3, 4, 5, 6, 7, 8], some [0, 4, 0, 1]⟩,
    ⟨[0, 3, 0, 2], some [0, 4, 0, 1]⟩,
    ⟨[0, 3, 0, 2], some [0, 4, 0, 2]⟩]

/-- The request was answered with a file, in blocks of `size` bytes. -/
def TftpOutcome.sent (size : ℕ) (contents : List UInt8) : TftpOutcome → Bool
  | .transferred transfer =>
    transfer.options.blockSize.bytes == size && transfer.file.contents == contents
  | _ => false

theorem isTransferOf_of_serveTftpRequest_largeBin :
    IsTransferOf 8 [1, 2, 3, 4, 5, 6, 7, 8] largeBinTrace := by
  have hsent : (serveTftpRequest lossyNetwork oneFileHost bootClient blksizeRequest).1.toOption.any
      (TftpOutcome.sent 8 [1, 2, 3, 4, 5, 6, 7, 8]) = true := by decide +kernel
  have htrace : (serveTftpRequest lossyNetwork oneFileHost bootClient blksizeRequest).2 =
      largeBinTrace := by decide +kernel
  obtain ⟨outcome, houtcome, hfile⟩ := Option.any_eq_true _ _ |>.mp hsent
  cases outcome with
  | transferred transfer =>
    rw [TftpOutcome.sent, Bool.and_eq_true, beq_iff_eq, beq_iff_eq] at hfile
    rw [← hfile.1, ← hfile.2]
    exact isTransferOf_of_serveTftpRequest
      (Prod.ext (toOption_eq_some_iff.mp houtcome) htrace)
  | ignored => simp [TftpOutcome.sent] at hfile
  | refused packet => simp [TftpOutcome.sent] at hfile

end EasyDeployMesh
