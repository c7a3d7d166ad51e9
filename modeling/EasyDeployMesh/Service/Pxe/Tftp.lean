import EasyDeployMesh.Foundations.Text
import EasyDeployMesh.Service.Pxe.Config

/-!
# The TFTP server of the network-boot service

The part of `crates/service/src/pxe.rs` that answers a TFTP read request: the option negotiation,
the blocks of the file, and the four attempts to have a packet acknowledged. The network is a
parameter that says, for each attempt, whether the packet could be sent and what was received within
the time limit; so are the files below the TFTP root. The record of the clients' stages is left out.

## Main definitions

* `EasyDeployMesh.BlockSize`, `EasyDeployMesh.TftpOptions`: what a request negotiates.
* `EasyDeployMesh.TftpNetwork`, `EasyDeployMesh.TftpExchange`: the attempts to send a packet.
* `EasyDeployMesh.sendTftpWithAck`, `EasyDeployMesh.sendBlocks`, `EasyDeployMesh.sendFile`: the
  transfer of a file.
* `EasyDeployMesh.serveTftpRequest`: the answer to a request.
-/

namespace EasyDeployMesh

open Foundations

/-! ### Packets -/

/-- `u16::to_be_bytes`. -/
def u16ToBeBytes (n : UInt16) : List UInt8 := [UInt8.ofNat (n.toNat / 256), UInt8.ofNat n.toNat]

/-- `u16::from_be_bytes`. -/
def u16FromBeBytes (high low : UInt8) : UInt16 := UInt16.ofNat (high.toNat * 256 + low.toNat)

@[simp] theorem u16FromBeBytes_ofNat (n : UInt16) :
    u16FromBeBytes (UInt8.ofNat (n.toNat / 256)) (UInt8.ofNat n.toNat) = n := by
  have hn := n.toNat_lt
  refine UInt16.toNat_inj.mp ?_
  rw [u16FromBeBytes, UInt16.toNat_ofNat', UInt8.toNat_ofNat', UInt8.toNat_ofNat']
  omega

/-- A data packet with its block number. -/
def dataPacket (block : UInt16) (payload : List UInt8) : List UInt8 :=
  [0, 3] ++ u16ToBeBytes block ++ payload

/-- The packet that confirms the options of a request. -/
def oackPacket (options : List (String × String)) : List UInt8 :=
  [0, 6] ++ options.flatMap fun option =>
    stringBytes option.1 ++ [0] ++ stringBytes option.2 ++ [0]

/-- An error packet with its code and message. -/
def errorPacket (code : UInt16) (message : String) : List UInt8 :=
  [0, 5] ++ u16ToBeBytes code ++ stringBytes message ++ [0]

/-- A datagram acknowledges a block. -/
def acknowledges (block : UInt16) : List UInt8 → Bool
  | op₁ :: op₂ :: high :: low :: _ =>
    u16FromBeBytes op₁ op₂ == 4 && u16FromBeBytes high low == block
  | _ => false

/-! ### Options -/

/-- The size of a block, between 8 and 1468 bytes. -/
structure BlockSize where
  bytes : ℕ
  le_bytes : 8 ≤ bytes
  bytes_le : bytes ≤ 1468
  deriving DecidableEq

/-- A block size, moved into the range that the server offers. -/
def BlockSize.clamp (n : ℕ) : BlockSize := ⟨max 8 (min n 1468), by omega, by omega⟩

theorem BlockSize.pos (size : BlockSize) : 0 < size.bytes := by
  have := size.le_bytes
  omega

/-- What a request negotiates, and the options that are confirmed. -/
structure TftpOptions where
  blockSize : BlockSize := ⟨512, by omega, by omega⟩
  timeoutSecs : ℕ := 3
  requested : List (String × String) := []
  deriving DecidableEq

/-- A text that is not UTF-8 is no option and no number: it gets replacement characters. -/
def decodeUtf8 (bytes : List UInt8) : Option String := String.fromUTF8? ⟨bytes.toArray⟩

/-- One option of a request, with its name in lower case. -/
def TftpOptions.negotiate (options : TftpOptions) (fileSize : ℕ) (key value : List UInt8) :
    TftpOptions :=
  let number := (decodeUtf8 value).bind Text.parseU64
  let key := (decodeUtf8 key).map Text.toAsciiLowercase
  if key = some "blksize" then
    match number with
    | some v =>
      let size := BlockSize.clamp v.toNat
      { options with
        blockSize := size
        requested := options.requested ++ [("blksize", toString size.bytes)] }
    | none => options
  else if key = some "timeout" then
    match number with
    | some v =>
      let seconds := max 1 (min v.toNat 10)
      { options with
        timeoutSecs := seconds
        requested := options.requested ++ [("timeout", toString seconds)] }
    | none => options
  else if key = some "tsize" then
    { options with requested := options.requested ++ [("tsize", toString fileSize)] }
  else options

/-- The options of a request, in pairs of a name and a value. -/
def TftpOptions.negotiateAll (fileSize : ℕ) : TftpOptions → List (List UInt8) → TftpOptions
  | options, key :: value :: rest =>
    negotiateAll fileSize (options.negotiate fileSize key value) rest
  | options, _ => options

/-- `slice::split` at the zero bytes. -/
def splitZero : List UInt8 → List (List UInt8)
  | [] => [[]]
  | b :: l =>
    if b = 0 then [] :: splitZero l
    else match splitZero l with
      | [] => [[b]]
      | field :: fields => (b :: field) :: fields

/-! ### Attempts -/

/-- The errors of a transfer. -/
inductive TftpError
  | timedOut (fileName : String) (clientIp : IpAddr) (stage : String)
  | io (source : String)
  deriving DecidableEq, Repr

/-- The network, attempt by attempt. -/
structure TftpNetwork where
  /-- The failure of `bind` or `connect`. -/
  connectError : Option String
  sendError : ℕ → Option String
  /-- The datagram that an attempt receives within the given seconds. -/
  received : ℕ → ℕ → Option (List UInt8)
  /-- The failure of sending an error packet. -/
  refusalError : Option String

/-- One attempt: the packet that was sent and the datagram that was received. -/
structure TftpExchange where
  packet : List UInt8
  answer : Option (List UInt8)
  deriving DecidableEq, Repr

/-- The answer of an attempt acknowledges the block. -/
def TftpExchange.Acknowledged (exchange : TftpExchange) (block : UInt16) : Prop :=
  ∃ datagram, exchange.answer = some datagram ∧ acknowledges block datagram = true

variable (network : TftpNetwork)

/-- The attempts that are left, after the exchanges of the transfer so far. -/
def attemptTftp (packet : List UInt8) (block : UInt16) (seconds : ℕ) :
    ℕ → List TftpExchange → Except TftpError Bool × List TftpExchange
  | 0, trace => (.ok false, trace)
  | attempts + 1, trace =>
    match network.sendError trace.length with
    | some error => (.error (.io error), trace)
    | none =>
      let answer := network.received trace.length seconds
      let trace := trace ++ [⟨packet, answer⟩]
      if answer.any (acknowledges block) then (.ok true, trace)
      else attemptTftp packet block seconds attempts trace

/-- A packet is sent until it is acknowledged, four times at most. -/
def sendTftpWithAck (packet : List UInt8) (block : UInt16) (seconds : ℕ)
    (trace : List TftpExchange) : Except TftpError Bool × List TftpExchange :=
  attemptTftp network packet block seconds 4 trace

/-! ### Transfers -/

/-- A file that was opened; a read at an offset may fail. -/
structure BootFile where
  contents : List UInt8
  readError : ℕ → Option String

/-- What a transfer is about. -/
structure TftpTransfer where
  relativeName : String
  clientIp : IpAddr
  file : BootFile
  options : TftpOptions

namespace TftpTransfer

variable (transfer : TftpTransfer)

/-- The error of a packet that was never acknowledged. -/
def ackTimeout (stage : String) : TftpError :=
  .timedOut transfer.relativeName transfer.clientIp stage

/-- A packet is sent and acknowledged, or the transfer ends. -/
def send (stage : String) (packet : List UInt8) (block : UInt16) (trace : List TftpExchange) :
    Except TftpError Unit × List TftpExchange :=
  match sendTftpWithAck network packet block transfer.options.timeoutSecs trace with
  | (.error error, trace) => (.error error, trace)
  | (.ok false, trace) => (.error (transfer.ackTimeout stage), trace)
  | (.ok true, trace) => (.ok (), trace)

/-- The blocks of the bytes that remain; the value is the number of the block after them. -/
def sendBlocks (block : UInt16) (remaining : List UInt8) (trace : List TftpExchange) :
    Except TftpError UInt16 × List TftpExchange :=
  if remaining = [] then (.ok block, trace)
  else
    match transfer.file.readError (transfer.file.contents.length - remaining.length) with
    | some error => (.error (.io error), trace)
    | none =>
      let size := transfer.options.blockSize.bytes
      match transfer.send network s!"data block {block}"
          (dataPacket block (remaining.take size)) block trace with
      | (.error error, trace) => (.error error, trace)
      | (.ok (), trace) => sendBlocks (block + 1) (remaining.drop size) trace
termination_by remaining.length
decreasing_by
  have := transfer.options.blockSize.pos
  have := List.length_pos_of_ne_nil ‹_›
  rw [List.length_drop]
  omega

/-- A file whose size is a multiple of the block size ends with an empty block. -/
def sendLast (block : UInt16) (trace : List TftpExchange) :
    Except TftpError Unit × List TftpExchange :=
  if transfer.file.contents.length % transfer.options.blockSize.bytes = 0 then
    transfer.send network s!"final data block {block}" (dataPacket block []) block trace
  else (.ok (), trace)

/-- The options are confirmed if there are any. -/
def sendOptions : Except TftpError Unit × List TftpExchange :=
  if transfer.options.requested = [] then (.ok (), [])
  else transfer.send network "OACK" (oackPacket transfer.options.requested) 0 []

/-- The transfer of a file, from the connected socket to the last acknowledgement. -/
def sendFile : Except TftpError Unit × List TftpExchange :=
  match network.connectError with
  | some error => (.error (.io error), [])
  | none =>
    match transfer.sendOptions network with
    | (.error error, trace) => (.error error, trace)
    | (.ok (), trace) =>
      match transfer.sendBlocks network 1 transfer.file.contents trace with
      | (.error error, trace) => (.error error, trace)
      | (.ok block, trace) => transfer.sendLast network block trace

end TftpTransfer

/-! ### Requests -/

/-- What the host says of the TFTP root and the files below it; a canonical path is a list of
components. -/
structure TftpHost extends PxeHost where
  canonicalRoot : Except String (List String)
  /-- The canonical path of a name below the root. -/
  canonicalize : String → Option (List String)
  isRegular : List String → Bool
  openFile : List String → Except String BootFile

/-- How a request was answered. -/
inductive TftpOutcome
  | ignored
  | refused (packet : List UInt8)
  | transferred (transfer : TftpTransfer)

/-- The answer that refuses a request. -/
def sendTftpError (code : UInt16) (message : String) :
    Except TftpError TftpOutcome × List TftpExchange :=
  match network.refusalError with
  | some error => (.error (.io error), [])
  | none => (.ok (.refused (errorPacket code message)), [])

/-- `str::trim_start_matches('/')`. -/
def trimStartSlashes (name : String) : String := String.ofList (name.toList.dropWhile (· == '/'))

/-- The file with a name below the root is opened and sent. -/
def serveFile (host : TftpHost) (clientIp : IpAddr) (relativeName : String)
    (options : List (List UInt8)) : Except TftpError TftpOutcome × List TftpExchange :=
  match host.canonicalRoot with
  | .error error => (.error (.io error), [])
  | .ok root =>
    match host.canonicalize relativeName with
    | none => sendTftpError network 1 "file not found"
    | some path =>
      if ¬ root.isPrefixOf path ∨ ¬ host.isRegular path then
        sendTftpError network 2 "access violation"
      else
        match host.openFile path with
        | .error error => (.error (.io error), [])
        | .ok file =>
          let transfer : TftpTransfer :=
            ⟨relativeName, clientIp, file,
              TftpOptions.negotiateAll file.contents.length {} options⟩
          let (result, trace) := transfer.sendFile network
          (result.map fun _ => .transferred transfer, trace)

/-- The answer to one request, with the exchanges of its transfer. -/
def serveTftpRequest (host : TftpHost) (peer : SocketAddr) (request : List UInt8) :
    Except TftpError TftpOutcome × List TftpExchange :=
  match request with
  | op₁ :: op₂ :: body =>
    let opcode := u16FromBeBytes op₁ op₂
    if opcode = 2 then sendTftpError network 2 "write requests are not allowed"
    else if opcode ≠ 1 ∨ request.length < 4 then (.ok .ignored, [])
    else
      let fields := splitZero body
      match fields.head?.bind decodeUtf8 with
      | none => (.ok .ignored, [])
      | some name =>
        -- Boot loaders commonly spell names below the root with a leading slash.
        let relativeName := trimStartSlashes name
        match validateRelativePath host.toPxeHost relativeName with
        | .error _ => sendTftpError network 2 "access violation"
        | .ok _ => serveFile network host peer.ip relativeName (fields.drop 2)
  | _ => (.ok .ignored, [])

end EasyDeployMesh
