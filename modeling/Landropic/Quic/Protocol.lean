import Landropic.Proto.Validation

set_option autoImplicit false

/-!
# Messages on a stream

Every message travels on a stream of its own: a type byte, the length of the message in four bytes,
and the message. Sender and receiver check its size, and a chunk data message also its content.

## Main definitions

* `MessageType` — the type bytes.
* `StreamProtocol.sendMessage`, `StreamProtocol.receiveMessage` — the framing.
* `StreamProtocol.sendChunkData`, `StreamProtocol.receiveChunkData`.

## Main results

* `StreamProtocol.receiveMessage_sendMessage` — what is sent is received.
* `StreamProtocol.sendChunkData_eq_ok_iff`, `StreamProtocol.receiveChunkData_sendChunkData` — which
  chunk data messages are sent, and that all of them are received.

## Design

Sending gives the bytes put on a stream that is then finished, and receiving reads the bytes of
such a stream: the transport itself does not fail here, but a stream may end early.
-/

namespace Landropic

/-- Errors of the transport. -/
inductive QuicError
  | stream (msg : String)
  | protocol (msg : String)
  deriving DecidableEq

/-- Stream message types for protocol multiplexing. -/
inductive MessageType
  | hello | folderSummary | manifest | want | chunkData | ack | error | diffRequest | diffResponse
  deriving DecidableEq

namespace MessageType

/-- The byte of a message type. -/
def toU8 : MessageType → UInt8
  | hello => 0
  | folderSummary => 1
  | manifest => 2
  | want => 3
  | chunkData => 4
  | ack => 5
  | error => 6
  | diffRequest => 7
  | diffResponse => 8

/-- The message type of a byte. -/
def fromU8 (value : UInt8) : Option MessageType :=
  match value.toNat with
  | 0 => some hello
  | 1 => some folderSummary
  | 2 => some manifest
  | 3 => some want
  | 4 => some chunkData
  | 5 => some ack
  | 6 => some error
  | 7 => some diffRequest
  | 8 => some diffResponse
  | _ => none

/-- The name of a message type in an error text. -/
def debug : MessageType → String
  | hello => "Hello"
  | folderSummary => "FolderSummary"
  | manifest => "Manifest"
  | want => "Want"
  | chunkData => "ChunkData"
  | ack => "Ack"
  | error => "Error"
  | diffRequest => "DiffRequest"
  | diffResponse => "DiffResponse"

@[simp] lemma fromU8_toU8 (t : MessageType) : fromU8 t.toU8 = some t := by cases t <;> rfl

end MessageType

/-- The four bytes of a 32-bit number, high byte first. -/
def toBeBytes (n : ℕ) : Bytes :=
  [UInt8.ofNat (n / 2 ^ 24), UInt8.ofNat (n / 2 ^ 16), UInt8.ofNat (n / 2 ^ 8), UInt8.ofNat n]

/-- The number of a byte string, high byte first. -/
def fromBeBytes (bytes : Bytes) : ℕ := bytes.foldl (fun n b => n * 2 ^ 8 + b.toNat) 0

lemma fromBeBytes_toBeBytes {n : ℕ} (h : n < 2 ^ 32) : fromBeBytes (toBeBytes n) = n := by
  simp only [fromBeBytes, toBeBytes, List.foldl_cons, List.foldl_nil, UInt8.toNat_ofNat']
  omega

namespace StreamProtocol

/-- Read exactly `n` bytes off the stream. -/
def readExact (what : String) (n : ℕ) (stream : Bytes) : Except QuicError (Bytes × Bytes) :=
  if n ≤ stream.length then .ok (stream.take n, stream.drop n)
  else .error (.stream
    s!"Failed to read {what}: stream finished early ({stream.length} bytes read)")

lemma readExact_append {what : String} {n : ℕ} {bytes rest : Bytes} (h : bytes.length = n) :
    readExact what n (bytes ++ rest) = .ok (bytes, rest) := by
  subst h
  simp [readExact]

section Framing

variable {M : Type} (codec : Protobuf.Message M) (msgType : MessageType)

/-- Generic message sending helper. -/
def sendMessage (message : M) : Except QuicError Bytes :=
  let buf := codec.encode message
  if buf.length > limits.MAX_MESSAGE_SIZE then
    .error (.protocol
      s!"Message too large: {buf.length} bytes (max: {limits.MAX_MESSAGE_SIZE})")
  else .ok (msgType.toU8 :: (toBeBytes buf.length ++ buf))

/-- Receive and parse a typed message, after its type byte. -/
def receiveTypedMessage (stream : Bytes) : Except QuicError M := do
  let (lenBytes, stream) ← readExact "message length" 4 stream
  let len := fromBeBytes lenBytes
  match Validator.validateMessageSize len with
  | .error e => .error (.protocol s!"Invalid message size: {e.display}")
  | .ok () =>
    let (buf, _) ← readExact "message data" len stream
    match codec.decode buf with
    | .error e => .error (.protocol s!"Failed to decode message: {e}")
    | .ok message => .ok message

/-- Generic message receiving helper with expected type. -/
def receiveMessage (stream : Bytes) : Except QuicError M := do
  let (typeByte, stream) ← readExact "message type" 1 stream
  let value := typeByte.headD 0
  match MessageType.fromU8 value with
  | none => .error (.protocol s!"Unknown message type: {value.toNat}")
  | some messageType =>
    if messageType ≠ msgType then
      .error (.protocol
        s!"Expected message type {msgType.debug}, got {messageType.debug}")
    else receiveTypedMessage codec stream

variable {codec msgType}

lemma exists_sendMessage_iff {message : M} :
    (∃ stream, sendMessage codec msgType message = .ok stream) ↔
      (codec.encode message).length ≤ limits.MAX_MESSAGE_SIZE := by
  simp only [sendMessage]
  split_ifs <;> simp <;> omega

/-- **What is sent is received.** -/
theorem receiveMessage_sendMessage {message : M} {stream : Bytes}
    (h : sendMessage codec msgType message = .ok stream) :
    receiveMessage codec msgType stream = .ok message := by
  have hsize := exists_sendMessage_iff.mp ⟨stream, h⟩
  have hlen : (codec.encode message).length < 2 ^ 32 :=
    hsize.trans_lt (by unfold limits.MAX_MESSAGE_SIZE; omega)
  simp only [sendMessage] at h
  rw [if_neg (by omega)] at h
  obtain rfl := Except.ok.inj h
  have htype : receiveMessage codec msgType
      (msgType.toU8 :: (toBeBytes (codec.encode message).length ++ codec.encode message)) =
      receiveTypedMessage codec
        (toBeBytes (codec.encode message).length ++ codec.encode message) := by
    rw [receiveMessage, ← List.singleton_append, readExact_append (n := 1) rfl]
    simp
  have hbuf : readExact "message data" (codec.encode message).length (codec.encode message) =
      .ok (codec.encode message, []) := by
    simp [readExact]
  rw [htype, receiveTypedMessage, readExact_append (n := 4) rfl]
  simp only [Except.ok_bind, fromBeBytes_toBeBytes hlen,
    Validator.validateMessageSize_eq_ok_iff.mpr hsize, hbuf,
    codec.decode_encode message (by omega)]

end Framing

section ChunkData

variable (blake3 : Bytes → ContentHash)

/-- Send chunk data to fulfill a `Want` request. -/
def sendChunkData (chunk : ChunkData) : Except QuicError Bytes :=
  match validateChunkData blake3 chunk with
  | .error e => .error (.protocol s!"Invalid chunk data: {e.display}")
  | .ok () => sendMessage ChunkData.message .chunkData chunk

/-- Receive chunk data. -/
def receiveChunkData (stream : Bytes) : Except QuicError ChunkData := do
  let chunk ← receiveMessage ChunkData.message .chunkData stream
  match validateChunkData blake3 chunk with
  | .error e => .error (.protocol s!"Invalid received chunk data: {e.display}")
  | .ok () => .ok chunk

variable {blake3}

lemma sendChunkData_eq_ok_iff {chunk : ChunkData} :
    (∃ stream, sendChunkData blake3 chunk = .ok stream) ↔
      validateChunkData blake3 chunk = .ok () ∧
        chunk.encode.length ≤ limits.MAX_MESSAGE_SIZE := by
  unfold sendChunkData
  cases hvalid : validateChunkData blake3 chunk with
  | error e => simp
  | ok _ =>
    simp only [true_and]
    exact exists_sendMessage_iff

/-- **A chunk data message that is sent is received.** -/
theorem receiveChunkData_sendChunkData {chunk : ChunkData} {stream : Bytes}
    (h : sendChunkData blake3 chunk = .ok stream) :
    receiveChunkData blake3 stream = .ok chunk := by
  obtain ⟨hvalid, -⟩ := sendChunkData_eq_ok_iff.mp ⟨stream, h⟩
  simp only [sendChunkData, hvalid] at h
  rw [receiveChunkData, receiveMessage_sendMessage h]
  simp only [Except.ok_bind, hvalid]

end ChunkData

end StreamProtocol

end Landropic
