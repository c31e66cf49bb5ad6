import Landropic.Proto.WireFormat
import Landropic.Quic.Protocol

set_option autoImplicit false

/-!
# Messages of any type on a stream

A stream can be received as a message of a type that is known beforehand, or as a message of any
type. The first checks the content of folder summaries, manifests, requests and chunks, the second
checks nothing but the frame.

## Main definitions

* `StreamProtocol.receiveFolderSummary`, `receiveManifest`, `receiveWant`, `receiveAck`,
  `receiveError` — the messages of the other types.
* `StreamProtocol.receiveAnyMessage` — a message of any type.
* `ProtocolMessage.send` — the sending of a message.
* `ProtocolMessage.Framed` — a stream carries a message.

## Main results

* `StreamProtocol.receiveMessage_eq_ok_iff` — what is received is framed, and conversely.
* `ProtocolMessage.alike_iff` — on which streams both ways agree.
* `ProtocolMessage.received_of_send` — both ways receive what was sent, as a whole or not at all.
-/

namespace Landropic

lemma MessageType.fromU8_eq_some_iff {value : UInt8} {t : MessageType} :
    MessageType.fromU8 value = some t ↔ value = t.toU8 := by
  constructor
  · intro h
    unfold fromU8 at h
    split at h
    case h_10 => cases h
    all_goals
      next hvalue =>
        obtain rfl := Option.some.inj h
        exact UInt8.toNat_inj.mp hvalue
  · rintro rfl
    exact fromU8_toU8 t

namespace StreamProtocol

/-! ## What is received -/

section Framing

variable {M : Type} (codec : Protobuf.Message M) (msgType : MessageType)

/-- A stream carries a message: its type, its length within the limit, and the message, whatever
comes then. -/
def Frame (stream : Bytes) (message : M) : Prop :=
  ∃ payload rest, stream = msgType.toU8 :: (toBeBytes payload.length ++ (payload ++ rest)) ∧
    payload.length ≤ limits.MAX_MESSAGE_SIZE ∧ codec.decode payload = .ok message

variable {codec msgType}
variable {stream : Bytes}

lemma readExact_eq_ok_iff {what : String} {n : ℕ} {bytes rest : Bytes} :
    readExact what n stream = .ok (bytes, rest) ↔ stream = bytes ++ rest ∧ bytes.length = n := by
  constructor
  · intro h
    unfold readExact at h
    split_ifs at h with hlen
    obtain ⟨rfl, rfl⟩ := Prod.mk.inj (Except.ok.inj h)
    exact ⟨(List.take_append_drop n stream).symm, List.length_take_of_le hlen⟩
  · rintro ⟨rfl, hlen⟩
    exact readExact_append hlen

lemma toBeBytes_fromBeBytes {bytes : Bytes} (h : bytes.length = 4) :
    toBeBytes (fromBeBytes bytes) = bytes := by
  obtain ⟨a, b, c, d, rfl⟩ : ∃ a b c d, bytes = [a, b, c, d] := by
    match bytes, h with
    | [a, b, c, d], _ => exact ⟨a, b, c, d, rfl⟩
  have ha := a.toNat_lt
  have hb := b.toNat_lt
  have hc := c.toNat_lt
  have hd := d.toNat_lt
  simp only [toBeBytes, fromBeBytes, List.foldl_cons, List.foldl_nil, List.cons.injEq, and_true]
  refine ⟨?_, ?_, ?_, ?_⟩
  all_goals
    apply UInt8.toNat_inj.mp
    rw [UInt8.toNat_ofNat']
    omega

/-- **What is received of a type is a framed message of it.** -/
theorem receiveTypedMessage_eq_ok_iff {message : M} :
    receiveTypedMessage codec stream = .ok message ↔
      ∃ payload rest, stream = toBeBytes payload.length ++ (payload ++ rest) ∧
        payload.length ≤ limits.MAX_MESSAGE_SIZE ∧ codec.decode payload = .ok message := by
  constructor
  · intro h
    obtain ⟨⟨lenBytes, stream'⟩, hlenBytes, htail⟩ := Except.bind_eq_ok.mp h
    obtain ⟨rfl, hfour⟩ := readExact_eq_ok_iff.mp hlenBytes
    dsimp only at htail
    split at htail
    · cases htail
    · next hsize =>
      obtain ⟨⟨payload, rest⟩, hpayload, hdata⟩ := Except.bind_eq_ok.mp htail
      obtain ⟨rfl, hlen⟩ := readExact_eq_ok_iff.mp hpayload
      refine ⟨payload, rest, ?_, ?_, ?_⟩
      · rw [hlen, toBeBytes_fromBeBytes hfour]
      · rw [hlen]
        exact Validator.validateMessageSize_eq_ok_iff.mp hsize
      · dsimp only at hdata
        split at hdata
        · cases hdata
        · next hdecode => rw [hdecode, Except.ok.inj hdata]
  · rintro ⟨payload, rest, rfl, hsize, hdecode⟩
    have hlen : payload.length < 2 ^ 32 :=
      hsize.trans_lt (by unfold limits.MAX_MESSAGE_SIZE; omega)
    rw [receiveTypedMessage, readExact_append (n := 4) rfl]
    simp only [Except.ok_bind, fromBeBytes_toBeBytes hlen,
      Validator.validateMessageSize_eq_ok_iff.mpr hsize, readExact_append, hdecode]

/-- **What is received is framed**, and conversely. -/
theorem receiveMessage_eq_ok_iff {message : M} :
    receiveMessage codec msgType stream = .ok message ↔ Frame codec msgType stream message := by
  constructor
  · intro h
    obtain ⟨⟨typeByte, stream'⟩, htypeByte, htail⟩ := Except.bind_eq_ok.mp h
    obtain ⟨rfl, hone⟩ := readExact_eq_ok_iff.mp htypeByte
    obtain ⟨value, rfl⟩ := List.length_eq_one_iff.mp hone
    dsimp only [List.headD_cons] at htail
    split at htail
    · cases htail
    · next messageType hvalue =>
      split_ifs at htail with htype
      obtain rfl := not_not.mp htype
      obtain rfl := MessageType.fromU8_eq_some_iff.mp hvalue
      obtain ⟨payload, rest, rfl, hframe⟩ := receiveTypedMessage_eq_ok_iff.mp htail
      exact ⟨payload, rest, rfl, hframe⟩
  · rintro ⟨payload, rest, rfl, hframe⟩
    have htyped : receiveTypedMessage codec (toBeBytes payload.length ++ (payload ++ rest)) =
        .ok message := receiveTypedMessage_eq_ok_iff.mpr ⟨payload, rest, rfl, hframe⟩
    rw [receiveMessage, ← List.singleton_append, readExact_append (n := 1) rfl]
    simp [htyped]

/-- Receive a message and check its content. -/
def receiveValidated (codec : Protobuf.Message M) (msgType : MessageType) (what : String)
    (validate : M → Except ValidationError Unit) (stream : Bytes) : Except QuicError M := do
  let message ← receiveMessage codec msgType stream
  match validate message with
  | .error e => .error (.protocol s!"Invalid received {what}: {e.display}")
  | .ok () => .ok message

lemma receiveValidated_eq_ok_iff {what : String} {validate : M → Except ValidationError Unit}
    {message : M} :
    receiveValidated codec msgType what validate stream = .ok message ↔
      Frame codec msgType stream message ∧ validate message = .ok () := by
  rw [receiveValidated, Except.bind_eq_ok]
  constructor
  · rintro ⟨received, hreceived, h⟩
    split at h
    · cases h
    · next hvalid =>
      obtain rfl := Except.ok.inj h
      exact ⟨receiveMessage_eq_ok_iff.mp hreceived, hvalid⟩
  · rintro ⟨hframe, hvalid⟩
    exact ⟨message, receiveMessage_eq_ok_iff.mpr hframe, by simp [hvalid]⟩

lemma receiveChunkData_eq_ok_iff {blake3 : Bytes → ContentHash} {chunk : ChunkData} :
    receiveChunkData blake3 stream = .ok chunk ↔
      Frame ChunkData.message .chunkData stream chunk ∧
        validateChunkData blake3 chunk = .ok () := by
  rw [receiveChunkData, Except.bind_eq_ok]
  constructor
  · rintro ⟨received, hreceived, h⟩
    split at h
    · cases h
    · next hvalid =>
      obtain rfl := Except.ok.inj h
      exact ⟨receiveMessage_eq_ok_iff.mp hreceived, hvalid⟩
  · rintro ⟨hframe, hvalid⟩
    exact ⟨chunk, receiveMessage_eq_ok_iff.mpr hframe, by simp [hvalid]⟩

end Framing

/-! ## The typed receivers -/

section Typed

variable (isAlphanumeric : Char → Bool) (stream : Bytes)

/-- Receive and process a folder summary. -/
def receiveFolderSummary : Except QuicError FolderSummary :=
  receiveValidated FolderSummary.record.message .folderSummary "folder summary"
    (validateFolderSummary isAlphanumeric) stream

/-- Receive and process a manifest. -/
def receiveManifest : Except QuicError ProtoManifest :=
  receiveValidated ProtoManifest.record.message .manifest "manifest"
    (validateManifest isAlphanumeric) stream

/-- Receive and process a `Want` request. -/
def receiveWant : Except QuicError Want :=
  receiveValidated Want.record.message .want "want request" (validateWant isAlphanumeric) stream

/-- Receive an acknowledgment. -/
def receiveAck : Except QuicError Ack := receiveMessage Ack.record.message .ack stream

/-- Receive an error message. -/
def receiveError : Except QuicError ErrorMessage :=
  receiveMessage ErrorMessage.record.message .error stream

end Typed

end StreamProtocol

/-! ## Any message -/

/-- A message of any type. -/
inductive ProtocolMessage
  | folderSummary (m : FolderSummary)
  | manifest (m : ProtoManifest)
  | want (m : Want)
  | chunkData (m : ChunkData)
  | ack (m : Ack)
  | error (m : ErrorMessage)

namespace StreamProtocol

/-- Multiplex receive - get next message of any type. -/
def receiveAnyMessage (stream : Bytes) : Except QuicError ProtocolMessage := do
  let (typeByte, stream) ← readExact "message type" 1 stream
  let value := typeByte.headD 0
  match MessageType.fromU8 value with
  | none => .error (.protocol s!"Unknown message type: {value.toNat}")
  | some .hello => .error (.protocol "Hello messages should be handled separately")
  | some .folderSummary =>
    (receiveTypedMessage FolderSummary.record.message stream).map .folderSummary
  | some .manifest => (receiveTypedMessage ProtoManifest.record.message stream).map .manifest
  | some .want => (receiveTypedMessage Want.record.message stream).map .want
  | some .chunkData => (receiveTypedMessage ChunkData.message stream).map .chunkData
  | some .ack => (receiveTypedMessage Ack.record.message stream).map .ack
  | some .error => (receiveTypedMessage ErrorMessage.record.message stream).map .error
  | some .diffRequest => .error (.protocol "DiffRequest not yet implemented")
  | some .diffResponse => .error (.protocol "DiffResponse not yet implemented")

end StreamProtocol

namespace ProtocolMessage

open StreamProtocol

/-- A stream carries the message. -/
def Framed (stream : Bytes) : ProtocolMessage → Prop
  | folderSummary m => Frame FolderSummary.record.message .folderSummary stream m
  | manifest m => Frame ProtoManifest.record.message .manifest stream m
  | want m => Frame Want.record.message .want stream m
  | chunkData m => Frame ChunkData.message .chunkData stream m
  | ack m => Frame Ack.record.message .ack stream m
  | error m => Frame ErrorMessage.record.message .error stream m

/-- The content of the message is valid. -/
def Valid (isAlphanumeric : Char → Bool) (blake3 : Bytes → ContentHash) : ProtocolMessage → Prop
  | folderSummary m => validateFolderSummary isAlphanumeric m = .ok ()
  | manifest m => validateManifest isAlphanumeric m = .ok ()
  | want m => validateWant isAlphanumeric m = .ok ()
  | chunkData m => validateChunkData blake3 m = .ok ()
  | ack _ => True
  | error _ => True

/-- The receiver of the type of the message returns it. -/
def IsReceived (isAlphanumeric : Char → Bool) (blake3 : Bytes → ContentHash) (stream : Bytes) :
    ProtocolMessage → Prop
  | folderSummary m => receiveFolderSummary isAlphanumeric stream = .ok m
  | manifest m => receiveManifest isAlphanumeric stream = .ok m
  | want m => receiveWant isAlphanumeric stream = .ok m
  | chunkData m => receiveChunkData blake3 stream = .ok m
  | ack m => receiveAck stream = .ok m
  | error m => receiveError stream = .ok m

variable {isAlphanumeric : Char → Bool} {blake3 : Bytes → ContentHash} {stream : Bytes}
  {message : ProtocolMessage}

lemma isReceived_iff : IsReceived isAlphanumeric blake3 stream message ↔
    Framed stream message ∧ Valid isAlphanumeric blake3 message := by
  cases message with
  | folderSummary m => exact receiveValidated_eq_ok_iff
  | manifest m => exact receiveValidated_eq_ok_iff
  | want m => exact receiveValidated_eq_ok_iff
  | chunkData m => exact receiveChunkData_eq_ok_iff
  | ack m => exact receiveMessage_eq_ok_iff.trans (iff_of_eq (and_true _)).symm
  | error m => exact receiveMessage_eq_ok_iff.trans (iff_of_eq (and_true _)).symm

lemma receiveAnyMessage_eq_ok_iff :
    receiveAnyMessage stream = .ok message ↔ Framed stream message := by
  have hmap : ∀ {M : Type} {codec : Protobuf.Message M} {rest : Bytes} {f : M → ProtocolMessage},
      (receiveTypedMessage codec rest).map f = .ok message ↔
        ∃ m, receiveTypedMessage codec rest = .ok m ∧ f m = message := by
    intro M codec rest f
    cases receiveTypedMessage codec rest with
    | error e => simp [Except.map]
    | ok m => simp [Except.map]
  constructor
  · intro h
    obtain ⟨⟨typeByte, rest⟩, htypeByte, htail⟩ := Except.bind_eq_ok.mp h
    obtain ⟨rfl, hone⟩ := readExact_eq_ok_iff.mp htypeByte
    obtain ⟨value, rfl⟩ := List.length_eq_one_iff.mp hone
    have hframe : ∀ {M : Type} {codec : Protobuf.Message M} {t : MessageType} {m : M},
        MessageType.fromU8 value = some t → receiveTypedMessage codec rest = .ok m →
        Frame codec t ([value] ++ rest) m := by
      intro M codec t m hvalue hm
      obtain rfl := MessageType.fromU8_eq_some_iff.mp hvalue
      obtain ⟨payload, rest, rfl, hframe⟩ := receiveTypedMessage_eq_ok_iff.mp hm
      exact ⟨payload, rest, rfl, hframe⟩
    dsimp only [List.headD_cons] at htail
    split at htail
    case h_1 | h_2 | h_9 | h_10 => cases htail
    all_goals
      next hvalue =>
        obtain ⟨m, hm, rfl⟩ := hmap.mp htail
        exact hframe hvalue hm
  · intro h
    cases message
    all_goals
      obtain ⟨payload, rest, rfl, hframe⟩ := h
      have htyped := receiveTypedMessage_eq_ok_iff.mpr ⟨payload, rest, rfl, hframe⟩
      rw [receiveAnyMessage, ← List.singleton_append, StreamProtocol.readExact_append (n := 1) rfl]
      simp [htyped, Except.map]

/-- **On which streams both ways agree**: those that carry no message, or a valid one. -/
theorem alike_iff (isAlphanumeric : Char → Bool) (blake3 : Bytes → ContentHash) (stream : Bytes) :
    (∀ message, receiveAnyMessage stream = .ok message ↔
      IsReceived isAlphanumeric blake3 stream message) ↔
      ∀ message, Framed stream message → Valid isAlphanumeric blake3 message := by
  simp only [receiveAnyMessage_eq_ok_iff, isReceived_iff, iff_self_and]

/-- **A chunk without a hash** is received as a message of any type, and not as a chunk. -/
theorem not_alike_empty : ∃ (stream : Bytes) (message : ProtocolMessage),
    receiveAnyMessage stream = .ok message ∧
      ∀ (isAlphanumeric : Char → Bool) (blake3 : Bytes → ContentHash),
        ¬ IsReceived isAlphanumeric blake3 stream message := by
  refine ⟨[4, 0, 0, 0, 0], .chunkData ChunkData.empty, ?_, fun isAlphanumeric blake3 h => ?_⟩
  · exact receiveAnyMessage_eq_ok_iff.mpr ⟨[], [], rfl, Nat.zero_le _, rfl⟩
  · have hvalid := (receiveChunkData_eq_ok_iff.mp h).2
    cases hvalid

end ProtocolMessage

/-! ## Sending -/

namespace StreamProtocol

section Sending

variable {M : Type} {codec : Protobuf.Message M} {msgType : MessageType} {message : M}
  {stream front back : Bytes}

/-- Check the content of a message and send it. -/
def sendValidated (codec : Protobuf.Message M) (msgType : MessageType) (what : String)
    (validate : M → Except ValidationError Unit) (message : M) : Except QuicError Bytes :=
  match validate message with
  | .error e => .error (.protocol s!"Invalid {what}: {e.display}")
  | .ok () => sendMessage codec msgType message

/-- A stream consists of one message. -/
def Whole (stream : Bytes) : Prop :=
  ∃ (msgType : MessageType) (payload : Bytes),
    stream = msgType.toU8 :: (toBeBytes payload.length ++ payload) ∧
      payload.length ≤ limits.MAX_MESSAGE_SIZE

lemma whole_of_sendMessage (h : sendMessage codec msgType message = .ok stream) :
    Whole stream := by
  have hsize := exists_sendMessage_iff.mp ⟨stream, h⟩
  simp only [sendMessage, if_neg (Nat.not_lt.mpr hsize)] at h
  exact ⟨msgType, codec.encode message, (Except.ok.inj h).symm, hsize⟩

lemma Whole.eq_nil (h : Whole (front ++ back)) (hframe : Frame codec msgType front message) :
    back = [] := by
  obtain ⟨type, payload, heq, hsize⟩ := h
  obtain ⟨payload', rest, rfl, hsize', -⟩ := hframe
  rw [List.cons_append, List.append_assoc] at heq
  obtain ⟨hlength, hpayload⟩ := List.append_inj (List.cons.inj heq).2 rfl
  have hsame := congrArg fromBeBytes hlength
  unfold limits.MAX_MESSAGE_SIZE at hsize hsize'
  rw [fromBeBytes_toBeBytes (by omega), fromBeBytes_toBeBytes (by omega)] at hsame
  have hcount := congrArg List.length hpayload
  simp only [List.length_append] at hcount
  exact List.length_eq_zero_iff.mp (by omega)

lemma sendValidated_eq_ok {what : String} {validate : M → Except ValidationError Unit}
    (h : sendValidated codec msgType what validate message = .ok stream) :
    (Frame codec msgType stream message ∧ validate message = .ok ()) ∧ Whole stream := by
  unfold sendValidated at h
  split at h
  · cases h
  · next hvalid =>
    exact ⟨⟨receiveMessage_eq_ok_iff.mp (receiveMessage_sendMessage h), hvalid⟩,
      whole_of_sendMessage h⟩

end Sending

variable (isAlphanumeric : Char → Bool)

/-- Send a folder summary to the peer. -/
def sendFolderSummary : FolderSummary → Except QuicError Bytes :=
  sendValidated FolderSummary.record.message .folderSummary "folder summary"
    (validateFolderSummary isAlphanumeric)

/-- Send a complete manifest to the peer. -/
def sendManifest : ProtoManifest → Except QuicError Bytes :=
  sendValidated ProtoManifest.record.message .manifest "manifest" (validateManifest isAlphanumeric)

/-- Send a `Want` request for missing chunks. -/
def sendWant : Want → Except QuicError Bytes :=
  sendValidated Want.record.message .want "want request" (validateWant isAlphanumeric)

/-- Send an acknowledgment. -/
def sendAck : Ack → Except QuicError Bytes := sendMessage Ack.record.message .ack

/-- Send an error message. -/
def sendError : ErrorMessage → Except QuicError Bytes :=
  sendMessage ErrorMessage.record.message .error

end StreamProtocol

namespace ProtocolMessage

open StreamProtocol

/-- Send a message, on a stream of its own. -/
def send (isAlphanumeric : Char → Bool) (blake3 : Bytes → ContentHash) :
    ProtocolMessage → Except QuicError Bytes
  | folderSummary m => sendFolderSummary isAlphanumeric m
  | manifest m => sendManifest isAlphanumeric m
  | want m => sendWant isAlphanumeric m
  | chunkData m => sendChunkData blake3 m
  | ack m => sendAck m
  | error m => sendError m

/-- **What is sent is received** in both ways, and if the stream is cut off nothing is. -/
theorem received_of_send {isAlphanumeric : Char → Bool} {blake3 : Bytes → ContentHash}
    {stream : Bytes} {message : ProtocolMessage}
    (h : message.send isAlphanumeric blake3 = .ok stream) :
    IsReceived isAlphanumeric blake3 stream message ∧ receiveAnyMessage stream = .ok message ∧
      ∀ front back, stream = front ++ back → back ≠ [] → ∀ message',
        receiveAnyMessage front ≠ .ok message' ∧
          ¬ IsReceived isAlphanumeric blake3 front message' := by
  have hsent : (Framed stream message ∧ Valid isAlphanumeric blake3 message) ∧ Whole stream := by
    cases message with
    | folderSummary m => exact sendValidated_eq_ok h
    | manifest m => exact sendValidated_eq_ok h
    | want m => exact sendValidated_eq_ok h
    | chunkData m =>
      refine ⟨receiveChunkData_eq_ok_iff.mp (receiveChunkData_sendChunkData h), ?_⟩
      simp only [send, sendChunkData] at h
      split at h
      · cases h
      · exact whole_of_sendMessage h
    | ack m =>
      exact ⟨⟨receiveMessage_eq_ok_iff.mp (receiveMessage_sendMessage h), trivial⟩,
        whole_of_sendMessage h⟩
    | error m =>
      exact ⟨⟨receiveMessage_eq_ok_iff.mp (receiveMessage_sendMessage h), trivial⟩,
        whole_of_sendMessage h⟩
  obtain ⟨hframed, hwhole⟩ := hsent
  refine ⟨isReceived_iff.mpr hframed, receiveAnyMessage_eq_ok_iff.mpr hframed.1, ?_⟩
  rintro front back rfl hback message'
  have hcut : ¬ Framed front message' := by
    intro hframe
    cases message' <;> exact hback (hwhole.eq_nil hframe)
  exact ⟨fun hreceived => hcut (receiveAnyMessage_eq_ok_iff.mp hreceived),
    fun hreceived => hcut (isReceived_iff.mp hreceived).1⟩

/-- An acknowledgment arrives with all that it says. -/
theorem received_ack :
    receiveAnyMessage [5, 0, 0, 0, 17, 10, 5, 99, 104, 117, 110, 107, 16, 1, 26, 6, 115, 116, 111,
      114, 101, 100] = .ok (.ack ⟨"chunk".toList, true, "stored".toList⟩) := by
  have h : send (fun _ => true) .blake3Sample (.ack ⟨"chunk".toList, true, "stored".toList⟩) =
      .ok [5, 0, 0, 0, 17, 10, 5, 99, 104, 117, 110, 107, 16, 1, 26, 6, 115, 116, 111, 114, 101,
        100] := by
    decide +kernel
  exact (received_of_send h).2.1

end ProtocolMessage

end Landropic
