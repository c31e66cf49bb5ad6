import Landropic.Daemon.SimpleSync
import Landropic.Foundations.FileHandle
import Landropic.Foundations.Pipes

set_option autoImplicit false

/-!
# Simple file transfers

One party sends a file and another one receives it. Each message is a frame: its length in four
bytes, and its JSON text. A frame that is too long is not received.

## Main definitions

* `Daemon.sendMessage`, `receiveMessage` — a message on a stream.
* `Daemon.sendFile`, `receiveFile` — the two parties.
* `Daemon.Works` — both parties succeed, and the file is what was sent.
* `Daemon.FailsCleanly` — if the receiver fails, the file is what it was.

## Main results

* `Daemon.works_iff` — which files can be transferred.
* `Daemon.failsCleanly_iff` — which failures leave the file as it was.
* `Daemon.simpleTransfer_iff` — both.
-/

namespace Landropic.Daemon

/-- Why a transfer failed. -/
inductive TransferError
  | io (e : IoError)
  /-- An error with its text. -/
  | other (text : Text)
  /-- The bytes of a frame are no message. -/
  | json
  deriving DecidableEq

/-- How the operations of a party turn out. -/
structure TransferFaults where
  /-- Why one of its writes to the stream fails, by their number, if it does. -/
  stream : ℕ → Option IoError
  /-- Why the directory of the file cannot be created, if it cannot. -/
  directory : Option IoError
  /-- Why the file is not written, if it is not. -/
  write : Option WriteFault

/-- Nothing fails. -/
def noFaults : TransferFaults := ⟨fun _ => none, none, none⟩

/-- A party with a file. -/
abbrev SimpleTalk (σ α : Type) := Talk σ TransferFaults TransferError α

/-- The longest message that is received (100 MB). -/
def messageLimit : ℕ := 100 * 1024 * 1024

section Parties

variable (json : SimpleSyncJson) (blake3 : Bytes → ContentHash) {σ : Type}

/-- Send message over a stream, with two writes. The length is cut off to 32 bits. -/
def sendMessage (n : ℕ) (message : SimpleSyncMessage) : SimpleTalk σ Unit := do
  let bytes := json.toBytes 0 message
  Talk.sendAll (beBytes 4 (bytes.length % 2 ^ 32)) fun faults => (faults.stream n).map .io
  Talk.sendAll bytes fun faults => (faults.stream (n + 1)).map .io

/-- Deserialize message from bytes. -/
def parseMessage (msgBuf : Bytes) : SimpleTalk σ SimpleSyncMessage :=
  match json.fromBytes msgBuf with
  | some message => pure message
  | none => Talk.fail .json

/-- Receive message from a stream. -/
def receiveMessage : SimpleTalk σ SimpleSyncMessage := do
  let lenBuf ← Talk.readExact 4 (.io .earlyEof)
  let len := beNat lenBuf
  if messageLimit < len then Talk.fail (.other "Message too large".toList)
  else do
    let msgBuf ← Talk.readExact len (.io .earlyEof)
    parseMessage json msgBuf

/-- The request for a file. -/
def transferRequest (filePath : Text) (fileData : Bytes) : SimpleSyncMessage :=
  .fileTransferRequest filePath (UInt64.ofNat fileData.length) (blake3 fileData).toHex

/-- What the sender makes of the completion acknowledgment. -/
def checkCompletion : SimpleSyncMessage → SimpleTalk Bytes Unit
  | .transferComplete true true _ => pure ()
  | .transferComplete _ _ message =>
    Talk.fail (.other ("Transfer failed: ".toList ++ message))
  | _ => Talk.fail (.other "Unexpected response to file transfer".toList)

/-- What the sender makes of the response to its request. -/
def checkResponse (fileData : Bytes) : SimpleSyncMessage → SimpleTalk Bytes Unit
  | .fileTransferResponse true _ => do
    sendMessage json 2 (.fileData fileData)
    let completion ← receiveMessage json
    checkCompletion completion
  | .fileTransferResponse false reason =>
    Talk.fail (.other ("File transfer rejected: ".toList ++ reason.getD "Unknown reason".toList))
  | _ => Talk.fail (.other "Unexpected response to file transfer request".toList)

/-- Send a file to peer (sender side). -/
def sendFile (filePath : Text) : SimpleTalk Bytes Unit := do
  let fileData ← Talk.atom fun _ source => (.ok source, source)
  sendMessage json 0 (transferRequest blake3 filePath fileData)
  let response ← receiveMessage json
  checkResponse json fileData response

/-- What is left of a file after a write of the whole of it. -/
def leftFile (fault : Option WriteFault) (data : Bytes) (old : Option Bytes) : Option Bytes :=
  match fault with
  | none => some data
  | some (.opening _) => old
  | some (.writing _ kept) => some (data.take kept)

/-- Write file to destination. -/
def saveFile (fileData : Bytes) : SimpleTalk (Option Bytes) Unit := do
  Talk.atom fun faults dest => (faults.directory.elim (.ok ()) fun e => .error (.io e), dest)
  Talk.atom fun faults dest =>
    (faults.write.elim (.ok ()) fun fault => .error (.io fault.error),
      leftFile faults.write fileData dest)

/-- Verify the checksum of the file data, write it and acknowledge that. -/
def receiveData (expectedChecksum : Text) : SimpleSyncMessage → SimpleTalk (Option Bytes) Unit
  | .fileData fileData =>
    if (blake3 fileData).toHex = expectedChecksum then do
      saveFile fileData
      sendMessage json 2 .completed
    else do
      sendMessage json 2 (.transferComplete false false "Checksum verification failed".toList)
      Talk.fail (.other "Checksum verification failed".toList)
  | _ => do
    sendMessage json 2 (.transferComplete false false "Expected file data".toList)
    Talk.fail (.other "Expected file data".toList)

/-- Accept the transfer that is requested. -/
def acceptRequest : SimpleSyncMessage → SimpleTalk (Option Bytes) Unit
  | .fileTransferRequest _ _ expectedChecksum => do
    sendMessage json 0 .accepted
    let message ← receiveMessage json
    receiveData json blake3 expectedChecksum message
  | _ => do
    sendMessage json 0
      (.fileTransferResponse false (some "Expected file transfer request".toList))
    Talk.fail (.other "Expected file transfer request".toList)

/-- Receive a file from peer (receiver side). -/
def receiveFile : SimpleTalk (Option Bytes) Unit := do
  let request ← receiveMessage json
  acceptRequest json blake3 request

/-- The two parties before they begin. -/
def connected (filePath : Text) (content : Bytes) (old : Option Bytes) :
    Pipes Bytes (Option Bytes) TransferFaults TransferError Unit where
  left := sendFile json blake3 filePath
  right := receiveFile json blake3
  leftState := content
  rightState := old
  toLeft := []
  toRight := []

/-- Without faults, in whichever order the parties take their steps: both succeed, and the file has
the content that was sent. -/
def Works (filePath : Text) (content : Bytes) (old : Option Bytes) : Prop :=
  ∀ y, Pipes.Run noFaults (connected json blake3 filePath content old) y →
    ∃ z, Pipes.Run noFaults y z ∧ z.left = .ret (.ok ()) ∧ z.right = .ret (.ok ()) ∧
      z.rightState = some content

/-- The two messages of the sender are not too long. -/
def Fits (filePath : Text) (content : Bytes) : Prop :=
  (json.toBytes 0 (transferRequest blake3 filePath content)).length ≤ messageLimit ∧
    24 + (content.map digitCount).sum + (content.length - 1) ≤ messageLimit

/-- If the receiver fails, the file is what it was. -/
def FailsCleanly (faults : TransferFaults) (stream : Bytes) (old : Option Bytes) : Prop :=
  ∀ e dest rest, (receiveFile json blake3).run faults stream old = (.error e, dest, rest) →
    dest = old

/-- A frame. -/
def frame (bytes : Bytes) : Bytes := beBytes 4 bytes.length ++ bytes

/-- The stream begins with a request and data with the checksum announced, neither of them too
long. -/
def Delivers (stream : Bytes) (data : Bytes) : Prop :=
  ∃ bytes bytes' rest filePath fileSize, stream = frame bytes ++ (frame bytes' ++ rest) ∧
    bytes.length ≤ messageLimit ∧ bytes'.length ≤ messageLimit ∧
    json.fromBytes bytes =
      some (.fileTransferRequest filePath fileSize (blake3 data).toHex) ∧
    json.fromBytes bytes' = some (.fileData data)

/-- If data is delivered that is to be saved, the file can be written as a whole and the
acknowledgement can be sent, or the file cannot be opened, or what is left of it is what it was. -/
def Recovers (faults : TransferFaults) (stream : Bytes) (old : Option Bytes) : Prop :=
  ∀ data, Delivers json blake3 stream data → faults.stream 0 = none → faults.stream 1 = none →
    faults.directory = none →
      faults.write = none ∧ faults.stream 2 = none ∧ faults.stream 3 = none ∨
        leftFile faults.write data old = old

/-! ## A message on a stream -/

variable {json blake3} {faults : TransferFaults} {stream : Bytes} {s : σ}

lemma run_sendMessage (n : ℕ) (message : SimpleSyncMessage) :
    (sendMessage json n message : SimpleTalk σ Unit).run faults stream s =
      match (faults.stream n).or (faults.stream (n + 1)) with
      | none => (.ok (), s, stream)
      | some e => (.error (.io e), s, stream) := by
  rw [sendMessage, Talk.run_bind, Talk.run_sendAll]
  cases faults.stream n with
  | some e => rfl
  | none =>
    dsimp only [Option.map_none, Option.none_or]
    rw [Talk.run_sendAll]
    cases faults.stream (n + 1) <;> rfl

variable {bytes rest data : Bytes}

/-- What is received from a stream that begins with a frame. -/
lemma run_receiveMessage_frame (hlimit : bytes.length ≤ messageLimit) :
    (receiveMessage json : SimpleTalk σ SimpleSyncMessage).run faults (frame bytes ++ rest) s =
      match json.fromBytes bytes with
      | some message => (.ok message, s, rest)
      | none => (.error .json, s, rest) := by
  have hfour : (beBytes 4 bytes.length).length = 4 := length_beBytes ..
  have hnat : beNat (beBytes 4 bytes.length) = bytes.length :=
    beNat_beBytes (hlimit.trans_lt (by decide))
  have htake : (frame bytes ++ rest).take 4 = beBytes 4 bytes.length := by
    rw [frame, List.append_assoc, List.take_left' hfour]
  have hdrop : (frame bytes ++ rest).drop 4 = bytes ++ rest := by
    rw [frame, List.append_assoc, List.drop_left' hfour]
  have hlong : 4 ≤ (frame bytes ++ rest).length := by
    simp only [frame, List.length_append]
    omega
  rw [receiveMessage, Talk.run_bind, Talk.run_readExact, if_pos hlong, htake, hdrop]
  dsimp only
  rw [hnat, if_neg (Nat.not_lt_of_le hlimit), Talk.run_bind, Talk.run_readExact,
    if_pos (by simp), List.take_left, List.drop_left]
  dsimp only [parseMessage]
  cases json.fromBytes bytes <;> rfl

/-- Receiving changes no state, and receives what is framed. -/
lemma run_receiveMessage_cases (json : SimpleSyncJson) (faults : TransferFaults) (stream : Bytes)
    (s : σ) :
    (∃ message bytes rest, (receiveMessage json : SimpleTalk σ SimpleSyncMessage).run faults stream
        s = (.ok message, s, rest) ∧ stream = frame bytes ++ rest ∧
        bytes.length ≤ messageLimit ∧ json.fromBytes bytes = some message) ∨
      ∃ e rest, (receiveMessage json : SimpleTalk σ SimpleSyncMessage).run faults stream s =
        (.error e, s, rest) := by
  by_cases hframe : ∃ bytes rest, stream = frame bytes ++ rest ∧ bytes.length ≤ messageLimit
  · obtain ⟨bytes, rest, rfl, hlimit⟩ := hframe
    rw [run_receiveMessage_frame hlimit]
    cases hmessage : json.fromBytes bytes with
    | none => exact .inr ⟨_, _, rfl⟩
    | some message => exact .inl ⟨message, bytes, rest, rfl, rfl, hlimit, hmessage⟩
  refine .inr ?_
  rw [receiveMessage, Talk.run_bind, Talk.run_readExact]
  by_cases hfour : 4 ≤ stream.length
  · rw [if_pos hfour]
    dsimp only
    split
    · exact ⟨_, _, rfl⟩
    · next hlimit =>
      rw [Talk.run_bind, Talk.run_readExact]
      by_cases hlong : beNat (stream.take 4) ≤ (stream.drop 4).length
      · refine absurd ⟨(stream.drop 4).take (beNat (stream.take 4)),
          (stream.drop 4).drop (beNat (stream.take 4)), ?_, ?_⟩ hframe
        · have htake : (stream.take 4).length = 4 := List.length_take_of_le hfour
          have hbytes := beBytes_beNat (stream.take 4)
          rw [htake] at hbytes
          rw [frame, List.length_take_of_le hlong, hbytes, List.append_assoc,
            List.take_append_drop, List.take_append_drop]
        · rw [List.length_take_of_le hlong]
          exact Nat.le_of_not_lt hlimit
      · rw [if_neg hlong]
        exact ⟨_, _, rfl⟩
  · rw [if_neg hfour]
    exact ⟨_, _, rfl⟩

lemma frame_append_inj {bytes' rest' : Bytes} (hlimit : bytes.length ≤ messageLimit)
    (hlimit' : bytes'.length ≤ messageLimit) (h : frame bytes ++ rest = frame bytes' ++ rest') :
    bytes = bytes' ∧ rest = rest' := by
  rw [frame, frame, List.append_assoc, List.append_assoc] at h
  obtain ⟨hlength, hbody⟩ := List.append_inj h (by simp)
  have heq := congrArg beNat hlength
  rw [beNat_beBytes (hlimit.trans_lt (by decide)), beNat_beBytes (hlimit'.trans_lt (by decide))]
    at heq
  exact List.append_inj hbody heq

/-! ## Failures of the receiver -/

lemma run_sendMessage_fail {α : Type} (n : ℕ) (message : SimpleSyncMessage) (e : TransferError) :
    ∃ e', ((do
      sendMessage json n message
      Talk.fail e : SimpleTalk σ α)).run faults stream s = (.error e', s, stream) := by
  rw [Talk.run_bind, run_sendMessage]
  cases (faults.stream n).or (faults.stream (n + 1)) with
  | none => exact ⟨e, rfl⟩
  | some e' => exact ⟨.io e', rfl⟩

/-- Saving a file and acknowledging it. -/
lemma run_saveFile {old : Option Bytes} :
    (saveFile data).run faults stream old =
      match faults.directory, faults.write with
      | some e, _ => (.error (.io e), old, stream)
      | none, some fault => (.error (.io fault.error), leftFile (some fault) data old, stream)
      | none, none => (.ok (), some data, stream) := by
  rw [saveFile, Talk.run_bind, Talk.run_atom]
  cases faults.directory with
  | some e => rfl
  | none =>
    dsimp only [Option.elim_none]
    rw [Talk.run_atom]
    cases faults.write <;> rfl

/-- What a stream delivers that begins with a frame. -/
lemma delivers_frame (hlimit : bytes.length ≤ messageLimit) :
    Delivers json blake3 (frame bytes ++ stream) data ↔
      (∃ filePath fileSize, json.fromBytes bytes =
        some (.fileTransferRequest filePath fileSize (blake3 data).toHex)) ∧
      ∃ bytes' rest, stream = frame bytes' ++ rest ∧ bytes'.length ≤ messageLimit ∧
        json.fromBytes bytes' = some (.fileData data) := by
  constructor
  · rintro ⟨first, bytes', rest, filePath, fileSize, hstream, hfirst, hlimit', hrequest, hdata⟩
    obtain ⟨rfl, rfl⟩ := frame_append_inj hlimit hfirst hstream
    exact ⟨⟨filePath, fileSize, hrequest⟩, bytes', rest, rfl, hlimit', hdata⟩
  · rintro ⟨⟨filePath, fileSize, hrequest⟩, bytes', rest, rfl, hlimit', hdata⟩
    exact ⟨bytes, bytes', rest, filePath, fileSize, rfl, hlimit, hlimit', hrequest, hdata⟩

/-- A stream on which no message is received begins with no frame of a message. -/
lemma ne_frame_of_error {e : TransferError}
    (h : (receiveMessage json : SimpleTalk σ SimpleSyncMessage).run faults stream s =
      (.error e, s, rest)) {rest' : Bytes} {message : SimpleSyncMessage}
    (hlimit : bytes.length ≤ messageLimit) (hmessage : json.fromBytes bytes = some message) :
    stream ≠ frame bytes ++ rest' := by
  rintro rfl
  rw [run_receiveMessage_frame hlimit, hmessage] at h
  cases h

/-- A failure that has not changed the file. -/
lemma failsCleanly_iff_of_unchanged {old : Option Bytes}
    (h : ((receiveFile json blake3).run faults stream old).2.1 = old)
    (hnone : ∀ data, Delivers json blake3 stream data → faults.stream 0 = none →
      faults.stream 1 ≠ none) :
    FailsCleanly json blake3 faults stream old ↔ Recovers json blake3 faults stream old := by
  refine iff_of_true (fun e dest rest hrun => ?_) fun data hdata hzero hone =>
    absurd hone (hnone data hdata hzero)
  rwa [hrun] at h

lemma run_receiveData_fail {checksum : Text} {message : SimpleSyncMessage} (old : Option Bytes)
    (h : ¬ ∃ data, message = .fileData data ∧ (blake3 data).toHex = checksum) :
    ∃ e, (receiveData json blake3 checksum message).run faults stream old =
      (.error e, old, stream) := by
  cases message with
  | fileData data =>
    rw [receiveData, if_neg fun hhash => h ⟨data, rfl, hhash⟩]
    exact run_sendMessage_fail ..
  | _ => exact run_sendMessage_fail ..

/-- Which failures leave the file as it was, once the data has been received. -/
lemma failsCleanly_receiveData {checksum : Text} {old : Option Bytes}
    (hhash : (blake3 data).toHex = checksum) :
    (∀ e dest rest, (receiveData json blake3 checksum (.fileData data)).run faults stream old =
        (.error e, dest, rest) → dest = old) ↔
      (faults.directory = none →
        faults.write = none ∧ faults.stream 2 = none ∧ faults.stream 3 = none ∨
          leftFile faults.write data old = old) := by
  rw [receiveData, if_pos hhash, Talk.run_bind, run_saveFile]
  cases faults.directory with
  | some e =>
    refine iff_of_true ?_ nofun
    rintro _ _ _ ⟨⟩
    rfl
  | none =>
    cases faults.write with
    | some fault =>
      dsimp only
      simp only [forall_const, reduceCtorEq, false_and, false_or]
      constructor
      · exact fun h => h _ _ _ rfl
      · rintro h _ _ _ ⟨⟩
        exact h
    | none =>
      dsimp only
      rw [run_sendMessage]
      simp only [forall_const, true_and, ← Option.or_eq_none_iff, leftFile]
      cases (faults.stream 2).or (faults.stream 3) with
      | none =>
        refine iff_of_true ?_ (.inl rfl)
        rintro _ _ _ ⟨⟩
      | some e =>
        simp only [reduceCtorEq, false_or]
        constructor
        · exact fun h => h _ _ _ rfl
        · rintro h _ _ _ ⟨⟩
          exact h

/-- **Which failures leave the file as it was**: all but those that come when data with the checksum
announced is being saved, unless the file cannot be opened or what is left of it is what it was. -/
theorem failsCleanly_iff (json : SimpleSyncJson) (blake3 : Bytes → ContentHash)
    (faults : TransferFaults) (stream : Bytes) (old : Option Bytes) :
    FailsCleanly json blake3 faults stream old ↔ Recovers json blake3 faults stream old := by
  obtain ⟨message, bytes, rest, hrun, rfl, hlimit, hmessage⟩ | ⟨e, rest, hrun⟩ :=
    run_receiveMessage_cases json faults stream old
  swap
  · refine failsCleanly_iff_of_unchanged ?_ ?_
    · rw [receiveFile, Talk.run_bind, hrun]
    · rintro data ⟨bytes, bytes', rest', filePath, fileSize, hstream, hlimit, -, hrequest, -⟩
      exact absurd hstream (ne_frame_of_error hrun hlimit hrequest)
  -- a message that is no request
  have hother (hne : ∀ filePath fileSize checksum,
      message ≠ .fileTransferRequest filePath fileSize checksum)
      (hfail : ∃ e', (receiveFile json blake3).run faults (frame bytes ++ rest) old =
        (.error e', old, rest)) :
      FailsCleanly json blake3 faults (frame bytes ++ rest) old ↔
        Recovers json blake3 faults (frame bytes ++ rest) old := by
    obtain ⟨e', hfail⟩ := hfail
    refine failsCleanly_iff_of_unchanged (by rw [hfail]) fun data hdata => ?_
    obtain ⟨⟨filePath, fileSize, hrequest⟩, -⟩ := (delivers_frame hlimit).mp hdata
    exact absurd (Option.some.inj (hmessage.symm.trans hrequest)) (hne _ _ _)
  cases message with
  | fileTransferRequest filePath fileSize checksum =>
    have hdelivers : ∀ data, Delivers json blake3 (frame bytes ++ rest) data ↔
        (blake3 data).toHex = checksum ∧ ∃ bytes' rest', rest = frame bytes' ++ rest' ∧
          bytes'.length ≤ messageLimit ∧ json.fromBytes bytes' = some (.fileData data) := by
      intro data
      rw [delivers_frame hlimit, hmessage]
      simp [eq_comm]
    have hstart : (receiveFile json blake3).run faults (frame bytes ++ rest) old =
        (do
          sendMessage json 0 .accepted
          let message ← receiveMessage json
          receiveData json blake3 checksum message : SimpleTalk _ _).run faults rest old := by
      rw [receiveFile, Talk.run_bind, hrun]
      rfl
    rw [Talk.run_bind, run_sendMessage] at hstart
    cases hsend : (faults.stream 0).or (faults.stream 1) with
    | some e =>
      refine failsCleanly_iff_of_unchanged ?_ fun data _ hzero hone => ?_
      · rw [hstart, hsend]
      · rw [hzero, hone] at hsend
        cases hsend
    | none =>
      rw [hsend] at hstart
      dsimp only at hstart
      obtain ⟨message', bytes', rest', hrun', rfl, hlimit', hmessage'⟩ | ⟨e, rest', hrun'⟩ :=
        run_receiveMessage_cases json faults rest old
      swap
      · refine failsCleanly_iff_of_unchanged (by rw [hstart, Talk.run_bind, hrun']) ?_
        intro data hdata
        obtain ⟨-, bytes', rest'', hrest, hlimit', hdata'⟩ := (hdelivers data).mp hdata
        exact absurd hrest (ne_frame_of_error hrun' hlimit' hdata')
      rw [Talk.run_bind, hrun'] at hstart
      dsimp only at hstart
      by_cases hdata : ∃ data, message' = .fileData data ∧ (blake3 data).toHex = checksum
      · obtain ⟨data, rfl, hhash⟩ := hdata
        have honly : ∀ data', Delivers json blake3 (frame bytes ++ (frame bytes' ++ rest')) data' ↔
            data' = data := by
          intro data'
          rw [hdelivers]
          constructor
          · rintro ⟨-, bytes'', rest'', hrest, hlimit'', hdata'⟩
            obtain ⟨rfl, -⟩ := frame_append_inj hlimit' hlimit'' hrest
            rw [hmessage'] at hdata'
            exact (SimpleSyncMessage.fileData.inj (Option.some.inj hdata')).symm
          · rintro rfl
            exact ⟨hhash, bytes', rest', rfl, hlimit', hmessage'⟩
        obtain ⟨hzero, hone⟩ := Option.or_eq_none_iff.mp hsend
        unfold FailsCleanly Recovers
        simp only [honly, forall_eq, hzero, hone, forall_const]
        rw [hstart]
        exact failsCleanly_receiveData hhash
      · obtain ⟨e, hfail⟩ := run_receiveData_fail old hdata
        refine failsCleanly_iff_of_unchanged (by rw [hstart, hfail]) fun data hdelivered => ?_
        obtain ⟨hhash, bytes'', rest'', hrest, hlimit'', hdata'⟩ := (hdelivers data).mp hdelivered
        obtain ⟨rfl, -⟩ := frame_append_inj hlimit' hlimit'' hrest
        rw [hmessage'] at hdata'
        exact absurd ⟨data, Option.some.inj hdata', hhash⟩ hdata
  | _ =>
    refine hother nofun ?_
    rw [receiveFile, Talk.run_bind, hrun]
    exact run_sendMessage_fail ..

/-! ## Transfers without faults -/

section Exchange

variable {τ : Type} {k : Unit → SimpleTalk σ Unit} {k' : SimpleSyncMessage → SimpleTalk τ Unit}
  {left : SimpleTalk σ Unit} {right : SimpleTalk τ Unit} {l : σ} {r : τ} {toLeft toRight : Bytes}
  {message : SimpleSyncMessage} {bytes : Bytes}

/-- The bytes of a message on a stream. -/
def sentBytes (json : SimpleSyncJson) (message : SimpleSyncMessage) : Bytes :=
  beBytes 4 ((json.toBytes 0 message).length % 2 ^ 32) ++ json.toBytes 0 message

lemma run_send (n : ℕ) : Pipes.Run noFaults
    ⟨sendMessage json n message >>= k, right, l, r, toLeft, toRight⟩
    ⟨k (), right, l, r, toLeft, toRight ++ sentBytes json message⟩ := by
  rw [sentBytes, ← List.append_assoc]
  exact .head ⟨true, trivial, rfl⟩ (.single ⟨true, trivial, rfl⟩)

lemma step_readExact {n : ℕ} {e : TransferError} {k' : Bytes → SimpleTalk τ Unit}
    (hn : n ≤ toRight.length) :
    Pipes.step noFaults ⟨left, Talk.readExact n e >>= k', l, r, toLeft, toRight⟩ false =
      some ⟨left, k' (toRight.take n), l, r, toLeft, toRight.drop n⟩ := by
  have hmove : (Talk.readExact n e >>= k').move noFaults left.isRet r toRight =
      some (k' (toRight.take n), r, toRight.drop n, []) := by
    show (if n ≤ toRight.length then some _ else _) = _
    rw [if_pos hn]
    rfl
  simp only [Pipes.step, Bool.false_eq_true, if_false, Pipes.stepLeft, Pipes.swap, hmove,
    Option.map_some, List.append_nil]

lemma step_readExact_append {n : ℕ} {e : TransferError} {k' : Bytes → SimpleTalk τ Unit}
    {rest : Bytes} (hn : bytes.length = n) :
    Pipes.step noFaults ⟨left, Talk.readExact n e >>= k', l, r, toLeft, bytes ++ rest⟩ false =
      some ⟨left, k' bytes, l, r, toLeft, rest⟩ := by
  rw [step_readExact (by simp [hn]), List.take_left' hn, List.drop_left' hn]

lemma run_receive_frame {rest : Bytes} (hlimit : bytes.length ≤ messageLimit) : Pipes.Run noFaults
    ⟨left, receiveMessage json >>= k', l, r, toLeft, frame bytes ++ rest⟩
    ⟨left, parseMessage json bytes >>= k', l, r, toLeft, rest⟩ := by
  have hnat : beNat (beBytes 4 bytes.length) = bytes.length :=
    beNat_beBytes (hlimit.trans_lt (by decide))
  rw [frame, List.append_assoc, receiveMessage, Talk.bind_assoc']
  refine .head ⟨false, trivial, step_readExact_append (length_beBytes ..)⟩ ?_
  dsimp only
  rw [hnat, if_neg (Nat.not_lt_of_le hlimit), Talk.bind_assoc']
  exact .single ⟨false, trivial, step_readExact_append rfl⟩

lemma run_exchange (n : ℕ) (hlimit : (json.toBytes 0 message).length ≤ messageLimit) :
    Pipes.Run noFaults
      ⟨sendMessage json n message >>= k, receiveMessage json >>= k', l, r, [], []⟩
      ⟨k (), k' message, l, r, [], []⟩ := by
  have hsent : [] ++ sentBytes json message = frame (json.toBytes 0 message) ++ [] := by
    rw [sentBytes, Nat.mod_eq_of_lt (hlimit.trans_lt (by decide)), frame, List.append_nil,
      List.nil_append]
  have hparse : parseMessage json (json.toBytes 0 message) >>= k' = k' message := by
    rw [parseMessage, json.fromBytes_toBytes]
    rfl
  refine (run_send n).trans ?_
  rw [hsent, ← hparse]
  exact run_receive_frame hlimit

/-- **A message that is too long is not received.** The right party fails: the length of the frame
is above the limit, or has been cut off so that only a part of the message is read. -/
lemma run_exchange_fails (n : ℕ) (hlimit : messageLimit < (json.toBytes 0 message).length) :
    ∃ y : Pipes σ τ TransferFaults TransferError Unit, Pipes.Run noFaults
      ⟨sendMessage json n message >>= k, receiveMessage json >>= k', l, r, [], []⟩ y ∧
      ∃ e, y.right = .ret (.error e) := by
  set bytes := json.toBytes 0 message with hbytes
  have hcut : bytes.length % 2 ^ 32 < 256 ^ 4 := Nat.mod_lt _ (by decide)
  have hstart : Pipes.Run noFaults
      ⟨sendMessage json n message >>= k, receiveMessage json >>= k', l, r, [], []⟩
      ⟨k (), (if messageLimit < bytes.length % 2 ^ 32
        then Talk.fail (.other "Message too large".toList)
        else do
          let msgBuf ← Talk.readExact (bytes.length % 2 ^ 32) (.io .earlyEof)
          parseMessage json msgBuf) >>= k', l, r, [], bytes⟩ := by
    refine (run_send n).trans (.single ⟨false, trivial, ?_⟩)
    rw [List.nil_append, sentBytes, ← hbytes, receiveMessage, Talk.bind_assoc',
      step_readExact_append (length_beBytes ..), beNat_beBytes hcut]
  split at hstart
  · exact ⟨_, hstart, _, rfl⟩
  · next hle =>
    have hshort : bytes.length % 2 ^ 32 < bytes.length :=
      (Nat.le_of_not_lt hle).trans_lt hlimit
    rw [Talk.bind_assoc'] at hstart
    refine ⟨_, hstart.trans (.single ⟨false, trivial, step_readExact hshort.le⟩), .json, ?_⟩
    rw [parseMessage, json.fromBytes_take 0 message _ hshort]
    rfl

end Exchange

lemma length_accepted : (json.toBytes 0 .accepted).length ≤ messageLimit := by
  rw [json.toBytes_accepted]
  decide +kernel

lemma length_completed : (json.toBytes 0 .completed).length ≤ messageLimit := by
  rw [json.toBytes_completed]
  decide +kernel

lemma length_fileData (json : SimpleSyncJson) (content : Bytes) :
    (json.toBytes 0 (.fileData content)).length =
      24 + (content.map digitCount).sum + (content.length - 1) := by
  rw [json.toBytes_fileData, length_fileDataText]

variable {filePath : Text} {content : Bytes} {old : Option Bytes}

/-- The transfer, once the sender has read the file. -/
lemma run_connected : Pipes.Run noFaults (connected json blake3 filePath content old)
    ⟨sendMessage json 0 (transferRequest blake3 filePath content) >>= fun _ =>
        receiveMessage json >>= checkResponse json content,
      receiveMessage json >>= acceptRequest json blake3, content, old, [], []⟩ :=
  .single ⟨true, trivial, rfl⟩

/-- The transfer up to the data, if the request is not too long. -/
lemma run_request
    (hrequest : (json.toBytes 0 (transferRequest blake3 filePath content)).length ≤ messageLimit) :
    Pipes.Run noFaults (connected json blake3 filePath content old)
      ⟨sendMessage json 2 (.fileData content) >>= fun _ => receiveMessage json >>= checkCompletion,
        receiveMessage json >>= receiveData json blake3 (blake3 content).toHex,
        content, old, [], []⟩ := by
  have haccepted := (run_exchange (l := old) (r := content) 0 length_accepted :
    Pipes.Run noFaults
      ⟨sendMessage json 0 .accepted >>= fun _ =>
          receiveMessage json >>= receiveData json blake3 (blake3 content).toHex,
        receiveMessage json >>= checkResponse json content, old, content, [], []⟩ _).swap
  exact (run_connected.trans (run_exchange 0 hrequest)).trans haccepted

/-- The whole transfer, if neither message is too long. -/
lemma run_data (hrequest :
      (json.toBytes 0 (transferRequest blake3 filePath content)).length ≤ messageLimit)
    (hdata : (json.toBytes 0 (.fileData content)).length ≤ messageLimit) :
    Pipes.Run noFaults (connected json blake3 filePath content old)
      ⟨.ret (.ok ()), .ret (.ok ()), content, some content, [], []⟩ := by
  refine ((run_request hrequest).trans (run_exchange 2 hdata)).trans ?_
  rw [receiveData, if_pos rfl, ← Talk.bind_pure' (sendMessage json 2 .completed)]
  refine .head ⟨false, trivial, rfl⟩ (.head ⟨false, trivial, rfl⟩ ?_)
  exact (run_exchange (l := some content) (r := content) 2 length_completed).swap

lemma right_eq_of_run {τ : Type} {x y : Pipes σ τ TransferFaults TransferError Unit}
    {result : Except TransferError Unit} (hrun : Pipes.Run noFaults x y)
    (hx : x.right = .ret result) : y.right = .ret result := by
  induction hrun with
  | refl => exact hx
  | @tail y z _ hlast ih =>
    obtain ⟨side, -, hstep⟩ := hlast
    cases side with
    | true =>
      obtain ⟨_, -, rfl⟩ := Option.map_eq_some_iff.mp hstep
      exact ih
    | false =>
      obtain ⟨_, hz, -⟩ := Option.map_eq_some_iff.mp hstep
      obtain ⟨_, hmove, -⟩ := Option.map_eq_some_iff.mp hz
      rw [show y.swap.left = .ret result from ih] at hmove
      cases hmove

lemma not_works_of_fails (h : ∃ y, Pipes.Run noFaults (connected json blake3 filePath content old) y
    ∧ ∃ e, y.right = .ret (.error e)) : ¬ Works json blake3 filePath content old := by
  obtain ⟨y, hrun, e, hfails⟩ := h
  intro hworks
  obtain ⟨z, hrest, -, hright, -⟩ := hworks y hrun
  rw [right_eq_of_run hrest hfails] at hright
  cases hright

/-- **Which files can be transferred**: those of which the sender's two messages are not too long.

**Proof sketch.** If they are not, one run ends with the file transferred, and every run can be
continued to its end. The first message that is too long makes the receiver fail. -/
theorem works_iff (json : SimpleSyncJson) (blake3 : Bytes → ContentHash) (filePath : Text)
    (content : Bytes) (old : Option Bytes) :
    Works json blake3 filePath content old ↔ Fits json blake3 filePath content := by
  constructor
  · intro hworks
    have hrequest :
        (json.toBytes 0 (transferRequest blake3 filePath content)).length ≤ messageLimit := by
      by_contra hlimit
      obtain ⟨y, hrun, hfails⟩ := run_exchange_fails 0 (Nat.lt_of_not_le hlimit)
      exact not_works_of_fails ⟨y, run_connected.trans hrun, hfails⟩ hworks
    refine ⟨hrequest, ?_⟩
    rw [← length_fileData json]
    by_contra hlimit
    obtain ⟨y, hrun, hfails⟩ := run_exchange_fails 2 (Nat.lt_of_not_le hlimit)
    exact not_works_of_fails ⟨y, (run_request hrequest).trans hrun, hfails⟩ hworks
  · rintro ⟨hrequest, hdata⟩ y hrun
    rw [← length_fileData json] at hdata
    refine ⟨_, Pipes.run_of_run (run_data hrequest hdata) ?_ hrun, rfl, rfl, rfl⟩
    rintro (_ | _) <;> rfl

/-- **Simple transfers.** A transfer works for the files of which the sender's two messages are not
too long. A receiver that fails leaves the file as it was, unless it fails when data with the
checksum announced is being saved. -/
theorem simpleTransfer_iff (json : SimpleSyncJson) (blake3 : Bytes → ContentHash) :
    (∀ filePath content old,
      Works json blake3 filePath content old ↔ Fits json blake3 filePath content) ∧
    ∀ faults stream old,
      FailsCleanly json blake3 faults stream old ↔ Recovers json blake3 faults stream old :=
  ⟨works_iff json blake3, failsCleanly_iff json blake3⟩

end Parties

/-- **A file of thirty million bytes is not transferred**: as JSON numbers, its bytes take almost
four times as much. -/
theorem not_works_thirtyMillion : ∃ json : SimpleSyncJson,
    (∀ way, ∀ sample ∈ sampleTexts, json.toBytes way sample.1 = sample.2) ∧
      ¬ ((∀ filePath content old, Works json ContentHash.blake3Sample filePath content old) ∧
        ∀ faults stream old, FailsCleanly json ContentHash.blake3Sample faults stream old) := by
  obtain ⟨json, htexts⟩ := exists_simpleSyncJson
  refine ⟨json, htexts, fun h => ?_⟩
  -- the number is kept out of the terms that are evaluated
  obtain ⟨n, hn⟩ : ∃ n : ℕ, n = 30000000 := ⟨_, rfl⟩
  have hfits := (works_iff ..).mp (h.1 ['a'] (List.replicate n 255) none)
  have hlength := hfits.2
  have hthree : digitCount 255 = 3 := rfl
  rw [List.map_replicate, List.sum_replicate_nat, List.length_replicate, hthree,
    messageLimit] at hlength
  omega

end Landropic.Daemon
