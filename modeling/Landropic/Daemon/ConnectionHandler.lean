import Landropic.Daemon.SimpleSync
import Landropic.Foundations.FileHandle

set_option autoImplicit false

/-!
# The connection handler

Any number of connections are served at once. Each sends messages of the simplified sync protocol,
which are processed one by one, in any order among the connections. All connections write the data
they get to the same file of one folder.

## Main definitions

* `Daemon.processSyncMessage` — what is answered to a message, and what it leaves in the folder.
* `Daemon.Serving` — the folder and the connections, with what was announced and acknowledged on
  each.
* `Daemon.Serving.Honest` — a message step gives no false acknowledgement.
* `Daemon.Serving.Proper` — the data was announced for the file it is written to.

## Main results

* `Daemon.Serving.honest_iff_proper` — which message steps give no false acknowledgement.
* `Daemon.Serving.honest_of_run_iff` — which sequences of messages do.

## Design

A message step reads a frame, processes the message and sends the answer. The outcomes of the file
operations and of sending are inputs. The sync session, the store and the indexer, which are not
used, are left out.
-/

namespace Landropic.Daemon

/-- The last component of a path, if it is a name. -/
def pathFileName (path : Text) : Option Text :=
  match ((path.splitOn '/').filter fun part => part ≠ [] ∧ part ≠ ['.']).getLast? with
  | none => none
  | some part => if part = ['.', '.'] then none else some part

/-- The name under which a file is accepted. -/
def destinationName (filePath : Text) : Text :=
  (pathFileName filePath).getD "received_file".toList

/-- The name under which the data of every file is saved. -/
def tempFile : Text := "received_file.tmp".toList

/-- How the operations of a message step turn out. -/
structure HandlerInput where
  /-- Why the sync folder could not be created, if it could not. -/
  folder : Option IoError
  /-- Why the file was not written, if it was not. -/
  write : Option WriteFault
  /-- The answer, if there is one, could be sent. -/
  sent : Bool

/-- What is left of a file after a write. -/
def writtenFile (fault : Option WriteFault) (data : Bytes) (files : HashMap Text Bytes) :
    HashMap Text Bytes :=
  match fault with
  | none => files.insert tempFile data
  | some (.opening _) => files
  | some (.writing _ kept) => files.insert tempFile (data.take kept)

/-- Process a sync protocol message. -/
def processSyncMessage (blake3 : Bytes → ContentHash) (input : HandlerInput)
    (files : HashMap Text Bytes) :
    Option SimpleSyncMessage → Option SimpleSyncMessage × HashMap Text Bytes
  | some (.fileTransferRequest _ _ _) =>
    match input.folder with
    | some e =>
      (some (.fileTransferResponse false
        (some ("Failed to create destination folder: ".toList ++ e.display.toList))), files)
    | none => (some .accepted, files)
  | some (.fileData data) =>
    match input.write with
    | none =>
      (some (.transferComplete true true
        ("File saved successfully, checksum: ".toList ++ (blake3 data).toHex)),
        writtenFile input.write data files)
    | some fault =>
      (some (.transferComplete false false
        ("Failed to save file: ".toList ++ fault.error.display.toList)),
        writtenFile input.write data files)
  | _ => (none, files)

/-- What the last accepted request on a connection has announced. -/
structure Announced where
  destination : Text
  checksum : Text
  deriving DecidableEq

/-- The folder and the connections. -/
structure Serving where
  /-- The files of the sync folder. -/
  files : HashMap Text Bytes
  /-- The connections that have come to an end. -/
  closed : Finset ℕ
  /-- What was announced on the connections. -/
  announced : HashMap ℕ Announced
  /-- What was acknowledged on a connection: the bytes of a file, by its name. -/
  acknowledged : List (ℕ × Text × Bytes)

/-- A message arrives on a connection. -/
structure HandlerEvent where
  connection : ℕ
  /-- A frame, with a length of four bytes. -/
  frame : Bytes
  input : HandlerInput

namespace Serving

/-- At first no connection has sent anything. -/
def start (files : HashMap Text Bytes) : Serving := ⟨files, ∅, ∅, []⟩

variable (json : SimpleSyncJson) (blake3 : Bytes → ContentHash) (s : Serving) (e : HandlerEvent)

/-- A frame is read on a connection that has not come to an end. -/
def Reads : Prop := e.connection ∉ s.closed ∧ e.frame.length < 2 ^ 32

instance : Decidable (s.Reads e) := inferInstanceAs (Decidable (_ ∧ _))

/-- The data of a file that is acknowledged as verified in a message step, if it is. -/
def acknowledgedData : Option Bytes :=
  match json.fromBytes e.frame with
  | some (.fileData data) =>
    match (processSyncMessage blake3 e.input s.files (some (.fileData data))).1 with
    | some (.transferComplete true true _) => if e.input.sent then some data else none
    | _ => none
  | _ => none

/-- What an accepted request announces on its connection. -/
def announcedAfter : HashMap ℕ Announced :=
  match json.fromBytes e.frame with
  | some (.fileTransferRequest filePath fileSize checksum) =>
    match (processSyncMessage blake3 e.input s.files
      (some (.fileTransferRequest filePath fileSize checksum))).1 with
    | some (.fileTransferResponse true _) =>
      s.announced.insert e.connection ⟨destinationName filePath, checksum⟩
    | _ => s.announced
  | _ => s.announced

/-- A message step: a frame is read, the message is processed, and the answer is sent. A connection
on which that fails comes to an end. -/
def step : Serving :=
  if s.Reads e then
    let answer := processSyncMessage blake3 e.input s.files (json.fromBytes e.frame)
    { files := answer.2
      closed := if answer.1.isSome ∧ ¬ e.input.sent then insert e.connection s.closed else s.closed
      announced := s.announcedAfter json blake3 e
      acknowledged :=
        match s.acknowledgedData json blake3 e, s.announced.lookup e.connection with
        | some data, some announced =>
          s.acknowledged ++ [(e.connection, announced.destination, data)]
        | _, _ => s.acknowledged }
  else s

/-- Some message steps, one after the other. -/
def steps (events : List HandlerEvent) : Serving := events.foldl (step json blake3) s

/-- A message step gives no false acknowledgement. What it acknowledges as verified has the hash
that was announced on the connection, and is stored at the destination announced. It replaces no
file that was acknowledged on another connection, other than by a transfer of the same name. -/
def Honest : Prop :=
  s.Reads e →
    (∀ data, s.acknowledgedData json blake3 e = some data →
      ∃ announced, s.announced.lookup e.connection = some announced ∧
        (blake3 data).toHex = announced.checksum ∧
        (s.step json blake3 e).files.lookup announced.destination = some data) ∧
    ∀ connection destination bytes, (connection, destination, bytes) ∈ s.acknowledged →
      connection ≠ e.connection → s.files.lookup destination = some bytes →
      (s.step json blake3 e).files.lookup destination ≠ some bytes →
        ∃ announced, s.announced.lookup e.connection = some announced ∧
          announced.destination = destination

/-- Data that is saved and acknowledged has the hash announced, and was announced under the name of
the file that all data is saved to, or is already there. What this file held was not acknowledged on
another connection, unless the data was announced under its name or leaves it as it is. -/
def Proper : Prop :=
  s.Reads e → ∀ data, json.fromBytes e.frame = some (.fileData data) →
    (e.input.write = none → e.input.sent = true →
      ∃ announced, s.announced.lookup e.connection = some announced ∧
        (blake3 data).toHex = announced.checksum ∧
        (announced.destination = tempFile ∨ s.files.lookup announced.destination = some data)) ∧
    ∀ connection bytes, (connection, tempFile, bytes) ∈ s.acknowledged →
      connection ≠ e.connection → s.files.lookup tempFile = some bytes →
      (writtenFile e.input.write data s.files).lookup tempFile ≠ some bytes →
        ∃ announced, s.announced.lookup e.connection = some announced ∧
          announced.destination = tempFile

variable {json blake3 s e}

lemma lookup_writtenFile_of_ne {fault : Option WriteFault} {data : Bytes}
    {files : HashMap Text Bytes} {name : Text} (hne : name ≠ tempFile) :
    (writtenFile fault data files).lookup name = files.lookup name := by
  unfold writtenFile
  split
  · exact Finmap.lookup_insert_of_ne _ hne
  · rfl
  · exact Finmap.lookup_insert_of_ne _ hne

lemma acknowledgedData_eq_some {data : Bytes} : s.acknowledgedData json blake3 e = some data ↔
    json.fromBytes e.frame = some (.fileData data) ∧ e.input.write = none ∧
      e.input.sent = true := by
  unfold acknowledgedData
  split
  · next data' hmessage =>
    rw [hmessage]
    unfold processSyncMessage
    dsimp only
    cases hwrite : e.input.write with
    | none => simp [and_comm]
    | some fault => simp
  · next hmessage =>
    exact iff_of_false nofun fun h => hmessage data h.1

lemma files_step_of_data {data : Bytes} (hreads : s.Reads e)
    (hdata : json.fromBytes e.frame = some (.fileData data)) :
    (s.step json blake3 e).files = writtenFile e.input.write data s.files := by
  rw [step, if_pos hreads, hdata]
  dsimp only [processSyncMessage]
  split <;> rfl

lemma files_step_of_forall_ne (hdata : ∀ data, json.fromBytes e.frame ≠ some (.fileData data)) :
    (s.step json blake3 e).files = s.files := by
  rw [step]
  split
  · dsimp only
    cases hmessage : json.fromBytes e.frame with
    | none => rfl
    | some message =>
      cases message with
      | fileData data => exact absurd hmessage (hdata data)
      | fileTransferRequest filePath fileSize checksum =>
        dsimp only [processSyncMessage]
        split <;> rfl
      | fileTransferResponse accepted reason => rfl
      | transferComplete success checksumVerified message => rfl
  · rfl

/-- **Which message steps give no false acknowledgement.** -/
theorem honest_iff_proper (json : SimpleSyncJson) (blake3 : Bytes → ContentHash) (s : Serving)
    (e : HandlerEvent) : s.Honest json blake3 e ↔ s.Proper json blake3 e := by
  refine imp_congr_right fun hreads => ?_
  by_cases hdata : ∃ data, json.fromBytes e.frame = some (.fileData data)
  · obtain ⟨data, hdata⟩ := hdata
    rw [files_step_of_data hreads hdata]
    constructor
    · rintro ⟨hack, hothers⟩ data' hdata'
      obtain rfl : data = data' := by simpa [hdata] using hdata'
      refine ⟨fun hwrite hsent => ?_, fun connection bytes => hothers connection tempFile bytes⟩
      obtain ⟨announced, hannounced, hhash, hstored⟩ :=
        hack data (acknowledgedData_eq_some.mpr ⟨hdata, hwrite, hsent⟩)
      refine ⟨announced, hannounced, hhash, ?_⟩
      by_cases hname : announced.destination = tempFile
      · exact .inl hname
      · rw [lookup_writtenFile_of_ne hname] at hstored
        exact .inr hstored
    · intro hproper
      obtain ⟨hsaved, hothers⟩ := hproper data hdata
      refine ⟨fun data' hack => ?_, fun connection destination bytes hmem hne hfile hleft => ?_⟩
      · obtain ⟨hdata', hwrite, hsent⟩ := acknowledgedData_eq_some.mp hack
        obtain rfl : data = data' := by simpa [hdata] using hdata'
        obtain ⟨announced, hannounced, hhash, hname⟩ := hsaved hwrite hsent
        refine ⟨announced, hannounced, hhash, ?_⟩
        by_cases htemp : announced.destination = tempFile
        · rw [htemp, hwrite]
          exact Finmap.lookup_insert ..
        · rw [lookup_writtenFile_of_ne htemp]
          exact hname.resolve_left htemp
      · by_cases htemp : destination = tempFile
        · subst htemp
          exact hothers connection bytes hmem hne hfile hleft
        · rw [lookup_writtenFile_of_ne htemp] at hleft
          exact absurd hfile hleft
  · have hnone : ∀ data, json.fromBytes e.frame ≠ some (.fileData data) := fun data h =>
      hdata ⟨data, h⟩
    rw [files_step_of_forall_ne hnone]
    refine iff_of_true ⟨fun data hack => ?_, fun _ _ _ _ _ hfile hleft => absurd hfile hleft⟩
      fun data h => absurd h (hnone data)
    exact absurd (acknowledgedData_eq_some.mp hack).1 (hnone data)

/-- **Which sequences of messages give no false acknowledgement.** From any files, and whatever the
connections send and in whichever order their messages are processed: every acknowledgement is of
data with the hash that was announced before it on the connection, the data is then stored at the
destination announced, and no other connection replaces it but by a transfer of the same name, if
and only if at every step data that is saved and acknowledged has the hash announced and was
announced under the name of the file that all data is saved to, or is at its destination already,
and data replaces in that file only what was acknowledged under the same name. -/
theorem honest_of_run_iff (json : SimpleSyncJson) (blake3 : Bytes → ContentHash)
    (files : HashMap Text Bytes) (events : List HandlerEvent) :
    (∀ earlier e later, events = earlier ++ e :: later →
        ((start files).steps json blake3 earlier).Honest json blake3 e) ↔
      ∀ earlier e later, events = earlier ++ e :: later →
        ((start files).steps json blake3 earlier).Proper json blake3 e :=
  forall₃_congr fun earlier e _ => imp_congr_right fun _ =>
    honest_iff_proper json blake3 ((start files).steps json blake3 earlier) e

/-- All operations of a message step succeed. -/
def noFault : HandlerInput := ⟨none, none, true⟩

/-- **A file is acknowledged as verified although its hash is not the one announced.** -/
theorem not_honest_unverified : ∃ json : SimpleSyncJson,
    (∀ way, ∀ sample ∈ sampleTexts, json.toBytes way sample.1 = sample.2) ∧
      ¬ ∀ (blake3 : Bytes → ContentHash) (files : HashMap Text Bytes) (events : List HandlerEvent),
        ∀ earlier e later, events = earlier ++ e :: later →
          ((start files).steps json blake3 earlier).Honest json blake3 e := by
  obtain ⟨json, htexts⟩ := exists_simpleSyncJson
  refine ⟨json, htexts, fun h => ?_⟩
  have hrequest : json.toBytes 0 sampleRequest = sampleRequestText :=
    htexts 0 (sampleRequest, sampleRequestText) (by simp [sampleTexts])
  have hread : json.fromBytes sampleRequestText = some sampleRequest := by
    rw [← hrequest]
    exact json.fromBytes_toBytes ..
  have hdata : json.fromBytes (fileDataText [1]) = some (.fileData [1]) := by
    rw [← json.toBytes_fileData 0]
    exact json.fromBytes_toBytes ..
  have hlast := h ContentHash.blake3Sample ∅ _ [⟨1, sampleRequestText, noFault⟩]
    ⟨1, fileDataText [1], noFault⟩ [] rfl
  have hfirst : (start ∅).Reads ⟨1, sampleRequestText, noFault⟩ :=
    ⟨Finset.notMem_empty 1, by decide +kernel⟩
  set served := (start ∅).step json ContentHash.blake3Sample ⟨1, sampleRequestText, noFault⟩
    with hserved
  have hclosed : served.closed = ∅ := by
    rw [hserved, step, if_pos hfirst, hread]
    rfl
  have hannounced : served.announced = .insert 1 ⟨['a'], ['0']⟩ ∅ := by
    rw [hserved, step, if_pos hfirst]
    dsimp only [announcedAfter]
    rw [hread]
    rfl
  have hreads : served.Reads ⟨1, fileDataText [1], noFault⟩ :=
    ⟨hclosed ▸ Finset.notMem_empty 1, by decide +kernel⟩
  obtain ⟨announced, hlookup, hhash, -⟩ :=
    (hlast hreads).1 [1] (acknowledgedData_eq_some.mpr ⟨hdata, rfl, rfl⟩)
  change served.announced.lookup 1 = some announced at hlookup
  rw [hannounced, Finmap.lookup_insert] at hlookup
  obtain rfl := Option.some.inj hlookup
  have hlength := congrArg List.length hhash
  rw [ContentHash.length_toHex] at hlength
  exact absurd hlength (by decide)

end Serving

end Landropic.Daemon
