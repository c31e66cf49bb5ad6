import Landropic.Foundations.ProtobufRecords
import Landropic.Proto.SyncMessages

set_option autoImplicit false

/-!
# The wire format of the messages

Every message of a sync session is a record with numbered fields.

## Main definitions

* `Timestamp.record`, `Hello.record`, `FolderSummary.record`, `FileEntry.record`,
  `ProtoManifest.record`, `Want.record`, `Ack.record`, `ErrorMessage.record` — the fields of the
  messages.

## Design

The type of an error is a number on the wire, and a number that stands for no type is kept.
-/

namespace Landropic

open Protobuf

/-- Error message, as it is on the wire. -/
structure ErrorMessage where
  errorType : Int32
  message : Text
  details : Text
  deriving DecidableEq

/-- A point in time. -/
def Timestamp.record : Record Timestamp :=
  Record.nil
    |>.field 1 (.plain .int64 0) (by decide)
    |>.field 2 (.plain .int32 0) (by decide)
    |>.ofEquiv
      { toFun := fun ⟨⟨_, seconds⟩, nanos⟩ => { seconds, nanos }
        invFun := fun m => (((), m.seconds), m.nanos)
        left_inv := fun _ => rfl
        right_inv := fun _ => rfl }

/-- Initial handshake message. -/
def Hello.record : Record Hello :=
  Record.nil
    |>.field 1 (.plain .string []) (by decide)
    |>.field 2 (.plain .bytes []) (by decide)
    |>.field 3 (.plain .string []) (by decide)
    |>.field 4 (.repeated .string) (by decide)
    |>.field 5 (.optional Timestamp.record) (by decide)
    |>.ofEquiv
      { toFun := fun ⟨⟨⟨⟨⟨_, version⟩, deviceId⟩, deviceName⟩, capabilities⟩, timestamp⟩ =>
          { version, deviceId, deviceName, capabilities, timestamp }
        invFun := fun m =>
          ((((((), m.version), m.deviceId), m.deviceName), m.capabilities), m.timestamp)
        left_inv := fun _ => rfl
        right_inv := fun _ => rfl }

/-- Folder synchronization summary. -/
def FolderSummary.record : Record FolderSummary :=
  Record.nil
    |>.field 1 (.plain .string []) (by decide)
    |>.field 2 (.plain .string []) (by decide)
    |>.field 3 (.plain .bytes []) (by decide)
    |>.field 4 (.plain .uint64 0) (by decide)
    |>.field 5 (.plain .uint64 0) (by decide)
    |>.field 6 (.optional Timestamp.record) (by decide)
    |>.ofEquiv
      { toFun := fun
          ⟨⟨⟨⟨⟨⟨_, folderId⟩, folderPath⟩, manifestHash⟩, totalSize⟩, fileCount⟩, lastModified⟩ =>
          { folderId, folderPath, manifestHash, totalSize, fileCount, lastModified }
        invFun := fun m =>
          (((((((), m.folderId), m.folderPath), m.manifestHash), m.totalSize), m.fileCount),
          m.lastModified)
        left_inv := fun _ => rfl
        right_inv := fun _ => rfl }

/-- File manifest entry. -/
def FileEntry.record : Record FileEntry :=
  Record.nil
    |>.field 1 (.plain .string []) (by decide)
    |>.field 2 (.plain .uint64 0) (by decide)
    |>.field 3 (.plain .uint32 0) (by decide)
    |>.field 4 (.optional Timestamp.record) (by decide)
    |>.field 5 (.repeated .bytes) (by decide)
    |>.field 6 (.plain .bytes []) (by decide)
    |>.ofEquiv
      { toFun := fun ⟨⟨⟨⟨⟨⟨_, path⟩, size⟩, mode⟩, modified⟩, chunkHashes⟩, contentHash⟩ =>
          { path, size, mode, modified, chunkHashes, contentHash }
        invFun := fun m =>
          (((((((), m.path), m.size), m.mode), m.modified), m.chunkHashes), m.contentHash)
        left_inv := fun _ => rfl
        right_inv := fun _ => rfl }

/-- Complete manifest for a folder. -/
def ProtoManifest.record : Record ProtoManifest :=
  Record.nil
    |>.field 1 (.plain .string []) (by decide)
    |>.field 2 (.repeated FileEntry.record.format) (by decide)
    |>.field 3 (.optional Timestamp.record) (by decide)
    |>.field 4 (.plain .bytes []) (by decide)
    |>.ofEquiv
      { toFun := fun ⟨⟨⟨⟨_, folderId⟩, files⟩, generatedAt⟩, manifestHash⟩ =>
          { folderId, files, generatedAt, manifestHash }
        invFun := fun m => (((((), m.folderId), m.files), m.generatedAt), m.manifestHash)
        left_inv := fun _ => rfl
        right_inv := fun _ => rfl }

/-- Request for missing content. -/
def Want.record : Record Want :=
  Record.nil
    |>.field 1 (.plain .string []) (by decide)
    |>.field 2 (.repeated .bytes) (by decide)
    |>.field 3 (.plain .uint64 0) (by decide)
    |>.ofEquiv
      { toFun := fun ⟨⟨⟨_, folderId⟩, chunkHashes⟩, priority⟩ => { folderId, chunkHashes, priority }
        invFun := fun m => ((((), m.folderId), m.chunkHashes), m.priority)
        left_inv := fun _ => rfl
        right_inv := fun _ => rfl }

/-- Acknowledgment message. -/
def Ack.record : Record Ack :=
  Record.nil
    |>.field 1 (.plain .string []) (by decide)
    |>.field 2 (.plain .bool false) (by decide)
    |>.field 3 (.plain .string []) (by decide)
    |>.ofEquiv
      { toFun := fun ⟨⟨⟨_, requestId⟩, success⟩, message⟩ => { requestId, success, message }
        invFun := fun m => ((((), m.requestId), m.success), m.message)
        left_inv := fun _ => rfl
        right_inv := fun _ => rfl }

/-- Error message. -/
def ErrorMessage.record : Record ErrorMessage :=
  Record.nil
    |>.field 1 (.plain .int32 0) (by decide)
    |>.field 2 (.plain .string []) (by decide)
    |>.field 3 (.plain .string []) (by decide)
    |>.ofEquiv
      { toFun := fun ⟨⟨⟨_, errorType⟩, message⟩, details⟩ => { errorType, message, details }
        invFun := fun m => ((((), m.errorType), m.message), m.details)
        left_inv := fun _ => rfl
        right_inv := fun _ => rfl }

end Landropic
