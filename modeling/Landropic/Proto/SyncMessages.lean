import Landropic.Foundations.Bytes

set_option autoImplicit false

/-!
# Messages of a sync session

The messages two peers exchange, other than the chunks themselves: the handshake, the summary and
the manifest of a folder, the request for chunks, and what answers them.

## Main definitions

* `Hello`, `FolderSummary` — the handshake and the folders.
* `ProtoManifest`, `FileEntry` — a manifest on the wire.
* `Want`, `Have` — the request for chunks, and what a peer has.
* `Ack`, `ProtoError` — acknowledgments and errors.
-/

namespace Landropic

/-- A point in time on the wire. -/
structure Timestamp where
  seconds : Int64
  nanos : Int32
  deriving DecidableEq

/-- Initial handshake message. -/
structure Hello where
  version : Text
  /-- `Ed25519` public key. -/
  deviceId : Bytes
  deviceName : Text
  capabilities : List Text
  timestamp : Option Timestamp
  deriving DecidableEq

/-- Folder synchronization summary. -/
structure FolderSummary where
  folderId : Text
  folderPath : Text
  manifestHash : Bytes
  totalSize : UInt64
  fileCount : UInt64
  lastModified : Option Timestamp
  deriving DecidableEq

/-- File manifest entry. -/
structure FileEntry where
  path : Text
  size : UInt64
  /-- Unix file permissions. -/
  mode : UInt32
  modified : Option Timestamp
  /-- Ordered list of chunk hashes. -/
  chunkHashes : List Bytes
  /-- Full file content hash. -/
  contentHash : Bytes
  deriving DecidableEq

/-- Complete manifest for a folder. -/
structure ProtoManifest where
  folderId : Text
  files : List FileEntry
  generatedAt : Option Timestamp
  /-- Self-hash for integrity. -/
  manifestHash : Bytes
  deriving DecidableEq

/-- Request for missing content. -/
structure Want where
  folderId : Text
  /-- Hashes of wanted chunks. -/
  chunkHashes : List Bytes
  priority : UInt64
  deriving DecidableEq

/-- Message for advertising available chunks. -/
structure Have where
  folderId : Text
  chunkHashes : List Bytes
  deriving DecidableEq

/-- Acknowledgment message. -/
structure Ack where
  requestId : Text
  success : Bool
  message : Text
  deriving DecidableEq

/-- Types of errors. -/
inductive ErrorType
  | unknown
  | protocolVersionMismatch
  | authenticationFailed
  | folderNotFound
  | permissionDenied
  | storageFull
  | invalidRequest
  deriving DecidableEq

/-- Error message. -/
structure ProtoError where
  errorType : ErrorType
  message : Text
  details : Text
  deriving DecidableEq

end Landropic
