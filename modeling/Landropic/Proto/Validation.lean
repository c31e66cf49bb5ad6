import Landropic.Chunker.Hash
import Landropic.Proto.ChunkData
import Landropic.Proto.SyncMessages
import Landropic.Proto.Version

set_option autoImplicit false

/-!
# Validation of protocol messages

Size limits for messages and what they carry, and the checks a message passes when it is sent and
when it is received.

## Main definitions

* `limits` — the limits.
* `Validator` — the checks of sizes, paths, names and identifiers.
* `validateHello`, `validateChunkData`, `validateWant`, `validateManifest` — the checks of messages.

## Main results

* `validateHello_eq_ok_iff`, `validateChunkData_eq_ok_iff`, `validateWant_eq_ok_iff`,
  `validateManifest_eq_ok_iff` — which messages pass.

## Design

Which characters are alphanumeric is a parameter.
-/

namespace Landropic

namespace limits

/-- Maximum size for a single protocol message (10 MB). -/
def MAX_MESSAGE_SIZE : ℕ := 10 * 1024 * 1024

/-- Maximum size for a chunk (16 MB). -/
def MAX_CHUNK_SIZE : ℕ := 16 * 1024 * 1024

/-- Minimum size for a chunk (256 bytes). -/
def MIN_CHUNK_SIZE : ℕ := 256

/-- Maximum length for a file path (4096 bytes). -/
def MAX_PATH_LENGTH : ℕ := 4096

/-- Maximum length for a device name (256 bytes). -/
def MAX_DEVICE_NAME_LENGTH : ℕ := 256

/-- Maximum number of files in a manifest (1 million). -/
def MAX_MANIFEST_FILES : ℕ := 1000000

/-- Maximum number of chunks per file. -/
def MAX_CHUNKS_PER_FILE : ℕ := 100000

/-- Maximum folder identifier length. -/
def MAX_FOLDER_ID_LENGTH : ℕ := 64

/-- Maximum capabilities string length. -/
def MAX_CAPABILITY_LENGTH : ℕ := 256

/-- Maximum number of capabilities per device. -/
def MAX_CAPABILITIES : ℕ := 100

end limits

/-- Validation errors. -/
inductive ValidationError
  | messageTooLarge (size max : ℕ)
  | invalidChunkSize (size min max : ℕ)
  | pathTooLong (length max : ℕ)
  | deviceNameTooLong (length max : ℕ)
  | manifestTooLarge (count max : ℕ)
  | tooManyChunks (count max : ℕ)
  | invalidFolderIdLength (length max : ℕ)
  | invalidHash (reason : String)
  | invalidPath (reason : String)
  | invalidUtf8 (field : String)
  | missingField (field : String)
  | invalidVersion (version : Text)
  | tooManyCapabilities (count max : ℕ)
  deriving DecidableEq

/-- The text of a validation error. -/
def ValidationError.display : ValidationError → String
  | messageTooLarge size max => s!"Message size {size} exceeds maximum {max}"
  | invalidChunkSize size min max => s!"Chunk size {size} is invalid (min: {min}, max: {max})"
  | pathTooLong length max => s!"Path length {length} exceeds maximum {max}"
  | deviceNameTooLong length max => s!"Device name length {length} exceeds maximum {max}"
  | manifestTooLarge count max => s!"Manifest has {count} files, exceeds maximum {max}"
  | tooManyChunks count max => s!"File has {count} chunks, exceeds maximum {max}"
  | invalidFolderIdLength length max => s!"Invalid folder ID length: {length} (max: {max})"
  | invalidHash reason => s!"Invalid hash format: {reason}"
  | invalidPath reason => s!"Invalid path: {reason}"
  | invalidUtf8 field => s!"Invalid UTF-8 in {field}"
  | missingField field => s!"Missing required field: {field}"
  | invalidVersion version => s!"Invalid protocol version: {String.ofList version}"
  | tooManyCapabilities count max => s!"Too many capabilities: {count} (max: {max})"

namespace Validator

/-- Validate a message size. -/
def validateMessageSize (size : ℕ) : Except ValidationError Unit :=
  if size > limits.MAX_MESSAGE_SIZE then
    .error (.messageTooLarge size limits.MAX_MESSAGE_SIZE)
  else .ok ()

/-- Validate a chunk size. -/
def validateChunkSize (size : ℕ) : Except ValidationError Unit :=
  if size < limits.MIN_CHUNK_SIZE ∨ size > limits.MAX_CHUNK_SIZE then
    .error (.invalidChunkSize size limits.MIN_CHUNK_SIZE limits.MAX_CHUNK_SIZE)
  else .ok ()

/-- Validate a file path. -/
def validatePath (path : Text) : Except ValidationError Unit :=
  if path.utf8.length > limits.MAX_PATH_LENGTH then
    .error (.pathTooLong path.utf8.length limits.MAX_PATH_LENGTH)
  else if '\x00' ∈ path then .error (.invalidPath "contains null bytes")
  else if ['.', '.'] <:+: path then .error (.invalidPath "contains directory traversal")
  -- only relative paths are synced
  else if ['/'] <+: path ∨ ['\\'] <+: path then
    .error (.invalidPath "absolute paths not allowed")
  else .ok ()

/-- A control character. -/
def isControl (c : Char) : Bool := c.toNat < 0x20 ∨ 0x7f ≤ c.toNat ∧ c.toNat ≤ 0x9f

/-- Validate a device name. -/
def validateDeviceName (name : Text) : Except ValidationError Unit :=
  if name = [] then .error (.missingField "device_name")
  else if name.utf8.length > limits.MAX_DEVICE_NAME_LENGTH then
    .error (.deviceNameTooLong name.utf8.length limits.MAX_DEVICE_NAME_LENGTH)
  else if name.any isControl then .error (.invalidUtf8 "device_name")
  else .ok ()

/-- Validate a folder identifier: letters, digits, hyphens and underscores. -/
def validateFolderId (isAlphanumeric : Char → Bool) (id : Text) : Except ValidationError Unit :=
  if id = [] then .error (.missingField "folder_id")
  else if id.utf8.length > limits.MAX_FOLDER_ID_LENGTH then
    .error (.invalidFolderIdLength id.utf8.length limits.MAX_FOLDER_ID_LENGTH)
  else if ¬ id.all fun c => isAlphanumeric c || c == '-' || c == '_' then
    .error (.invalidPath "folder ID contains invalid characters")
  else .ok ()

/-- Validate manifest file count. -/
def validateManifestSize (fileCount : ℕ) : Except ValidationError Unit :=
  if fileCount > limits.MAX_MANIFEST_FILES then
    .error (.manifestTooLarge fileCount limits.MAX_MANIFEST_FILES)
  else .ok ()

/-- Validate chunks per file. -/
def validateChunkCount (chunkCount : ℕ) : Except ValidationError Unit :=
  if chunkCount > limits.MAX_CHUNKS_PER_FILE then
    .error (.tooManyChunks chunkCount limits.MAX_CHUNKS_PER_FILE)
  else .ok ()

/-- Validate capabilities list. -/
def validateCapabilities (capabilities : List Text) : Except ValidationError Unit :=
  if capabilities.length > limits.MAX_CAPABILITIES then
    .error (.tooManyCapabilities capabilities.length limits.MAX_CAPABILITIES)
  else capabilities.forM fun cap =>
    if cap.utf8.length > limits.MAX_CAPABILITY_LENGTH then
      .error (.invalidUtf8 s!"capability '{String.ofList cap}'")
    else .ok ()

lemma validateManifestSize_eq_ok_iff {fileCount : ℕ} :
    validateManifestSize fileCount = .ok () ↔ fileCount ≤ limits.MAX_MANIFEST_FILES := by
  unfold validateManifestSize
  split_ifs <;> simp <;> omega

lemma validateChunkCount_eq_ok_iff {chunkCount : ℕ} :
    validateChunkCount chunkCount = .ok () ↔ chunkCount ≤ limits.MAX_CHUNKS_PER_FILE := by
  unfold validateChunkCount
  split_ifs <;> simp <;> omega

lemma validateMessageSize_eq_ok_iff {size : ℕ} :
    validateMessageSize size = .ok () ↔ size ≤ limits.MAX_MESSAGE_SIZE := by
  unfold validateMessageSize
  split_ifs <;> simp <;> omega

lemma validateChunkSize_eq_ok_iff {size : ℕ} : validateChunkSize size = .ok () ↔
    limits.MIN_CHUNK_SIZE ≤ size ∧ size ≤ limits.MAX_CHUNK_SIZE := by
  unfold validateChunkSize
  split_ifs <;> simp <;> omega

end Validator

section ChunkData

variable (blake3 : Bytes → ContentHash)

/-- Validate a `ChunkData` message. -/
def validateChunkData (chunk : ChunkData) : Except ValidationError Unit := do
  if chunk.hash.length ≠ 32 then
    .error (.invalidHash s!"Chunk hash must be 32 bytes, got {chunk.hash.length}")
  else
    Validator.validateChunkSize chunk.data.length
    let computedHash := blake3 chunk.data
    if computedHash.asBytes ≠ chunk.hash then
      .error (.invalidHash "hash doesn't match data")
    else .ok ()

/-- A message is valid if its hash is that of its data and the data has the size of a chunk. -/
lemma validateChunkData_eq_ok_iff {chunk : ChunkData} :
    validateChunkData blake3 chunk = .ok () ↔
      chunk.hash = (blake3 chunk.data).asBytes ∧
        limits.MIN_CHUNK_SIZE ≤ chunk.data.length ∧
        chunk.data.length ≤ limits.MAX_CHUNK_SIZE := by
  rw [validateChunkData]
  split_ifs with hlen
  · simp only [false_iff]
    rintro ⟨hhash, -⟩
    rw [hhash] at hlen
    exact hlen (ContentHash.length_asBytes _)
  · rw [Except.unit_bind_eq_ok, Validator.validateChunkSize_eq_ok_iff]
    by_cases hhash : (blake3 chunk.data).asBytes = chunk.hash
    · simp [hhash]
    · simp [hhash, Ne.symm hhash]

end ChunkData

section Hashes

/-- Check that a hash has 32 bytes. -/
def validateHashLength (what : String) (hash : Bytes) : Except ValidationError Unit :=
  if hash.length ≠ 32 then
    .error (.invalidHash s!"{what} must be 32 bytes, got {hash.length}")
  else .ok ()

lemma validateHashLength_eq_ok_iff {what : String} {hash : Bytes} :
    validateHashLength what hash = .ok () ↔ hash.length = 32 := by
  unfold validateHashLength
  split_ifs with h
  · simp [h]
  · simpa using h

end Hashes

section Hello

/-- Validate a `Hello` message. -/
def validateHello (hello : Hello) : Except ValidationError Unit := do
  if hello.version = [] then .error (.missingField "version")
  else if !VersionNegotiator.isCompatible hello.version then
    .error (.invalidVersion hello.version)
  else
    Validator.validateDeviceName hello.deviceName
    validateHashLength "Device ID" hello.deviceId
    Validator.validateCapabilities hello.capabilities

/-- **Which greetings pass**: those with a compatible version, a valid name, an id of 32 bytes and
valid capabilities. -/
lemma validateHello_eq_ok_iff {hello : Hello} : validateHello hello = .ok () ↔
    VersionNegotiator.isCompatible hello.version = true ∧
      Validator.validateDeviceName hello.deviceName = .ok () ∧ hello.deviceId.length = 32 ∧
      Validator.validateCapabilities hello.capabilities = .ok () := by
  unfold validateHello
  by_cases hempty : hello.version = []
  · simp [hempty, show VersionNegotiator.isCompatible [] = false by decide]
  · by_cases hversion : VersionNegotiator.isCompatible hello.version = true
    · simp [hempty, hversion, Except.unit_bind_eq_ok, validateHashLength_eq_ok_iff]
    · simp [hempty, hversion]

end Hello

section Folders

variable (isAlphanumeric : Char → Bool)

/-- Validate a `FolderSummary` message. -/
def validateFolderSummary (summary : FolderSummary) : Except ValidationError Unit := do
  Validator.validateFolderId isAlphanumeric summary.folderId
  -- the hash of the manifest may be missing
  if summary.manifestHash ≠ [] then validateHashLength "Manifest hash" summary.manifestHash
  Validator.validateManifestSize summary.fileCount.toNat

/-- Maximum number of hashes in a `Want` message. -/
def MAX_WANT_HASHES : ℕ := 1000

/-- Validate a `Want` message. -/
def validateWant (want : Want) : Except ValidationError Unit := do
  Validator.validateFolderId isAlphanumeric want.folderId
  want.chunkHashes.forM (validateHashLength "Chunk hash")
  if want.chunkHashes.length > MAX_WANT_HASHES then
    .error (.tooManyChunks want.chunkHashes.length MAX_WANT_HASHES)
  else .ok ()

/-- Validate a file entry in a manifest. -/
def validateFileEntry (entry : FileEntry) : Except ValidationError Unit := do
  Validator.validatePath entry.path
  validateHashLength "Content hash" entry.contentHash
  Validator.validateChunkCount entry.chunkHashes.length
  entry.chunkHashes.forM (validateHashLength "Chunk hash")

/-- Validate an entire manifest. -/
def validateManifest (manifest : ProtoManifest) : Except ValidationError Unit := do
  Validator.validateFolderId isAlphanumeric manifest.folderId
  Validator.validateManifestSize manifest.files.length
  manifest.files.forM validateFileEntry
  validateHashLength "Manifest hash" manifest.manifestHash

/-- **Which requests pass**: those for at most a thousand hashes of a folder with a valid
identifier. -/
lemma validateWant_eq_ok_iff {want : Want} :
    validateWant isAlphanumeric want = .ok () ↔
      Validator.validateFolderId isAlphanumeric want.folderId = .ok () ∧
        (∀ hash ∈ want.chunkHashes, hash.length = 32) ∧
        want.chunkHashes.length ≤ MAX_WANT_HASHES := by
  simp only [validateWant, Except.unit_bind_eq_ok, List.forM_eq_forM,
    Except.forM_eq_ok_iff, validateHashLength_eq_ok_iff]
  refine and_congr_right fun _ => and_congr_right fun _ => ?_
  split_ifs with h
  · simpa using h
  · simpa using h

lemma validateFileEntry_eq_ok_iff {entry : FileEntry} : validateFileEntry entry = .ok () ↔
    Validator.validatePath entry.path = .ok () ∧ entry.contentHash.length = 32 ∧
      entry.chunkHashes.length ≤ limits.MAX_CHUNKS_PER_FILE ∧
      ∀ hash ∈ entry.chunkHashes, hash.length = 32 := by
  simp only [validateFileEntry, Except.unit_bind_eq_ok, List.forM_eq_forM,
    Except.forM_eq_ok_iff, validateHashLength_eq_ok_iff, Validator.validateChunkCount_eq_ok_iff]

/-- **Which manifests pass**: those of a folder with a valid identifier whose file entries are
valid, at most a million. -/
lemma validateManifest_eq_ok_iff {manifest : ProtoManifest} :
    validateManifest isAlphanumeric manifest = .ok () ↔
      Validator.validateFolderId isAlphanumeric manifest.folderId = .ok () ∧
        manifest.files.length ≤ limits.MAX_MANIFEST_FILES ∧
        (∀ entry ∈ manifest.files, validateFileEntry entry = .ok ()) ∧
        manifest.manifestHash.length = 32 := by
  simp only [validateManifest, Except.unit_bind_eq_ok, List.forM_eq_forM,
    Except.forM_eq_ok_iff, validateHashLength_eq_ok_iff, Validator.validateManifestSize_eq_ok_iff]

end Folders

end Landropic
