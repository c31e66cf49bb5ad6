import Landropic.Chunker.Hash

set_option autoImplicit false

/-!
# Device identifiers

A device is known by its public key, 32 bytes, which are written in hexadecimal in file names.

## Main definitions

* `CryptoError` — the errors of cryptographic operations.
* `DeviceId` — the identifier of a device.
* `DeviceId.toHex`, `DeviceId.fromStr` — its hexadecimal form.

## Main results

* `DeviceId.fromStr_toHex` — the hexadecimal form can be read.
-/

namespace Landropic

/-- Errors that can occur during cryptographic operations. -/
inductive CryptoError
  | io (msg : String)
  | keyGeneration (msg : String)
  | invalidKeyFormat (msg : String)
  | certificateGeneration (msg : String)
  | certificateValidation (msg : String)
  | signatureVerification
  | serialization (msg : String)
  | keyNotFound (path : String)
  | storage (msg : String)
  | trustError (msg : String)
  deriving DecidableEq

/-- The text of an error. -/
def CryptoError.toString : CryptoError → String
  | io msg => "IO error: " ++ msg
  | keyGeneration msg => "Key generation failed: " ++ msg
  | invalidKeyFormat msg => "Invalid key format: " ++ msg
  | certificateGeneration msg => "Certificate generation failed: " ++ msg
  | certificateValidation msg => "Certificate validation failed: " ++ msg
  | signatureVerification => "Signature verification failed"
  | serialization msg => "Serialization error: " ++ msg
  | keyNotFound path => "Key not found at path: " ++ path
  | storage msg => "Certificate storage error: " ++ msg
  | trustError msg => "Certificate trust error: " ++ msg

/-- A unique device identifier derived from an Ed25519 public key. -/
structure DeviceId where
  asBytes : Bytes
  /-- A public key has 32 bytes. -/
  length_asBytes : asBytes.length = 32

namespace DeviceId

attribute [simp] length_asBytes

@[ext] lemma ext {a b : DeviceId} (h : a.asBytes = b.asBytes) : a = b := by
  cases a
  cases b
  obtain rfl := h
  rfl

instance : DecidableEq DeviceId :=
  fun a b => decidable_of_iff (a.asBytes = b.asBytes) ⟨ext, congrArg asBytes⟩

lemma length_equalBytes (b : UInt8) : (List.replicate 32 b).length = 32 := List.length_replicate

/-- The identifier of 32 equal bytes. -/
def fill (b : UInt8) : DeviceId := ⟨List.replicate 32 b, length_equalBytes b⟩

/-- Creates a device identifier from raw bytes. -/
def fromBytes (bytes : Bytes) : Except CryptoError DeviceId :=
  if h : bytes.length = 32 then .ok ⟨bytes, h⟩
  else .error (.invalidKeyFormat "Device ID must be 32 bytes")

/-- The device identifier as a hex string (for file names, etc.) -/
def toHex (id : DeviceId) : Text := Hex.encode id.asBytes

/-- Parse a hex string of 64 characters for 32 bytes. -/
def fromStr (s : Text) : Option DeviceId :=
  if s.utf8.length = 64 then (Hex.decode s).bind fun bytes => (fromBytes bytes).toOption
  else none

lemma fromBytes_asBytes (id : DeviceId) : fromBytes id.asBytes = .ok id := dif_pos id.length_asBytes

@[simp] lemma length_toHex (id : DeviceId) : id.toHex.length = 64 := by simp [toHex]

/-- **The hexadecimal form can be read.** -/
@[simp] theorem fromStr_toHex (id : DeviceId) : fromStr id.toHex = some id := by
  rw [fromStr, if_pos, toHex, Hex.decode_encode, Option.bind_some, fromBytes_asBytes]
  · rfl
  · rw [toHex, Hex.length_utf8_encode, length_asBytes]

lemma toHex_injective : Function.Injective toHex := fun _ _ h => ext (Hex.encode_injective h)

end DeviceId

end Landropic
