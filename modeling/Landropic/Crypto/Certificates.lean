import Landropic.Crypto.DeviceId
import Landropic.Foundations.HashMap

set_option autoImplicit false

/-!
# Certificates and the devices that are trusted

A certificate carries the identifier of its device in an extension. A verifier knows the devices
that are trusted and the certificates that are pinned for them.

## Main definitions

* `X509Certificate` — what is read of a certificate.
* `CertificateVerifier` — the devices that are trusted.
* `CertificateVerifier.extractDeviceId` — the device of a certificate.
* `checkValidity`, `verifySelfSignature` — the checks that verifiers share.

## Main results

* `checkValidity_eq_ok_iff` — the period of validity is compared as unsigned numbers.
* `CertificateVerifier.names_of_extractDeviceId` — the device is named by an extension.

## Design

A certificate is the bytes that encode it, and the parser of the `x509_parser` crate is a parameter
of everything that reads one.
-/

namespace Landropic

/-- An extension of a certificate. -/
structure X509Extension where
  oid : Text
  value : Bytes
  deriving DecidableEq

/-- What is read of a certificate. Times are in seconds since 1970, and names are those of the
certificate, as they are encoded. -/
structure X509Certificate where
  issuer : Bytes
  subject : Bytes
  notBefore : Int64
  notAfter : Int64
  extensions : List X509Extension
  /-- The signature is valid under the public key of the certificate itself. -/
  selfSigned : Bool
  deriving DecidableEq

/-- The bytes of a certificate. -/
abbrev CertificateDer := Bytes

/-- Why a certificate is invalid. -/
inductive CertificateError
  | badEncoding
  | expired
  | unknownIssuer
  | other (e : CryptoError)
  deriving DecidableEq

/-- The devices that are trusted. -/
structure CertificateVerifier where
  trustedDeviceIds : List DeviceId
  trustedCertificates : HashMap DeviceId CertificateDer
  allowUntrusted : Bool

/-- The object identifier of the extension with the device identifier. -/
def DEVICE_ID_OID : Text := "1.3.6.1.4.1.99999.1".toList

namespace CertificateVerifier

variable (v : CertificateVerifier) (id : DeviceId)

/-- Create a new verifier with a list of trusted device identifiers. -/
def new (trustedDeviceIds : List DeviceId) : CertificateVerifier := ⟨trustedDeviceIds, ∅, false⟩

/-- Check if a device is trusted. -/
def isTrusted : Bool := v.allowUntrusted || v.trustedDeviceIds.contains id

/-- Get the pinned certificate for a device (if any). -/
def getPinnedCertificate : Option CertificateDer := v.trustedCertificates.lookup id

/-- The device identifier that an extension contains: another length is passed over. -/
def deviceIdOf (ext : X509Extension) : Option DeviceId :=
  if ext.oid = DEVICE_ID_OID then (DeviceId.fromBytes ext.value).toOption else none

/-- Extract the device identifier from a certificate: that of the first extension that has one. -/
def extractDeviceId (fromDer : Bytes → Option X509Certificate) (cert : CertificateDer) :
    Option DeviceId :=
  (fromDer cert).bind fun cert => cert.extensions.findSome? deviceIdOf

/-- A certificate has an extension with the identifier of a device. -/
def Names (cert : X509Certificate) (id : DeviceId) : Prop :=
  ⟨DEVICE_ID_OID, id.asBytes⟩ ∈ cert.extensions

variable {v id} {fromDer : Bytes → Option X509Certificate} {der : CertificateDer}
  {cert : X509Certificate}

lemma deviceIdOf_eq_some_iff {ext : X509Extension} :
    deviceIdOf ext = some id ↔ ext = ⟨DEVICE_ID_OID, id.asBytes⟩ := by
  obtain ⟨oid, value⟩ := ext
  rw [X509Extension.mk.injEq, deviceIdOf]
  split
  · next hoid =>
    simp only [show oid = DEVICE_ID_OID from hoid, true_and]
    by_cases hlength : value.length = 32
    · rw [DeviceId.fromBytes, dif_pos hlength]
      exact ⟨fun h => by rw [← Option.some.inj h], fun h => congrArg some (DeviceId.ext h)⟩
    · rw [DeviceId.fromBytes, dif_neg hlength]
      refine iff_of_false (by simp [Except.toOption]) ?_
      rintro rfl
      exact hlength id.length_asBytes
  · next hoid => exact iff_of_false (by simp) fun h => hoid h.1

/-- **The device is named by an extension.** -/
theorem names_of_extractDeviceId (hcert : fromDer der = some cert)
    (h : extractDeviceId fromDer der = some id) : Names cert id := by
  rw [extractDeviceId, hcert, Option.bind_some] at h
  obtain ⟨ext, hext, hid⟩ := List.exists_of_findSome?_eq_some h
  rwa [deviceIdOf_eq_some_iff.mp hid] at hext

end CertificateVerifier

/-! ## Checks of a certificate -/

/-- Check the validity period of a certificate: the times are compared as unsigned numbers. -/
def checkValidity (cert : X509Certificate) (now : UInt64) : Except CertificateError Unit :=
  if cert.notBefore.toUInt64 > now ∨ cert.notAfter.toUInt64 < now then .error .expired else .ok ()

/-- Verify that a certificate is properly self-signed: its issuer is its subject. -/
def verifySelfSignature (fromDer : Bytes → Option X509Certificate) (der : CertificateDer) :
    Except CryptoError Unit :=
  match fromDer der with
  | none => .error (.certificateValidation "Failed to parse certificate")
  | some cert =>
    if cert.issuer ≠ cert.subject then
      .error (.certificateValidation "Certificate is not self-signed")
    else .ok ()

lemma toNat_toUInt64 (t : Int64) :
    (t.toUInt64.toNat : ℤ) = if 0 ≤ t.toInt then t.toInt else t.toInt + 2 ^ 64 := by
  have hbits : t.toUInt64.toNat = t.toBitVec.toNat := rfl
  rw [hbits, ← Int64.toInt_toBitVec, BitVec.toInt_eq_toNat_cond]
  have hlt := t.toBitVec.isLt
  split_ifs <;> omega

/-- **The period of validity** is compared as unsigned numbers. -/
lemma checkValidity_eq_ok_iff {cert : X509Certificate} {now : UInt64} :
    checkValidity cert now = .ok () ↔
      cert.notBefore.toUInt64.toNat ≤ now.toNat ∧ now.toNat ≤ cert.notAfter.toUInt64.toNat := by
  simp only [checkValidity, gt_iff_lt, UInt64.lt_iff_toNat_lt]
  split
  · next h => exact iff_of_false (by simp) (by omega)
  · next h => exact iff_of_true rfl (by omega)

lemma verifySelfSignature_eq_ok_iff {fromDer : Bytes → Option X509Certificate}
    {der : CertificateDer} {cert : X509Certificate} (hcert : fromDer der = some cert) :
    verifySelfSignature fromDer der = .ok () ↔ cert.issuer = cert.subject := by
  simp [verifySelfSignature, hcert]

/-! ## A certificate -/

/-- An element of an encoding: its tag, the length and the content. -/
def derElement (tag : UInt8) (content : Bytes) : Bytes :=
  tag :: ((if content.length < 128 then [] else [129]) ++ UInt8.ofNat content.length :: content)

/-- An Ed25519 public key. -/
def sampleKey : Bytes :=
  [59, 106, 39, 188, 206, 182, 164, 45, 98, 163, 168, 208, 42, 111, 13, 115,
    101, 50, 21, 119, 29, 226, 67, 166, 58, 192, 72, 161, 139, 89, 218, 41]

/-- The signature of the certificate under that key. -/
def sampleSignature : Bytes :=
  [52, 42, 240, 28, 15, 50, 64, 114, 206, 152, 84, 161, 19, 177, 89, 77,
    249, 253, 58, 232, 69, 148, 67, 28, 209, 184, 105, 1, 2, 101, 145, 100,
    226, 114, 150, 45, 2, 155, 95, 56, 93, 112, 79, 118, 233, 69, 134, 176,
    128, 179, 54, 253, 119, 173, 247, 209, 204, 80, 134, 66, 224, 101, 200, 9]

/-- The certificate of a device for the first ten seconds of 1970, with a signature. -/
def sampleDer (signature : Bytes) : CertificateDer :=
  let algorithm := derElement 48 [6, 3, 43, 101, 112]
  let time (text : String) := derElement 23 (Text.utf8 text.toList)
  let extension := derElement 48 (derElement 6 [43, 6, 1, 4, 1, 134, 141, 31, 1] ++
    derElement 4 (DeviceId.fill 1).asBytes)
  let tbs := derElement 48 (derElement 160 [2, 1, 2] ++ [2, 1, 1] ++ algorithm ++
    derElement 48 [] ++ derElement 48 (time "700101000000Z" ++ time "700101000010Z") ++
    derElement 48 [] ++ derElement 48 (algorithm ++ derElement 3 (0 :: sampleKey)) ++
    derElement 163 (derElement 48 extension))
  derElement 48 (tbs ++ algorithm ++ derElement 3 (0 :: signature))

/-- What is read of the certificate. -/
def sampleCert (selfSigned : Bool) : X509Certificate where
  issuer := derElement 48 []
  subject := derElement 48 []
  notBefore := 0
  notAfter := 10
  extensions := [⟨DEVICE_ID_OID, (DeviceId.fill 1).asBytes⟩]
  selfSigned := selfSigned

/-- The signature of no certificate. -/
def wrongSignature : Bytes := List.replicate 64 0

/-- A parser that reads the certificate, with its signature or with a wrong one. -/
def sampleParser (der : Bytes) : Option X509Certificate :=
  if der = sampleDer sampleSignature then some (sampleCert true)
  else if der = sampleDer wrongSignature then some (sampleCert false)
  else none

lemma sampleParser_wrongSignature :
    sampleParser (sampleDer wrongSignature) = some (sampleCert false) := by
  have hne : sampleDer wrongSignature ≠ sampleDer sampleSignature := by decide +kernel
  rw [sampleParser, if_neg hne, if_pos rfl]

end Landropic
