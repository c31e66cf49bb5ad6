import Landropic.Crypto.Certificates

set_option autoImplicit false

/-!
# The verifiers of both sides of a connection

A server's certificate and a client's certificate are verified in the same way. Neither verifier
checks that the certificate is signed by its own key, and both compare times as unsigned numbers.

## Main definitions

* `LandropicCertVerifier.verifyServerCert`, `LandropicClientCertVerifier.verifyClientCert` — the
  verifiers.
* `ShouldAccept` — the certificates that should be accepted.
* `VerdictsRight` — both verifiers give the right verdict.

## Main results

* `verifyServerCert_eq_verifyClientCert` — they give the same verdict.
* `checkDevice_eq_ok_iff`, `verifyClientCert_eq_ok_iff` — what is accepted.
* `verdictsRight_iff` — exactly when the verdict is right.
-/

namespace Landropic

/-- Secure certificate verifier for landropic mTLS connections. -/
structure LandropicCertVerifier where
  verifier : CertificateVerifier
  allowSelfSigned : Bool

/-- Secure client certificate verifier for server-side mTLS validation. -/
structure LandropicClientCertVerifier where
  verifier : CertificateVerifier

/-- The checks that come last on both sides: the device of a certificate is trusted, the certificate
is the pinned one, if there is one, and it is self-signed and alone. -/
def checkDevice (verifier : CertificateVerifier) (fromDer : Bytes → Option X509Certificate)
    (endEntity : CertificateDer) (intermediates : List CertificateDer) :
    Except CertificateError Unit :=
  match CertificateVerifier.extractDeviceId fromDer endEntity with
  | none => .error (.other (.certificateValidation "No device ID found in certificate"))
  | some deviceId =>
    if ¬ verifier.isTrusted deviceId then .error .unknownIssuer
    else if ∃ pinned ∈ verifier.getPinnedCertificate deviceId, pinned ≠ endEntity then
      .error (.other (.certificateValidation "Certificate does not match pinned certificate"))
    else
      match verifySelfSignature fromDer endEntity with
      | .error e => .error (.other (.certificateValidation
          ("Self-signature verification failed: " ++ e.toString)))
      | .ok () => if intermediates ≠ [] then .error .badEncoding else .ok ()

/-- Verify the certificate of a server. -/
def LandropicCertVerifier.verifyServerCert (v : LandropicCertVerifier)
    (fromDer : Bytes → Option X509Certificate) (endEntity : CertificateDer)
    (intermediates : List CertificateDer) (now : UInt64) : Except CertificateError Unit :=
  match fromDer endEntity with
  | none => .error .badEncoding
  | some cert => do
    checkValidity cert now
    if ¬ v.allowSelfSigned then throw .unknownIssuer
    checkDevice v.verifier fromDer endEntity intermediates

/-- Verify the certificate of a client. -/
def LandropicClientCertVerifier.verifyClientCert (v : LandropicClientCertVerifier)
    (fromDer : Bytes → Option X509Certificate) (endEntity : CertificateDer)
    (intermediates : List CertificateDer) (now : UInt64) : Except CertificateError Unit :=
  match fromDer endEntity with
  | none => .error .badEncoding
  | some cert => do
    checkValidity cert now
    checkDevice v.verifier fromDer endEntity intermediates

/-! ## The certificates that should be accepted -/

/-- A device is trusted with a certificate: the certificate is the pinned one, if there is one. -/
def CertificateVerifier.Admits (v : CertificateVerifier) (id : DeviceId) (der : CertificateDer) :
    Prop :=
  v.isTrusted id = true ∧ ∀ pinned, v.getPinnedCertificate id = some pinned → pinned = der

/-- A certificate should be accepted. -/
structure ShouldAccept (v : CertificateVerifier) (der : CertificateDer) (cert : X509Certificate)
    (intermediates : List CertificateDer) (now : UInt64) : Prop where
  started : cert.notBefore.toInt ≤ now.toNat
  notEnded : now.toNat ≤ cert.notAfter.toInt
  alone : intermediates = []
  device : ∃ id, CertificateVerifier.Names cert id ∧ v.Admits id der
  signed : cert.selfSigned = true

/-- Both verifiers give the same verdict, and accept what should be accepted. -/
def VerdictsRight (v : CertificateVerifier) (fromDer : Bytes → Option X509Certificate)
    (der : CertificateDer) (cert : X509Certificate) (intermediates : List CertificateDer)
    (now : UInt64) : Prop :=
  LandropicCertVerifier.verifyServerCert ⟨v, true⟩ fromDer der intermediates now =
      LandropicClientCertVerifier.verifyClientCert ⟨v⟩ fromDer der intermediates now ∧
    (LandropicClientCertVerifier.verifyClientCert ⟨v⟩ fromDer der intermediates now = .ok () ↔
      ShouldAccept v der cert intermediates now)

/-- The first device that a certificate names is trusted with it. -/
def AdmitsFirst (v : CertificateVerifier) (fromDer : Bytes → Option X509Certificate)
    (der : CertificateDer) : Prop :=
  ∃ id, CertificateVerifier.extractDeviceId fromDer der = some id ∧ v.Admits id der

/-- A certificate passes the checks that are made: its times are compared as unsigned numbers, only
the first device counts, and a certificate whose issuer is its subject is taken for self-signed. -/
structure Passes (v : CertificateVerifier) (fromDer : Bytes → Option X509Certificate)
    (der : CertificateDer) (cert : X509Certificate) (intermediates : List CertificateDer)
    (now : UInt64) : Prop where
  started : cert.notBefore.toUInt64.toNat ≤ now.toNat
  notEnded : now.toNat ≤ cert.notAfter.toUInt64.toNat
  alone : intermediates = []
  device : AdmitsFirst v fromDer der
  named : cert.issuer = cert.subject

section Verdicts

variable {v : CertificateVerifier} {fromDer : Bytes → Option X509Certificate}
  {der : CertificateDer} {cert : X509Certificate} {intermediates : List CertificateDer}
  {now : UInt64}

/-- **Both sides give the same verdict.** -/
theorem verifyServerCert_eq_verifyClientCert :
    LandropicCertVerifier.verifyServerCert ⟨v, true⟩ fromDer der intermediates now =
      LandropicClientCertVerifier.verifyClientCert ⟨v⟩ fromDer der intermediates now := rfl

lemma checkDevice_eq_ok_iff (hcert : fromDer der = some cert) :
    checkDevice v fromDer der intermediates = .ok () ↔
      AdmitsFirst v fromDer der ∧ cert.issuer = cert.subject ∧ intermediates = [] := by
  rw [← verifySelfSignature_eq_ok_iff hcert, AdmitsFirst, checkDevice]
  cases hid : CertificateVerifier.extractDeviceId fromDer der with
  | none => simp
  | some id =>
    simp only [CertificateVerifier.Admits, Option.some.injEq, exists_eq_left', Option.mem_def]
    by_cases htrusted : v.isTrusted id = true
    swap
    · rw [if_pos htrusted]
      exact iff_of_false (by simp) fun h => htrusted h.1.1
    rw [if_neg (not_not_intro htrusted)]
    by_cases hpinned : ∃ pinned, v.getPinnedCertificate id = some pinned ∧ pinned ≠ der
    · rw [if_pos hpinned]
      obtain ⟨pinned, hpinned, hne⟩ := hpinned
      exact iff_of_false (by simp) fun h => hne (h.1.2 pinned hpinned)
    rw [if_neg hpinned]
    have hpins : ∀ pinned, v.getPinnedCertificate id = some pinned → pinned = der := by
      intro pinned hsome
      by_contra hne
      exact hpinned ⟨pinned, hsome, hne⟩
    cases verifySelfSignature fromDer der with
    | error e => simp
    | ok u =>
      by_cases halone : intermediates = []
      · simpa [halone] using ⟨htrusted, hpins⟩
      · simp [halone]

/-- **What is accepted.** -/
theorem verifyClientCert_eq_ok_iff (hcert : fromDer der = some cert) :
    LandropicClientCertVerifier.verifyClientCert ⟨v⟩ fromDer der intermediates now = .ok () ↔
      Passes v fromDer der cert intermediates now := by
  have hboth : LandropicClientCertVerifier.verifyClientCert ⟨v⟩ fromDer der intermediates now =
      .ok () ↔
        checkValidity cert now = .ok () ∧ checkDevice v fromDer der intermediates = .ok () := by
    simp only [LandropicClientCertVerifier.verifyClientCert, hcert]
    cases checkValidity cert now with
    | error e => exact iff_of_false (by simp [bind, Except.bind]) (by simp)
    | ok u => simp [bind, Except.bind]
  rw [hboth, checkValidity_eq_ok_iff, checkDevice_eq_ok_iff hcert]
  exact ⟨fun ⟨⟨hstarted, hended⟩, hdevice, hnamed, halone⟩ =>
    ⟨hstarted, hended, halone, hdevice, hnamed⟩,
    fun h => ⟨⟨h.started, h.notEnded⟩, h.device, h.named, h.alone⟩⟩

/-- **Exactly when the verdict is right.** No certificate is refused that should be accepted: it
does not start before 1970, the first device it names is trusted with it, and its issuer is its
subject. And none that passes the checks was signed by another key, or has ended before 1970.

**Proof sketch.** A time from 1970 on is the same number with and without a sign, and one before
1970 is later than any other one if it is read without its sign. -/
theorem verdictsRight_iff (hcert : fromDer der = some cert) :
    VerdictsRight v fromDer der cert intermediates now ↔
      (ShouldAccept v der cert intermediates now →
        (cert.notBefore.toInt < 0 → cert.notBefore.toInt + 2 ^ 64 ≤ now.toNat) ∧
          AdmitsFirst v fromDer der ∧ cert.issuer = cert.subject) ∧
      (Passes v fromDer der cert intermediates now →
        cert.selfSigned = true ∧ 0 ≤ cert.notAfter.toInt) := by
  have hbefore := toNat_toUInt64 cert.notBefore
  have hafter := toNat_toUInt64 cert.notAfter
  rw [VerdictsRight, verifyClientCert_eq_ok_iff hcert]
  constructor
  · rintro ⟨-, hiff⟩
    refine ⟨fun h => ⟨fun hnegative => ?_, (hiff.mpr h).device, (hiff.mpr h).named⟩,
      fun h => ⟨(hiff.mp h).signed, ?_⟩⟩
    · have hstarted := (hiff.mpr h).started
      rw [if_neg (by omega)] at hbefore
      omega
    · have hended := (hiff.mp h).notEnded
      omega
  · rintro ⟨hrefused, hpassed⟩
    refine ⟨verifyServerCert_eq_verifyClientCert, fun h => ?_, fun h => ?_⟩
    · obtain ⟨hsigned, hnonneg⟩ := hpassed h
      obtain ⟨id, hid, hadmits⟩ := h.device
      have hstarted := h.started
      have hended := h.notEnded
      rw [if_pos hnonneg] at hafter
      have hnames := CertificateVerifier.names_of_extractDeviceId hcert hid
      refine ⟨?_, by omega, h.alone, ⟨id, hnames, hadmits⟩, hsigned⟩
      split_ifs at hbefore <;> omega
    · obtain ⟨hnegative, hdevice, hnamed⟩ := hrefused h
      have hstarted := h.started
      have hended := h.notEnded
      rw [if_pos (by omega)] at hafter
      refine ⟨?_, by omega, h.alone, hdevice, hnamed⟩
      split_ifs at hbefore <;> omega

end Verdicts

/-! ## A certificate that is signed by another key -/

/-- The verdict on a certificate is right. -/
theorem verdictsRight_iff_sampleCert :
    VerdictsRight (.new [.fill 1]) sampleParser (sampleDer sampleSignature) (sampleCert true) []
      5 := by
  have hadmits : (CertificateVerifier.new [.fill 1]).Admits (.fill 1) (sampleDer sampleSignature) :=
    ⟨by decide, fun pinned h => by cases h⟩
  have hread : sampleParser (sampleDer sampleSignature) = some (sampleCert true) := if_pos rfl
  have hfirst : CertificateVerifier.extractDeviceId sampleParser (sampleDer sampleSignature) =
      some (.fill 1) := by
    rw [CertificateVerifier.extractDeviceId, hread]
    decide
  exact (verdictsRight_iff hread).mpr
    ⟨fun _ => ⟨by decide, ⟨.fill 1, hfirst, hadmits⟩, rfl⟩, fun _ => ⟨rfl, by decide⟩⟩

/-- **A certificate that is signed by another key is accepted.** -/
theorem not_verdictsRight_wrongSignature :
    ¬ VerdictsRight (.new [.fill 1]) sampleParser (sampleDer wrongSignature) (sampleCert false) []
      5 := by
  intro h
  have hok : LandropicClientCertVerifier.verifyClientCert ⟨.new [.fill 1]⟩ sampleParser
      (sampleDer wrongSignature) [] 5 = .ok () := by
    simp only [LandropicClientCertVerifier.verifyClientCert, checkDevice, verifySelfSignature,
      CertificateVerifier.extractDeviceId, sampleParser_wrongSignature]
    decide
  exact absurd (h.2.mp hok).signed (by decide)

end Landropic
