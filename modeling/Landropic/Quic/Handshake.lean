import Landropic.Crypto.SecureVerifier
import Landropic.Foundations.Pipes
import Landropic.Proto.Validation
import Landropic.Proto.WireFormat

set_option autoImplicit false

/-!
# The handshake of a connection

Two devices are connected once each has accepted the certificate of the other and they have
exchanged greetings. The device that a connection reports is the one named in the greeting, which
nobody compares with the certificate.

## Main definitions

* `QuicConnection` — what is known of the other side.
* `QuicConnection.sendHello`, `receiveHello` — the two greetings.
* `QuicConnection.clientHandshake`, `serverHandshake` — their orders.
* `QuicClient.connectAddr`, `QuicServer.accept` — how connections come about.
* `Greets` — what a peer sends begins with a valid greeting.
* `IsWhoItSays` — every connection to a peer reports the device of its certificate.

## Main results

* `QuicConnection.run_sendHello`, `run_receiveHello` — which greetings are sent and received.
* `QuicConnection.reports_of_run` — what a connection reports after a handshake.
* `isWhoItSays_iff` — which peers are who their certificates say.

## Design

The certificates are verified while the connection is established, by the verifiers of the two
sides. What else may go wrong, and when, is an input.
-/

namespace Landropic

/-- The errors that establishing a connection may end with. -/
inductive HandshakeError
  | connection (msg : String)
  | connect (msg : String)
  | stream (msg : String)
  | protocol (msg : String)
  | timeout
  | handshakeTimeout (timeoutSecs : ℕ)
  | handshakeFailed (reason : String)
  deriving DecidableEq

/-- The text of an error. -/
def HandshakeError.toString : HandshakeError → String
  | connection msg => "Connection error: " ++ msg
  | connect msg => "Connect error: " ++ msg
  | stream msg => "Stream error: " ++ msg
  | protocol msg => "Protocol error: " ++ msg
  | timeout => "Timeout"
  | handshakeTimeout timeoutSecs => s!"Handshake timeout after {timeoutSecs} seconds"
  | handshakeFailed reason => "Handshake failed: " ++ reason

/-- Wrapper around a QUIC connection with protocol handling. -/
structure QuicConnection where
  remoteDeviceId : Option Bytes
  remoteDeviceName : Option Text
  deriving DecidableEq

/-- How establishing a connection turns out, apart from what the peer sends. -/
structure HandshakeInput where
  /-- The time at which the certificate is verified, in seconds. -/
  verified : UInt64
  /-- How a refused certificate is reported. -/
  report : CertificateError → String
  /-- Why no connection comes about before that, if none does. -/
  refused : Option HandshakeError
  now : Timestamp
  /-- Why our stream cannot be opened, if it cannot. -/
  opening : Option String
  /-- Why one of our writes to it fails, by their number, if it does. -/
  writing : ℕ → Option String
  /-- Why no stream of the peer can be accepted, if none can. -/
  accepting : Option String
  /-- After how many steps the handshake is cut off, if it takes too long. -/
  cutOff : Option ℕ

/-- A side of a handshake. -/
abbrev ConnectionTalk (α : Type) := Talk QuicConnection HandshakeInput HandshakeError α

namespace QuicConnection

open Talk

/-- The type of the stream for control messages. -/
def Control : UInt8 := 0

/-- A new connection wrapper. -/
def new : QuicConnection := ⟨none, none⟩

/-! ## The greetings -/

/-- Our greeting. -/
def hello (deviceId : Bytes) (deviceName : Text) (now : Timestamp) : Hello where
  version := VersionNegotiator.PROTOCOL_VERSION
  deviceId := deviceId
  deviceName := deviceName
  capabilities := ["sync".toList, "transfer".toList]
  timestamp := some now

/-- One write of a greeting. -/
def writeAll (n : ℕ) (bytes : Bytes) (what : String) : ConnectionTalk Unit :=
  sendAll bytes fun i => (i.writing n).map fun e => .stream (what ++ e)

/-- Send the handshake message. -/
def sendHello (deviceId : Bytes) (deviceName : Text) : ConnectionTalk Unit :=
  if deviceId.length ≠ 32 then
    fail (.protocol s!"Invalid device ID length: expected 32 bytes, got {deviceId.length}")
  else
    match Validator.validateDeviceName deviceName with
    | .error e => fail (.protocol ("Invalid device name: " ++ e.display))
    | .ok () => do
      let now ← atom fun i c => (.ok i.now, c)
      let buf := Hello.record.encode (hello deviceId deviceName now)
      if buf.length > limits.MAX_MESSAGE_SIZE then
        fail (.protocol (s!"Hello message too large: {buf.length} bytes " ++
          s!"(max: {limits.MAX_MESSAGE_SIZE})"))
      else do
        atom fun i c => (i.opening.elim (.ok ()) fun e => .error (.connection e), c)
        writeAll 0 [Control] "Failed to write stream type: "
        writeAll 1 (beBytes 4 (buf.length % 2 ^ 32)) "Failed to write message length: "
        writeAll 2 buf "Failed to write hello: "
        writeAll 3 [] "Failed to finish stream: "

/-- Parse and validate a handshake message, and store the information about the device. -/
def processHello (buf : Bytes) : ConnectionTalk Unit :=
  match Hello.record.decode buf with
  | .error e => fail (.protocol ("Failed to decode hello: " ++ e))
  | .ok hello =>
    match validateHello hello with
    | .error e => fail (.protocol ("Invalid hello message: " ++ e.display))
    | .ok () => do
      atom fun _ c => (.ok (), { c with remoteDeviceId := some hello.deviceId })
      atom fun _ c => (.ok (), { c with remoteDeviceName := some hello.deviceName })

/-- Receive and process the handshake message. -/
def receiveHello : ConnectionTalk Unit := do
  atom fun i c => (i.accepting.elim (.ok ()) fun e => .error (.connection e), c)
  let streamType ← readExact 1 (.stream "Failed to read stream type: stream finished early")
  if streamType ≠ [Control] then
    fail (.protocol s!"Expected control stream, got type {beNat streamType}")
  else do
    let lenBytes ← readExact 4 (.stream "Failed to read message length: stream finished early")
    match Validator.validateMessageSize (beNat lenBytes) with
    | .error e => fail (.protocol ("Invalid message size: " ++ e.display))
    | .ok () => do
      let buf ← readExact (beNat lenBytes) (.stream "Failed to read hello: stream finished early")
      processHello buf

/-! ## The handshakes -/

/-- A step of a handshake, whose errors say which step it was. -/
def stage (what : String) (step : ConnectionTalk Unit) : ConnectionTalk Unit :=
  step.mapErr fun e => .handshakeFailed (what ++ e.toString)

/-- Perform client-side handshake: send hello, then receive the response. -/
def clientHandshake (deviceId : Bytes) (deviceName : Text) : ConnectionTalk Unit := do
  stage "Failed to send hello: " (sendHello deviceId deviceName)
  stage "Failed to receive server hello: " receiveHello

/-- Perform server-side handshake: receive hello, then send the response. -/
def serverHandshake (deviceId : Bytes) (deviceName : Text) : ConnectionTalk Unit := do
  stage "Failed to receive client hello: " receiveHello
  stage "Failed to send hello response: " (sendHello deviceId deviceName)

/-- The result of a handshake with a timeout, with a peer that sends the given bytes. -/
def withTimeout (timeoutSecs : ℕ) (handshake : ConnectionTalk Unit) (i : HandshakeInput)
    (stream : Bytes) : Except HandshakeError QuicConnection :=
  let handshake := match i.cutOff with
    | none => handshake
    | some k => handshake.stopAfter (.handshakeTimeout timeoutSecs) k
  match handshake.run i stream new with
  | (r, c, _) => r.map fun _ => c

end QuicConnection

/-- A peer: the certificates it presents, and what it sends on its first stream. -/
structure Peer where
  certificate : CertificateDer
  intermediates : List CertificateDer
  stream : Bytes

/-- The device that establishes a connection. -/
structure LocalDevice where
  deviceId : DeviceId
  deviceName : Text
  verifier : CertificateVerifier

/-- How long a handshake may take, in seconds. -/
def handshakeTimeoutSecs : ℕ := 10

section Establish

variable (fromDer : Bytes → Option X509Certificate) (device : LocalDevice) (peer : Peer)
  (i : HandshakeInput)

/-- A connection is established if the peer's certificate is accepted. -/
def established (verdict : Except CertificateError Unit) : Except HandshakeError Unit :=
  match i.refused, verdict with
  | some e, _ => .error e
  | none, .error e => .error (.connection (i.report e))
  | none, .ok () => .ok ()

/-- Connect to a peer with a resolved socket address. -/
def QuicClient.connectAddr : Except HandshakeError QuicConnection := do
  established i (LandropicCertVerifier.verifyServerCert ⟨device.verifier, true⟩ fromDer
    peer.certificate peer.intermediates i.verified)
  QuicConnection.withTimeout handshakeTimeoutSecs
    (QuicConnection.clientHandshake device.deviceId.asBytes device.deviceName) i peer.stream

/-- Accept an incoming connection. -/
def QuicServer.accept : Except HandshakeError QuicConnection := do
  established i (LandropicClientCertVerifier.verifyClientCert ⟨device.verifier⟩ fromDer
    peer.certificate peer.intermediates i.verified)
  QuicConnection.withTimeout handshakeTimeoutSecs
    (QuicConnection.serverHandshake device.deviceId.asBytes device.deviceName) i peer.stream

end Establish

/-! ## What a connection reports -/

/-- A stream begins with a valid greeting. -/
def Greets (stream : Bytes) (hello : Hello) : Prop :=
  ∃ buf rest, stream = [QuicConnection.Control] ++ (beBytes 4 buf.length ++ (buf ++ rest)) ∧
    buf.length ≤ limits.MAX_MESSAGE_SIZE ∧ Hello.record.decode buf = .ok hello ∧
      validateHello hello = .ok ()

lemma Greets.unique {stream : Bytes} {hello hello' : Hello} (h : Greets stream hello)
    (h' : Greets stream hello') : hello = hello' := by
  obtain ⟨buf, rest, rfl, hlimit, hdecode, -⟩ := h
  obtain ⟨buf', rest', heq, hlimit', hdecode', -⟩ := h'
  obtain ⟨hlength, hbody⟩ := List.append_inj (List.append_cancel_left heq) (by simp)
  have hnat := congrArg beNat hlength
  rw [beNat_beBytes (hlimit.trans_lt (by decide)), beNat_beBytes (hlimit'.trans_lt (by decide))]
    at hnat
  obtain ⟨rfl, -⟩ := List.append_inj hbody hnat
  exact Except.ok.inj (hdecode.symm.trans hdecode')

/-- Every connection to a peer that is established, from either side, reports the device of the
peer's certificate. -/
def IsWhoItSays (fromDer : Bytes → Option X509Certificate) (verifier : CertificateVerifier)
    (peer : Peer) : Prop :=
  ∀ deviceId deviceName i c,
    (QuicClient.connectAddr fromDer ⟨deviceId, deviceName, verifier⟩ peer i = .ok c ∨
      QuicServer.accept fromDer ⟨deviceId, deviceName, verifier⟩ peer i = .ok c) →
    ∃ id, CertificateVerifier.extractDeviceId fromDer peer.certificate = some id ∧
      c.remoteDeviceId = some id.asBytes

namespace QuicConnection

open Talk

variable {i : HandshakeInput} {stream rest : Bytes} {c c' : QuicConnection} {deviceId : Bytes}
  {deviceName : Text} {buf : Bytes}

lemma run_writeAll {n : ℕ} {bytes : Bytes} {what : String} :
    (writeAll n bytes what).run i stream c = (.ok (), c', rest) ↔
      i.writing n = none ∧ c' = c ∧ rest = stream := by
  rw [writeAll, run_sendAll]
  cases i.writing n with
  | some e => simp
  | none =>
    simp only [Option.map_none, true_and, Prod.mk.injEq]
    exact and_congr eq_comm eq_comm

lemma run_writeAll_bind {n : ℕ} {bytes : Bytes} {what : String} {k : ConnectionTalk Unit} :
    (do writeAll n bytes what; k : ConnectionTalk Unit).run i stream c = (.ok (), c', rest) ↔
      i.writing n = none ∧ k.run i stream c = (.ok (), c', rest) := by
  rw [run_bind, writeAll, run_sendAll]
  cases i.writing n with
  | some e => simp
  | none => simp

/-- A greeting can be sent: its content is valid, the stream can be opened and written to. -/
def CanSend (i : HandshakeInput) (deviceId : Bytes) (deviceName : Text) : Prop :=
  deviceId.length = 32 ∧ Validator.validateDeviceName deviceName = .ok () ∧
    (Hello.record.encode (hello deviceId deviceName i.now)).length ≤ limits.MAX_MESSAGE_SIZE ∧
      i.opening = none ∧ ∀ n < 4, i.writing n = none

/-- **Sending a greeting** changes nothing that is known of the other side. -/
lemma run_sendHello : (sendHello deviceId deviceName).run i stream c = (.ok (), c', rest) ↔
    CanSend i deviceId deviceName ∧ c' = c ∧ rest = stream := by
  unfold sendHello CanSend
  by_cases hlength : deviceId.length = 32
  swap
  · rw [if_pos hlength]
    exact iff_of_false (by simp [Talk.fail, run]) fun h => hlength h.1.1
  rw [if_neg (not_not_intro hlength)]
  cases Validator.validateDeviceName deviceName with
  | error e => simp [Talk.fail, run]
  | ok u =>
    rw [run_bind, run_atom]
    dsimp only
    split
    · next hlarge =>
      refine iff_of_false (by simp [Talk.fail, run]) fun h => ?_
      have hsmall := h.1.2.2.1
      omega
    · next hsmall =>
      rw [run_bind, run_atom]
      cases i.opening with
      | some e => exact iff_of_false (by simp) fun h => by simpa using h.1.2.2.2.1
      | none =>
        dsimp only [Option.elim]
        rw [run_writeAll_bind, run_writeAll_bind, run_writeAll_bind, run_writeAll]
        have hwrites : (∀ n < 4, i.writing n = none) ↔ i.writing 0 = none ∧ i.writing 1 = none ∧
            i.writing 2 = none ∧ i.writing 3 = none := by
          refine ⟨fun h => ⟨h 0 (by omega), h 1 (by omega), h 2 (by omega), h 3 (by omega)⟩, ?_⟩
          rintro ⟨h₀, h₁, h₂, h₃⟩ n hn
          interval_cases n <;> assumption
        rw [hwrites]
        constructor
        · rintro ⟨h₀, h₁, h₂, h₃, hsame⟩
          exact ⟨⟨hlength, rfl, by omega, rfl, h₀, h₁, h₂, h₃⟩, hsame⟩
        · rintro ⟨⟨-, -, -, -, h₀, h₁, h₂, h₃⟩, hsame⟩
          exact ⟨h₀, h₁, h₂, h₃, hsame⟩

lemma run_processHello : (processHello buf).run i stream c = (.ok (), c', rest) ↔
    ∃ hello, Hello.record.decode buf = .ok hello ∧ validateHello hello = .ok () ∧
      c' = ⟨some hello.deviceId, some hello.deviceName⟩ ∧ rest = stream := by
  unfold processHello
  cases Hello.record.decode buf with
  | error e => simp [Talk.fail, run]
  | ok hello =>
    cases hvalid : validateHello hello with
    | error e => simp [Talk.fail, run, hvalid]
    | ok u =>
      have hrun : (do
          atom fun _ c => (.ok (), { c with remoteDeviceId := some hello.deviceId })
          atom fun _ c => (.ok (), { c with remoteDeviceName := some hello.deviceName }) :
            ConnectionTalk Unit).run i stream c =
          (.ok (), ⟨some hello.deviceId, some hello.deviceName⟩, stream) := rfl
      dsimp only
      rw [hvalid]
      constructor
      · intro h
        cases hrun.symm.trans h
        exact ⟨hello, rfl, hvalid, rfl, rfl⟩
      · rintro ⟨hello', heq, -, rfl, rfl⟩
        cases heq
        exact hrun

/-- **Which greetings are received**, and what is stored then. -/
theorem run_receiveHello : receiveHello.run i stream c = (.ok (), c', rest) ↔
    i.accepting = none ∧ ∃ buf hello,
      stream = [Control] ++ (beBytes 4 buf.length ++ (buf ++ rest)) ∧
        buf.length ≤ limits.MAX_MESSAGE_SIZE ∧ Hello.record.decode buf = .ok hello ∧
          validateHello hello = .ok () ∧ c' = ⟨some hello.deviceId, some hello.deviceName⟩ := by
  rw [receiveHello, run_bind, run_atom]
  cases haccepting : i.accepting with
  | some e => exact iff_of_false (by simp) fun h => by cases h.1
  | none =>
    dsimp only [Option.elim]
    rw [run_bind_eq_ok]
    constructor
    · rintro ⟨streamType, c₁, stream₁, htype, h⟩
      obtain ⟨rfl, rfl, -⟩ := run_readExact_eq_ok.mp htype
      split at h
      · cases h
      · next hcontrol =>
        rw [not_not] at hcontrol
        subst hcontrol
        obtain ⟨lenBytes, c₂, stream₂, hlen, hsized⟩ := run_bind_eq_ok.mp h
        obtain ⟨rfl, rfl, hfour⟩ := run_readExact_eq_ok.mp hlen
        cases hsize : Validator.validateMessageSize (beNat lenBytes) with
        | error e =>
          rw [hsize] at hsized
          cases hsized
        | ok u =>
          rw [hsize] at hsized
          obtain ⟨buf, c₃, stream₃, hbuf, hprocess⟩ := run_bind_eq_ok.mp hsized
          obtain ⟨rfl, rfl, hlength⟩ := run_readExact_eq_ok.mp hbuf
          obtain ⟨hello, hdecode, hvalid, hstored, rfl⟩ := run_processHello.mp hprocess
          have hbytes := beBytes_beNat lenBytes
          rw [hfour, ← hlength] at hbytes
          rw [← hlength] at hsize
          exact ⟨rfl, buf, hello, by rw [hbytes],
            Validator.validateMessageSize_eq_ok_iff.mp hsize, hdecode, hvalid, hstored⟩
    · rintro ⟨-, buf, hello, rfl, hlimit, hdecode, hvalid, rfl⟩
      have hnat : beNat (beBytes 4 buf.length) = buf.length :=
        beNat_beBytes (hlimit.trans_lt (by decide))
      refine ⟨[Control], c, _, run_readExact_eq_ok.mpr ⟨rfl, rfl, rfl⟩, ?_⟩
      rw [if_neg (not_not_intro rfl), run_bind_eq_ok]
      refine ⟨_, c, _, run_readExact_eq_ok.mpr ⟨rfl, rfl, length_beBytes ..⟩, ?_⟩
      rw [hnat, Validator.validateMessageSize_eq_ok_iff.mpr hlimit]
      dsimp only
      rw [run_bind_eq_ok]
      exact ⟨buf, c, rest, run_readExact_eq_ok.mpr ⟨rfl, rfl, rfl⟩,
        run_processHello.mpr ⟨hello, hdecode, hvalid, rfl, rfl⟩⟩

lemma run_stage {what : String} {step : ConnectionTalk Unit} :
    (stage what step).run i stream c = (.ok (), c', rest) ↔
      step.run i stream c = (.ok (), c', rest) := by
  rw [stage, run_mapErr]
  rcases step.run i stream c with ⟨r, c₁, rest₁⟩
  cases r <;> simp [Except.mapError]

lemma run_clientHandshake :
    (clientHandshake deviceId deviceName).run i stream c = (.ok (), c', rest) ↔
      CanSend i deviceId deviceName ∧ receiveHello.run i stream c = (.ok (), c', rest) := by
  rw [clientHandshake, run_bind_eq_ok]
  constructor
  · rintro ⟨u, c₁, stream₁, hsend, hreceive⟩
    obtain ⟨hcan, rfl, rfl⟩ := run_sendHello.mp (run_stage.mp hsend)
    exact ⟨hcan, run_stage.mp hreceive⟩
  · rintro ⟨hcan, hreceive⟩
    exact ⟨(), c, stream, run_stage.mpr (run_sendHello.mpr ⟨hcan, rfl, rfl⟩),
      run_stage.mpr hreceive⟩

lemma run_serverHandshake :
    (serverHandshake deviceId deviceName).run i stream c = (.ok (), c', rest) ↔
      CanSend i deviceId deviceName ∧ receiveHello.run i stream c = (.ok (), c', rest) := by
  rw [serverHandshake, run_bind_eq_ok]
  constructor
  · rintro ⟨u, c₁, stream₁, hreceive, hsend⟩
    obtain ⟨hcan, rfl, rfl⟩ := run_sendHello.mp (run_stage.mp hsend)
    exact ⟨hcan, run_stage.mp hreceive⟩
  · rintro ⟨hcan, hreceive⟩
    exact ⟨(), c', rest, run_stage.mpr hreceive,
      run_stage.mpr (run_sendHello.mpr ⟨hcan, rfl, rfl⟩)⟩

lemma run_of_withTimeout {secs : ℕ} {handshake : ConnectionTalk Unit}
    (h : withTimeout secs handshake i stream = .ok c) :
    ∃ rest, handshake.run i stream new = (.ok (), c, rest) := by
  unfold withTimeout at h
  cases hcut : i.cutOff with
  | none =>
    simp only [hcut] at h
    rcases hrun : handshake.run i stream new with ⟨r, c₁, rest⟩
    rw [hrun] at h
    cases r with
    | error e => cases h
    | ok u =>
      cases h
      exact ⟨rest, rfl⟩
  | some k =>
    simp only [hcut] at h
    rcases hrun : (handshake.stopAfter (.handshakeTimeout secs) k).run i stream new with
      ⟨r, c₁, rest⟩
    rw [hrun] at h
    cases r with
    | error e => cases h
    | ok u =>
      cases h
      exact ⟨rest, run_of_run_stopAfter hrun⟩

lemma withTimeout_of_run {secs : ℕ} {handshake : ConnectionTalk Unit} (hcut : i.cutOff = none)
    (h : handshake.run i stream new = (.ok (), c, rest)) :
    withTimeout secs handshake i stream = .ok c := by
  simp only [withTimeout, hcut, h]
  rfl

/-- **What a connection reports** after a handshake from either side is what the peer's greeting
says. -/
theorem reports_of_run (h : receiveHello.run i stream c = (.ok (), c', rest)) :
    ∃ hello, Greets stream hello ∧ c'.remoteDeviceId = some hello.deviceId := by
  obtain ⟨-, buf, hello, hstream, hlimit, hdecode, hvalid, rfl⟩ := run_receiveHello.mp h
  exact ⟨hello, ⟨buf, rest, hstream, hlimit, hdecode, hvalid⟩, rfl⟩

end QuicConnection

section Identity

variable {fromDer : Bytes → Option X509Certificate} {verifier : CertificateVerifier} {peer : Peer}
  {device : LocalDevice} {i : HandshakeInput} {c : QuicConnection} {hello : Hello}

lemma reports_of_established (h : QuicClient.connectAddr fromDer device peer i = .ok c ∨
    QuicServer.accept fromDer device peer i = .ok c) :
    ∃ hello, Greets peer.stream hello ∧ c.remoteDeviceId = some hello.deviceId := by
  rcases h with h | h
  · obtain ⟨-, -, htimeout⟩ := Except.bind_eq_ok.mp h
    obtain ⟨rest, hrun⟩ := QuicConnection.run_of_withTimeout htimeout
    exact QuicConnection.reports_of_run (QuicConnection.run_clientHandshake.mp hrun).2
  · obtain ⟨-, -, htimeout⟩ := Except.bind_eq_ok.mp h
    obtain ⟨rest, hrun⟩ := QuicConnection.run_of_withTimeout htimeout
    exact QuicConnection.reports_of_run (QuicConnection.run_serverHandshake.mp hrun).2

/-- A device that is called `a`. -/
def plainDevice (verifier : CertificateVerifier) : LocalDevice := ⟨.fill 0, ['a'], verifier⟩

/-- Nothing goes wrong, the certificate being verified at the given time. -/
def smooth (verified : UInt64) : HandshakeInput where
  verified := verified
  report _ := ""
  refused := none
  now := ⟨0, 0⟩
  opening := none
  writing _ := none
  accepting := none
  cutOff := none

lemma canSend_smooth (verified : UInt64) :
    QuicConnection.CanSend (smooth verified) (DeviceId.fill 0).asBytes ['a'] := by
  have hsize : (Hello.record.encode (QuicConnection.hello (DeviceId.fill 0).asBytes ['a']
      ⟨0, 0⟩)).length ≤ limits.MAX_MESSAGE_SIZE := by decide +kernel
  exact ⟨DeviceId.length_asBytes _, by decide, hsize, rfl, fun _ _ => rfl⟩

/-- A peer with an accepted certificate and a valid greeting gets a connection. -/
lemma exists_established {now : UInt64} (hgreets : Greets peer.stream hello)
    (haccepted : LandropicClientCertVerifier.verifyClientCert ⟨verifier⟩ fromDer peer.certificate
      peer.intermediates now = .ok ()) :
    QuicServer.accept fromDer (plainDevice verifier) peer (smooth now) =
      .ok ⟨some hello.deviceId, some hello.deviceName⟩ := by
  obtain ⟨buf, rest, hstream, hlimit, hdecode, hvalid⟩ := hgreets
  refine Except.bind_eq_ok.mpr ⟨(), ?_, ?_⟩
  · show established (smooth now) (LandropicClientCertVerifier.verifyClientCert ⟨verifier⟩ fromDer
      peer.certificate peer.intermediates now) = _
    rw [haccepted]
    rfl
  · have hreceive : QuicConnection.receiveHello.run (smooth now) peer.stream QuicConnection.new =
        (.ok (), ⟨some hello.deviceId, some hello.deviceName⟩, rest) :=
      QuicConnection.run_receiveHello.mpr ⟨rfl, buf, hello, hstream, hlimit, hdecode, hvalid, rfl⟩
    exact QuicConnection.withTimeout_of_run rfl
      (QuicConnection.run_serverHandshake.mpr ⟨canSend_smooth now, hreceive⟩)

/-- **Which peers are who their certificates say.** Every connection to a peer with an accepted
certificate, from either side, reports the device of the certificate exactly when the peer sends no
valid greeting with another device.

**Proof sketch.** A handshake succeeds only with a valid greeting, and the device of that is what is
stored. A device that nothing goes wrong for accepts every valid greeting. -/
theorem isWhoItSays_iff (haccepted : ∃ now, LandropicClientCertVerifier.verifyClientCert ⟨verifier⟩
      fromDer peer.certificate peer.intermediates now = .ok ()) :
    IsWhoItSays fromDer verifier peer ↔ ∀ hello, Greets peer.stream hello →
      ∃ id, CertificateVerifier.extractDeviceId fromDer peer.certificate = some id ∧
        hello.deviceId = id.asBytes := by
  obtain ⟨now, haccepted⟩ := haccepted
  constructor
  · intro hidentity hello hgreets
    obtain ⟨id, hid, hreported⟩ := hidentity _ _ _ _ (.inr (exists_established hgreets haccepted))
    exact ⟨id, hid, Option.some.inj hreported⟩
  · intro hgreeting deviceId deviceName i c hestablished
    obtain ⟨hello, hgreets, hreported⟩ := reports_of_established hestablished
    obtain ⟨id, hid, heq⟩ := hgreeting hello hgreets
    exact ⟨id, hid, by rw [hreported, heq]⟩

end Identity

/-! ## A trusted device with the greeting of another one -/

/-- The greeting of a device. -/
def sampleHello (id : DeviceId) : Hello := QuicConnection.hello id.asBytes "peer".toList ⟨0, 0⟩

/-- A peer with the sample certificate, that of the device of ones, which greets as a device. -/
def samplePeer (id : DeviceId) : Peer where
  certificate := sampleDer sampleSignature
  intermediates := []
  stream :=
    let buf := Hello.record.encode (sampleHello id)
    [QuicConnection.Control] ++ (beBytes 4 buf.length ++ buf)

lemma extractDeviceId_sampleDer :
    CertificateVerifier.extractDeviceId sampleParser (sampleDer sampleSignature) =
      some (.fill 1) := by
  rw [CertificateVerifier.extractDeviceId, show sampleParser (sampleDer sampleSignature) =
    some (sampleCert true) from if_pos rfl]
  decide

lemma accepted_samplePeer (id : DeviceId) : ∃ now, LandropicClientCertVerifier.verifyClientCert
    ⟨.new [.fill 1]⟩ sampleParser (samplePeer id).certificate (samplePeer id).intermediates now =
      .ok () := by
  have hread : sampleParser (sampleDer sampleSignature) = some (sampleCert true) := if_pos rfl
  have hadmits : (CertificateVerifier.new [.fill 1]).Admits (.fill 1) (sampleDer sampleSignature) :=
    ⟨by decide, fun pinned h => by cases h⟩
  exact ⟨5, (verifyClientCert_eq_ok_iff hread).mpr
    ⟨by decide, by decide, rfl, ⟨.fill 1, extractDeviceId_sampleDer, hadmits⟩, rfl⟩⟩

lemma greets_samplePeer (b : UInt8)
    (hsize : (Hello.record.encode (sampleHello (.fill b))).length ≤ limits.MAX_MESSAGE_SIZE) :
    Greets (samplePeer (.fill b)).stream (sampleHello (.fill b)) := by
  refine ⟨Hello.record.encode (sampleHello (.fill b)), [], by simp [samplePeer], hsize,
    Hello.record.decode_encode _ (hsize.trans_lt (by decide)), ?_⟩
  have hversion : VersionNegotiator.isCompatible VersionNegotiator.PROTOCOL_VERSION = true := by
    decide
  have hname : Validator.validateDeviceName "peer".toList = .ok () := by decide
  have hcapabilities : Validator.validateCapabilities ["sync".toList, "transfer".toList] = .ok () :=
    by decide
  exact validateHello_eq_ok_iff.mpr ⟨hversion, hname, DeviceId.length_asBytes _, hcapabilities⟩

/-- A device that greets as itself is who its certificate says. -/
theorem isWhoItSays_samplePeer :
    IsWhoItSays sampleParser (.new [.fill 1]) (samplePeer (.fill 1)) := by
  have hsize : (Hello.record.encode (sampleHello (.fill 1))).length ≤ limits.MAX_MESSAGE_SIZE := by
    decide +kernel
  refine (isWhoItSays_iff (accepted_samplePeer (.fill 1))).mpr fun hello hgreets => ?_
  rw [hgreets.unique (greets_samplePeer 1 hsize)]
  exact ⟨.fill 1, extractDeviceId_sampleDer, rfl⟩

/-- **A trusted device is taken for another one**, whose identifier is in its greeting. -/
theorem not_isWhoItSays_samplePeer :
    ¬ IsWhoItSays sampleParser (.new [.fill 1]) (samplePeer (.fill 2)) := by
  intro h
  have hsize : (Hello.record.encode (sampleHello (.fill 2))).length ≤ limits.MAX_MESSAGE_SIZE := by
    decide +kernel
  obtain ⟨now, haccepted⟩ := accepted_samplePeer (.fill 2)
  obtain ⟨id, hid, hreported⟩ :=
    h _ _ _ _ (.inr (exists_established (greets_samplePeer 2 hsize) haccepted))
  obtain rfl := Option.some.inj (extractDeviceId_sampleDer.symm.trans hid)
  exact absurd (Option.some.inj hreported) (by decide)

end Landropic
