import Landropic.Quic.Handshake

set_option autoImplicit false

/-!
# The accept loop of a server

A server accepts one connection after the other, and keeps those whose handshake succeeds until they
are closed. While a handshake is under way no other connection is accepted, also if the peer sends
nothing, but not for longer than the timeout. The loop ends with an error of the protocol, which it
takes for the end of the endpoint.

## Main definitions

* `QuicServer.Incoming`, `QuicServer.Greeting` — an incoming connection, and its handshake.
* `QuicServer.ServerState.finishRound` — a round of the loop ends.
* `QuicServer.next` — what happens to a server that runs.
* `QuicServer.Withstands` — the loop goes on, and keeps what it should.

## Main results

* `QuicConnection.within_receiveHello`, `within_serverHandshake` — how much is read at a time, and
  with which errors a handshake may end.
* `QuicServer.Greeting.Tracks.act` — the steps of a handshake lead to where it leads as a whole.
* `QuicServer.withstands_of_run` — no peer can stop the server.
-/

namespace Landropic

namespace HandshakeError

/-- An error of the protocol. -/
def IsProtocol : HandshakeError → Prop
  | protocol _ => True
  | _ => False

end HandshakeError

namespace QuicConnection

open Talk

/-! ## What a handshake reads, and how it fails -/

/-- The size of a buffer for what is read. -/
def InLimit (n : ℕ) : Prop := n ≤ limits.MAX_MESSAGE_SIZE

lemma within_processHello (buf : Bytes) :
    (processHello buf).Within InLimit fun _ => True := by
  rw [processHello]
  split
  · trivial
  · split
    · trivial
    · exact (within_atom fun _ _ _ _ => trivial).bind fun _ => within_atom fun _ _ _ _ => trivial

/-- **A greeting is read into buffers within the limit** for messages, whatever length the peer
claims. -/
theorem within_receiveHello : receiveHello.Within InLimit fun _ => True := by
  rw [receiveHello]
  refine (within_atom fun _ _ _ _ => trivial).bind fun _ => ?_
  have hone : InLimit 1 := show 1 ≤ limits.MAX_MESSAGE_SIZE by decide
  have hfour : InLimit 4 := show 4 ≤ limits.MAX_MESSAGE_SIZE by decide
  refine Within.bind (within_readExact hone trivial) fun streamType => ?_
  split
  · trivial
  · refine Within.bind (within_readExact hfour trivial) fun lenBytes => ?_
    cases hsize : Validator.validateMessageSize (beNat lenBytes) with
    | error e => trivial
    | ok u =>
      have hlimit : InLimit (beNat lenBytes) := Validator.validateMessageSize_eq_ok_iff.mp hsize
      exact Within.bind (within_readExact hlimit trivial) within_processHello

lemma within_sendHello (deviceId : Bytes) (deviceName : Text) :
    (sendHello deviceId deviceName).Within InLimit fun _ => True := by
  have hwrite (n : ℕ) (bytes : Bytes) (what : String) :
      (writeAll n bytes what).Within InLimit fun _ => True := within_sendAll fun _ _ _ => trivial
  rw [sendHello]
  split
  · trivial
  · split
    · trivial
    · refine (within_atom fun _ _ _ _ => trivial).bind fun now => ?_
      dsimp only
      split
      · trivial
      · refine (within_atom fun _ _ _ _ => trivial).bind fun _ => ?_
        refine Within.bind (hwrite _ _ _) fun _ => Within.bind (hwrite _ _ _) fun _ => ?_
        exact Within.bind (hwrite _ _ _) fun _ => hwrite _ _ _

/-- **A handshake fails with an error of its own**, which names the stage; an error of the protocol
in a stage does not come out as one. -/
theorem within_serverHandshake (deviceId : Bytes) (deviceName : Text) :
    (serverHandshake deviceId deviceName).Within InLimit fun e => ¬ e.IsProtocol := by
  have hstage (what : String) {step : ConnectionTalk Unit}
      (hstep : step.Within InLimit fun _ => True) :
      (stage what step).Within InLimit fun e => ¬ e.IsProtocol := hstep.mapErr fun _ _ => not_false
  exact (hstage _ within_receiveHello).bind fun _ =>
    hstage _ (within_sendHello deviceId deviceName)

/-- The first bytes of the device of a greeting, which are logged; a shorter slice panics. -/
def loggedId (c : QuicConnection) : Option Bytes :=
  c.remoteDeviceId.bind fun id => if 8 ≤ id.length then some (id.take 8) else none

/-- Receiving a greeting panics when it is logged. -/
def panics (i : HandshakeInput) (stream : Bytes) : Bool :=
  match receiveHello.run i stream new with
  | (.ok (), c, _) => c.loggedId.isNone
  | (.error _, _, _) => false

lemma panics_eq_false (i : HandshakeInput) (stream : Bytes) : panics i stream = false := by
  rw [panics]
  split
  · next c rest hrun =>
    obtain ⟨-, buf, hello, -, -, -, hvalid, rfl⟩ := run_receiveHello.mp hrun
    have hlength := (validateHello_eq_ok_iff.mp hvalid).2.2.1
    rw [loggedId, Option.bind_some, if_pos (by omega)]
    rfl
  · rfl

end QuicConnection

namespace QuicServer

/-! ## A server and its loop -/

/-- An incoming connection: the peer, why the connection is lost before it is established, if it is,
and how the handshake turns out. -/
structure Incoming where
  peer : Peer
  lost : Option String
  handshake : HandshakeInput
  stableId : ℕ

/-- How the connection turns out; before it is established it can only be lost. -/
def Incoming.input (incoming : Incoming) : HandshakeInput :=
  { incoming.handshake with refused := incoming.lost.map .connection }

/-- A connection that the server keeps, and where it comes from. -/
structure Kept where
  incoming : Incoming
  connection : QuicConnection

/-- A handshake under way. -/
structure Greeting where
  incoming : Incoming
  /-- What is left of it, and what it has found out of the other side. -/
  task : ConnectionTalk Unit
  connection : QuicConnection
  /-- What has come on the peer's stream and has not been read. -/
  unread : Bytes
  /-- What the peer has not sent yet. -/
  unsent : Bytes
  /-- The stream has ended. -/
  ended : Bool
  /-- The seconds since the handshake began. -/
  elapsed : ℕ

/-- A handshake that begins. -/
def Greeting.start (device : LocalDevice) (incoming : Incoming) : Greeting where
  incoming := incoming
  task := QuicConnection.serverHandshake device.deviceId.asBytes device.deviceName
  connection := .new
  unread := []
  unsent := incoming.peer.stream
  ended := false
  elapsed := 0

/-- So many bytes come on the stream of the peer. -/
def Greeting.hears (g : Greeting) (n : ℕ) : Greeting :=
  { g with unread := g.unread ++ g.unsent.take n, unsent := g.unsent.drop n }

/-- What the loop is doing. -/
inductive LoopStatus
  /-- It waits for a connection. -/
  | accepting
  /-- It waits until a connection is established. -/
  | connecting (incoming : Incoming)
  | greeting (g : Greeting)
  | returned
  | panicked

/-- A QUIC endpoint. -/
structure Endpoint where
  isClosed : Bool

/-- A server that runs. -/
structure ServerState where
  endpoint : Option Endpoint
  connections : List Kept
  status : LoopStatus

namespace ServerState

/-- A server that has been started and begins to run. -/
def started : ServerState := ⟨some ⟨false⟩, [], .accepting⟩

/-- The handshake that is under way. -/
def handshake (s : ServerState) : Option Greeting :=
  match s.status with
  | .greeting g => some g
  | _ => none

/-- A round of the loop ends: the connection is stored if its handshake has succeeded, and the loop
ends with an error of the protocol. -/
def finishRound (s : ServerState) : Except HandshakeError Kept → ServerState
  | .ok kept => { s with status := .accepting, connections := s.connections ++ [kept] }
  | .error (.protocol _) => { s with status := .returned }
  | .error _ => { s with status := .accepting }

lemma finishRound_error (s : ServerState) {e : HandshakeError} (he : ¬ e.IsProtocol) :
    s.finishRound (.error e) = { s with status := .accepting } := by
  cases e with
  | protocol msg => exact absurd trivial he
  | _ => rfl

end ServerState

/-- What happens while a server runs. -/
inductive ServerEvent
  /-- A connection comes in. -/
  | arrives (incoming : Incoming)
  /-- The endpoint has no connection any more. -/
  | exhausted
  /-- The connection is established, or it is lost or refused. -/
  | established
  /-- So many bytes come on the stream of the peer. -/
  | sends (n : ℕ)
  /-- The stream of the peer ends. -/
  | ends
  /-- The connection is lost, which fails the handshake. -/
  | lost (reason : String)
  /-- The handshake takes its next step. -/
  | act
  /-- The handshake returns. -/
  | greeted
  /-- A second passes. -/
  | second
  /-- The handshake is given up. -/
  | timeout
  /-- The endpoint is closed. -/
  | close
  /-- A connection is closed, and its task removes it from the list. -/
  | connectionClosed (stableId : ℕ)

/-- What happens without a peer doing anything; an attempt to connect is given up by QUIC. -/
def ServerEvent.IsOwn : ServerEvent → Prop
  | established | second | timeout => True
  | _ => False

section Loop

variable (fromDer : Bytes → Option X509Certificate) (device : LocalDevice) (s : ServerState)

/-- Whether an incoming connection is established. -/
def admitted (incoming : Incoming) : Except HandshakeError Unit :=
  established incoming.input (LandropicClientCertVerifier.verifyClientCert ⟨device.verifier⟩ fromDer
    incoming.peer.certificate incoming.peer.intermediates incoming.input.verified)

/-- A step of a handshake. The device is logged once its name has been stored. -/
def Greeting.act (g : Greeting) : Option LoopStatus :=
  (g.task.move g.incoming.input g.ended g.connection g.unread).map fun moved =>
    if moved.2.1.remoteDeviceName.isSome ∧
        QuicConnection.panics g.incoming.input g.incoming.peer.stream then .panicked
    else .greeting { g with task := moved.1, connection := moved.2.1, unread := moved.2.2.1 }

/-- An event of a server that runs. -/
def next : ServerEvent → Option ServerState
  | .arrives incoming =>
    match s.status, s.endpoint with
    | .accepting, some ⟨false⟩ => some { s with status := .connecting incoming }
    | _, _ => none
  | .exhausted =>
    match s.status, s.endpoint with
    | .accepting, none => some (s.finishRound (.error (.protocol "Server not started")))
    | .accepting, some ⟨true⟩ => some (s.finishRound (.error (.protocol "Endpoint closed")))
    | _, _ => none
  | .established =>
    match s.status with
    | .connecting incoming =>
      match admitted fromDer device incoming with
      | .ok () => some { s with status := .greeting (.start device incoming) }
      | .error e => some (s.finishRound (.error e))
    | _ => none
  | .sends n => s.handshake.map fun g => { s with status := .greeting (g.hears n) }
  | .ends => s.handshake.bind fun g =>
      if g.unsent = [] then some { s with status := .greeting { g with ended := true } } else none
  | .lost reason => s.handshake.map fun _ => s.finishRound (.error (.handshakeFailed reason))
  | .act => s.handshake.bind fun g => g.act.map fun status => { s with status := status }
  | .greeted => s.handshake.bind fun g =>
      match g.task with
      | .ret r => some (s.finishRound (r.map fun _ => ⟨g.incoming, g.connection⟩))
      | _ => none
  | .second =>
    match s.handshake with
    | some g =>
      if g.elapsed < handshakeTimeoutSecs then
        some { s with status := .greeting { g with elapsed := g.elapsed + 1 } }
      else none
    | none => some s
  | .timeout => s.handshake.bind fun g =>
      if g.elapsed = handshakeTimeoutSecs then
        some (s.finishRound (.error (.handshakeTimeout handshakeTimeoutSecs)))
      else none
  | .close => some { s with endpoint := s.endpoint.map fun _ => ⟨true⟩ }
  | .connectionClosed stableId => some { s with
      connections := s.connections.filter fun c => c.incoming.stableId ≠ stableId }

end Loop

/-! ## What no peer can do -/

/-- The handshake of a connection has succeeded: our greeting could be sent, and what the peer sends
begins with a valid greeting, whose device is the one that the connection reports. -/
def Kept.HandshakeSucceeded (device : LocalDevice) (kept : Kept) : Prop :=
  QuicConnection.CanSend kept.incoming.input device.deviceId.asBytes device.deviceName ∧
    ∃ hello, Greets kept.incoming.peer.stream hello ∧
      kept.connection = ⟨some hello.deviceId, some hello.deviceName⟩

/-- **A server withstands its peers**: it returns only when its endpoint is closed, and until then
it comes to accept the next connection whatever its peers do or do not. It waits for a handshake no
longer than the timeout, and it keeps the connections whose handshake has succeeded and no
others. -/
structure Withstands (fromDer : Bytes → Option X509Certificate) (device : LocalDevice)
    (s : ServerState) : Prop where
  not_panicked : s.status ≠ .panicked
  closed_of_returned : s.status = .returned → s.endpoint = some ⟨true⟩
  inTime : ∀ g, s.handshake = some g → g.elapsed ≤ handshakeTimeoutSecs
  goesOn : s.endpoint = some ⟨false⟩ →
    ∃ s', Runs.Run (next fromDer device) (fun _ e => e.IsOwn) s s' ∧
      ∀ incoming, next fromDer device s' (.arrives incoming) =
        some ⟨some ⟨false⟩, s.connections, .connecting incoming⟩
  /-- A connection that is accepted can come about, and is kept. -/
  keeps : s.endpoint = some ⟨false⟩ → s.status = .accepting → ∀ incoming c,
    accept fromDer device incoming.peer incoming.input = .ok c →
      Runs.Run (next fromDer device) (fun _ _ => True) s
        { s with connections := s.connections ++ [⟨incoming, c⟩] }
  /-- A handshake that has succeeded is kept when it returns. -/
  kept : ∀ g, s.handshake = some g → g.task = .ret (.ok ()) → next fromDer device s .greeted =
    some { s with
      status := .accepting, connections := s.connections ++ [⟨g.incoming, g.connection⟩] }
  succeeded : ∀ kept ∈ s.connections, kept.HandshakeSucceeded device

section Accept

variable {fromDer : Bytes → Option X509Certificate} {device : LocalDevice} {incoming : Incoming}
  {s s' : ServerState} {g : Greeting}

lemma admitted_ne_protocol {e : HandshakeError} (h : admitted fromDer device incoming = .error e) :
    ¬ e.IsProtocol := by
  simp only [admitted, established, Incoming.input] at h
  cases hlost : incoming.lost with
  | some msg =>
    simp only [hlost, Option.map_some] at h
    cases h
    exact not_false
  | none =>
    simp only [hlost, Option.map_none] at h
    split at h
    · contradiction
    · cases h
      exact not_false
    · cases h

/-! ## A handshake -/

/-- A handshake leads to where it leads as a whole, and has not taken longer than it may. -/
structure Greeting.Tracks (device : LocalDevice) (g : Greeting) : Prop where
  run_eq : (QuicConnection.serverHandshake device.deviceId.asBytes device.deviceName).run
    g.incoming.input g.incoming.peer.stream .new =
      g.task.run g.incoming.input (g.unread ++ g.unsent) g.connection
  unsent_of_ended : g.ended = true → g.unsent = []
  inTime : g.elapsed ≤ handshakeTimeoutSecs

lemma Greeting.tracks_start : (Greeting.start device incoming).Tracks device :=
  ⟨rfl, nofun, Nat.zero_le _⟩

/-- **A step of a handshake** leads on, and never panics. -/
lemma Greeting.Tracks.act (h : g.Tracks device) {status : LoopStatus} (hact : g.act = some status) :
    ∃ g', status = .greeting g' ∧ g'.Tracks device := by
  obtain ⟨⟨task, c, unread, out⟩, hmove, rfl⟩ := Option.map_eq_some_iff.mp hact
  refine ⟨_, if_neg fun hpanics => ?_, ?_, h.unsent_of_ended, h.inTime⟩
  · rw [QuicConnection.panics_eq_false] at hpanics
    exact absurd hpanics.2 Bool.false_ne_true
  · rw [h.run_eq]
    exact Talk.run_of_move hmove h.unsent_of_ended

lemma Greeting.Tracks.of_ret (h : g.Tracks device) {r : Except HandshakeError Unit}
    (hret : g.task = .ret r) : match r with
      | .ok _ => Kept.HandshakeSucceeded device ⟨g.incoming, g.connection⟩
      | .error e => ¬ e.IsProtocol := by
  have hrun := h.run_eq
  rw [hret, Talk.run] at hrun
  cases r with
  | error e => exact (QuicConnection.within_serverHandshake _ _).of_run hrun
  | ok u =>
    obtain ⟨hcan, hreceive⟩ := QuicConnection.run_serverHandshake.mp hrun
    obtain ⟨-, buf, hello, hstream, hlimit, hdecode, hvalid, hc⟩ :=
      QuicConnection.run_receiveHello.mp hreceive
    exact ⟨hcan, hello, ⟨buf, _, hstream, hlimit, hdecode, hvalid⟩, hc⟩

variable (fromDer device) in
/-- A handshake whose peer has sent all it will send runs to its end. -/
lemma exists_run_act (hg : s.handshake = some g) (hended : g.ended = true)
    {r : Except HandshakeError Unit} {c : QuicConnection} {rest : Bytes}
    (hrun : g.task.run g.incoming.input g.unread g.connection = (r, c, rest)) :
    Runs.Run (next fromDer device) (fun _ _ => True) s
      { s with
        status := .greeting { g with task := .ret r, connection := c, unread := rest } } := by
  obtain ⟨endpoint, connections, status⟩ := s
  obtain rfl : status = .greeting g := by
    cases status with
    | greeting g' => exact congrArg _ (Option.some.inj hg)
    | _ => cases hg
  clear hg
  obtain ⟨incoming, task, connection, unread, unsent, ended, elapsed⟩ := g
  obtain rfl : ended = true := hended
  dsimp only at hrun ⊢
  have hact {task : ConnectionTalk Unit} {connection : QuicConnection} {unread : Bytes}
      {moved : ConnectionTalk Unit × QuicConnection × Bytes × Bytes}
      (hmove : task.move incoming.input true connection unread = some moved) :
      next fromDer device ⟨endpoint, connections, .greeting
          ⟨incoming, task, connection, unread, unsent, true, elapsed⟩⟩ .act =
        some ⟨endpoint, connections, .greeting
          ⟨incoming, moved.1, moved.2.1, moved.2.2.1, unsent, true, elapsed⟩⟩ := by
    simp [next, ServerState.handshake, Greeting.act, hmove, QuicConnection.panics_eq_false]
  induction task generalizing connection unread with
  | ret r' =>
    cases hrun
    exact .refl
  | send bytes next ih => exact .head ⟨.act, trivial, hact rfl⟩ (ih _ _ _ hrun)
  | act eff next ih => exact .head ⟨.act, trivial, hact rfl⟩ (ih _ _ _ _ hrun)
  | recv n next ih =>
    rw [Talk.run] at hrun
    split_ifs at hrun with hn
    · have hmove : (Talk.recv n next).move incoming.input true connection unread =
          some (next (some (unread.take n)), connection, unread.drop n, []) := if_pos hn
      exact .head ⟨.act, trivial, hact hmove⟩ (ih _ _ _ hrun)
    · have hmove : (Talk.recv n next).move incoming.input true connection unread =
          some (next none, connection, [], []) := by rw [Talk.move, if_neg hn, if_pos rfl]
      exact .head ⟨.act, trivial, hact hmove⟩ (ih _ _ _ hrun)

/-! ## Whole runs -/

/-- What holds of a server at any time. -/
structure Sound (device : LocalDevice) (s : ServerState) : Prop where
  endpoint : s.endpoint.isSome
  not_panicked : s.status ≠ .panicked
  closed_of_returned : s.status = .returned → s.endpoint = some ⟨true⟩
  tracks : ∀ g, s.handshake = some g → g.Tracks device
  succeeded : ∀ kept ∈ s.connections, kept.HandshakeSucceeded device

lemma tracks_of_handshake (h : s.handshake = none) :
    ∀ g, s.handshake = some g → g.Tracks device := by
  intro g hg
  rw [h] at hg
  cases hg

lemma sound_started : Sound device .started :=
  ⟨rfl, nofun, nofun, tracks_of_handshake rfl, nofun⟩

lemma Sound.greeting (h : Sound device s) (hg : g.Tracks device) :
    Sound device { s with status := .greeting g } :=
  ⟨h.endpoint, nofun, nofun, fun _ heq => Option.some.inj heq ▸ hg, h.succeeded⟩

/-- **A round ends** with a connection whose handshake has succeeded, or the loop goes on. -/
lemma Sound.finishRound (h : Sound device s) {r : Except HandshakeError Kept}
    (hr : match r with
      | .ok kept => kept.HandshakeSucceeded device
      | .error e => ¬ e.IsProtocol) : Sound device (s.finishRound r) := by
  cases r with
  | ok kept =>
    refine ⟨h.endpoint, nofun, nofun, tracks_of_handshake rfl, fun kept' hkept' => ?_⟩
    rcases List.mem_append.mp hkept' with hold | hnew
    · exact h.succeeded kept' hold
    · obtain rfl := List.mem_singleton.mp hnew
      exact hr
  | error e =>
    rw [s.finishRound_error hr]
    exact ⟨h.endpoint, nofun, nofun, tracks_of_handshake rfl, h.succeeded⟩

lemma Sound.next (h : Sound device s) {event : ServerEvent}
    (hnext : QuicServer.next fromDer device s event = some s') : Sound device s' := by
  cases event with
  | arrives incoming =>
    simp only [QuicServer.next] at hnext
    split at hnext
    · obtain rfl := Option.some.inj hnext
      exact ⟨h.endpoint, nofun, nofun, tracks_of_handshake rfl, h.succeeded⟩
    · cases hnext
  | exhausted =>
    simp only [QuicServer.next] at hnext
    split at hnext
    · next hnone =>
      have hsome := h.endpoint
      rw [hnone] at hsome
      cases hsome
    · next hclosed =>
      obtain rfl := Option.some.inj hnext
      exact ⟨h.endpoint, nofun, fun _ => hclosed, tracks_of_handshake rfl, h.succeeded⟩
    · cases hnext
  | established =>
    simp only [QuicServer.next] at hnext
    split at hnext
    · split at hnext
      · obtain rfl := Option.some.inj hnext
        exact h.greeting Greeting.tracks_start
      · next e he =>
        obtain rfl := Option.some.inj hnext
        exact h.finishRound (admitted_ne_protocol he)
    · cases hnext
  | sends n =>
    obtain ⟨g, hg, rfl⟩ := Option.map_eq_some_iff.mp hnext
    obtain ⟨hrun, hended, htime⟩ := h.tracks g hg
    refine h.greeting ⟨?_, fun hend => ?_, htime⟩
    · simp only [Greeting.hears, hrun, List.append_assoc, List.take_append_drop]
    · simp only [Greeting.hears, hended hend, List.drop_nil]
  | ends =>
    obtain ⟨g, hg, hnext⟩ := Option.bind_eq_some_iff.mp hnext
    rw [Option.ite_none_right_eq_some] at hnext
    obtain ⟨hsent, heq⟩ := hnext
    obtain rfl := Option.some.inj heq
    obtain ⟨hrun, -, htime⟩ := h.tracks g hg
    exact h.greeting ⟨hrun, fun _ => hsent, htime⟩
  | lost reason =>
    obtain ⟨g, -, rfl⟩ := Option.map_eq_some_iff.mp hnext
    exact h.finishRound not_false
  | act =>
    obtain ⟨g, hg, hact⟩ := Option.bind_eq_some_iff.mp hnext
    obtain ⟨status, hstep, rfl⟩ := Option.map_eq_some_iff.mp hact
    obtain ⟨g', rfl, hg'⟩ := (h.tracks g hg).act hstep
    exact h.greeting hg'
  | greeted =>
    obtain ⟨g, hg, hnext⟩ := Option.bind_eq_some_iff.mp hnext
    split at hnext
    · next r hret =>
      obtain rfl := Option.some.inj hnext
      refine h.finishRound ?_
      have hr := (h.tracks g hg).of_ret hret
      cases r with
      | ok u => exact hr
      | error e => exact hr
    · cases hnext
  | second =>
    simp only [QuicServer.next] at hnext
    split at hnext
    · next g hg =>
      rw [Option.ite_none_right_eq_some] at hnext
      obtain ⟨hless, heq⟩ := hnext
      obtain rfl := Option.some.inj heq
      obtain ⟨hrun, hended, -⟩ := h.tracks g hg
      exact h.greeting ⟨hrun, hended, hless⟩
    · obtain rfl := Option.some.inj hnext
      exact h
  | timeout =>
    obtain ⟨g, -, hnext⟩ := Option.bind_eq_some_iff.mp hnext
    rw [Option.ite_none_right_eq_some] at hnext
    obtain ⟨-, heq⟩ := hnext
    obtain rfl := Option.some.inj heq
    exact h.finishRound not_false
  | close =>
    obtain rfl := Option.some.inj hnext
    obtain ⟨endpoint, hendpoint⟩ := Option.isSome_iff_exists.mp h.endpoint
    have hclosed : (s.endpoint.map fun _ => Endpoint.mk true) = some ⟨true⟩ := by
      rw [hendpoint]
      rfl
    exact ⟨by rw [hclosed]; rfl, h.not_panicked, fun _ => hclosed, h.tracks, h.succeeded⟩
  | connectionClosed stableId =>
    obtain rfl := Option.some.inj hnext
    exact ⟨h.endpoint, h.not_panicked, h.closed_of_returned, h.tracks,
      fun kept hkept => h.succeeded kept (List.mem_of_mem_filter hkept)⟩

/-! ## The next connection -/

variable (fromDer) in
lemma exists_run_timeout (hg : g.elapsed ≤ handshakeTimeoutSecs) (endpoint : Option Endpoint)
    (connections : List Kept) :
    Runs.Run (next fromDer device) (fun _ e => e.IsOwn) ⟨endpoint, connections, .greeting g⟩
      ⟨endpoint, connections, .accepting⟩ := by
  obtain ⟨left, hleft⟩ := Nat.exists_eq_add_of_le hg
  induction left generalizing g with
  | zero =>
    exact Runs.Run.step (e := ServerEvent.timeout) trivial (if_pos hleft.symm)
  | succ left ih =>
    have hless : g.elapsed < handshakeTimeoutSecs := by omega
    exact .head ⟨.second, trivial, if_pos hless⟩ (ih (g := { g with elapsed := g.elapsed + 1 })
      hless (by dsimp only; omega))

variable (fromDer) in
/-- **The server comes to accept the next connection**, whatever its peers do or do not. -/
lemma Sound.exists_run_accepting (h : Sound device s) (hopen : s.endpoint = some ⟨false⟩) :
    Runs.Run (QuicServer.next fromDer device) (fun _ e => e.IsOwn) s
      ⟨some ⟨false⟩, s.connections, .accepting⟩ := by
  obtain ⟨endpoint, connections, status⟩ := s
  obtain rfl : endpoint = some ⟨false⟩ := hopen
  cases status with
  | accepting => exact .refl
  | greeting g => exact exists_run_timeout fromDer (h.tracks g rfl).inTime _ _
  | returned => cases h.closed_of_returned rfl
  | panicked => exact absurd rfl h.not_panicked
  | connecting incoming =>
    cases hadmitted : admitted fromDer device incoming with
    | ok u =>
      refine .head ⟨.established, trivial, ?_⟩
        (exists_run_timeout fromDer (g := .start device incoming) (Nat.zero_le _) _ _)
      simp only [QuicServer.next, hadmitted]
    | error e =>
      refine Runs.Run.step (e := ServerEvent.established) trivial ?_
      simp only [QuicServer.next, hadmitted,
        ServerState.finishRound_error _ (admitted_ne_protocol hadmitted)]

/-- **A connection that is accepted as a whole** is accepted step by step, if the peer sends all at
once, and is kept. -/
lemma run_of_accept {c : QuicConnection} (hopen : s.endpoint = some ⟨false⟩)
    (hstatus : s.status = .accepting)
    (h : accept fromDer device incoming.peer incoming.input = .ok c) :
    Runs.Run (next fromDer device) (fun _ _ => True) s
      { s with connections := s.connections ++ [⟨incoming, c⟩] } := by
  obtain ⟨endpoint, connections, status⟩ := s
  obtain rfl : endpoint = some ⟨false⟩ := hopen
  obtain rfl : status = .accepting := hstatus
  obtain ⟨⟨⟩, hadmitted, htimeout⟩ := Except.bind_eq_ok.mp h
  obtain ⟨rest, hrun⟩ := QuicConnection.run_of_withTimeout htimeout
  let g := Greeting.start device incoming
  let sent : Greeting := { g.hears incoming.peer.stream.length with ended := true }
  have hestablished : next fromDer device ⟨some ⟨false⟩, connections, .connecting incoming⟩
      .established = some ⟨some ⟨false⟩, connections, .greeting g⟩ := by
    have hok : admitted fromDer device incoming = .ok () := hadmitted
    simp only [next, hok]
    rfl
  have hends : next fromDer device ⟨some ⟨false⟩, connections,
      .greeting (g.hears incoming.peer.stream.length)⟩ .ends =
        some ⟨some ⟨false⟩, connections, .greeting sent⟩ := if_pos List.drop_length
  have hwhole : sent.task.run sent.incoming.input sent.unread sent.connection =
      (.ok (), c, rest) := by
    rw [← hrun]
    simp [sent, g, Greeting.hears, Greeting.start]
  exact .head ⟨.arrives incoming, trivial, rfl⟩ (.head ⟨.established, trivial, hestablished⟩ (.head
    ⟨.sends incoming.peer.stream.length, trivial, rfl⟩ (.head ⟨.ends, trivial, hends⟩
      (.tail (exists_run_act fromDer device rfl rfl hwhole) ⟨.greeted, trivial, rfl⟩))))

lemma Sound.withstands (h : Sound device s) : Withstands fromDer device s where
  not_panicked := h.not_panicked
  closed_of_returned := h.closed_of_returned
  inTime g hg := (h.tracks g hg).inTime
  goesOn hopen := ⟨_, h.exists_run_accepting fromDer hopen, fun _ => rfl⟩
  keeps hopen hstatus _ _ haccept := run_of_accept hopen hstatus haccept
  kept g hg hret := by
    simp [QuicServer.next, hg, hret, Except.map, ServerState.finishRound]
  succeeded := h.succeeded

/-- **No peer can stop the server.** Whatever connections come in, with whatever certificates and
greetings, sent at whatever time or not at all, a server that has been started comes to accept the
next one until its endpoint is closed, keeps the connections whose handshake has succeeded and no
others, and reads every greeting into buffers within the limit.

**Proof sketch.** The loop ends with an error of the protocol only. Those of a handshake come out of
it as errors of the handshake, so that only a closed endpoint gives one. A handshake that waits for
its peer is given up in time. -/
theorem withstands_of_run
    (hrun : Runs.Run (next fromDer device) (fun _ _ => True) .started s) :
    Withstands fromDer device s ∧
      QuicConnection.receiveHello.Within (· ≤ limits.MAX_MESSAGE_SIZE) fun _ => True := by
  have hsound := hrun.invariant (I := Sound device) sound_started
    fun _ hsound _ hnext => hsound.next hnext
  exact ⟨hsound.withstands, QuicConnection.within_receiveHello⟩

end Accept

section Examples

/-- A connection of a peer with a trusted certificate, which greets as itself. -/
private def sampleIncoming : Incoming := ⟨samplePeer (.fill 1), none, smooth 5, 0⟩

/-- A connection of a peer with a trusted certificate that sends nothing. -/
private def silentIncoming : Incoming :=
  ⟨{ samplePeer (.fill 1) with stream := [] }, none, smooth 5, 1⟩

/-- The first peer is kept, and the second one is given up. -/
private def sampleEvents : List ServerEvent :=
  [.arrives sampleIncoming, .established, .sends 1000, .ends] ++ List.replicate 12 .act ++
    [.greeted, .arrives silentIncoming, .established] ++ List.replicate 10 .second ++ [.timeout]

/-- A server after a connection of a peer and one of a silent peer. -/
theorem withstands_of_run_sample : ∃ s, Runs.exec (next sampleParser (plainDevice (.new [.fill 1])))
      (fun _ _ => True) sampleEvents .started = some s ∧ s.connections.length = 1 ∧
    Withstands sampleParser (plainDevice (.new [.fill 1])) s ∧
      QuicConnection.receiveHello.Within (· ≤ limits.MAX_MESSAGE_SIZE) fun _ => True := by
  have hexec : (Runs.exec (next sampleParser (plainDevice (.new [.fill 1]))) (fun _ _ => True)
      sampleEvents .started).map (fun s => s.connections.length) = some 1 := by decide +kernel
  obtain ⟨s, hs, hlength⟩ := Option.map_eq_some_iff.mp hexec
  exact ⟨s, hs, hlength, withstands_of_run (Runs.run_of_exec hs)⟩

end Examples

end QuicServer

end Landropic
