import Landropic.Daemon.ConnectionHandler
import Landropic.Daemon.SimpleTransfer
import Landropic.Foundations.Links

set_option autoImplicit false

/-!
# The file client and the daemon

A client connects to a daemon, opens a stream and sends a file over it. The daemon's handler of the
connection opens a stream as well, and waits for the messages of the client there.

## Main definitions

* `Daemon.transferFile` — the client.
* `Daemon.handleQuicConnection` — the daemon's handler of a connection.
* `Daemon.FileSession` — the two of them on a connection.
* `Daemon.FitsTogether` — they never wait for each other, and a file that was transferred is there.
* `Daemon.GivesUp` — one of them fails before it waits.

## Main results

* `Daemon.sendFile_fails`, `waits_sendFile` — the client without an answer.
* `Daemon.fitsTogether_iff` — when the two fit together.

## Design

The connection has been established. Each message that the handler reads is processed in one step.
-/

namespace Landropic.Daemon

open Duplex (Side)

/-- How the operations of the client turn out. -/
structure ClientFaults where
  /-- Why its stream cannot be opened, if it cannot. -/
  opening : Option IoError
  /-- Why the file cannot be read, if it cannot. -/
  reading : Option IoError
  /-- Why one of its writes to the stream fails, by their number, if it does. -/
  stream : ℕ → Option IoError

/-- The faults while a file is sent. -/
def ClientFaults.transfer (client : ClientFaults) : TransferFaults := ⟨client.stream, none, none⟩

/-- How the operations of the handler turn out. -/
structure HandlerFaults where
  /-- Why its stream cannot be opened, if it cannot. -/
  opening : Option IoError
  /-- Why the database cannot be opened, if it cannot. -/
  database : Option IoError
  /-- Why the sync folder could not be created for a message, if it could not. -/
  folder : ℕ → Option IoError
  /-- Why the data of a message was not written, if it was not. -/
  write : ℕ → Option WriteFault
  /-- Why one of its writes to the stream fails, by their number, if it does. -/
  stream : ℕ → Option IoError

/-- How the operations on a message turn out. The answer takes two writes. -/
def HandlerFaults.input (handler : HandlerFaults) (k : ℕ) : HandlerInput where
  folder := handler.folder k
  write := handler.write k
  sent := (handler.stream (2 * k)).isNone && (handler.stream (2 * k + 1)).isNone

/-- The handler with the files of the sync folder. -/
abbrev HandlerTalk (α : Type) := Talk (HashMap Text Bytes) HandlerFaults IoError α

section Parties

variable (json : SimpleSyncJson) (blake3 : Bytes → ContentHash)

/-- Send the response to a message, if there is one. -/
def respond (k : ℕ) : Option SimpleSyncMessage → HandlerTalk Bool
  | none => pure true
  | some response => do
    let respData := json.toBytes 0 response
    Talk.sendAll (beBytes 4 (respData.length % 2 ^ 32)) fun faults => faults.stream (2 * k)
    Talk.sendAll respData fun faults => faults.stream (2 * k + 1)
    pure true

/-- Read a message from the stream, process it and respond: whether more messages are to be read. -/
def handleMessage (k : ℕ) : HandlerTalk Bool :=
  Talk.recv 4 fun
    | none => pure false
    | some lenBuf => Talk.recv (beNat lenBuf) fun
      | none => pure false
      | some msgBuf => do
        let response ← Talk.atom fun faults files =>
          let answer := processSyncMessage blake3 (faults.input k) files (json.fromBytes msgBuf)
          (.ok answer.1, answer.2)
        respond json k response

/-- Where the client is. -/
inductive ClientAt
  | opening
  | reading (stream : BiStream)
  | sending (stream : BiStream) (t : SimpleTalk Bytes Unit)
  | ended (r : Except TransferError Unit)

/-- Where the handler of a connection is. -/
inductive HandlerAt
  | opening
  | database (stream : BiStream)
  /-- After so many messages. -/
  | serving (stream : BiStream) (k : ℕ) (t : HandlerTalk Bool)
  | ended (r : Except IoError Unit)

/-- Transfer a file to a daemon: open a stream and send the file. -/
def transferFile (client : ClientFaults) (filePath : Text) : ClientAt → StreamOp ClientAt Bytes
  | .opening =>
    match client.opening with
    | some e => .act fun source => (.ended (.error (.io e)), source)
    | none => .openBi .reading
  | .reading stream =>
    match client.reading with
    | some e => .act fun source => (.ended (.error (.io e)), source)
    | none => .act fun source => (.sending stream (sendFile json blake3 filePath), source)
  | .sending stream t => t.op client.transfer stream (.sending stream) .ended
  | .ended _ => .done

/-- After a message has been handled. -/
def afterMessage (stream : BiStream) (k : ℕ) : Except IoError Bool → HandlerAt
  | .ok true => .serving stream (k + 1) (handleMessage json blake3 (k + 1))
  | .ok false => .ended (.ok ())
  | .error e => .ended (.error e)

/-- Handle a connection: open a stream and the database, and handle the messages. -/
def handleQuicConnection (handler : HandlerFaults) :
    HandlerAt → StreamOp HandlerAt (HashMap Text Bytes)
  | .opening =>
    match handler.opening with
    | some e => .act fun files => (.ended (.error e), files)
    | none => .openBi .database
  | .database stream =>
    match handler.database with
    | some e => .act fun files => (.ended (.error e), files)
    | none => .act fun files => (.serving stream 0 (handleMessage json blake3 0), files)
  | .serving stream k t =>
    t.op handler stream (.serving stream k) (afterMessage json blake3 stream k)
  | .ended _ => .done

/-- The programs on the two sides of a connection. -/
abbrev SessionProg : Side → Type
  | .left => ClientAt
  | .right => HandlerAt

/-- Their states: the file that is sent, and the files of the sync folder. -/
abbrev SessionState : Side → Type
  | .left => Bytes
  | .right => HashMap Text Bytes

/-- A client and a daemon on a connection. -/
abbrev FileSession := Link SessionProg SessionState

/-- What they do next. -/
def sessionOp (client : ClientFaults) (handler : HandlerFaults) (filePath : Text) :
    ∀ side, SessionProg side → StreamOp (SessionProg side) (SessionState side)
  | .left => transferFile json blake3 client filePath
  | .right => handleQuicConnection json blake3 handler

/-- A client and a daemon that are connected. -/
def FileSession.start (content : Bytes) (files : HashMap Text Bytes) : FileSession where
  prog
    | .left => ClientAt.opening
    | .right => HandlerAt.opening
  state
    | .left => content
    | .right => files
  wire := .fresh

/-- In whichever order the client and the daemon take their steps, they never wait for each other,
and if the client succeeds the daemon has the file under the name announced. -/
def FitsTogether (client : ClientFaults) (handler : HandlerFaults) (filePath : Text)
    (content : Bytes) (files : HashMap Text Bytes) : Prop :=
  ∀ y, Link.Run (sessionOp json blake3 client handler filePath)
      (FileSession.start content files) y →
    ¬ y.Deadlocked (sessionOp json blake3 client handler filePath) ∧
      (y.prog .left = ClientAt.ended (.ok ()) →
        Finmap.lookup (destinationName filePath) (y.state .right) = some content)

end Parties

/-- The client or the daemon fails before it waits for the other one. -/
def GivesUp (client : ClientFaults) (handler : HandlerFaults) : Prop :=
  client.opening.isSome ∨ client.reading.isSome ∨ (client.stream 0).isSome ∨
    (client.stream 1).isSome ∨ handler.opening.isSome ∨ handler.database.isSome

/-! ## The client without an answer -/

section Client

variable {json : SimpleSyncJson} {blake3 : Bytes → ContentHash} {client : ClientFaults}
  {handler : HandlerFaults} {filePath : Text} {content : Bytes} {files : HashMap Text Bytes}
  {faults : TransferFaults}

lemma sendFile_fails :
    ∃ e, ((sendFile json blake3 filePath).run faults [] content).1 = .error e := by
  rw [sendFile, Talk.run_bind, Talk.run_atom]
  dsimp only
  rw [Talk.run_bind, run_sendMessage]
  cases (faults.stream 0).or (faults.stream (0 + 1)) with
  | some e => exact ⟨_, rfl⟩
  | none => exact ⟨.io .earlyEof, rfl⟩

lemma waits_sendFile : (sendFile json blake3 filePath).waits faults content ↔
    faults.stream 0 = none ∧ faults.stream 1 = none := by
  show (sendMessage json 0 (transferRequest blake3 filePath content) >>= fun _ =>
    receiveMessage json >>= checkResponse json content).waits faults content ↔ _
  rw [sendMessage, Talk.bind_assoc', Talk.waits_sendAll_bind, Talk.waits_sendAll_bind,
    Option.map_eq_none_iff, Option.map_eq_none_iff, receiveMessage, Talk.bind_assoc']
  exact and_congr_right' (and_iff_left (Talk.waits_readExact_bind (by decide)))

/-! ## The phases of the two -/

/-- The client uses a stream it has opened. -/
def ClientAt.UsesOwn : ClientAt → Prop
  | reading stream => stream.opener = .left
  | sending stream _ => stream.opener = .left
  | _ => True

/-- The handler uses a stream it has opened. -/
def HandlerAt.UsesOwn : HandlerAt → Prop
  | database stream => stream.opener = .right
  | serving stream _ _ => stream.opener = .right
  | _ => True

/-- A program uses a stream it has opened. -/
def UsesOwn : ∀ side, SessionProg side → Prop
  | .left => ClientAt.UsesOwn
  | .right => HandlerAt.UsesOwn

lemma own_transferFile {p : ClientAt} (h : p.UsesOwn) :
    (transferFile json blake3 client filePath p).Own .left ClientAt.UsesOwn := by
  cases p with
  | opening =>
    rw [transferFile]
    cases client.opening with
    | some e => exact fun _ => trivial
    | none => exact fun _ hopener => hopener
  | reading stream =>
    rw [transferFile]
    cases client.reading with
    | some e => exact fun _ => trivial
    | none => exact fun _ => h
  | sending stream t =>
    have hsending : ∀ t, (ClientAt.sending stream t).UsesOwn := fun _ => h
    have hended : ∀ r, (ClientAt.ended r).UsesOwn := fun _ => trivial
    exact Talk.own_op h hsending hended t
  | ended r => trivial

lemma own_handleQuicConnection {p : HandlerAt} (h : p.UsesOwn) :
    (handleQuicConnection json blake3 handler p).Own .right HandlerAt.UsesOwn := by
  cases p with
  | opening =>
    rw [handleQuicConnection]
    cases handler.opening with
    | some e => exact fun _ => trivial
    | none => exact fun _ hopener => hopener
  | database stream =>
    rw [handleQuicConnection]
    cases handler.database with
    | some e => exact fun _ => trivial
    | none => exact fun _ => h
  | serving stream k t =>
    have hafter : ∀ r, (afterMessage json blake3 stream k r).UsesOwn := by
      rintro (e | (_ | _))
      · trivial
      · trivial
      · exact h
    have hserving : ∀ t, (HandlerAt.serving stream k t).UsesOwn := fun _ => h
    exact Talk.own_op h hserving hafter t
  | ended r => trivial

lemma own_sessionOp (side : Side) (p : SessionProg side) (h : UsesOwn side p) :
    (sessionOp json blake3 client handler filePath side p).Own side (UsesOwn side) := by
  cases side with
  | left => exact own_transferFile h
  | right => exact own_handleQuicConnection h

lemma apart_start : (FileSession.start content files).Apart UsesOwn := by
  rintro (_ | _)
  · exact ⟨trivial, fun _ _ => rfl⟩
  · exact ⟨trivial, fun _ _ => rfl⟩

/-- How far the client has come, and what has not failed then. -/
inductive ClientPhase (client : ClientFaults) (closed : Bool) (source : Bytes) : ClientAt → Prop
  | opening : ClientPhase client closed source .opening
  | reading {stream : BiStream} :
    client.opening = none → ClientPhase client closed source (.reading stream)
  /-- It fails without an answer, and waits for one if its request has been sent. -/
  | sending {stream : BiStream} {t : SimpleTalk Bytes Unit} :
    client.opening = none → client.reading = none →
    (∃ e, (t.run client.transfer [] source).1 = .error e) →
    (closed = false → t.waits client.transfer source →
      client.stream 0 = none ∧ client.stream 1 = none) →
    ClientPhase client closed source (.sending stream t)
  | ended {e : TransferError} : ClientPhase client closed source (.ended (.error e))

/-- How far the handler has come, and what has not failed then. -/
inductive HandlerPhase (handler : HandlerFaults) : HandlerAt → Prop
  | opening : HandlerPhase handler .opening
  | database {stream : BiStream} :
    handler.opening = none → HandlerPhase handler (.database stream)
  | serving {stream : BiStream} {k : ℕ} {t : HandlerTalk Bool} :
    handler.opening = none → handler.database = none →
    HandlerPhase handler (.serving stream k t)
  | ended {r : Except IoError Unit} : HandlerPhase handler (.ended r)

/-- The client goes on. -/
lemma ClientPhase.move {closed : Bool} {source source' : Bytes} {p p' : ClientAt} {w w' : Wire}
    (h : ClientPhase client closed source p) (hown : p.UsesOwn) (hsilent : w.Silent .left)
    (hmove : (transferFile json blake3 client filePath p).move .left closed source w =
      some (p', source', w')) : ClientPhase client closed source' p' := by
  cases h with
  | opening =>
    rw [transferFile] at hmove
    cases hopening : client.opening with
    | some e =>
      rw [hopening] at hmove
      cases hmove
      exact .ended
    | none =>
      rw [hopening] at hmove
      cases hmove
      exact .reading hopening
  | reading hopening =>
    rw [transferFile] at hmove
    cases hreading : client.reading with
    | some e =>
      rw [hreading] at hmove
      cases hmove
      exact .ended
    | none =>
      rw [hreading] at hmove
      cases hmove
      exact .sending hopening hreading sendFile_fails fun _ => waits_sendFile.mp
  | sending hopening hreading hfails hwaits =>
    obtain ⟨r, rfl, rfl, rfl⟩ | ⟨t', rfl, hrun, hiff⟩ := Talk.move_op (hsilent _ hown) hmove
    · obtain ⟨e, he⟩ := hfails
      obtain rfl : r = .error e := he
      exact .ended
    · exact .sending hopening hreading (hrun ▸ hfails) fun hopen ht =>
        hwaits hopen ((hiff hopen).mp ht)
  | ended => cases hmove

/-- The handler goes on. -/
lemma HandlerPhase.move {closed : Bool} {files files' : HashMap Text Bytes} {p p' : HandlerAt}
    {w w' : Wire} (h : HandlerPhase handler p) (hown : p.UsesOwn) (hsilent : w.Silent .right)
    (hmove : (handleQuicConnection json blake3 handler p).move .right closed files w =
      some (p', files', w')) : HandlerPhase handler p' := by
  cases h with
  | opening =>
    rw [handleQuicConnection] at hmove
    cases hopening : handler.opening with
    | some e =>
      rw [hopening] at hmove
      cases hmove
      exact .ended
    | none =>
      rw [hopening] at hmove
      cases hmove
      exact .database hopening
  | database hopening =>
    rw [handleQuicConnection] at hmove
    cases hdatabase : handler.database with
    | some e =>
      rw [hdatabase] at hmove
      cases hmove
      exact .ended
    | none =>
      rw [hdatabase] at hmove
      cases hmove
      exact .serving hopening hdatabase
  | serving hopening hdatabase =>
    obtain ⟨r, rfl, rfl, rfl⟩ | ⟨t', rfl, -, -⟩ := Talk.move_op (hsilent _ hown) hmove
    · rcases r with e | (_ | _)
      · exact .ended
      · exact .ended
      · exact .serving hopening hdatabase
    · exact .serving hopening hdatabase
  | ended => cases hmove

lemma ClientPhase.of_open {closed : Bool} {source : Bytes} {p : ClientAt}
    (h : ClientPhase client false source p) : ClientPhase client closed source p := by
  cases h with
  | opening => exact .opening
  | reading hopening => exact .reading hopening
  | sending hopening hreading hfails hwaits =>
    exact .sending hopening hreading hfails fun _ => hwaits rfl
  | ended => exact .ended

/-- A client that cannot go on waits for an answer, after it has sent its request. -/
lemma ClientPhase.none_of_move {source : Bytes} {p : ClientAt} {w : Wire}
    (h : ClientPhase client false source p) (hown : p.UsesOwn) (hsilent : w.Silent .left)
    (hend : (transferFile json blake3 client filePath p).isDone = false)
    (hmove : (transferFile json blake3 client filePath p).move .left false source w = none) :
    client.opening = none ∧ client.reading = none ∧ client.stream 0 = none ∧
      client.stream 1 = none := by
  cases h with
  | opening =>
    rw [transferFile] at hmove
    split at hmove <;> cases hmove
  | reading hopening =>
    rw [transferFile] at hmove
    split at hmove <;> cases hmove
  | sending hopening hreading hfails hwaits =>
    exact ⟨hopening, hreading, hwaits rfl (Talk.waits_of_move_eq_none (hsilent _ hown) hmove)⟩
  | ended => cases hend

/-- A handler that cannot go on waits for a message, after it has opened its stream and the
database. -/
lemma HandlerPhase.none_of_move {files : HashMap Text Bytes} {p : HandlerAt} {w : Wire}
    (h : HandlerPhase handler p)
    (hend : (handleQuicConnection json blake3 handler p).isDone = false)
    (hmove : (handleQuicConnection json blake3 handler p).move .right false files w = none) :
    handler.opening = none ∧ handler.database = none := by
  cases h with
  | opening =>
    rw [handleQuicConnection] at hmove
    split at hmove <;> cases hmove
  | database hopening =>
    rw [handleQuicConnection] at hmove
    split at hmove <;> cases hmove
  | serving hopening hdatabase => exact ⟨hopening, hdatabase⟩
  | ended => cases hend

/-- How far the client and the handler have come. -/
structure Phases (json : SimpleSyncJson) (blake3 : Bytes → ContentHash) (client : ClientFaults)
    (handler : HandlerFaults) (filePath : Text) (x : FileSession) : Prop where
  apart : x.Apart UsesOwn
  left : ClientPhase client (x.ended (sessionOp json blake3 client handler filePath) .right)
    (x.state .left) (x.prog .left)
  right : HandlerPhase handler (x.prog .right)

lemma Phases.step {x y : FileSession} {side : Side}
    (h : Phases json blake3 client handler filePath x)
    (hstep : x.step (sessionOp json blake3 client handler filePath) side = some y) :
    Phases json blake3 client handler filePath y := by
  have hapart := h.apart.step own_sessionOp hstep
  obtain ⟨p, s, w, hmove, rfl⟩ := Link.step_eq_some.mp hstep
  cases side with
  | left =>
    have hleft := h.left.move (h.apart .left).1 (h.apart .left).2 hmove
    exact ⟨hapart, hleft, h.right⟩
  | right =>
    have hright := h.right.move (h.apart .right).1 (h.apart .right).2 hmove
    have hopen := Link.ended_eq_false_of_step hstep
    have hleft := h.left
    rw [hopen] at hleft
    exact ⟨hapart, hleft.of_open, hright⟩

/-- In every run neither gets further than to wait. -/
theorem phases_of_run {y : FileSession}
    (hrun : Link.Run (sessionOp json blake3 client handler filePath)
      (FileSession.start content files) y) : Phases json blake3 client handler filePath y := by
  refine Runs.Run.invariant (I := Phases json blake3 client handler filePath) hrun ?_
    fun _ h _ hstep => h.step hstep
  exact ⟨apart_start, .opening, .opening⟩

lemma Phases.not_givesUp {x : FileSession} (h : Phases json blake3 client handler filePath x)
    (hstuck : x.Deadlocked (sessionOp json blake3 client handler filePath)) :
    ¬ GivesUp client handler := by
  obtain ⟨hleftEnd, hleftStep⟩ := hstuck .left
  obtain ⟨hrightEnd, hrightStep⟩ := hstuck .right
  have hleft := h.left
  have hmove := Link.step_eq_none.mp hleftStep
  have hmove' := Link.step_eq_none.mp hrightStep
  rw [hrightEnd] at hleft
  rw [show Side.left.other = .right from rfl, hrightEnd] at hmove
  rw [show Side.right.other = .left from rfl, hleftEnd] at hmove'
  obtain ⟨hopening, hreading, hzero, hone⟩ :=
    hleft.none_of_move (h.apart .left).1 (h.apart .left).2 hleftEnd hmove
  obtain ⟨hopening', hdatabase⟩ := h.right.none_of_move hrightEnd hmove'
  simp [GivesUp, hopening, hreading, hzero, hone, hopening', hdatabase]

lemma exists_deadlocked (h : ¬ GivesUp client handler) : ∃ y,
    Link.Run (sessionOp json blake3 client handler filePath) (FileSession.start content files) y ∧
      y.Deadlocked (sessionOp json blake3 client handler filePath) := by
  simp only [GivesUp, not_or, Option.not_isSome_iff_eq_none] at h
  obtain ⟨hopening, hreading, hzero, hone, hopening', hdatabase⟩ := h
  obtain ⟨op, hop⟩ : ∃ op, op = sessionOp json blake3 client handler filePath := ⟨_, rfl⟩
  rw [← hop]
  have hopen : op .left ((FileSession.start content files).prog .left) =
      .openBi ClientAt.reading := by
    rw [hop, sessionOp, FileSession.start, transferFile, hopening]
  have hread (stream : BiStream) : op .left (ClientAt.reading stream) =
      .act fun source => (.sending stream (sendFile json blake3 filePath), source) := by
    rw [hop, sessionOp, transferFile, hreading]
  obtain ⟨stream, x₁, hstream, hrun₁, hleft₁, hright₁⟩ := Link.exists_run_open hopen hread
  have hopen' : op .right (x₁.prog .right) = .openBi HandlerAt.database := by
    rw [show x₁.prog .right = HandlerAt.opening from hright₁, hop, sessionOp,
      handleQuicConnection, hopening']
  have hread' (stream : BiStream) : op .right (HandlerAt.database stream) =
      .act fun files => (.serving stream 0 (handleMessage json blake3 0), files) := by
    rw [hop, sessionOp, handleQuicConnection, hdatabase]
  obtain ⟨stream', x₂, hstream', hrun₂, hright₂, hleft₂⟩ := Link.exists_run_open hopen' hread'
  have hown : ∀ side p, UsesOwn side p → (op side p).Own side (UsesOwn side) :=
    hop ▸ own_sessionOp
  have hapart := Link.nothing_comes_of_run hown apart_start (hrun₁.trans hrun₂)
  have hserving : x₂.ended op .right = false := by
    rw [Link.ended, hright₂, hop]
    rfl
  have hwaits : (sendFile json blake3 filePath).waits client.transfer (x₂.state .left) :=
    waits_sendFile.mpr ⟨hzero, hone⟩
  have hsending : ∀ t, op .left (ClientAt.sending stream t) =
      t.op client.transfer stream (ClientAt.sending stream) ClientAt.ended := fun t => by
    rw [hop]
    rfl
  obtain ⟨y, hy⟩ := Link.exists_run_waits hown hstream hsending hapart hserving
    (hleft₂.trans hleft₁) hwaits
  refine ⟨y, (hrun₁.trans hrun₂).trans hy.run, ?_⟩
  have hright : y.prog .right = HandlerAt.serving stream' 0 (handleMessage json blake3 0) :=
    hy.prog_other.trans hright₂
  rintro (_ | _)
  · exact hy.waits
  · have hempty : y.wire.toSide .right stream' = [] := (hy.apart .right).2 stream' hstream'
    refine ⟨by rw [Link.ended, hright, hop]; rfl, Link.step_eq_none.mpr ?_⟩
    rw [hright, show Side.right.other = .left from rfl, hy.waits.1, hop, sessionOp,
      handleQuicConnection, handleMessage, Talk.op, StreamOp.move, hempty]
    rfl

/-- **When the client and the daemon fit together**: only if one of them fails before it waits. Each
opens a stream of its own and waits for the other one there.

**Proof sketch.** Neither accepts the stream of the other one, so that nothing comes back. The
client fails then or waits, and the handler waits for its first message. -/
theorem fitsTogether_iff (json : SimpleSyncJson) (blake3 : Bytes → ContentHash)
    (client : ClientFaults) (handler : HandlerFaults) (filePath : Text) (content : Bytes)
    (files : HashMap Text Bytes) :
    FitsTogether json blake3 client handler filePath content files ↔ GivesUp client handler := by
  constructor
  · intro hfits
    by_contra h
    obtain ⟨y, hrun, hstuck⟩ := exists_deadlocked h
    exact (hfits y hrun).1 hstuck
  · intro h y hrun
    have hphases := phases_of_run hrun
    refine ⟨fun hstuck => hphases.not_givesUp hstuck h, fun hok => ?_⟩
    have hleft := hphases.left
    rw [hok] at hleft
    cases hleft

end Client

/-- Nothing fails on the side of the client. -/
def noClientFaults : ClientFaults := ⟨none, none, fun _ => none⟩

/-- Nothing fails on the side of the handler. -/
def noHandlerFaults : HandlerFaults := ⟨none, none, fun _ => none, fun _ => none, fun _ => none⟩

/-- **A file of one byte is not transferred**, although nothing fails. -/
theorem not_fitsTogether_oneByte : ∃ json : SimpleSyncJson,
    (∀ way, ∀ sample ∈ sampleTexts, json.toBytes way sample.1 = sample.2) ∧
      ¬ FitsTogether json ContentHash.blake3Sample noClientFaults noHandlerFaults ['a'] [1] ∅ := by
  obtain ⟨json, htexts⟩ := exists_simpleSyncJson
  refine ⟨json, htexts, fun hfits => ?_⟩
  have hnone : ¬ GivesUp noClientFaults noHandlerFaults := by
    simp [GivesUp, noClientFaults, noHandlerFaults]
  obtain ⟨y, hrun, hstuck⟩ := exists_deadlocked hnone
  exact (hfits y hrun).1 hstuck

end Landropic.Daemon
