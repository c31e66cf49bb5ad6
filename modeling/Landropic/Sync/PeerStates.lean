import Mathlib.Data.UInt
import Landropic.Sync.Session

set_option autoImplicit false

/-!
# The database of the peers

A database keeps the state of the sync with each peer, and the transfers that are pending. A state
is written to a row of text and integers. Two readers take it back: one of a single peer, which asks
SQL for the date and time of the last sync, and one of all peers, which takes the text as it is.

## Main definitions

* `PeerState`, `PeerSyncState` — the state of the sync with a peer.
* `SyncDatabase` — the tables.
* `SyncDatabase.upsertPeerState` — the writer of a state.
* `SyncDatabase.getPeerState`, `getAllPeerStates` — its readers.
* `SyncDatabase.addPendingTransfer` — the writer of a pending transfer.

## Main results

* `SyncDatabase.readers_return_iff` — both readers return a state as it was written if and only if
  it has no time of a last sync.
* `SyncDatabase.addPendingTransfer_eq_ok_iff` — which rows there are after a transfer is added.

## Design

The text of a time stamp, the JSON form of a state and the `datetime` function of SQL are parameters
(`SyncDatabase.Env`). A counter is stored in a signed integer, so a row has counters below `2 ^ 63`.
-/

namespace Landropic

/-- A number of single precision, by its bits. -/
structure F32 where
  bits : UInt32
  deriving DecidableEq

/-- Current state of sync with a specific peer. -/
inductive PeerState
  /-- Not currently syncing. -/
  | idle
  /-- Exchanging manifests. -/
  | negotiating
  /-- Transferring data. -/
  | transferring (progress : F32)
  /-- Sync completed successfully. -/
  | completed (timestamp : DateTime)
  /-- Sync failed. -/
  | failed (error : Text) (timestamp : DateTime)
  deriving DecidableEq

/-- Sync state for a specific peer. -/
structure PeerSyncState where
  peerId : Text
  peerName : Text
  lastSync : Option DateTime
  lastManifestHash : Option Text
  bytesSent : UInt64
  bytesReceived : UInt64
  filesSent : UInt64
  filesReceived : UInt64
  currentState : PeerState
  deriving DecidableEq

/-- The counters of a state fit into signed integers. -/
structure PeerSyncState.CountersFit (s : PeerSyncState) : Prop where
  bytesSent : s.bytesSent.toNat < 2 ^ 63
  bytesReceived : s.bytesReceived.toNat < 2 ^ 63
  filesSent : s.filesSent.toNat < 2 ^ 63
  filesReceived : s.filesReceived.toNat < 2 ^ 63

/-- A row of the table of the peers; its key is the id of the peer. -/
structure PeerRow where
  peerName : Text
  lastSync : Option Text
  lastManifestHash : Option Text
  bytesSent : Fin (2 ^ 63)
  bytesReceived : Fin (2 ^ 63)
  filesSent : Fin (2 ^ 63)
  filesReceived : Fin (2 ^ 63)
  currentState : Text

/-- Pending transfer entry. -/
structure PendingTransfer where
  id : ℕ
  peerId : Text
  folderId : Text
  filePath : Text
  chunkHash : Text
  priority : ℤ
  retryCount : ℤ
  deriving DecidableEq

/-- A row of the table of the pending transfers. -/
structure PendingRow extends PendingTransfer where
  createdAt : ℤ
  deriving DecidableEq

/-- Database for persistent sync state. -/
structure SyncDatabase where
  peers : HashMap Text PeerRow
  /-- The pending transfers in the order of their ids. -/
  pending : List PendingRow
  nextId : ℕ

namespace SyncDatabase

/-- What the database takes from outside: the JSON form of the states, time stamps in RFC 3339, the
function of SQL for a date and time, the order in which the table is scanned, and whether foreign
keys are enforced. -/
structure Env where
  toJson : PeerState → Text
  fromJson : Text → Option PeerState
  toRfc3339 : DateTime → Text
  parseFromRfc3339 : Text → Option DateTime
  datetime : Text → Option Text
  scan : IterOrder Text
  foreignKeys : Bool

section Calls

variable (env : Env) (db : SyncDatabase)

/-- An empty database. -/
def empty : SyncDatabase := ⟨∅, [], 1⟩

/-- Turn a counter into a signed integer. -/
def toInteger (n : UInt64) : Except SyncError (Fin (2 ^ 63)) :=
  if h : n.toNat < 2 ^ 63 then .ok ⟨n.toNat, h⟩
  else .error (.database "out of range integral type conversion attempted")

/-- The row of a state. -/
def toRow (state : PeerSyncState) : Except SyncError PeerRow := do
  let bytesSent ← toInteger state.bytesSent
  let bytesReceived ← toInteger state.bytesReceived
  let filesSent ← toInteger state.filesSent
  let filesReceived ← toInteger state.filesReceived
  return {
    peerName := state.peerName
    lastSync := state.lastSync.map env.toRfc3339
    lastManifestHash := state.lastManifestHash
    bytesSent := bytesSent
    bytesReceived := bytesReceived
    filesSent := filesSent
    filesReceived := filesReceived
    currentState := env.toJson state.currentState }

/-- The state in a row, with the text that was selected for the time of the last sync. -/
def ofRow (lastSync : Option Text) (peerId : Text) (row : PeerRow) : PeerSyncState where
  peerId := peerId
  peerName := row.peerName
  -- a text that is no time stamp is dropped
  lastSync := lastSync.bind env.parseFromRfc3339
  lastManifestHash := row.lastManifestHash
  bytesSent := .ofNat row.bytesSent
  bytesReceived := .ofNat row.bytesReceived
  filesSent := .ofNat row.filesSent
  filesReceived := .ofNat row.filesReceived
  currentState := (env.fromJson row.currentState).getD .idle

/-- Get sync state for a peer. -/
def getPeerState (peerId : Text) : Option PeerSyncState :=
  (db.peers.lookup peerId).map fun row =>
    ofRow env (row.lastSync.bind env.datetime) peerId row

/-- Update or insert peer sync state. -/
def upsertPeerState (state : PeerSyncState) : Except SyncError SyncDatabase := do
  let row ← toRow env state
  return { db with peers := db.peers.insert state.peerId row }

/-- Get all peer states. -/
def getAllPeerStates : HashMap Text PeerSyncState :=
  HashMap.collect ((env.scan.entries db.peers).map fun (peerId, row) =>
    (peerId, ofRow env row.lastSync peerId row))

/-- Add pending transfer, unless the chunk is pending for the peer and the folder. -/
def addPendingTransfer (now : ℤ) (peerId folderId filePath chunkHash : Text) (priority : ℤ) :
    Except SyncError SyncDatabase :=
  if ∃ row ∈ db.pending,
      row.peerId = peerId ∧ row.folderId = folderId ∧ row.chunkHash = chunkHash then .ok db
  else if env.foreignKeys ∧ peerId ∉ db.peers then
    .error (.database "FOREIGN KEY constraint failed")
  else
    .ok { db with
      pending := db.pending ++ [{
        id := db.nextId
        peerId := peerId
        folderId := folderId
        filePath := filePath
        chunkHash := chunkHash
        priority := priority
        retryCount := 0
        createdAt := now }]
      nextId := db.nextId + 1 }

end Calls

section Lemmas

variable {env : Env} {db db' : SyncDatabase} {s : PeerSyncState}

/-! ## States in rows -/


lemma toInteger_eq_ok_iff {n : UInt64} {m : Fin (2 ^ 63)} :
    toInteger n = .ok m ↔ n.toNat = m := by
  unfold toInteger
  split
  · next h => simp [Fin.ext_iff]
  · next h =>
    have hm := m.isLt
    constructor
    · intro heq
      cases heq
    · intro heq
      omega

/-- The row of a state. -/
lemma toRow_eq_ok_iff {row : PeerRow} : toRow env s = .ok row ↔
    s.bytesSent.toNat = row.bytesSent ∧ s.bytesReceived.toNat = row.bytesReceived ∧
      s.filesSent.toNat = row.filesSent ∧ s.filesReceived.toNat = row.filesReceived ∧
      s.peerName = row.peerName ∧ s.lastSync.map env.toRfc3339 = row.lastSync ∧
      s.lastManifestHash = row.lastManifestHash ∧
      env.toJson s.currentState = row.currentState := by
  simp only [toRow, Except.bind_eq_ok, toInteger_eq_ok_iff]
  constructor
  · rintro ⟨bytesSent, h₁, bytesReceived, h₂, filesSent, h₃, filesReceived, h₄, hrow⟩
    obtain rfl := Except.ok.inj hrow
    exact ⟨h₁, h₂, h₃, h₄, rfl, rfl, rfl, rfl⟩
  · rintro ⟨h₁, h₂, h₃, h₄, h₅, h₆, h₇, h₈⟩
    refine ⟨_, h₁, _, h₂, _, h₃, _, h₄, ?_⟩
    rw [h₅, h₆, h₇, h₈]
    rfl

lemma exists_toRow (h : s.CountersFit) : ∃ row, toRow env s = .ok row :=
  ⟨⟨s.peerName, s.lastSync.map env.toRfc3339, s.lastManifestHash, ⟨_, h.bytesSent⟩,
      ⟨_, h.bytesReceived⟩, ⟨_, h.filesSent⟩, ⟨_, h.filesReceived⟩, env.toJson s.currentState⟩,
    toRow_eq_ok_iff.mpr ⟨rfl, rfl, rfl, rfl, rfl, rfl, rfl, rfl⟩⟩

lemma countersFit_of_toRow {row : PeerRow} (h : toRow env s = .ok row) : s.CountersFit := by
  obtain ⟨h₁, h₂, h₃, h₄, -⟩ := toRow_eq_ok_iff.mp h
  exact ⟨h₁ ▸ row.bytesSent.isLt, h₂ ▸ row.bytesReceived.isLt, h₃ ▸ row.filesSent.isLt,
    h₄ ▸ row.filesReceived.isLt⟩

lemma ofRow_of_toRow {row : PeerRow} (h : toRow env s = .ok row)
    (hjson : env.fromJson (env.toJson s.currentState) = some s.currentState)
    (lastSync : Option Text) : ofRow env lastSync s.peerId row =
      { s with lastSync := lastSync.bind env.parseFromRfc3339 } := by
  obtain ⟨h₁, h₂, h₃, h₄, h₅, -, h₇, h₈⟩ := toRow_eq_ok_iff.mp h
  simp [ofRow, ← h₁, ← h₂, ← h₃, ← h₄, ← h₅, ← h₇, ← h₈, hjson]

lemma lookup_getAllPeerStates (peerId : Text) : (getAllPeerStates env db).lookup peerId =
    (db.peers.lookup peerId).map fun row => ofRow env row.lastSync peerId row := by
  ext state
  have hfst : ((env.scan.entries db.peers).map fun (peerId, row) =>
      (peerId, ofRow env row.lastSync peerId row)).map Prod.fst =
        (env.scan.entries db.peers).map Prod.fst := by
    simp
  rw [getAllPeerStates, HashMap.lookup_collect_iff (hfst ▸ env.scan.nodup_fst_entries db.peers)]
  simp only [List.mem_map, Prod.exists, env.scan.mem_entries, Prod.mk.injEq, Option.map_eq_some_iff]
  constructor
  · rintro ⟨_, row, hrow, rfl, hstate⟩
    exact ⟨row, hrow, hstate⟩
  · rintro ⟨row, hrow, hstate⟩
    exact ⟨peerId, row, hrow, rfl, hstate⟩

lemma upsertPeerState_eq_ok_iff : upsertPeerState env db s = .ok db' ↔
    ∃ row, toRow env s = .ok row ∧ db' = { db with peers := db.peers.insert s.peerId row } := by
  simp only [upsertPeerState, Except.bind_eq_ok]
  exact exists_congr fun row => and_congr_right fun _ =>
    ⟨fun h => (Except.ok.inj h).symm, fun h => congrArg Except.ok h.symm⟩

/-! ## The time of the last sync -/

/-- The shape of a text, with a zero in place of every digit. -/
def shape (text : Text) : Text := text.map fun c => if c.isDigit then '0' else c

/-- The shape of a date and time in SQL. -/
def sqlShape : Text :=
  ['0', '0', '0', '0', '-', '0', '0', '-', '0', '0', ' ', '0', '0', ':', '0', '0', ':', '0', '0']

/-- A text ends with an offset from universal time, as time stamps in RFC 3339 do. -/
def EndsWithOffset (text : Text) : Prop :=
  ∃ start, shape text = start ++ ['Z'] ∨ shape text = start ++ ['z'] ∨
    ∃ sign ∈ ['+', '-', '−'], shape text = start ++ [sign, '0', '0', ':', '0', '0']

lemma not_endsWithOffset {text : Text} (h : shape text = sqlShape) : ¬ EndsWithOffset text := by
  rintro ⟨start, hoffset⟩
  rw [h] at hoffset
  rcases hoffset with hz | hz | ⟨sign, hsign, hoffset⟩
  · have hlast := congrArg List.getLast? hz
    rw [List.getLast?_concat] at hlast
    cases hlast
  · have hlast := congrArg List.getLast? hz
    rw [List.getLast?_concat] at hlast
    cases hlast
  · have hcut := congrArg (fun t : Text => t.reverse[5]?) hoffset
    simp only [List.reverse_append] at hcut
    obtain rfl : ':' = sign := Option.some.inj hcut
    simp at hsign

/-- **What the readers return of a state that was written.** Both return the state as it was written
if and only if it has no time of a last sync, given that `datetime` yields a date and time without
an offset, that a time stamp in RFC 3339 has one, and that the JSON form of the state of the sync
is read back.

**Proof sketch.** The reader of a single peer parses the date and time that SQL returns, which has
no offset, so the time is dropped whatever it was. All else is read back as it was written. -/
theorem readers_return_iff (s : PeerSyncState) (db : SyncDatabase)
    (hdatetime : ∀ text text', env.datetime text = some text' → shape text' = sqlShape)
    (hparse : ∀ text t, env.parseFromRfc3339 text = some t → EndsWithOffset text)
    (hjson : env.fromJson (env.toJson s.currentState) = some s.currentState)
    (hfit : s.CountersFit) : ∃ db', upsertPeerState env db s = .ok db' ∧
      (getPeerState env db' s.peerId = some s ∧
        (getAllPeerStates env db').lookup s.peerId = some s ↔ s.lastSync = none) := by
  obtain ⟨row, hrow⟩ : ∃ row, toRow env s = .ok row := exists_toRow hfit
  have hlast : s.lastSync.map env.toRfc3339 = row.lastSync :=
    (toRow_eq_ok_iff.mp hrow).2.2.2.2.2.1
  refine ⟨_, upsertPeerState_eq_ok_iff.mpr ⟨row, hrow, rfl⟩, ?_⟩
  rw [getPeerState, lookup_getAllPeerStates]
  simp only [Finmap.lookup_insert, Option.map_some, ofRow_of_toRow hrow hjson]
  constructor
  · rintro ⟨hget, -⟩
    rw [← Option.some.inj hget]
    have hnone : ∀ text, row.lastSync.bind env.datetime = some text →
        env.parseFromRfc3339 text = none := by
      intro text htext
      obtain ⟨stored, -, hstored⟩ := Option.bind_eq_some_iff.mp htext
      refine Option.eq_none_iff_forall_ne_some.mpr fun t ht => ?_
      exact not_endsWithOffset (hdatetime _ _ hstored) (hparse _ _ ht)
    exact Option.bind_eq_none_iff.mpr hnone
  · intro hnone
    rw [hnone] at hlast
    obtain ⟨peerId, peerName, lastSync, hash, sent, received, files, files', state⟩ := s
    obtain rfl : lastSync = none := hnone
    simp [← hlast]

/-! ## A database of one peer -/

/-- The JSON form of a sync that was completed at midnight. -/
def completedJson : Text :=
  "\x7b\"Completed\":\x7b\"timestamp\":\"2024-01-01T00:00:00Z\"\x7d\x7d".toList

/-- The formats of the database, for the values that occur below. -/
def sampleEnv (foreignKeys : Bool) : Env where
  toJson
    | .idle => "\"Idle\"".toList
    | .negotiating => "\"Negotiating\"".toList
    | .completed t => if t = ⟨1704067200, 0⟩ then completedJson else []
    | _ => []
  fromJson text :=
    if text = "\"Idle\"".toList then some .idle
    else if text = "\"Negotiating\"".toList then some .negotiating
    else if text = completedJson then some (.completed ⟨1704067200, 0⟩)
    else none
  toRfc3339 _ := "2024-01-01T00:00:00+00:00".toList
  parseFromRfc3339 text :=
    if text = "2024-01-01T00:00:00+00:00".toList then some ⟨1704067200, 0⟩ else none
  datetime text :=
    if text = "2024-01-01T00:00:00+00:00".toList then some "2024-01-01 00:00:00".toList else none
  scan := .sortedBy (List.map Char.toNat)
    (List.map_injective_iff.mpr fun _ _ h => Char.ext (UInt32.toNat_inj.mp h))
  foreignKeys := foreignKeys

/-- The state of a peer that has been synced. -/
def synced (lastSync : Option DateTime) : PeerSyncState where
  peerId := "test-peer".toList
  peerName := "Test Device".toList
  lastSync := lastSync
  lastManifestHash := some "abc123".toList
  bytesSent := 1024
  bytesReceived := 2048
  filesSent := 5
  filesReceived := 10
  currentState := .idle

/-- The time of the last sync of the peer. -/
def syncedAt : DateTime := ⟨1704067200, 0⟩

lemma shape_sampleEnv_datetime {foreignKeys : Bool} {text text' : Text}
    (h : (sampleEnv foreignKeys).datetime text = some text') : shape text' = sqlShape := by
  obtain ⟨-, htext⟩ := Option.ite_none_right_eq_some.mp h
  rw [← Option.some.inj htext]
  decide

lemma endsWithOffset_of_sampleEnv {foreignKeys : Bool} {text : Text} {t : DateTime}
    (h : (sampleEnv foreignKeys).parseFromRfc3339 text = some t) : EndsWithOffset text := by
  obtain ⟨rfl, -⟩ := Option.ite_none_right_eq_some.mp h
  exact ⟨"0000-00-00T00:00:00".toList, .inr (.inr ⟨'+', by decide, by decide⟩)⟩

/-- The readers, of the state of the peer. -/
theorem readers_return_iff_synced : ∃ db',
    upsertPeerState (sampleEnv true) empty (synced syncedAt) = .ok db' ∧
      (getPeerState (sampleEnv true) db' (synced syncedAt).peerId = some (synced syncedAt) ∧
        (getAllPeerStates (sampleEnv true) db').lookup (synced syncedAt).peerId =
          some (synced syncedAt) ↔ (synced syncedAt).lastSync = none) :=
  readers_return_iff (synced syncedAt) empty (fun _ _ => shape_sampleEnv_datetime)
    (fun _ _ => endsWithOffset_of_sampleEnv) (by decide)
    ⟨by decide, by decide, by decide, by decide⟩

/-- The state of the peer comes back without the time of the last sync. -/
theorem getPeerState_synced : ∃ db',
    upsertPeerState (sampleEnv true) empty (synced syncedAt) = .ok db' ∧
      getPeerState (sampleEnv true) db' (synced syncedAt).peerId = some (synced none) ∧
      synced none ≠ synced syncedAt := by
  refine ⟨_, upsertPeerState_eq_ok_iff.mpr ⟨_, rfl, rfl⟩, ?_, by decide⟩
  rw [getPeerState, Finmap.lookup_insert]
  decide

/-! ## Pending transfers -/

/-- Which transfers are pending after one is added: those before, and it, unless the chunk was
pending for the peer and the folder. -/
theorem addPendingTransfer_eq_ok_iff {now priority : ℤ}
    {peerId folderId filePath chunkHash : Text} :
    addPendingTransfer env db now peerId folderId filePath chunkHash priority = .ok db' ↔
      if ∃ row ∈ db.pending,
          row.peerId = peerId ∧ row.folderId = folderId ∧ row.chunkHash = chunkHash then db' = db
      else (env.foreignKeys = true → peerId ∈ db.peers) ∧
        db' = { db with
          pending := db.pending ++
            [⟨⟨db.nextId, peerId, folderId, filePath, chunkHash, priority, 0⟩, now⟩]
          nextId := db.nextId + 1 } := by
  unfold addPendingTransfer
  split
  · exact ⟨fun h => (Except.ok.inj h).symm, fun h => congrArg Except.ok h.symm⟩
  · by_cases hkeys : env.foreignKeys = true ∧ peerId ∉ db.peers
    · rw [if_pos hkeys]
      constructor
      · intro h
        cases h
      · exact fun h => absurd (h.1 hkeys.1) hkeys.2
    · rw [if_neg hkeys]
      constructor
      · intro h
        exact ⟨fun hon => by_contra fun hpeer => hkeys ⟨hon, hpeer⟩, (Except.ok.inj h).symm⟩
      · exact fun h => congrArg Except.ok h.2.symm

lemma peers_of_addPendingTransfer {now priority : ℤ} {peerId folderId filePath chunkHash : Text}
    (h : addPendingTransfer env db now peerId folderId filePath chunkHash priority = .ok db') :
    db'.peers = db.peers := by
  have hrows := addPendingTransfer_eq_ok_iff.mp h
  split at hrows
  · rw [hrows]
  · rw [hrows.2]

end Lemmas

end SyncDatabase

end Landropic
