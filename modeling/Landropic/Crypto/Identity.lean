import Landropic.Crypto.DeviceId
import Landropic.Foundations.Fs
import Landropic.Foundations.Lines
import Landropic.Foundations.Pool

set_option autoImplicit false

/-!
# The identity of a device

A device has one private key, which is kept in a file. The first start generates the key and saves
it: it writes a temporary file and renames that to the key file. Any number of tasks and processes
may do so at once, on the same files.

## Main definitions

* `IdentityStore` — where the key is kept, and how.
* `IdentityStore.load`, `IdentityStore.save` — loading and saving an identity.
* `IdentityStore.loadOrGenerate` — the identity of this device.
* `IdentityStore.Clean` — a step that makes no half-written or second key.
* `IdentityStore.OneIdentity` — all calls that have returned have the same identity.
* `IdentityStore.Remains` — every later call returns an identity that was returned.

## Main results

* `IdentityStore.outline_loadOrGenerate` — what a call achieves among others.
* `IdentityStore.oneIdentity_of_run` — in which runs a device has one identity.

## Design

Each file operation is one action; a write transfers its bytes one after the other. A call may crash
before any of its actions, and the files are then left as they are. The disk does not fail by
itself.
-/

namespace Landropic

/-- An Ed25519 private key. -/
@[ext]
structure PrivateKey where
  toBytes : Bytes
  /-- A private key has 32 bytes. -/
  length_toBytes : toBytes.length = 32

instance : DecidableEq PrivateKey :=
  fun a b => decidable_of_iff (a.toBytes = b.toBytes) PrivateKey.ext_iff.symm

/-- What is stored of an identity. -/
structure StoredIdentity where
  version : UInt8
  deviceName : Text
  privateKey : PrivateKey
  deriving DecidableEq

/-- An identity. -/
structure DeviceIdentity where
  signingKey : PrivateKey
  deviceName : Text
  deriving DecidableEq

/-- Where identities are kept, and how they are written. -/
structure IdentityStore where
  home : FilePath
  serialize : StoredIdentity → Bytes
  deserialize : Bytes → Except String StoredIdentity
  /-- What was written can be read. -/
  deserialize_serialize : ∀ stored, deserialize (serialize stored) = .ok stored
  /-- The public key of a private key. -/
  verifyingKey : PrivateKey → DeviceId

/-- What becomes of a call. -/
inductive Fate
  | goesOn
  | crashes
  deriving DecidableEq

/-- How a call ends that returns no identity. -/
inductive CallEnd
  | failed (e : CryptoError)
  | crashed
  deriving DecidableEq

/-- What an action is about to do. -/
inductive KeyOp
  | pathExists
  | read
  | createDirAll
  | create
  /-- Write to the temporary file that was opened. -/
  | write (ino : ℕ)
  | metadata
  | setPermissions
  /-- Rename the temporary file, after this was written to it. -/
  | rename (data : Bytes)
  | done
  deriving DecidableEq

/-- What has been written to a file that is to be renamed. -/
def KeyOp.renamed : KeyOp → Option Bytes
  | rename data => some data
  | _ => none

/-- The file that is to be written to. -/
def KeyOp.written : KeyOp → Option ℕ
  | write ino => some ino
  | _ => none

/-- A call. -/
abbrev KeyTask (α : Type) := Proc Fs Unit KeyOp CallEnd α

/-- An action. -/
def keyAction {α : Type} (op : KeyOp) (f : Fs → Except CryptoError α × Fs) : KeyTask α :=
  .atom op fun _ fs => ((f fs).1.mapError .failed, (f fs).2)

/-- An operation of the disk. -/
def keyDisk {α : Type} (op : KeyOp) (f : Fs → Except IoError α × Fs) : KeyTask α :=
  keyAction op fun fs => ((f fs).1.mapError fun e => .io e.display, (f fs).2)

namespace IdentityStore

variable (store : IdentityStore)

/-- The default storage directory for keys. -/
def defaultStorageDir : FilePath := "keys".toList :: ".landropic".toList :: store.home

/-- The file of the key. -/
def storagePath : FilePath := "device_identity.key".toList :: store.defaultStorageDir

/-- The file that is written first. -/
def tempPath : FilePath := "device_identity.tmp".toList :: store.defaultStorageDir

/-- The device identifier of an identity. -/
def deviceId (identity : DeviceIdentity) : DeviceId := store.verifyingKey identity.signingKey

/-- What is stored of an identity. -/
def stored (identity : DeviceIdentity) : StoredIdentity :=
  ⟨1, identity.deviceName, identity.signingKey⟩

/-- The bytes that are written for an identity. -/
def bytesOf (identity : DeviceIdentity) : Bytes := store.serialize (stored identity)

/-- The identity that is read from the bytes of a file. -/
def parse (data : Bytes) : Except CryptoError DeviceIdentity :=
  match store.deserialize data with
  | .error e => .error (.serialization e)
  | .ok stored =>
    if stored.version ≠ 1 then
      .error (.invalidKeyFormat s!"Unsupported key version: {stored.version}")
    else .ok ⟨stored.privateKey, stored.deviceName⟩

/-- The text of a path. -/
def displayPath (p : FilePath) : String :=
  String.ofList (p.reverse.flatMap fun name => '/' :: name)

/-- Load identity from disk. -/
def load : KeyTask DeviceIdentity := do
  let there ← keyAction .pathExists fun fs => (.ok (fs.pathExists store.storagePath), fs)
  if there then do
    let data ← keyDisk .read fun fs => (fs.readFile store.storagePath, fs)
    .ofExcept ((store.parse data).mapError .failed)
  else .fail (.failed (.keyNotFound (displayPath store.storagePath)))

/-- Write bytes to the temporary file, from a position on. -/
def writeBytes (ino : ℕ) : ℕ → Bytes → KeyTask Unit
  | _, [] => pure ()
  | pos, b :: rest => do
    keyDisk (.write ino) fun fs => (.ok (), fs.write ino pos [b])
    writeBytes ino (pos + 1) rest

/-- The temporary file must be there. -/
def requireTemp (op : KeyOp) : KeyTask Unit :=
  keyDisk op fun fs => (if fs.pathExists store.tempPath then .ok () else .error .notFound, fs)

/-- Save identity to disk: write to a temporary file first, then atomically rename. -/
def save (identity : DeviceIdentity) : KeyTask Unit := do
  keyDisk .createDirAll (Fs.createDirAll store.defaultStorageDir)
  let data := store.bytesOf identity
  let ino ← keyDisk .create (Fs.create store.tempPath)
  writeBytes ino 0 data
  store.requireTemp .metadata
  store.requireTemp .setPermissions
  keyDisk (.rename data) (Fs.rename store.tempPath store.storagePath)
  keyDisk .done fun fs => (.ok (), fs)

/-- Loads an existing identity, or generates a new one if none exists. The key that is generated
comes from outside. -/
def loadOrGenerate (generated : DeviceIdentity) : KeyTask DeviceIdentity := do
  match ← store.load.attempt with
  | .ok identity => pure identity
  | .error (.failed (.keyNotFound _)) => do
    store.save generated
    pure generated
  | .error e => .fail e

/-! ## One identity -/

/-- Calls on the same files. -/
abbrev CallPool (τ : Type) := Pool τ Fs Unit KeyOp CallEnd DeviceIdentity

section Runs

variable {τ : Type} [DecidableEq τ]

/-- A call takes its next action or crashes. -/
def next (P : CallPool τ) : τ × Fate → Option (CallPool τ)
  | (t, .goesOn) => P.advance t ()
  | (t, .crashes) =>
    if (P.task t).head.isSome then some (P.withTask t (.ret (.error .crashed))) else none

/-- Some calls, about to begin, with the identities they would generate. -/
def calls (generated : τ → DeviceIdentity) (fs : Fs) :
    CallPool τ := ⟨fs, fun t => store.loadOrGenerate (generated t)⟩

/-- When a call renames its file, there is no key yet, the file holds all that was written by the
call, and no other call still writes to it. -/
def Clean (P : CallPool τ) (e : τ × Fate) : Prop :=
  ∀ data ∈ (P.task e.1).head.bind KeyOp.renamed, e.2 = .goesOn →
    P.state.pathExists store.storagePath = false ∧
      P.state.content store.tempPath = some data ∧
      ∀ u, u ≠ e.1 → ∀ ino ∈ (P.task u).head.bind KeyOp.written,
        P.state.nodes.lookup store.tempPath ≠ some (.file ino)

instance [Fintype τ] (P : CallPool τ) (e : τ × Fate) : Decidable (store.Clean P e) :=
  inferInstanceAs (Decidable (∀ data ∈ (P.task e.1).head.bind KeyOp.renamed, _))

/-- All calls that have returned have the same identity. -/
def OneIdentity (P : CallPool τ) : Prop :=
  ∀ t u a b, P.task t = .ret (.ok a) → P.task u = .ret (.ok b) → store.deviceId a = store.deviceId b

/-- A call that begins after another one has returned an identity returns this identity, unless it
crashes. -/
def Remains (generated : τ → DeviceIdentity) (P P' : CallPool τ) :
    Prop :=
  ∀ t u a, P.task u = .ret (.ok a) → P.task t = store.loadOrGenerate (generated t) →
    ∀ r, P'.task t = .ret r →
      r = .error .crashed ∨ ∃ b, r = .ok b ∧ store.deviceId b = store.deviceId a

end Runs

/-! ## What a call achieves among others -/

section Outline

/-- The key file is there and holds this identity. -/
def Known (id : DeviceId) (fs : Fs) : Prop :=
  ∃ data identity, fs.content store.storagePath = some data ∧
    store.parse data = .ok identity ∧ store.deviceId identity = id

/-- A key that is there stays as it is. -/
def Stable (fs fs' : Fs) : Prop :=
  fs.pathExists store.storagePath = true →
    fs'.pathExists store.storagePath = true ∧
      fs'.content store.storagePath = fs.content store.storagePath

/-- The key file is a file it was not before. -/
def Becomes (ino : ℕ) (fs fs' : Fs) : Prop :=
  fs'.nodes.lookup store.storagePath = some (.file ino) ∧
    fs.nodes.lookup store.storagePath ≠ some (.file ino)

/-- What a call assumes of others and what it guarantees: a key that is there stays as it is, and a
file that a call writes to does not become the key. -/
def callSpec : Proc.Spec Fs Unit KeyOp where
  env l fs fs' := store.Stable fs fs' ∧ ∀ ino, l = some (.write ino) → ¬ store.Becomes ino fs fs'
  env_refl l fs := ⟨fun h => ⟨h, rfl⟩, fun ino _ h => h.2 h.1⟩
  env_trans := by
    rintro l fs fs' fs'' ⟨h, hwrite⟩ ⟨h', hwrite'⟩
    refine ⟨fun hthere => ?_, fun ino hl hbecomes => ?_⟩
    · obtain ⟨hthere', hcontent⟩ := h hthere
      obtain ⟨hthere'', hcontent'⟩ := h' hthere'
      exact ⟨hthere'', hcontent'.trans hcontent⟩
    · by_cases hmiddle : fs'.nodes.lookup store.storagePath = some (.file ino)
      · exact hwrite ino hl ⟨hmiddle, hbecomes.2⟩
      · exact hwrite' ino hl ⟨hbecomes.1, hmiddle⟩
  input l fs _ := ∀ data, l = .rename data →
    fs.pathExists store.storagePath = false ∧ fs.content store.tempPath = some data
  guar l fs fs' := store.Stable fs fs' ∧ ∀ ino, store.Becomes ino fs fs' →
    (∃ data, l = .rename data) ∧ fs.nodes.lookup store.tempPath = some (.file ino)
  progress := False

/-- A call does not write to the key file. -/
def Elsewhere (l : KeyOp) (fs : Fs) : Prop :=
  ∀ ino, l = .write ino → fs.nodes.lookup store.storagePath ≠ some (.file ino)

variable {store} {fs fs' : Fs} {id : DeviceId} {identity : DeviceIdentity}

lemma tempPath_ne_storagePath : store.tempPath ≠ store.storagePath := by
  intro h
  exact absurd (List.cons.inj h).1 (by decide)

lemma not_storagePath_suffix : ¬ store.storagePath <:+ store.defaultStorageDir := by
  intro h
  have hlength := h.length_le
  rw [storagePath, List.length_cons] at hlength
  omega

lemma parse_bytesOf : store.parse (store.bytesOf identity) = .ok identity := by
  rw [parse, bytesOf, store.deserialize_serialize]
  rfl

lemma pathExists_of_content {data : Bytes} {p : FilePath} (h : fs.content p = some data) :
    fs.pathExists p = true := by
  obtain ⟨i, hi, -⟩ := Fs.content_eq_some.mp h
  exact Fs.pathExists_of_lookup hi

lemma Known.stable (h : store.Known id fs) (hstable : store.Stable fs fs') :
    store.Known id fs' := by
  obtain ⟨data, identity, hcontent, hrest⟩ := h
  exact ⟨data, identity, (hstable (pathExists_of_content hcontent)).2.trans hcontent, hrest⟩

lemma Known.unique {id' : DeviceId} (h : store.Known id fs) (h' : store.Known id' fs) :
    id = id' := by
  obtain ⟨data, identity, hcontent, hparse, rfl⟩ := h
  obtain ⟨data', identity', hcontent', hparse', rfl⟩ := h'
  obtain rfl := Option.some.inj (hcontent.symm.trans hcontent')
  rw [Except.ok.inj (hparse.symm.trans hparse')]

lemma stable_of_eq (hlookup : fs'.nodes.lookup store.storagePath =
      fs.nodes.lookup store.storagePath)
    (hcontent : fs'.content store.storagePath = fs.content store.storagePath) :
    store.Stable fs fs' ∧ ∀ ino, ¬ store.Becomes ino fs fs' := by
  refine ⟨fun hthere => ⟨Fs.pathExists_of_lookup_eq hthere hlookup, hcontent⟩, ?_⟩
  rintro ino ⟨hafter, hbefore⟩
  exact hbefore (hlookup.symm.trans hafter)

lemma quiet_refl (fs : Fs) :
    store.Stable fs fs ∧ ∀ ino, ¬ store.Becomes ino fs fs := stable_of_eq rfl rfl

lemma guar_refl (op : KeyOp) (fs : Fs) : store.callSpec.guar op fs fs :=
  ⟨(quiet_refl fs).1, fun ino h => absurd h ((quiet_refl fs).2 ino)⟩

/-- What is returned is the identity in the key file. -/
def Returned (store : IdentityStore) (r : Except CallEnd DeviceIdentity) (fs : Fs) : Prop :=
  ∀ a, r = .ok a → store.Known (store.deviceId a) fs

lemma returned_error (e : CallEnd) (fs : Fs) : store.Returned (.error e) fs := nofun

variable {α β : Type} {op : KeyOp} {f : Fs → Except CryptoError α × Fs} {k : α → KeyTask β}
  {Q : Except CallEnd β → Fs → Prop}

/-- An action, followed by others. -/
lemma outline_keyAction_bind (herror : ∀ e fs, Q (.error e) fs)
    (h : ∀ fs', store.callSpec.env (some op) fs fs' → store.Elsewhere op fs' ∧
      (store.callSpec.input op fs' () → store.callSpec.guar op fs' (f fs').2 ∧
        ∀ a, (f fs').1 = .ok a → Proc.Outline store.callSpec store.Elsewhere Q (k a) (f fs').2)) :
    Proc.Outline store.callSpec store.Elsewhere Q (keyAction op f >>= k) fs := by
  refine Proc.Outline.bind (Proc.Outline.atom fun fs' henv => ?_)
  obtain ⟨helsewhere, hgo⟩ := h fs' henv
  refine ⟨helsewhere, fun _ hinput => ?_⟩
  obtain ⟨hguar, hok⟩ := hgo hinput
  refine ⟨hguar, ?_⟩
  dsimp only
  cases hresult : (f fs').1 with
  | error e => exact herror _ _
  | ok a => exact hok a hresult

/-- An action that leaves the key file, followed by others. -/
lemma outline_quiet_bind (herror : ∀ e fs, Q (.error e) fs) (hop : ∀ ino, op ≠ .write ino)
    (hquiet : ∀ fs, store.Stable fs (f fs).2 ∧ ∀ ino, ¬ store.Becomes ino fs (f fs).2)
    (hk : ∀ fs' a, store.callSpec.env (some op) fs fs' → (f fs').1 = .ok a →
      Proc.Outline store.callSpec store.Elsewhere Q (k a) (f fs').2) :
    Proc.Outline store.callSpec store.Elsewhere Q (keyAction op f >>= k) fs := by
  refine outline_keyAction_bind herror fun fs' henv =>
    ⟨fun ino h => absurd h (hop ino), fun _ => ?_⟩
  obtain ⟨hstable, hnone⟩ := hquiet fs'
  exact ⟨⟨hstable, fun ino h => absurd h (hnone ino)⟩, fun a ha => hk fs' a henv ha⟩


lemma quiet_write {ino pos : ℕ} {bytes : Bytes}
    (h : fs.nodes.lookup store.storagePath ≠ some (.file ino)) :
    store.Stable fs (fs.write ino pos bytes) ∧
      ∀ ino', ¬ store.Becomes ino' fs (fs.write ino pos bytes) := by
  refine stable_of_eq rfl ?_
  unfold Fs.content
  rw [Fs.write, Fs.nodes_setData]
  split
  · next i hi =>
    have hne : i ≠ ino := by
      rintro rfl
      exact h hi
    simp [Fs.setData, hne]
  · rfl

lemma outline_writeBytes {Q : Except CallEnd Unit → Fs → Prop} (hQ : ∀ r fs, Q r fs) {ino : ℕ}
    {data : Bytes} {pos : ℕ} (h : fs.nodes.lookup store.storagePath ≠ some (.file ino)) :
    Proc.Outline store.callSpec store.Elsewhere Q (writeBytes ino pos data) fs := by
  induction data generalizing pos fs with
  | nil => exact hQ _ fs
  | cons b rest ih =>
    rw [writeBytes, keyDisk]
    refine outline_keyAction_bind (fun e => hQ (.error e)) fun fs' henv => ?_
    have hother : fs'.nodes.lookup store.storagePath ≠ some (.file ino) := fun hbecomes =>
      henv.2 ino rfl ⟨hbecomes, h⟩
    refine ⟨fun ino' hino' => ?_, fun _ => ⟨?_, fun _ _ => ih hother⟩⟩
    · obtain rfl := KeyOp.write.inj hino'
      exact hother
    · have hquiet : store.Stable fs' (fs'.write ino pos [b]) ∧
          ∀ ino', ¬ store.Becomes ino' fs' (fs'.write ino pos [b]) := quiet_write hother
      exact ⟨hquiet.1, fun ino' hbecomes => absurd hbecomes (hquiet.2 ino')⟩

lemma quiet_createDirAll (fs : Fs) :
    store.Stable fs (Fs.createDirAll store.defaultStorageDir fs).2 ∧
      ∀ ino, ¬ store.Becomes ino fs (Fs.createDirAll store.defaultStorageDir fs).2 := by
  have hdirs := Fs.addsDirs_createDirAll store.defaultStorageDir fs
  refine stable_of_eq ?_ (Fs.content_addsDirs hdirs _)
  exact (hdirs.2.2 store.storagePath).resolve_right fun h => not_storagePath_suffix h.2.2

lemma quiet_create (fs : Fs) :
    store.Stable fs (Fs.create store.tempPath fs).2 ∧
      ∀ ino, ¬ store.Becomes ino fs (Fs.create store.tempPath fs).2 := by
  obtain ⟨r, fs', h⟩ : ∃ r fs', Fs.create store.tempPath fs = (r, fs') := ⟨_, _, rfl⟩
  rw [h]
  cases r with
  | error e =>
    rw [Fs.create_error h]
    exact quiet_refl fs
  | ok i =>
    obtain ⟨-, -, hnodes, -⟩ := Fs.create_ok h
    refine stable_of_eq (hnodes _ tempPath_ne_storagePath.symm) ?_
    rw [Fs.content_create h, if_neg tempPath_ne_storagePath.symm]

lemma guar_rename {data : Bytes} (hnone : fs.pathExists store.storagePath = false) :
    store.callSpec.guar (.rename data) fs
      (Fs.rename store.tempPath store.storagePath fs).2 := by
  refine ⟨fun hthere => by simp [hnone] at hthere, fun ino hbecomes => ⟨⟨data, rfl⟩, ?_⟩⟩
  obtain ⟨r, fs', h⟩ : ∃ r fs', Fs.rename store.tempPath store.storagePath fs = (r, fs') :=
    ⟨_, _, rfl⟩
  rw [h] at hbecomes
  cases r with
  | error e =>
    obtain rfl : fs' = fs := Fs.rename_error h
    exact absurd hbecomes.1 hbecomes.2
  | ok u =>
    obtain ⟨i, htemp, hkey, -⟩ := Fs.rename_ok h
    obtain rfl := Node.file.inj (Option.some.inj (hkey.symm.trans hbecomes.1))
    exact htemp

lemma mapError_eq_ok {ε ε' : Type} {g : ε → ε'} {r : Except ε α} {a : α}
    (h : r.mapError g = .ok a) : r = .ok a := by
  cases r with
  | error e => cases h
  | ok b => simpa [Except.mapError] using h

/-- **Saving an identity** among other calls: it is then the one in the key file. -/
theorem outline_save (identity : DeviceIdentity) (fs : Fs) :
    Proc.Outline store.callSpec store.Elsewhere
      (fun r fs => ∀ u, r = .ok u → store.Known (store.deviceId identity) fs)
      (store.save identity) fs := by
  have herror : ∀ (e : CallEnd) (fs : Fs), ∀ u : Unit, (.error e : Except CallEnd Unit) = .ok u →
      store.Known (store.deviceId identity) fs := nofun
  rw [save]
  refine outline_quiet_bind herror nofun quiet_createDirAll fun fs₁ _ _ _ => ?_
  refine outline_quiet_bind herror nofun quiet_create fun fs₂ ino _ hcreated => ?_
  have hnew : (Fs.create store.tempPath fs₂).2.nodes.lookup store.storagePath ≠
      some (.file ino) := by
    obtain ⟨htemp, -⟩ := Fs.create_ok (Prod.ext (mapError_eq_ok hcreated) rfl)
    exact fun hkey => tempPath_ne_storagePath (Fs.file_inj _ htemp hkey)
  refine Proc.Outline.bind (outline_writeBytes ?_ hnew)
  rintro (e | u) fs₃
  · exact herror e fs₃
  refine outline_quiet_bind herror nofun quiet_refl fun fs₄ _ _ _ => ?_
  refine outline_quiet_bind herror nofun quiet_refl fun fs₅ _ _ _ => ?_
  refine outline_keyAction_bind herror fun fs₆ _ => ⟨nofun, fun hinput => ?_⟩
  obtain ⟨hnone, htemp⟩ := hinput _ rfl
  refine ⟨guar_rename hnone, fun u hrenamed => ?_⟩
  have hknown : store.Known (store.deviceId identity)
      (Fs.rename store.tempPath store.storagePath fs₆).2 := by
    refine ⟨store.bytesOf identity, identity, ?_, parse_bytesOf, rfl⟩
    have hrename := Fs.content_rename (Prod.ext (mapError_eq_ok hrenamed) rfl)
      tempPath_ne_storagePath store.storagePath
    rwa [if_pos rfl, htemp] at hrename
  exact Proc.Outline.atom fun fs₇ henv =>
    ⟨nofun, fun _ _ => ⟨guar_refl .done fs₇, fun _ _ => hknown.stable henv.1⟩⟩

/-- Loading an identity among other calls: it is the one in the key file. If the key file holds an
identity, this one is loaded. -/
lemma outline_load (fs : Fs) :
    Proc.Outline store.callSpec store.Elsewhere
      (fun r fs' => store.Returned r fs' ∧ ∀ id, store.Known id fs →
        ∃ b, r = .ok b ∧ store.deviceId b = id)
      store.load fs := by
  rw [load]
  refine Proc.Outline.bind (Proc.Outline.atom fun fs₁ henv => ⟨nofun, fun _ _ => ?_⟩)
  refine ⟨guar_refl _ fs₁, ?_⟩
  dsimp only [Except.mapError]
  cases hthere : fs₁.pathExists store.storagePath with
  | false =>
    refine ⟨returned_error _ _, fun id hknown => ?_⟩
    obtain ⟨data, -, hcontent, -⟩ := hknown.stable henv.1
    rw [pathExists_of_content hcontent] at hthere
    cases hthere
  | true =>
    refine Proc.Outline.bind (Proc.Outline.atom fun fs₂ henv' => ⟨nofun, fun _ _ => ?_⟩)
    refine ⟨guar_refl _ fs₂, ?_⟩
    have hstill : ∀ {id}, store.Known id fs → store.Known id fs₂ := fun hknown =>
      (hknown.stable henv.1).stable henv'.1
    dsimp only
    cases hread : fs₂.readFile store.storagePath with
    | error e =>
      refine ⟨returned_error _ _, fun id hknown => ?_⟩
      obtain ⟨data, -, hcontent, -⟩ := hstill hknown
      rw [Fs.readFile_eq_ok.mpr hcontent] at hread
      cases hread
    | ok data =>
      have hcontent := Fs.readFile_eq_ok.mp hread
      dsimp only [Except.mapError]
      cases hparse : store.parse data with
      | error e =>
        refine ⟨returned_error _ _, fun id hknown => ?_⟩
        obtain ⟨data', identity, hcontent', hparse', -⟩ := hstill hknown
        obtain rfl := Option.some.inj (hcontent.symm.trans hcontent')
        cases hparse.symm.trans hparse'
      | ok identity =>
        have hfound : store.Known (store.deviceId identity) fs₂ :=
          ⟨data, identity, hcontent, hparse, rfl⟩
        refine ⟨?_, fun id hknown => ⟨identity, rfl, hfound.unique (hstill hknown)⟩⟩
        rintro a ⟨⟩
        exact hfound

/-- **What a call achieves among others**: it returns the identity in the key file. If the key file
holds an identity when it begins, it returns this one. -/
theorem outline_loadOrGenerate (generated : DeviceIdentity) (fs : Fs) :
    Proc.Outline store.callSpec store.Elsewhere
      (fun r fs' => store.Returned r fs' ∧ ∀ id, store.Known id fs →
        ∃ b, r = .ok b ∧ store.deviceId b = id)
      (store.loadOrGenerate generated) fs := by
  rw [loadOrGenerate]
  refine Proc.Outline.bind (Proc.Outline.attempt ((outline_load fs).mono ?_))
  rintro (e | identity) fs₁ ⟨hreturned, hknown⟩
  · have hnone : ∀ id, ¬ store.Known id fs := by
      intro id hid
      obtain ⟨b, h, -⟩ := hknown id hid
      cases h
    dsimp only
    split
    · next heq => cases heq
    · refine Proc.Outline.bind ((outline_save generated fs₁).mono ?_)
      rintro (e' | u) fs₂ hsaved
      · exact ⟨returned_error _ _, fun id hid => absurd hid (hnone id)⟩
      · refine ⟨?_, fun id hid => absurd hid (hnone id)⟩
        rintro a ⟨⟩
        exact hsaved u rfl
    · exact ⟨returned_error _ _, fun id hid => absurd hid (hnone id)⟩
  · exact ⟨hreturned, hknown⟩

end Outline

/-! ## In which runs a device has one identity -/

section Runs

variable {store : IdentityStore} {τ : Type} [DecidableEq τ] {generated : τ → DeviceIdentity}
  {fs : Fs} {P P' : CallPool τ} {e : τ × Fate}

/-- Each call keeps what it achieves in a clean step, if a crash does no harm to that. -/
lemma outline_next {Q : τ → Except CallEnd DeviceIdentity → Fs → Prop}
    (hstable : ∀ u r fs fs', store.Stable fs fs' → Q u r fs → Q u r fs')
    (hcrashed : ∀ u fs, Q u (.error .crashed) fs)
    (h : ∀ u, Proc.Outline store.callSpec store.Elsewhere (Q u) (P.task u) P.state)
    (hclean : store.Clean P e) (hnext : next P e = some P') :
    ∀ u, Proc.Outline store.callSpec store.Elsewhere (Q u) (P'.task u) P'.state := by
  obtain ⟨t, fate⟩ := e
  cases fate with
  | crashes =>
    obtain ⟨-, hP⟩ := Option.ite_none_right_eq_some.mp hnext
    obtain rfl := Option.some.inj hP
    exact Pool.forall_withTask (J := fun u p =>
      Proc.Outline store.callSpec store.Elsewhere (Q u) p P.state) h (hcrashed t P.state)
  | goesOn =>
    refine Pool.outline_step (S := fun _ => store.callSpec) (R := fun _ => store.Elsewhere) h
      (Pool.step_of_advance hnext) ?_ ?_ fun u r fs fs' henv => hstable u r fs fs' henv.1
    · rintro l hl data rfl
      obtain ⟨hnone, htemp, -⟩ := hclean data (by rw [hl]; rfl) rfl
      exact ⟨hnone, htemp⟩
    · rintro u hu l hl ⟨hkeep, hbecomes⟩
      refine ⟨hkeep, fun ino hhead hb => ?_⟩
      obtain ⟨⟨data, rfl⟩, htemp⟩ := hbecomes ino hb
      exact (hclean data (by rw [hl]; rfl) rfl).2.2 u hu ino (by rw [hhead]; rfl) htemp

/-- **A device has one identity** in every run in which the renames are clean: all calls that have
returned have the same identity, and every later call returns it again.

**Proof sketch.** A key that is there is not changed any more: no call renames its file over it, and
none writes to a file that has become the key. The first rename makes a whole file the key. -/
theorem oneIdentity_of_run (store : IdentityStore) (generated : τ → DeviceIdentity) (fs : Fs)
    (hrun : Runs.Run next store.Clean (store.calls generated fs) P)
    (hrun' : Runs.Run next store.Clean P P') :
    store.OneIdentity P ∧ store.Remains generated P P' := by
  have hreturned : ∀ u, Proc.Outline store.callSpec store.Elsewhere store.Returned (P.task u)
      P.state := by
    refine Runs.Run.invariant (I := fun P => ∀ u, Proc.Outline store.callSpec store.Elsewhere
      store.Returned (P.task u) P.state) hrun ?_ fun _ h hclean hnext => ?_
    · exact fun u => (outline_loadOrGenerate (generated u) fs).mono fun r fs' h => h.1
    · exact outline_next (fun u r fs fs' hstable hr a ha => (hr a ha).stable hstable)
        (fun u fs => returned_error _ fs) h hclean hnext
  have hknown : ∀ {u a}, P.task u = .ret (.ok a) → store.Known (store.deviceId a) P.state := by
    intro u a hu
    have h := hreturned u
    rw [hu] at h
    exact h a rfl
  refine ⟨fun t u a b ht hu => (hknown ht).unique (hknown hu), ?_⟩
  intro t u a hu ht r hr
  -- from here on, what the call will return is known
  let Q : τ → Except CallEnd DeviceIdentity → Fs → Prop := fun v r _ =>
    v = t → r = .error .crashed ∨ ∃ b, r = .ok b ∧ store.deviceId b = store.deviceId a
  have hlater : ∀ v, Proc.Outline store.callSpec store.Elsewhere (Q v) (P'.task v) P'.state := by
    refine Runs.Run.invariant (I := fun P => ∀ v, Proc.Outline store.callSpec store.Elsewhere
      (Q v) (P.task v) P.state) hrun' ?_ fun _ h hclean hnext => ?_
    · intro v
      by_cases hv : v = t
      · subst hv
        rw [ht]
        exact (outline_loadOrGenerate (generated v) P.state).mono fun r fs' h _ =>
          .inr (h.2 _ (hknown hu))
      · exact (hreturned v).mono fun r fs' _ hvt => absurd hvt hv
    · exact outline_next (fun u r fs fs' _ hr => hr) (fun u fs _ => .inl rfl) h hclean hnext
  have h := hlater t
  rw [hr] at h
  exact h rfl

end Runs

/-! ## Two first starts -/

lemma length_equalBytes (b : UInt8) : (List.replicate 32 b).length = 32 := List.length_replicate

/-- The private key of 32 equal bytes. -/
def sampleKey (b : UInt8) : PrivateKey := ⟨List.replicate 32 b, length_equalBytes b⟩

/-- The public key of the private key of 32 zeros. -/
def publicOfZeros : Bytes :=
  [59, 106, 39, 188, 206, 182, 164, 45, 98, 163, 168, 208, 42, 111, 13, 115, 101, 50, 21, 119, 29,
    226, 67, 166, 58, 192, 72, 161, 139, 89, 218, 41]

/-- The public key of the private key of 32 ones. -/
def publicOfOnes : Bytes :=
  [138, 136, 227, 221, 116, 9, 241, 149, 253, 82, 219, 45, 60, 186, 93, 114, 202, 103, 9, 191, 29,
    148, 18, 27, 243, 116, 136, 1, 180, 15, 111, 92]

lemma length_publicOfZeros : publicOfZeros.length = 32 := rfl

lemma length_publicOfOnes : publicOfOnes.length = 32 := rfl

/-- The public keys of two private keys. -/
def sampleVerifyingKey (key : PrivateKey) : DeviceId :=
  if key = sampleKey 0 then ⟨publicOfZeros, length_publicOfZeros⟩
  else ⟨publicOfOnes, length_publicOfOnes⟩

/-- The bytes of an identity whose name is not too long: its version, the length of its name in
eight bytes, its name and its key. -/
def sampleSerialize (stored : StoredIdentity) : Bytes :=
  let name := Text.utf8 stored.deviceName
  if name.length < 2 ^ 64 then
    stored.version :: (leBytes 8 name.length ++ (name ++ stored.privateKey.toBytes))
  else stored.version :: (leBytes 8 0 ++ (stored.privateKey.toBytes ++ name))

/-- A key of 32 bytes. -/
def readKey (bytes : Bytes) : Option PrivateKey :=
  if h : bytes.length = 32 then some ⟨bytes, h⟩ else none

/-- A name and a key. -/
def readFields (version : UInt8) (name key : Bytes) : Except String StoredIdentity :=
  match Text.fromUtf8 name, readKey key with
  | some deviceName, some privateKey => .ok ⟨version, deviceName, privateKey⟩
  | _, _ => .error "io error: unexpected end of file"

/-- The identity of such bytes. -/
def sampleDeserialize : Bytes → Except String StoredIdentity
  | [] => .error "io error: unexpected end of file"
  | version :: rest =>
    let n := leNat (rest.take 8)
    let body := rest.drop 8
    if body.length = n + 32 then readFields version (body.take n) (body.drop n)
    else readFields version (body.drop 32) (body.take 32)

lemma readFields_utf8 (stored : StoredIdentity) : readFields stored.version
    (Text.utf8 stored.deviceName) stored.privateKey.toBytes = .ok stored := by
  rw [readFields, Text.fromUtf8_utf8, readKey, dif_pos stored.privateKey.length_toBytes]

lemma sampleDeserialize_sampleSerialize (stored : StoredIdentity) :
    sampleDeserialize (sampleSerialize stored) = .ok stored := by
  have hkey := stored.privateKey.length_toBytes
  unfold sampleSerialize
  dsimp only
  split
  · next hshort =>
    rw [sampleDeserialize, List.take_left' (length_leBytes 8 _),
      List.drop_left' (length_leBytes 8 _), leNat_leBytes hshort]
    rw [if_pos (by rw [List.length_append, hkey]), List.take_left, List.drop_left]
    exact readFields_utf8 stored
  · next hlong =>
    rw [sampleDeserialize, List.take_left' (length_leBytes 8 _),
      List.drop_left' (length_leBytes 8 _), leNat_leBytes (by decide)]
    rw [if_neg (by rw [List.length_append, hkey]; omega), List.take_left' hkey,
      List.drop_left' hkey]
    exact readFields_utf8 stored

/-- A store in the root directory. -/
def sample : IdentityStore where
  home := []
  serialize := sampleSerialize
  deserialize := sampleDeserialize
  deserialize_serialize := sampleDeserialize_sampleSerialize
  verifyingKey := sampleVerifyingKey

/-- The identities that two calls would generate. -/
def sampleIdentity (t : Bool) : DeviceIdentity := ⟨sampleKey (if t then 1 else 0), ['a']⟩

/-- All steps of a call that generates an identity. -/
def wholeCall (t : Bool) : List (Bool × Fate) := List.replicate 49 (t, .goesOn)

/-- What a call has returned. -/
def returned (P : CallPool Bool) (t : Bool) : Option (Except CallEnd DeviceIdentity) :=
  match P.task t with
  | .ret r => some r
  | _ => none

lemma task_of_returned {P : CallPool Bool} {t : Bool} {r : Except CallEnd DeviceIdentity}
    (h : returned P t = some r) : P.task t = .ret r := by
  unfold returned at h
  split at h
  · next heq => rw [heq, Option.some.inj h]
  · cases h

/-- A first start generates an identity, and the next one loads it. -/
theorem oneIdentity_of_run_sample : ∃ P P',
    Runs.exec next sample.Clean (wholeCall false) (sample.calls sampleIdentity .empty) = some P ∧
      Runs.exec next sample.Clean (List.replicate 2 (true, .goesOn)) P = some P' ∧
      (sample.OneIdentity P ∧ sample.Remains sampleIdentity P P') ∧
      P.task false = .ret (.ok (sampleIdentity false)) ∧
      P'.task true = .ret (.ok (sampleIdentity false)) := by
  have hexec : ((Runs.exec next sample.Clean (wholeCall false)
      (sample.calls sampleIdentity .empty)).bind fun P =>
        (Runs.exec next sample.Clean (List.replicate 2 (true, .goesOn)) P).map fun P' =>
          (returned P false, returned P' true)) =
      some (some (.ok (sampleIdentity false)), some (.ok (sampleIdentity false))) := by
    decide +kernel
  obtain ⟨P, hP, hrest⟩ := Option.bind_eq_some_iff.mp hexec
  obtain ⟨P', hP', hend⟩ := Option.map_eq_some_iff.mp hrest
  obtain ⟨hfirst, hsecond⟩ := Prod.mk.inj hend
  exact ⟨P, P', hP, hP', oneIdentity_of_run sample sampleIdentity .empty (Runs.run_of_exec hP)
    (Runs.run_of_exec hP'), task_of_returned hfirst, task_of_returned hsecond⟩

/-- **Two first starts** both find no key. One saves its identity and returns it, and then the other
one does. -/
theorem not_oneIdentity_twoStarts : ¬ ∀ (store : IdentityStore) (generated : Bool → DeviceIdentity)
    (fs : Fs) (P P' : CallPool Bool),
    Runs.Run next (fun _ _ => True) (store.calls generated fs) P →
    Runs.Run next (fun _ _ => True) P P' →
    store.OneIdentity P ∧ store.Remains generated P P' := by
  intro h
  have hexec : (Runs.exec next (fun _ _ => True)
      ((true, .goesOn) :: wholeCall false ++ List.replicate 48 (true, .goesOn))
      (sample.calls sampleIdentity .empty)).map (fun P => (returned P false, returned P true)) =
      some (some (.ok (sampleIdentity false)), some (.ok (sampleIdentity true))) := by
    decide +kernel
  obtain ⟨P, hP, hend⟩ := Option.map_eq_some_iff.mp hexec
  obtain ⟨hfirst, hsecond⟩ := Prod.mk.inj hend
  have hone := (h sample sampleIdentity .empty P P (Runs.run_of_exec hP) .refl).1 false true _ _
    (task_of_returned hfirst) (task_of_returned hsecond)
  exact absurd hone (by decide +kernel)

end IdentityStore

end Landropic
