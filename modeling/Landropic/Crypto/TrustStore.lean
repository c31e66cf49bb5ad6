import Landropic.Crypto.Certificates
import Landropic.Foundations.FileCodec
import Landropic.Foundations.FileNames
import Landropic.Foundations.Runs

set_option autoImplicit false

/-!
# Trusted devices over restarts

The devices that are trusted are in a list. The certificates that are pinned for some of them are in
a map, and a file for each is written when they are saved. A removal takes a device out of the list,
but neither out of the map nor out of the files.

## Main definitions

* `CertificateVerifier.addTrustedDevice`, `addTrustedDeviceWithCert`, `removeTrustedDevice` — the
  changes.
* `CertificateVerifier.saveTrustedCertificates`, `loadTrustedCertificates` — what is written and
  read.
* `TrustRun` — a verifier in a run of changes, saves and restarts.
* `TrustRun.Sound` — what was removed and saved is not trusted, and what was added with a
  certificate and saved is pinned to it.
* `TrustRun.Meets` — the steps that bring back no device.

## Main results

* `TrustRun.sound_of_run` — runs of such steps are sound, and no other step is.

## Design

A directory is a map from the names of its files to their contents, if it exists. PEM belongs to the
`pem` crate and is a parameter. All input and output succeeds.
-/

namespace Landropic

/-- A block of PEM. -/
structure Pem where
  tag : Text
  contents : Bytes
  deriving DecidableEq

/-- How PEM is written and parsed. -/
structure PemCodec where
  encode : Pem → Text
  parse : Text → Option Pem
  /-- What is written can be parsed. -/
  parse_encode : ∀ pem, parse (encode pem) = some pem

/-- The tag of certificates. -/
def CERTIFICATE : Text := "CERTIFICATE".toList

namespace CertificateVerifier

variable (v : CertificateVerifier) (id : DeviceId) (cert : CertificateDer)

/-- Add a device to the trust list. -/
def addTrustedDevice : CertificateVerifier :=
  if id ∈ v.trustedDeviceIds then v
  else { v with trustedDeviceIds := v.trustedDeviceIds ++ [id] }

/-- Remove a device from the trust list: its first entry is taken out. -/
def removeTrustedDevice : CertificateVerifier × Bool :=
  if id ∈ v.trustedDeviceIds then
    ({ v with trustedDeviceIds := v.trustedDeviceIds.erase id }, true)
  else (v, false)

/-- Add a trusted device with its certificate. -/
def addTrustedDeviceWithCert : CertificateVerifier :=
  { v.addTrustedDevice id with trustedCertificates := v.trustedCertificates.insert id cert }

/-- The file of the certificate of a device. -/
def certFile : Text := id.toHex ++ ".pem".toList

/-- The device whose certificate is in a file of this name. -/
def deviceOfFile (name : Text) : Option DeviceId :=
  if FileName.extension '.' name = some "pem".toList then
    DeviceId.fromStr (FileName.fileStem '.' name)
  else none

variable (pem : PemCodec)

/-- What is written for a certificate. -/
def certPem : Bytes := Text.utf8 (pem.encode ⟨CERTIFICATE, cert⟩)

/-- Save trusted certificates to disk. -/
def saveTrustedCertificates (order : IterOrder DeviceId) (dir : Option (HashMap Text Bytes)) :
    HashMap Text Bytes :=
  (order.entries v.trustedCertificates).foldl
    (fun files entry => files.insert (certFile entry.1) (certPem entry.2 pem)) (dir.getD ∅)

/-- Load the certificate in a file. -/
def loadCertificateFile (content : Bytes) : Option CertificateDer := do
  let text ← Text.fromUtf8 content
  let block ← pem.parse text
  if block.tag ≠ CERTIFICATE then none else some block.contents

/-- Load a file of the directory: files of other names and of other contents are passed over. -/
def loadFile (v : CertificateVerifier) (file : Text × Bytes) : CertificateVerifier :=
  match deviceOfFile file.1 with
  | some id =>
    match loadCertificateFile pem file.2 with
    | some cert => v.addTrustedDeviceWithCert id cert
    | none => v
  | none => v

/-- Load trusted certificates from disk. -/
def loadTrustedCertificates (order : IterOrder Text) (dir : Option (HashMap Text Bytes)) :
    CertificateVerifier :=
  match dir with
  | none => v
  | some files => (order.entries files).foldl (loadFile pem) v

/-! ## What the changes do -/

variable {v id cert pem} {other : DeviceId}

@[simp] lemma mem_addTrustedDevice :
    other ∈ (v.addTrustedDevice id).trustedDeviceIds ↔
      other = id ∨ other ∈ v.trustedDeviceIds := by
  rw [addTrustedDevice]
  split
  · next hmem =>
    constructor
    · exact .inr
    · rintro (rfl | h)
      · exact hmem
      · exact h
  · simp [or_comm]

@[simp] lemma trustedCertificates_addTrustedDevice :
    (v.addTrustedDevice id).trustedCertificates = v.trustedCertificates := by
  rw [addTrustedDevice]
  split <;> rfl

@[simp] lemma allowUntrusted_addTrustedDevice :
    (v.addTrustedDevice id).allowUntrusted = v.allowUntrusted := by
  rw [addTrustedDevice]
  split <;> rfl

@[simp] lemma trustedCertificates_removeTrustedDevice :
    (v.removeTrustedDevice id).1.trustedCertificates = v.trustedCertificates := by
  rw [removeTrustedDevice]
  split <;> rfl

@[simp] lemma allowUntrusted_removeTrustedDevice :
    (v.removeTrustedDevice id).1.allowUntrusted = v.allowUntrusted := by
  rw [removeTrustedDevice]
  split <;> rfl

lemma mem_removeTrustedDevice (hne : other ≠ id) :
    other ∈ (v.removeTrustedDevice id).1.trustedDeviceIds ↔ other ∈ v.trustedDeviceIds := by
  rw [removeTrustedDevice]
  split
  · exact List.mem_erase_of_ne hne
  · rfl

lemma isTrusted_iff (h : v.allowUntrusted = false) :
    v.isTrusted id = true ↔ id ∈ v.trustedDeviceIds := by
  simp [isTrusted, h]

lemma certFile_injective : Function.Injective certFile :=
  fun _ _ h => DeviceId.toHex_injective (List.append_cancel_right h)

@[simp] lemma deviceOfFile_certFile : deviceOfFile (certFile id) = some id := by
  have hhex : id.toHex ≠ [] := List.ne_nil_of_length_pos (by simp)
  have hext : FileName.extension '.' (certFile id) = some "pem".toList :=
    FileName.extension_eq_some_iff.mpr ⟨id.toHex, hhex, rfl, by decide⟩
  have hstem : FileName.fileStem '.' (certFile id) = id.toHex :=
    FileName.fileStem_append hhex (by decide)
  rw [deviceOfFile, if_pos hext, hstem, DeviceId.fromStr_toHex]

@[simp] lemma loadCertificateFile_certPem :
    loadCertificateFile pem (certPem cert pem) = some cert := by
  simp [loadCertificateFile, certPem, pem.parse_encode]

@[simp] lemma loadFile_certFile :
    loadFile pem v (certFile id, certPem cert pem) = v.addTrustedDeviceWithCert id cert := by
  simp [loadFile]

variable (pem) in
/-- What a directory holds after certificates have been saved. -/
lemma lookup_foldl_save (entries : List (DeviceId × CertificateDer)) (files : HashMap Text Bytes)
    (hnodup : (entries.map Prod.fst).Nodup) :
    (∀ id cert, (id, cert) ∈ entries → (entries.foldl (fun files entry =>
      files.insert (certFile entry.1) (certPem entry.2 pem)) files).lookup (certFile id) =
        some (certPem cert pem)) ∧
      ∀ name, (∀ entry ∈ entries, name ≠ certFile entry.1) → (entries.foldl (fun files entry =>
        files.insert (certFile entry.1) (certPem entry.2 pem)) files).lookup name =
          files.lookup name := by
  induction entries generalizing files with
  | nil => exact ⟨nofun, fun _ _ => rfl⟩
  | cons entry entries ih =>
    obtain ⟨hfirst, hrest⟩ := List.nodup_cons.mp hnodup
    obtain ⟨hmem, hother⟩ := ih (files.insert (certFile entry.1) (certPem entry.2 pem)) hrest
    refine ⟨fun id cert h => ?_, fun name hname => ?_⟩
    · obtain rfl | h := List.mem_cons.mp h
      · rw [List.foldl_cons, hother, Finmap.lookup_insert]
        intro entry hentry heq
        exact hfirst (certFile_injective heq ▸ List.mem_map.mpr ⟨entry, hentry, rfl⟩)
      · exact hmem id cert h
    · rw [List.foldl_cons, hother name fun entry h => hname entry (List.mem_cons_of_mem _ h),
        Finmap.lookup_insert_of_ne _ (hname entry List.mem_cons_self)]

/-- **What is saved**: the certificates that are pinned, over what was there. -/
lemma lookup_saveTrustedCertificates {order : IterOrder DeviceId}
    {dir : Option (HashMap Text Bytes)} {name : Text} {content : Bytes} :
    (v.saveTrustedCertificates pem order dir).lookup name = some content ↔
      (∃ id cert, v.trustedCertificates.lookup id = some cert ∧ name = certFile id ∧
        content = certPem cert pem) ∨
      (∀ id cert, v.trustedCertificates.lookup id = some cert → name ≠ certFile id) ∧
        (dir.getD ∅).lookup name = some content := by
  obtain ⟨hmem, hother⟩ := lookup_foldl_save pem (order.entries v.trustedCertificates)
    (dir.getD ∅) (order.nodup_fst_entries _)
  by_cases hname : ∃ id cert, v.trustedCertificates.lookup id = some cert ∧ name = certFile id
  · obtain ⟨id, cert, hlookup, rfl⟩ := hname
    rw [saveTrustedCertificates, hmem id cert (order.mem_entries.mpr hlookup), Option.some.injEq]
    constructor
    · rintro rfl
      exact .inl ⟨id, cert, hlookup, rfl, rfl⟩
    · rintro (⟨id', cert', hlookup', heq, rfl⟩ | ⟨hno, -⟩)
      · rw [certFile_injective heq, hlookup'] at hlookup
        rw [Option.some.inj hlookup]
      · exact absurd rfl (hno id cert hlookup)
  · have hno : ∀ id cert, v.trustedCertificates.lookup id = some cert → name ≠ certFile id :=
      fun id cert hlookup heq => hname ⟨id, cert, hlookup, heq⟩
    rw [saveTrustedCertificates, hother name fun entry h =>
      hno _ _ (order.mem_entries.mp (show (entry.1, entry.2) ∈ _ from h))]
    exact ⟨fun h => .inr ⟨hno, h⟩, fun h => h.elim
      (fun ⟨id, cert, hlookup, heq, _⟩ => absurd heq (hno id cert hlookup)) And.right⟩

/-- All files are those of certificates. -/
def AllCerts (pem : PemCodec) (files : List (Text × Bytes)) : Prop :=
  ∀ file ∈ files, ∃ id cert, file = (certFile id, certPem cert pem)

section Load

variable {files : List (Text × Bytes)}

lemma AllCerts.of_cons {file : Text × Bytes} (h : AllCerts pem (file :: files)) :
    ∃ id cert, file = (certFile id, certPem cert pem) ∧ AllCerts pem files ∧
      (file :: files).foldl (loadFile pem) v =
        files.foldl (loadFile pem) (v.addTrustedDeviceWithCert id cert) := by
  obtain ⟨id, cert, rfl⟩ := h file List.mem_cons_self
  refine ⟨id, cert, rfl, fun file hfile => h file (List.mem_cons_of_mem _ hfile), ?_⟩
  rw [List.foldl_cons, loadFile_certFile]

lemma allowUntrusted_foldl_loadFile (h : AllCerts pem files) :
    (files.foldl (loadFile pem) v).allowUntrusted = v.allowUntrusted := by
  induction files generalizing v with
  | nil => rfl
  | cons file files ih =>
    obtain ⟨id, cert, -, hrest, hfold⟩ := h.of_cons (v := v)
    rw [hfold, ih hrest]
    exact allowUntrusted_addTrustedDevice

lemma mem_foldl_loadFile (h : AllCerts pem files) :
    id ∈ (files.foldl (loadFile pem) v).trustedDeviceIds ↔
      id ∈ v.trustedDeviceIds ∨ certFile id ∈ files.map Prod.fst := by
  induction files generalizing v with
  | nil => simp
  | cons file files ih =>
    obtain ⟨first, cert, rfl, hrest, hfold⟩ := h.of_cons (v := v)
    have hmem : id ∈ (v.addTrustedDeviceWithCert first cert).trustedDeviceIds ↔
        id = first ∨ id ∈ v.trustedDeviceIds := mem_addTrustedDevice
    rw [hfold, ih hrest, hmem, List.map_cons, List.mem_cons, certFile_injective.eq_iff]
    tauto

lemma lookup_foldl_loadFile_of_notMem (h : AllCerts pem files)
    (hnot : certFile id ∉ files.map Prod.fst) :
    (files.foldl (loadFile pem) v).trustedCertificates.lookup id =
      v.trustedCertificates.lookup id := by
  induction files generalizing v with
  | nil => rfl
  | cons file files ih =>
    obtain ⟨first, cert, rfl, hrest, hfold⟩ := h.of_cons (v := v)
    rw [List.map_cons, List.mem_cons, not_or] at hnot
    rw [hfold, ih hrest hnot.2]
    exact Finmap.lookup_insert_of_ne _ fun heq => hnot.1 (congrArg certFile heq)

lemma lookup_foldl_loadFile (h : AllCerts pem files) (hnodup : (files.map Prod.fst).Nodup)
    (hmem : (certFile id, certPem cert pem) ∈ files) :
    (files.foldl (loadFile pem) v).trustedCertificates.lookup id = some cert := by
  induction files generalizing v with
  | nil => cases hmem
  | cons file files ih =>
    obtain ⟨first, firstCert, rfl, hrest, hfold⟩ := h.of_cons (v := v)
    obtain ⟨hfirst, hrestNodup⟩ := List.nodup_cons.mp hnodup
    rw [hfold]
    obtain heq | hmem := List.mem_cons.mp hmem
    · obtain ⟨hid, hcontent⟩ := Prod.mk.inj heq
      obtain rfl := certFile_injective hid
      have hcert := congrArg (loadCertificateFile pem) hcontent
      rw [loadCertificateFile_certPem, loadCertificateFile_certPem, Option.some.injEq] at hcert
      rw [lookup_foldl_loadFile_of_notMem hrest hfirst, hcert]
      exact Finmap.lookup_insert _
    · exact ih hrest hrestNodup hmem

end Load

end CertificateVerifier

/-! ## Runs -/

/-- The last operation on a device. A save marks it as saved, and a certificate that was not saved
is forgotten in a restart. -/
inductive LastChange
  | unknown
  | added
  | addedWithCert (cert : CertificateDer) (saved : Bool)
  | removed (saved : Bool)
  deriving DecidableEq

/-- Everything has been saved. -/
def LastChange.save : LastChange → LastChange
  | addedWithCert cert _ => addedWithCert cert true
  | removed _ => removed true
  | change => change

/-- The verifier has been made again. -/
def LastChange.restart : LastChange → LastChange
  | addedWithCert _ false => unknown
  | change => change

namespace LastChange

variable {change : LastChange} {cert : CertificateDer} {saved : Bool}

lemma save_eq_addedWithCert_iff : change.save = .addedWithCert cert saved ↔
    (∃ before, change = .addedWithCert cert before) ∧ saved = true := by
  cases change <;> simp [save, eq_comm]

lemma save_eq_removed_iff :
    change.save = .removed saved ↔ (∃ before, change = .removed before) ∧ saved = true := by
  cases change <;> simp [save, eq_comm]

lemma restart_eq_addedWithCert_iff : change.restart = .addedWithCert cert saved ↔
    change = .addedWithCert cert true ∧ saved = true := by
  cases change with
  | addedWithCert cert' before => cases before <;> simp [restart, eq_comm]
  | _ => simp [restart]

lemma restart_eq_removed_iff : change.restart = .removed saved ↔ change = .removed saved := by
  cases change with
  | addedWithCert cert' before => cases before <;> simp [restart]
  | _ => simp [restart]

end LastChange

/-- What can happen to the devices that are trusted. -/
inductive TrustOp
  | addTrustedDevice (id : DeviceId)
  | addTrustedDeviceWithCert (id : DeviceId) (cert : CertificateDer)
  | removeTrustedDevice (id : DeviceId)
  | saveTrustedCertificates (order : IterOrder DeviceId)
  /-- A new verifier is made with the initial devices that were not removed, and loads what was
  saved. -/
  | restart (order : IterOrder Text)

/-- A verifier in a run: the directory, the initial devices that were not removed, and what was done
last to each device. -/
structure TrustRun where
  verifier : CertificateVerifier
  dir : Option (HashMap Text Bytes)
  initialIds : List DeviceId
  last : DeviceId → LastChange

namespace TrustRun

/-- A new verifier, with no directory yet. -/
def start (initialIds : List DeviceId) : TrustRun :=
  ⟨.new initialIds, none, initialIds, fun _ => .unknown⟩

/-- The next step of a run. -/
def step (pem : PemCodec) (s : TrustRun) : TrustOp → TrustRun
  | .addTrustedDevice id =>
    { s with
      verifier := s.verifier.addTrustedDevice id
      last := Function.update s.last id .added }
  | .addTrustedDeviceWithCert id cert =>
    { s with
      verifier := s.verifier.addTrustedDeviceWithCert id cert
      last := Function.update s.last id (.addedWithCert cert false) }
  | .removeTrustedDevice id =>
    { s with
      verifier := (s.verifier.removeTrustedDevice id).1
      initialIds := s.initialIds.filter (· ≠ id)
      last := Function.update s.last id (.removed false) }
  | .saveTrustedCertificates order =>
    { s with
      dir := some (s.verifier.saveTrustedCertificates pem order s.dir)
      last := fun id => (s.last id).save }
  | .restart order =>
    { s with
      verifier := (CertificateVerifier.new s.initialIds).loadTrustedCertificates pem order s.dir
      last := fun id => (s.last id).restart }

/-- Every step is possible. -/
def next (pem : PemCodec) (s : TrustRun) (op : TrustOp) : Option TrustRun := some (step pem s op)

/-- A device whose last operation was a removal, followed by a save, is not trusted. One that was
last added with a certificate, and saved, is trusted and pinned to it. -/
def Sound (s : TrustRun) : Prop :=
  ∀ id, (s.last id = .removed true → s.verifier.isTrusted id = false) ∧
    ∀ cert, s.last id = .addedWithCert cert true →
      s.verifier.isTrusted id = true ∧ s.verifier.getPinnedCertificate id = some cert

/-- **No device is brought back**: at a save no device that was last removed is still in the list,
and at a restart there is no file of a device that was last removed, if that has been saved. -/
def Meets (s : TrustRun) : TrustOp → Prop
  | .saveTrustedCertificates _ =>
    ∀ id saved, s.last id = .removed saved → id ∉ s.verifier.trustedDeviceIds
  | .restart _ => ∀ id, s.last id = .removed true → CertificateVerifier.certFile id ∉ s.dir.getD ∅
  | _ => True

/-- What every run keeps. -/
structure Kept (pem : PemCodec) (s : TrustRun) : Prop where
  allowUntrusted : s.verifier.allowUntrusted = false
  pinned : ∀ {id cert saved}, s.last id = .addedWithCert cert saved →
    id ∈ s.verifier.trustedDeviceIds ∧ s.verifier.trustedCertificates.lookup id = some cert
  filed : ∀ {id cert}, s.last id = .addedWithCert cert true →
    (s.dir.getD ∅).lookup (CertificateVerifier.certFile id) =
      some (CertificateVerifier.certPem cert pem)
  files : ∀ {name content}, (s.dir.getD ∅).lookup name = some content →
    ∃ id cert, name = CertificateVerifier.certFile id ∧
      content = CertificateVerifier.certPem cert pem
  initial : ∀ {id saved}, s.last id = .removed saved → id ∉ s.initialIds

variable {pem : PemCodec} {s s' : TrustRun} {op : TrustOp} {initialIds : List DeviceId}

lemma kept_start : Kept pem (start initialIds) := by
  refine ⟨rfl, nofun, nofun, ?_, nofun⟩
  intro name content h
  cases h

open CertificateVerifier

lemma Kept.loadTrustedCertificates (h : Kept pem s) (order : IterOrder Text) :
    let v := (CertificateVerifier.new s.initialIds).loadTrustedCertificates pem order s.dir
    v.allowUntrusted = false ∧
      (∀ id, id ∈ v.trustedDeviceIds ↔ id ∈ s.initialIds ∨ certFile id ∈ s.dir.getD ∅) ∧
      ∀ id cert, (s.dir.getD ∅).lookup (certFile id) = some (certPem cert pem) →
        v.trustedCertificates.lookup id = some cert := by
  cases hdir : s.dir with
  | none =>
    refine ⟨rfl, fun id => ?_, fun id cert hfile => ?_⟩
    · exact ⟨.inl, fun h => h.elim (fun hmem => hmem) fun hfile => absurd hfile Finmap.notMem_empty⟩
    · cases hfile
  | some files =>
    have hall : AllCerts pem (order.entries files) := by
      intro file hfile
      have hlookup := order.mem_entries.mp (show (file.1, file.2) ∈ _ from hfile)
      obtain ⟨id, cert, hname, hcontent⟩ := h.files (by rw [hdir]; exact hlookup)
      exact ⟨id, cert, Prod.ext hname hcontent⟩
    refine ⟨allowUntrusted_foldl_loadFile hall, fun id => ?_, fun id cert hfile => ?_⟩
    · rw [CertificateVerifier.loadTrustedCertificates, mem_foldl_loadFile hall]
      rw [order.fst_entries, order.mem_iter, Finmap.mem_keys]
      rfl
    · exact lookup_foldl_loadFile hall (order.nodup_fst_entries _) (order.mem_entries.mpr hfile)

lemma last_update {last : DeviceId → LastChange} {id other : DeviceId} {change change' : LastChange}
    (h : Function.update last id change other = change') :
    other = id ∧ change = change' ∨ other ≠ id ∧ last other = change' := by
  by_cases hne : other = id
  · subst hne
    rw [Function.update_self] at h
    exact .inl ⟨rfl, h⟩
  · rw [Function.update_of_ne hne] at h
    exact .inr ⟨hne, h⟩

/-- **Every step keeps** what every run keeps. -/
lemma Kept.next (h : Kept pem s) (hnext : next pem s op = some s') : Kept pem s' := by
  cases op with
  | addTrustedDevice id =>
    obtain rfl := Option.some.inj hnext
    refine ⟨allowUntrusted_addTrustedDevice.trans h.allowUntrusted,
      fun {other cert saved} hlast => ?_, fun {other cert} hlast => ?_, h.files,
      fun {other saved} hlast => ?_⟩
    · obtain ⟨-, hchange⟩ | ⟨-, hlast⟩ := last_update hlast
      · cases hchange
      · obtain ⟨hmem, hlookup⟩ := h.pinned hlast
        rw [← trustedCertificates_addTrustedDevice] at hlookup
        exact ⟨mem_addTrustedDevice.mpr (.inr hmem), hlookup⟩
    · obtain ⟨-, hchange⟩ | ⟨-, hlast⟩ := last_update hlast
      · cases hchange
      · exact h.filed hlast
    · obtain ⟨-, hchange⟩ | ⟨-, hlast⟩ := last_update hlast
      · cases hchange
      · exact h.initial hlast
  | addTrustedDeviceWithCert id cert =>
    obtain rfl := Option.some.inj hnext
    refine ⟨allowUntrusted_addTrustedDevice.trans h.allowUntrusted,
      fun {other cert' saved} hlast => ?_, fun {other cert'} hlast => ?_, h.files,
      fun {other saved} hlast => ?_⟩
    · obtain ⟨rfl, hchange⟩ | ⟨hne, hlast⟩ := last_update hlast
      · obtain ⟨rfl, -⟩ := LastChange.addedWithCert.inj hchange
        exact ⟨mem_addTrustedDevice.mpr (.inl rfl), Finmap.lookup_insert _⟩
      · obtain ⟨hmem, hlookup⟩ := h.pinned hlast
        exact ⟨mem_addTrustedDevice.mpr (.inr hmem),
          (Finmap.lookup_insert_of_ne _ hne).trans hlookup⟩
    · obtain ⟨-, hchange⟩ | ⟨-, hlast⟩ := last_update hlast
      · cases hchange
      · exact h.filed hlast
    · obtain ⟨-, hchange⟩ | ⟨-, hlast⟩ := last_update hlast
      · cases hchange
      · exact h.initial hlast
  | removeTrustedDevice id =>
    obtain rfl := Option.some.inj hnext
    refine ⟨allowUntrusted_removeTrustedDevice.trans h.allowUntrusted,
      fun {other cert saved} hlast => ?_, fun {other cert} hlast => ?_, h.files,
      fun {other saved} hlast => ?_⟩
    · obtain ⟨-, hchange⟩ | ⟨hne, hlast⟩ := last_update hlast
      · cases hchange
      · obtain ⟨hmem, hlookup⟩ := h.pinned hlast
        rw [← trustedCertificates_removeTrustedDevice] at hlookup
        exact ⟨(mem_removeTrustedDevice hne).mpr hmem, hlookup⟩
    · obtain ⟨-, hchange⟩ | ⟨-, hlast⟩ := last_update hlast
      · cases hchange
      · exact h.filed hlast
    · obtain ⟨rfl, -⟩ | ⟨-, hlast⟩ := last_update hlast
      · exact fun hmem => by simpa using (List.mem_filter.mp hmem).2
      · exact fun hmem => h.initial hlast (List.mem_of_mem_filter hmem)
  | saveTrustedCertificates order =>
    obtain rfl := Option.some.inj hnext
    refine ⟨h.allowUntrusted, fun {id cert saved} hlast => ?_, fun {id cert} hlast => ?_,
      fun {name content} hlookup => ?_, fun {id saved} hlast => ?_⟩
    · obtain ⟨⟨before, hbefore⟩, -⟩ := LastChange.save_eq_addedWithCert_iff.mp hlast
      exact h.pinned hbefore
    · obtain ⟨⟨before, hbefore⟩, -⟩ := LastChange.save_eq_addedWithCert_iff.mp hlast
      exact lookup_saveTrustedCertificates.mpr
        (.inl ⟨id, cert, (h.pinned hbefore).2, rfl, rfl⟩)
    · obtain ⟨id, cert, -, hname, hcontent⟩ | ⟨-, hbefore⟩ :=
        lookup_saveTrustedCertificates.mp hlookup
      · exact ⟨id, cert, hname, hcontent⟩
      · exact h.files hbefore
    · obtain ⟨⟨before, hbefore⟩, -⟩ := LastChange.save_eq_removed_iff.mp hlast
      exact h.initial hbefore
  | restart order =>
    obtain rfl := Option.some.inj hnext
    obtain ⟨hallow, hmem, hpinned⟩ := h.loadTrustedCertificates order
    refine ⟨hallow, fun {id cert saved} hlast => ?_, fun {id cert} hlast => ?_, h.files,
      fun {id saved} hlast => ?_⟩
    · obtain ⟨hbefore, -⟩ := LastChange.restart_eq_addedWithCert_iff.mp hlast
      have hfile := h.filed hbefore
      exact ⟨(hmem id).mpr (.inr (Finmap.mem_iff.mpr ⟨_, hfile⟩)), hpinned id cert hfile⟩
    · exact h.filed (LastChange.restart_eq_addedWithCert_iff.mp hlast).1
    · exact h.initial (LastChange.restart_eq_removed_iff.mp hlast)

lemma Kept.sound_iff (h : Kept pem s) :
    Sound s ↔ ∀ id, s.last id = .removed true → id ∉ s.verifier.trustedDeviceIds := by
  constructor
  · intro hsound id hlast hmem
    have htrusted := (isTrusted_iff h.allowUntrusted).mpr hmem
    rw [(hsound id).1 hlast] at htrusted
    cases htrusted
  · refine fun hremoved id => ⟨fun hlast => ?_, fun cert hlast => ?_⟩
    · rw [← Bool.not_eq_true, isTrusted_iff h.allowUntrusted]
      exact hremoved id hlast
    · obtain ⟨hmem, hlookup⟩ := h.pinned hlast
      exact ⟨(isTrusted_iff h.allowUntrusted).mpr hmem, hlookup⟩

/-- **A step is sound exactly when** it brings back no device.

**Proof sketch.** A change of another device leaves a removed one as it is. A save makes removals
count, and a restart makes those devices trusted that are left of the initial ones or have a file.
-/
lemma sound_next_iff (h : Kept pem s) (hsound : Sound s) (hnext : next pem s op = some s') :
    Sound s' ↔ Meets s op := by
  rw [(h.next hnext).sound_iff]
  have hremoved := h.sound_iff.mp hsound
  cases op with
  | addTrustedDevice id =>
    obtain rfl := Option.some.inj hnext
    refine iff_of_true (fun other hlast => ?_) trivial
    obtain ⟨-, hchange⟩ | ⟨hne, hlast⟩ := last_update hlast
    · cases hchange
    · exact fun hmem => (mem_addTrustedDevice.mp hmem).elim hne (hremoved other hlast)
  | addTrustedDeviceWithCert id cert =>
    obtain rfl := Option.some.inj hnext
    refine iff_of_true (fun other hlast => ?_) trivial
    obtain ⟨-, hchange⟩ | ⟨hne, hlast⟩ := last_update hlast
    · cases hchange
    · exact fun hmem => (mem_addTrustedDevice.mp hmem).elim hne (hremoved other hlast)
  | removeTrustedDevice id =>
    obtain rfl := Option.some.inj hnext
    refine iff_of_true (fun other hlast => ?_) trivial
    obtain ⟨-, hchange⟩ | ⟨hne, hlast⟩ := last_update hlast
    · cases hchange
    · exact fun hmem => hremoved other hlast ((mem_removeTrustedDevice hne).mp hmem)
  | saveTrustedCertificates order =>
    obtain rfl := Option.some.inj hnext
    constructor
    · exact fun hsaved id saved hlast =>
        hsaved id (LastChange.save_eq_removed_iff.mpr ⟨⟨saved, hlast⟩, rfl⟩)
    · intro hmeets id hlast
      obtain ⟨⟨saved, hbefore⟩, -⟩ := LastChange.save_eq_removed_iff.mp hlast
      exact hmeets id saved hbefore
  | restart order =>
    obtain rfl := Option.some.inj hnext
    obtain ⟨-, hmem, -⟩ := h.loadTrustedCertificates order
    refine forall_congr' fun id => ?_
    change (s.last id).restart = .removed true → _ ↔ _
    rw [LastChange.restart_eq_removed_iff]
    refine imp_congr_right fun hlast => not_congr ?_
    exact (hmem id).trans (or_iff_right (h.initial hlast))

/-- **Runs are sound, exactly as long as** no step brings back a device that was removed.

**Proof sketch.** By induction along the run. -/
theorem sound_of_run (hrun : Runs.Run (next pem) Meets (start initialIds) s) :
    Sound s ∧ ∀ op s', next pem s op = some s' → (Sound s' ↔ Meets s op) := by
  obtain ⟨hkept, hsound⟩ : Kept pem s ∧ Sound s := by
    refine Runs.Run.invariant (I := fun s => Kept pem s ∧ Sound s) hrun
      ⟨kept_start, fun _ => ⟨nofun, nofun⟩⟩ ?_
    intro s₁ op s₂ _ ⟨hkept, hsound⟩ hmeets hnext
    exact ⟨hkept.next hnext, (sound_next_iff hkept hsound hnext).mpr hmeets⟩
  exact ⟨hsound, fun op s' => sound_next_iff hkept hsound⟩

/-! ## A device that is removed after its certificate was saved -/

/-- The PEM text of a certificate. -/
def samplePem : Text := "-----BEGIN CERTIFICATE-----\r\n".toList ++
  "MIHfMIGSoAMCAQICAQEwBQYDK2VwMAAwHhcNNzAwMTAxMDAwMDAwWhcNNzAwMTAx\r\n".toList ++
  "MDAwMDEwWjAAMCowBQYDK2VwAyEAO2onvM62pC1io6jQKm8Nc2UyFXcd4kOmOsBI\r\n".toList ++
  "oYtZ2imjMTAvMC0GCSsGAQQBho0fAQQgAQEBAQEBAQEBAQEBAQEBAQEBAQEBAQEB\r\n".toList ++
  "AQEBAQEBAQEwBQYDK2VwA0EANCrwHA8yQHLOmFShE7FZTfn9OuhFlEMc0bhpAQJl\r\n".toList ++
  "kWTicpYtAptfOF1wT3bpRYawgLM2/Xet99HMUIZC4GXICQ==\r\n".toList ++
  "-----END CERTIFICATE-----\r\n".toList

/-- The certificate of the sample in PEM. -/
def sampleBlock : Pem := ⟨CERTIFICATE, sampleDer sampleSignature⟩

lemma exists_pemCodec : ∃ pem : PemCodec, pem.encode sampleBlock = samplePem := by
  have hcountable : Countable Pem :=
    Function.Injective.countable (f := fun block : Pem => (block.tag, block.contents))
      fun _ _ h => Pem.mk.injEq .. ▸ Prod.mk.inj h
  obtain ⟨number, hnumber⟩ := exists_injective_nat Pem
  obtain ⟨write, hwrite⟩ : ∃ write : Pem → Text, ∀ block, write block =
      if block = sampleBlock then samplePem else List.replicate (number block) 'x' :=
    ⟨_, fun _ => rfl⟩
  have hother (n : ℕ) : samplePem ≠ List.replicate n 'x' := by
    intro h
    have hdash : '-' ∈ List.replicate n 'x' := by
      rw [← h]
      decide +kernel
    exact absurd (List.eq_of_mem_replicate hdash) (by decide)
  have hinjective : Function.Injective write := by
    intro a b hab
    rw [hwrite, hwrite] at hab
    split_ifs at hab with ha hb hb
    · rw [ha, hb]
    · exact absurd hab (hother _)
    · exact absurd hab.symm (hother _)
    · have hlength := congrArg List.length hab
      rw [List.length_replicate, List.length_replicate] at hlength
      exact hnumber hlength
  have hsample : write sampleBlock = samplePem := by rw [hwrite, if_pos rfl]
  exact ⟨⟨write, Function.partialInv write, Function.partialInv_left hinjective⟩, hsample⟩

/-- An order of iteration. -/
noncomputable def listOrder (α : Type) : IterOrder α :=
  ⟨Finset.toList, Finset.nodup_toList, Finset.mem_toList⟩

/-- A device that is added with a certificate and saved is trusted after a restart. -/
theorem sound_of_run_saved : ∃ (pem : PemCodec) (s : TrustRun),
    pem.encode sampleBlock = samplePem ∧ Runs.Run (next pem) Meets (start []) s ∧
      s.last (.fill 1) = .addedWithCert (sampleDer sampleSignature) true ∧
      Sound s ∧ ∀ op s', next pem s op = some s' → (Sound s' ↔ Meets s op) := by
  obtain ⟨pem, hpem⟩ := exists_pemCodec
  let s₁ := step pem (start []) (.addTrustedDeviceWithCert (.fill 1) (sampleDer sampleSignature))
  let s₂ := step pem s₁ (.saveTrustedCertificates (listOrder DeviceId))
  let s₃ := step pem s₂ (.restart (listOrder Text))
  have hlast : ∀ id saved, s₁.last id ≠ .removed saved := by
    intro id saved h
    obtain ⟨-, hchange⟩ | ⟨-, hchange⟩ := last_update h
    · cases hchange
    · cases hchange
  have hsave : Meets s₁ (.saveTrustedCertificates (listOrder DeviceId)) :=
    fun id saved h => absurd h (hlast id saved)
  have hrestart : Meets s₂ (.restart (listOrder Text)) := by
    intro id h
    obtain ⟨⟨saved, hbefore⟩, -⟩ := LastChange.save_eq_removed_iff.mp h
    exact absurd hbefore (hlast id saved)
  have hrun : Runs.Run (next pem) Meets (start []) s₃ :=
    ((Runs.Run.step (e := .addTrustedDeviceWithCert _ _) trivial rfl).tail
      ⟨_, hsave, rfl⟩).tail ⟨_, hrestart, rfl⟩
  have hsaved : s₃.last (.fill 1) = .addedWithCert (sampleDer sampleSignature) true := by
    have hadded : s₁.last (.fill 1) = .addedWithCert (sampleDer sampleSignature) false := by
      simp only [s₁, step, Function.update_self]
    show (s₁.last (.fill 1)).save.restart = _
    rw [hadded]
    rfl
  exact ⟨pem, s₃, hpem, hrun, hsaved, sound_of_run hrun⟩

/-- **A device that is removed is trusted again** after a restart, since its file is still there. -/
theorem not_sound_removed : ¬ ∃ pem : PemCodec, ∀ s : TrustRun,
    Runs.Run (next pem) (fun _ _ => True) (start []) s → Sound s := by
  rintro ⟨pem, hsound⟩
  let s₁ := step pem (start []) (.addTrustedDeviceWithCert (.fill 1) (sampleDer sampleSignature))
  let s₂ := step pem s₁ (.saveTrustedCertificates (listOrder DeviceId))
  let s₃ := step pem s₂ (.removeTrustedDevice (.fill 1))
  let s₄ := step pem s₃ (.saveTrustedCertificates (listOrder DeviceId))
  let s₅ := step pem s₄ (.restart (listOrder Text))
  have hrun : Runs.Run (next pem) (fun _ _ => True) (start []) s₄ :=
    (((Runs.Run.step (e := .addTrustedDeviceWithCert _ _) trivial rfl).tail
      ⟨_, trivial, rfl⟩).tail ⟨.removeTrustedDevice _, trivial, rfl⟩).tail ⟨_, trivial, rfl⟩
  have hrun' : Runs.Run (next pem) (fun _ _ => True) (start []) s₅ := hrun.tail ⟨_, trivial, rfl⟩
  have hkept : Kept pem s₄ := Runs.Run.invariant (I := Kept pem) hrun kept_start
    fun _ h _ hnext => h.next hnext
  have hmeets := (sound_next_iff hkept (hsound s₄ hrun) rfl).mp (hsound s₅ hrun')
  refine hmeets (.fill 1) ?_ ?_
  · have hremoved : s₃.last (.fill 1) = .removed false := by
      simp only [s₃, step, Function.update_self]
    show (s₃.last (.fill 1)).save = _
    rw [hremoved]
    rfl
  · -- the certificate is still pinned, so that even the second save writes it
    have hpinned : s₃.verifier.trustedCertificates.lookup (.fill 1) =
        some (sampleDer sampleSignature) := by
      show ((s₂.verifier.removeTrustedDevice _).1.trustedCertificates).lookup _ = _
      rw [trustedCertificates_removeTrustedDevice]
      exact Finmap.lookup_insert _
    exact Finmap.mem_iff.mpr ⟨_, lookup_saveTrustedCertificates.mpr
      (.inl ⟨.fill 1, _, hpinned, rfl, rfl⟩)⟩

end TrustRun

end Landropic
