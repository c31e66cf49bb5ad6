import Mathlib.Tactic.DeriveCountable
import Landropic.Chunker.Hash
import Landropic.Foundations.FileCodec

set_option autoImplicit false

/-!
# Messages of the simplified sync protocol

A file is transferred with four messages, which are sent as JSON: a request, the response to it, the
content of the file as an array of numbers, and the acknowledgement.

## Main definitions

* `Daemon.SimpleSyncMessage` — the messages.
* `Daemon.fileDataText` — the JSON text of the content of a file.
* `Daemon.SimpleSyncJson` — how messages are written as JSON and read back.

## Main results

* `Daemon.eq_of_fileDataText_starts` — no such text is the beginning of another one.
* `Daemon.length_fileDataText` — its length depends on the values of the bytes.
* `Daemon.exists_simpleSyncJson` — messages can be written so.
-/

namespace Landropic.Daemon

/-- Simple sync message types for alpha release. -/
inductive SimpleSyncMessage
  /-- Request to transfer a file, with its `blake3` hash. -/
  | fileTransferRequest (filePath : Text) (fileSize : UInt64) (checksum : Text)
  /-- Response to file transfer request. -/
  | fileTransferResponse (accepted : Bool) (reason : Option Text)
  /-- File content data. -/
  | fileData (data : Bytes)
  /-- Transfer complete acknowledgment. -/
  | transferComplete (success checksumVerified : Bool) (message : Text)
  deriving DecidableEq, Countable

/-! ## The content of a file as JSON -/

/-- The decimal digits of a byte. -/
def decimal (b : UInt8) : Bytes := Text.utf8 (Nat.toDigits 10 b.toNat)

/-- Numbers with commas between them. -/
def jsonNumbers : Bytes → Bytes
  | [] => []
  | b :: rest => decimal b ++ rest.flatMap fun c => 44 :: decimal c

/-- The JSON text of a message with the content of a file. -/
def fileDataText (data : Bytes) : Bytes :=
  Text.utf8 "\x7b\"FileData\":\x7b\"data\":[".toList ++ jsonNumbers data ++
    Text.utf8 "]\x7d\x7d".toList

/-- The number of decimal digits of a byte. -/
def digitCount (b : UInt8) : ℕ := if b < 10 then 1 else if b < 100 then 2 else 3

/-- The acceptance of a transfer. -/
def SimpleSyncMessage.accepted : SimpleSyncMessage := .fileTransferResponse true none

/-- The acknowledgement of a transfer. -/
def SimpleSyncMessage.completed : SimpleSyncMessage :=
  .transferComplete true true "File transfer completed successfully".toList

/-- The JSON text of the acceptance. -/
def acceptedText : Bytes := Text.utf8
  "\x7b\"FileTransferResponse\":\x7b\"accepted\":true,\"reason\":null\x7d\x7d".toList

/-- The JSON text of the acknowledgement. -/
def completedText : Bytes := Text.utf8
  ("\x7b\"TransferComplete\":\x7b\"success\":true,\"checksum_verified\":true," ++
    "\"message\":\"File transfer completed successfully\"\x7d\x7d").toList

/-- How messages are written as JSON and read back. -/
structure SimpleSyncJson extends FileCodec SimpleSyncMessage where
  toBytes_fileData : ∀ way data, toBytes way (.fileData data) = fileDataText data
  toBytes_accepted : ∀ way, toBytes way .accepted = acceptedText
  toBytes_completed : ∀ way, toBytes way .completed = completedText

lemma utf8EncodeChar_of_isDigit {c : Char} (hc : c.isDigit) :
    ∃ n, 48 ≤ n ∧ n ≤ 57 ∧ String.utf8EncodeChar c = [UInt8.ofNat n] := by
  obtain ⟨hlow, hhigh⟩ := Bool.and_eq_true_iff.mp hc
  have hlow : 48 ≤ c.val.toNat := UInt32.le_iff_toNat_le.mp (of_decide_eq_true hlow)
  have hhigh : c.val.toNat ≤ 57 := UInt32.le_iff_toNat_le.mp (of_decide_eq_true hhigh)
  exact ⟨c.val.toNat, hlow, hhigh, if_pos (hhigh.trans (by decide))⟩

lemma decimal_isDigit (b : UInt8) : ∀ x ∈ decimal b, 48 ≤ x ∧ x ≤ 57 := by
  intro x hx
  obtain ⟨c, hc, hx⟩ := List.mem_flatMap.mp hx
  obtain ⟨n, hlow, hhigh, hn⟩ :=
    utf8EncodeChar_of_isDigit (Nat.isDigit_of_mem_toDigits (by decide) le_rfl hc)
  rw [hn, List.mem_singleton] at hx
  subst hx
  rw [UInt8.le_iff_toNat_le, UInt8.le_iff_toNat_le,
    UInt8.toNat_ofNat_of_lt' (hhigh.trans_lt (by decide))]
  exact ⟨hlow, hhigh⟩

lemma decimal_injective : Function.Injective decimal := by
  intro a b hab
  have hread := congrArg Text.fromUtf8 hab
  rw [decimal, decimal, Text.fromUtf8_utf8, Text.fromUtf8_utf8, Option.some_inj] at hread
  have hvalue := congrArg (Nat.ofDigitChars 10 · 0) hread
  simp only [Nat.ofDigitChars_ten_toDigits] at hvalue
  exact UInt8.toNat_inj.mp hvalue

lemma length_decimal (b : UInt8) : (decimal b).length = digitCount b := by
  have hdigits : (decimal b).length = (Nat.toDigits 10 b.toNat).length := by
    rw [decimal, Text.utf8, List.length_flatMap, List.map_congr_left (g := fun _ => 1),
      List.map_const', List.sum_replicate, Nat.nsmul_eq_mul, Nat.mul_one]
    intro c hc
    obtain ⟨n, -, -, hn⟩ :=
      utf8EncodeChar_of_isDigit (Nat.isDigit_of_mem_toDigits (by decide) le_rfl hc)
    rw [hn, List.length_singleton]
  have hlt := b.toNat_lt
  rw [hdigits, digitCount, Nat.toDigits_eq_if (by decide)]
  simp only [UInt8.lt_iff_toNat_lt, UInt8.reduceToNat]
  split_ifs with h₁ h₂
  · rfl
  · rw [Nat.toDigits_of_lt_base (by omega)]; rfl
  · rw [Nat.toDigits_of_base_le (by decide) (by omega), Nat.toDigits_of_lt_base (by omega)]; rfl

lemma decimal_append_starts {a b c d : UInt8} {u v : Bytes} (hc : ¬ (48 ≤ c ∧ c ≤ 57))
    (hd : ¬ (48 ≤ d ∧ d ≤ 57)) (h : decimal a ++ c :: u <+: decimal b ++ d :: v) :
    a = b ∧ c :: u <+: d :: v := by
  have hshort : decimal a <+: decimal b ++ d :: v := (List.prefix_append _ _).trans h
  obtain ⟨w, hw⟩ | ⟨w, hw⟩ := List.prefix_or_prefix_of_prefix hshort (List.prefix_append _ _)
  · cases w with
    | nil =>
      rw [List.append_nil] at hw
      rw [hw, List.prefix_append_right_inj] at h
      exact ⟨decimal_injective hw, h⟩
    | cons x w =>
      have hx := decimal_isDigit b x (hw ▸ by simp)
      rw [← hw, List.append_assoc, List.prefix_append_right_inj] at h
      obtain ⟨rfl, -⟩ := List.cons_prefix_cons.mp h
      exact absurd hx hc
  · cases w with
    | nil =>
      rw [List.append_nil] at hw
      rw [hw, List.prefix_append_right_inj] at h
      exact ⟨(decimal_injective hw).symm, h⟩
    | cons x w =>
      have hx := decimal_isDigit a x (hw ▸ by simp)
      rw [← hw, List.append_assoc, List.prefix_append_right_inj] at h
      obtain ⟨rfl, -⟩ := List.cons_prefix_cons.mp h
      exact absurd hx hd

lemma exists_decimal_eq_cons (b : UInt8) : ∃ c rest, decimal b = c :: rest := by
  cases hb : decimal b with
  | nil =>
    have hlength := length_decimal b
    rw [hb, digitCount] at hlength
    split_ifs at hlength
  | cons c rest => exact ⟨c, rest, rfl⟩

lemma exists_numbers_eq_cons (data rest : Bytes) :
    ∃ c u, (data.flatMap fun c => 44 :: decimal c) ++ 93 :: rest = c :: u ∧
      ¬ (48 ≤ c ∧ c ≤ 57) := by
  cases data with
  | nil => exact ⟨93, rest, rfl, by decide⟩
  | cons b data => exact ⟨44, _, rfl, by decide⟩

lemma eq_of_flatMap_starts (rest : Bytes) {data data' : Bytes}
    (h : (data.flatMap fun c => 44 :: decimal c) ++ 93 :: rest <+:
      (data'.flatMap fun c => 44 :: decimal c) ++ 93 :: rest) : data = data' := by
  induction data generalizing data' with
  | nil =>
    cases data' with
    | nil => rfl
    | cons b data' => exact absurd (List.cons_prefix_cons.mp h).1 (by decide)
  | cons a data ih =>
    cases data' with
    | nil => exact absurd (List.cons_prefix_cons.mp h).1 (by decide)
    | cons b data' =>
      simp only [List.flatMap_cons, List.cons_append, List.append_assoc] at h
      have hnumbers := (List.cons_prefix_cons.mp h).2
      obtain ⟨c, u, hu, hc⟩ := exists_numbers_eq_cons data rest
      obtain ⟨d, v, hv, hd⟩ := exists_numbers_eq_cons data' rest
      rw [hu, hv] at hnumbers
      obtain ⟨rfl, hstarts⟩ := decimal_append_starts hc hd hnumbers
      rw [← hu, ← hv] at hstarts
      rw [ih hstarts]

/-- **No text of a content is the beginning of another one.** -/
theorem eq_of_fileDataText_starts {data data' : Bytes}
    (h : fileDataText data <+: fileDataText data') : data = data' := by
  rw [fileDataText, fileDataText, List.append_assoc, List.append_assoc,
    List.prefix_append_right_inj, show Text.utf8 "]\x7d\x7d".toList = 93 :: [125, 125] by decide]
    at h
  have hfirst : ∀ b rest, ∃ c u, jsonNumbers (b :: rest) ++ 93 :: [125, 125] = c :: u ∧ c ≠ 93 := by
    intro b rest
    obtain ⟨c, u, hc⟩ := exists_decimal_eq_cons b
    have hdigit := decimal_isDigit b c (hc ▸ List.mem_cons_self)
    refine ⟨c, _, by rw [jsonNumbers, hc]; rfl, ?_⟩
    rintro rfl
    exact absurd hdigit (by decide)
  cases data with
  | nil =>
    cases data' with
    | nil => rfl
    | cons b data' =>
      obtain ⟨c, u, hu, hc⟩ := hfirst b data'
      rw [hu] at h
      exact absurd (List.cons_prefix_cons.mp h).1.symm hc
  | cons a data =>
    cases data' with
    | nil =>
      obtain ⟨c, u, hu, hc⟩ := hfirst a data
      rw [hu] at h
      exact absurd (List.cons_prefix_cons.mp h).1 hc
    | cons b data' =>
      refine eq_of_flatMap_starts [125, 125] ?_
      simp only [List.flatMap_cons, List.cons_append]
      exact List.cons_prefix_cons.mpr ⟨rfl, h⟩

/-- **The length of the text** of a content depends on the values of its bytes. -/
theorem length_fileDataText (data : Bytes) :
    (fileDataText data).length = 24 + (data.map digitCount).sum + (data.length - 1) := by
  have hrest : ∀ rest : Bytes, (rest.flatMap fun c => 44 :: decimal c).length =
      (rest.map digitCount).sum + rest.length := by
    intro rest
    induction rest with
    | nil => rfl
    | cons b rest ih =>
      simp only [List.flatMap_cons, List.length_append, List.length_cons, length_decimal, ih,
        List.map_cons, List.sum_cons]
      omega
  have hfront : (Text.utf8 "\x7b\"FileData\":\x7b\"data\":[".toList).length = 21 := by decide
  have hback : (Text.utf8 "]\x7d\x7d".toList).length = 3 := by decide
  rw [fileDataText, List.length_append, List.length_append, hfront, hback]
  cases data with
  | nil => rfl
  | cons b data =>
    rw [jsonNumbers, List.length_append, hrest, length_decimal]
    simp only [List.map_cons, List.sum_cons, List.length_cons]
    omega

/-! ## Messages that are written as JSON does -/

/-- A request for a small file. -/
def sampleRequest : SimpleSyncMessage := .fileTransferRequest ['a'] 1 ['0']

/-- The JSON text of the request. -/
def sampleRequestText : Bytes := Text.utf8 ("\x7b\"FileTransferRequest\":" ++
  "\x7b\"file_path\":\"a\",\"file_size\":1,\"checksum\":\"0\"\x7d\x7d").toList

/-- The JSON texts of some messages. -/
def sampleTexts : List (SimpleSyncMessage × Bytes) :=
  [(.accepted, acceptedText), (.completed, completedText), (sampleRequest, sampleRequestText)]

/-- The JSON texts of these messages and of all contents. -/
def sampleText (message : SimpleSyncMessage) : Option Bytes :=
  match message with
  | .fileData data => some (fileDataText data)
  | message => (RecordLog.find Prod.fst sampleTexts message).map Prod.snd

lemma sampleText_cases {message : SimpleSyncMessage} {text : Bytes}
    (h : sampleText message = some text) :
    (∃ data, message = .fileData data ∧ text = fileDataText data) ∨
      (message, text) ∈ sampleTexts := by
  unfold sampleText at h
  split at h
  · next data => exact .inl ⟨data, rfl, (Option.some.inj h).symm⟩
  · obtain ⟨sample, hfind, rfl⟩ := Option.map_eq_some_iff.mp h
    exact .inr (RecordLog.key_of_find hfind ▸ RecordLog.mem_of_find hfind)

lemma not_fileDataText_starts {data : Bytes} {sample : SimpleSyncMessage × Bytes}
    (hsample : sample ∈ sampleTexts) :
    ¬ fileDataText data <+: sample.2 ∧ ¬ sample.2 <+: fileDataText data := by
  have htake : (fileDataText data).take 7 = Text.utf8 "\x7b\"FileD".toList := rfl
  have hsamples : ∀ sample ∈ sampleTexts, 7 ≤ sample.2.length ∧
      sample.2.take 7 ≠ Text.utf8 "\x7b\"FileD".toList := by decide +kernel
  obtain ⟨hlength, hne⟩ := hsamples sample hsample
  have hlength' : 7 ≤ (fileDataText data).length := by
    rw [length_fileDataText]
    omega
  constructor
  · rintro ⟨rest, hrest⟩
    rw [← hrest, List.take_append_of_le_length hlength'] at hne
    exact hne htake
  · rintro ⟨rest, hrest⟩
    rw [← hrest, List.take_append_of_le_length hlength] at htake
    exact hne htake

/-- **Messages can be written so.** -/
theorem exists_simpleSyncJson : ∃ json : SimpleSyncJson,
    ∀ way, ∀ sample ∈ sampleTexts, json.toBytes way sample.1 = sample.2 := by
  have hsamples : ∀ p ∈ sampleTexts, ∀ q ∈ sampleTexts, p.2 <+: q.2 → p.1 = q.1 := by decide +kernel
  have hheads : ∀ p ∈ sampleTexts, p.2.head? = some 123 := by decide +kernel
  have htext : ∀ sample ∈ sampleTexts, sampleText sample.1 = some sample.2 := by decide +kernel
  have hstarts : ∀ a b t u, sampleText a = some t → sampleText b = some u → t <+: u → a = b := by
    intro a b t u ha hb hstarts
    obtain ⟨data, rfl, rfl⟩ | hmem := sampleText_cases ha
    · obtain ⟨data', rfl, rfl⟩ | hmem' := sampleText_cases hb
      · rw [eq_of_fileDataText_starts hstarts]
      · exact absurd hstarts (not_fileDataText_starts hmem').1
    · obtain ⟨data', rfl, rfl⟩ | hmem' := sampleText_cases hb
      · exact absurd hstarts (not_fileDataText_starts hmem).2
      · exact hsamples _ hmem _ hmem' hstarts
  have hhead : ∀ a t, sampleText a = some t → t.head? = some 123 := by
    intro a t ha
    obtain ⟨data, -, rfl⟩ | hmem := sampleText_cases ha
    · rfl
    · exact hheads _ hmem
  obtain ⟨codec, hspecial, -, -⟩ := FileCodec.exists_exact sampleText hstarts hhead
  exact ⟨{ codec with
    toBytes_fileData := fun way data => hspecial way _ _ rfl
    toBytes_accepted := fun way =>
      hspecial way _ _ (htext (.accepted, acceptedText) (by simp [sampleTexts]))
    toBytes_completed := fun way =>
      hspecial way _ _ (htext (.completed, completedText) (by simp [sampleTexts])) },
    fun way sample hsample => hspecial way _ _ (htext sample hsample)⟩

end Landropic.Daemon
