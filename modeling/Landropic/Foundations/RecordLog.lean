import Mathlib.Algebra.Order.BigOperators.Group.List
import Mathlib.Algebra.Order.Group.Nat
import Mathlib.Data.List.DropRight
import Mathlib.Logic.Equiv.List
import Landropic.Foundations.Lines

set_option autoImplicit false

/-!
# Logs of records

A log is a text with one record a line, each record with a key. A line that is no record stays where
it is. A record is put into the log in place of the first one with its key, or at the end.

## Main definitions

* `LineCodec` — how records are written on a line and read from it.
* `LineCodec.records` — the records among some lines.
* `LineCodec.put`, `LineCodec.drop` — put a record among some lines, and drop those with a key.
* `RecordLog.upsert`, `RecordLog.find` — the same on a list of records, and the first with a key.

## Main results

* `LineCodec.records_lines_joinLines` — lines that are written out and read back hold the same
  records.
* `LineCodec.records_put`, `LineCodec.records_drop` — what the changes of lines are on the records.
* `RecordLog.find_upsert`, `RecordLog.find_filter` — the log as a map from keys to records.
* `RecordLog.mem_iff_find` — where keys are not repeated, the records are what the map holds.
* `LineCodec.exists_of_samples` — records of every kind can be written on lines, some of them as one
  likes.
-/

/-- How records are written on a line and read back. -/
structure LineCodec (α : Type) where
  toText : α → Text
  fromText : Text → Option α
  /-- What is written can be read. -/
  fromText_toText : ∀ a, fromText (toText a) = some a
  /-- A record is written on one line. -/
  newline_notMem : ∀ a, '\n' ∉ toText a
  /-- A carriage return at the end makes no difference. -/
  fromText_concat_cr : ∀ line, fromText (line ++ ['\r']) = fromText line
  /-- White space is no record. -/
  fromText_of_isBlank : ∀ line, Text.isBlank line = true → fromText line = none

/-! ## Lists of records -/

namespace RecordLog

variable {α κ : Type} [DecidableEq κ] (key : α → κ)

/-- Put a record in place of the first one with its key, or at the end. -/
def upsert (a : α) : List α → List α
  | [] => [a]
  | b :: rest => if key b = key a then a :: rest else b :: upsert a rest

/-- The first record with a key. -/
def find (records : List α) (k : κ) : Option α := records.find? fun a => key a = k

variable {key} {records : List α} {a : α} {k : κ}

lemma key_of_find (h : find key records k = some a) : key a = k := by
  simpa using List.find?_some h

lemma mem_of_find (h : find key records k = some a) : a ∈ records := List.mem_of_find?_eq_some h

/-- **Putting a record in** changes what is found for its key. -/
theorem find_upsert (a : α) (records : List α) (k : κ) :
    find key (upsert key a records) k = if k = key a then some a else find key records k := by
  induction records with
  | nil =>
    by_cases h : k = key a
    · simp [upsert, find, h]
    · simp [upsert, find, h, Ne.symm h]
  | cons b rest ih =>
    unfold find at ih ⊢
    by_cases hkey : key b = key a
    · rw [upsert, if_pos hkey]
      by_cases h : k = key a
      · simp [h]
      · simp [h, Ne.symm h, hkey]
    · rw [upsert, if_neg hkey]
      by_cases hb : key b = k
      · have hne : k ≠ key a := fun h => hkey (hb.trans h)
        simp [hb, hne]
      · simp only [List.find?_cons, hb, decide_false, ih]

/-- **Dropping the records of a key** leaves what is found for the others. -/
theorem find_filter (records : List α) (k k' : κ) :
    find key (records.filter fun a => key a ≠ k) k' =
      if k' = k then none else find key records k' := by
  induction records with
  | nil => simp [find]
  | cons b rest ih =>
    unfold find at ih ⊢
    by_cases hb : key b = k
    · rw [List.filter_cons_of_neg (by simpa using hb), ih]
      by_cases h : k' = k
      · simp [h]
      · have hne : key b ≠ k' := fun heq => h (heq.symm.trans hb)
        simp [h, hne]
    · rw [List.filter_cons_of_pos (by simpa using hb)]
      by_cases hb' : key b = k'
      · have hne : k' ≠ k := fun heq => hb (hb'.trans heq)
        simp [hb', hne]
      · simp only [List.find?_cons, hb', decide_false, ih]

lemma mem_keys_upsert : k ∈ (upsert key a records).map key ↔
    k = key a ∨ k ∈ records.map key := by
  induction records with
  | nil => simp [upsert]
  | cons b rest ih =>
    by_cases hkey : key b = key a
    · rw [upsert, if_pos hkey]
      simp only [List.map_cons, List.mem_cons, hkey]
      tauto
    · rw [upsert, if_neg hkey]
      simp only [List.map_cons, List.mem_cons, ih]
      tauto

lemma nodup_upsert (h : (records.map key).Nodup) : ((upsert key a records).map key).Nodup := by
  induction records with
  | nil => simp [upsert]
  | cons b rest ih =>
    rw [List.map_cons, List.nodup_cons] at h
    by_cases hkey : key b = key a
    · rw [upsert, if_pos hkey, List.map_cons, List.nodup_cons, ← hkey]
      exact h
    · rw [upsert, if_neg hkey, List.map_cons, List.nodup_cons, mem_keys_upsert]
      exact ⟨not_or.mpr ⟨hkey, h.1⟩, ih h.2⟩

omit [DecidableEq κ] in
lemma nodup_filter {p : α → Bool} (h : (records.map key).Nodup) :
    ((records.filter p).map key).Nodup :=
  h.sublist (List.filter_sublist.map key)

/-- **Where keys are not repeated**, the records are those found for their keys. -/
theorem mem_iff_find (h : (records.map key).Nodup) :
    a ∈ records ↔ find key records (key a) = some a := by
  refine ⟨fun hmem => ?_, mem_of_find⟩
  have hfound : (find key records (key a)).isSome := by
    rw [find, List.find?_isSome]
    exact ⟨a, hmem, by simp⟩
  obtain ⟨b, hb⟩ := Option.isSome_iff_exists.mp hfound
  rw [hb, List.inj_on_of_nodup_map h (mem_of_find hb) hmem (key_of_find hb)]

end RecordLog

/-! ## Lines that hold records -/

namespace LineCodec

variable {α κ : Type} [DecidableEq κ] (codec : LineCodec α) (key : α → κ)

/-- The records among some lines. -/
def records (ls : List Text) : List α := ls.filterMap codec.fromText

/-- Put a record in place of the first line that holds one with its key. -/
def replaceFirst (a : α) : List Text → Option (List Text)
  | [] => none
  | line :: rest =>
    match codec.fromText line with
    | some b =>
      if key b = key a then some (codec.toText a :: rest)
      else (replaceFirst a rest).map (line :: ·)
    | none => (replaceFirst a rest).map (line :: ·)

/-- Put a record in place of the first line that holds one with its key, or at the end. -/
def put (a : α) (ls : List Text) : List Text :=
  (codec.replaceFirst key a ls).getD (ls ++ [codec.toText a])

/-- Drop the blank lines and those that hold a record with a key. -/
def drop (k : κ) (ls : List Text) : List Text :=
  ls.filter fun line => !line.isBlank && (codec.fromText line).all fun a => key a ≠ k

@[simp] lemma records_nil : codec.records [] = [] := rfl

lemma fromText_stripCr (line : Text) :
    codec.fromText (Text.stripCr line) = codec.fromText line := by
  rcases Text.eq_stripCr line with h | h
  · conv_rhs => rw [h, codec.fromText_concat_cr]
  · rw [← h]

lemma records_map_stripCr (ls : List Text) :
    codec.records (ls.map Text.stripCr) = codec.records ls := by
  rw [records, List.filterMap_map]
  exact congrArg (List.filterMap · ls) (funext codec.fromText_stripCr)

/-- **Lines that are written out and read back hold the same records.** -/
theorem records_lines_joinLines {ls : List Text} (h : ∀ line ∈ ls, '\n' ∉ line) :
    codec.records (Text.joinLines ls).lines = codec.records ls := by
  rw [Text.lines_joinLines h]
  split_ifs with hnil
  · subst hnil
    simp [records, codec.fromText_of_isBlank [] rfl]
  · exact codec.records_map_stripCr ls

variable {codec key}

/-- **Putting a record among lines** puts it among their records. -/
theorem records_put {a : α} (ls : List Text) :
    codec.records (codec.put key a ls) = RecordLog.upsert key a (codec.records ls) := by
  induction ls with
  | nil => simp [put, replaceFirst, records, RecordLog.upsert, codec.fromText_toText]
  | cons line rest ih =>
    have hskip : ((codec.replaceFirst key a rest).map (line :: ·)).getD
        (line :: rest ++ [codec.toText a]) = line :: codec.put key a rest := by
      unfold put
      cases codec.replaceFirst key a rest <;> rfl
    cases hline : codec.fromText line with
    | none =>
      have hput : codec.put key a (line :: rest) = line :: codec.put key a rest := by
        rw [← hskip, put, replaceFirst, hline]
      have hnone : ∀ ls, codec.records (line :: ls) = codec.records ls := fun ls => by
        simp [records, hline]
      rw [hput, hnone, hnone, ih]
    | some b =>
      have hsome : ∀ ls, codec.records (line :: ls) = b :: codec.records ls := fun ls => by
        simp [records, hline]
      by_cases hkey : key b = key a
      · have hput : codec.put key a (line :: rest) = codec.toText a :: rest := by
          simp [put, replaceFirst, hline, hkey]
        rw [hput, hsome, RecordLog.upsert, if_pos hkey]
        simp [records, codec.fromText_toText]
      · have hput : codec.put key a (line :: rest) = line :: codec.put key a rest := by
          rw [← hskip, put, replaceFirst, hline]
          simp only [if_neg hkey]
        rw [hput, hsome, hsome, RecordLog.upsert, if_neg hkey, ih]

/-- **Dropping lines** drops their records. -/
theorem records_drop {k : κ} (ls : List Text) :
    codec.records (codec.drop key k ls) = (codec.records ls).filter fun a => key a ≠ k := by
  induction ls with
  | nil => rfl
  | cons line rest ih =>
    unfold records drop at ih ⊢
    cases hline : codec.fromText line with
    | none =>
      rw [List.filterMap_cons_none hline, ← ih, List.filter_cons]
      split
      · rw [List.filterMap_cons_none hline]
      · rfl
    | some a =>
      have hblank : line.isBlank = false := by
        cases hb : Text.isBlank line with
        | false => rfl
        | true =>
          rw [codec.fromText_of_isBlank line hb] at hline
          cases hline
      rw [List.filterMap_cons_some hline, List.filter_cons, List.filter_cons, ← ih]
      simp only [hblank, hline, Bool.not_false, Bool.true_and, Option.all_some, decide_eq_true_eq]
      split
      · rw [List.filterMap_cons_some hline]
      · rfl

lemma newline_notMem_put {a : α} {ls : List Text} (h : ∀ line ∈ ls, '\n' ∉ line) :
    ∀ line ∈ codec.put key a ls, '\n' ∉ line := by
  have hreplace : ∀ ls ls', (∀ line ∈ ls, '\n' ∉ line) → codec.replaceFirst key a ls = some ls' →
      ∀ line ∈ ls', '\n' ∉ line := by
    intro ls
    induction ls with
    | nil => simp [replaceFirst]
    | cons line rest ih =>
      intro ls' hls hsome
      have hrest : ∀ line ∈ rest, '\n' ∉ line := fun l hl => hls l (List.mem_cons_of_mem _ hl)
      have hskip : (codec.replaceFirst key a rest).map (line :: ·) = some ls' →
          ∀ line ∈ ls', '\n' ∉ line := by
        intro hmap
        obtain ⟨rest', hrest', rfl⟩ := Option.map_eq_some_iff.mp hmap
        intro l hl
        rcases List.mem_cons.mp hl with rfl | hl
        · exact hls _ List.mem_cons_self
        · exact ih rest' hrest hrest' l hl
      rw [replaceFirst] at hsome
      split at hsome
      · split at hsome
        · obtain rfl := Option.some.inj hsome
          intro l hl
          rcases List.mem_cons.mp hl with rfl | hl
          · exact codec.newline_notMem a
          · exact hrest l hl
        · exact hskip hsome
      · exact hskip hsome
  unfold put
  cases hsome : codec.replaceFirst key a ls with
  | some ls' => exact hreplace ls ls' h hsome
  | none =>
    intro line hline
    rcases List.mem_append.mp hline with hline | hline
    · exact h line hline
    · obtain rfl := List.mem_singleton.mp hline
      exact codec.newline_notMem a

lemma newline_notMem_drop {k : κ} {ls : List Text} (h : ∀ line ∈ ls, '\n' ∉ line) :
    ∀ line ∈ codec.drop key k ls, '\n' ∉ line :=
  fun line hline => h line (List.mem_of_mem_filter hline)

/-! ## Writing records of any kind -/

section Countable

instance : Countable Char :=
  Function.Injective.countable (f := Char.toNat) fun _ _ => Char.toNat_inj.mp

instance : Countable UInt64 :=
  Function.Injective.countable (f := UInt64.toNat) fun _ _ => UInt64.toNat_inj.mp

instance : Countable UInt32 :=
  Function.Injective.countable (f := UInt32.toNat) fun _ _ => UInt32.toNat_inj.mp

instance : Countable UInt8 :=
  Function.Injective.countable (f := UInt8.toNat) fun _ _ => UInt8.toNat_inj.mp

variable (special : α → Option Text) (f : α → ℕ) (bound : ℕ)

/-- Write some records as given, and the others as their numbers in unary. -/
def unaryText (a : α) : Text := (special a).getD (List.replicate (bound + f a + 1) 'x')

variable {special f bound}

/-- The texts are told apart if the given ones are, and are short. -/
lemma unaryText_injective (hf : Function.Injective f)
    (hlength : ∀ a t, special a = some t → t.length ≤ bound)
    (hinj : ∀ a b t, special a = some t → special b = some t → a = b) :
    Function.Injective (unaryText special f bound) := by
  intro a b h
  unfold unaryText at h
  cases ha : special a with
  | none =>
    cases hb : special b with
    | none =>
      have hlen := congrArg List.length h
      simp only [ha, hb, Option.getD_none, List.length_replicate] at hlen
      exact hf (by omega)
    | some t =>
      have hlen := congrArg List.length h
      have := hlength b t hb
      simp only [ha, hb, Option.getD_none, Option.getD_some, List.length_replicate] at hlen
      omega
  | some t =>
    cases hb : special b with
    | none =>
      have hlen := congrArg List.length h
      have := hlength a t ha
      simp only [ha, hb, Option.getD_none, Option.getD_some, List.length_replicate] at hlen
      omega
    | some t' =>
      obtain rfl : t = t' := by simpa [ha, hb] using h
      exact hinj a b t ha hb

lemma forall_unaryText {P : Text → Prop} (hspecial : ∀ a t, special a = some t → P t)
    (hunary : ∀ n, P (List.replicate (n + 1) 'x')) (a : α) : P (unaryText special f bound a) := by
  unfold unaryText
  cases ha : special a with
  | none => exact hunary _
  | some t => exact hspecial a t ha

/-- **Records of every kind can be written on lines**, some of them as one likes.

**Proof sketch.** A record that has no text of its own is written as a long row of one letter, as
often as its number says. A line is read by looking for a record that is written so. -/
theorem exists_of_countable [Countable α] (special : α → Option Text) (bound : ℕ)
    (hlength : ∀ a t, special a = some t → t.length ≤ bound)
    (hinj : ∀ a b t, special a = some t → special b = some t → a = b)
    (hline : ∀ a t, special a = some t → '\n' ∉ t ∧ '\r' ∉ t ∧ Text.isBlank t = false) :
    ∃ codec : LineCodec α, ∀ a t, special a = some t → codec.toText a = t := by
  classical
  obtain ⟨f, hf⟩ := exists_injective_nat α
  set write := unaryText special f bound with hwrite
  have hinjective : Function.Injective write := unaryText_injective hf hlength hinj
  have hnewline : ∀ a, '\n' ∉ write a :=
    forall_unaryText (fun a t ht => (hline a t ht).1) fun n => by simp
  have hcr : ∀ a, '\r' ∉ write a :=
    forall_unaryText (fun a t ht => (hline a t ht).2.1) fun n => by simp
  have hblank : ∀ a, Text.isBlank (write a) = false :=
    forall_unaryText (fun a t ht => (hline a t ht).2.2) fun n => by
      simp [Text.isBlank, Text.isWhitespace]
  let strip : Text → Text := fun line => line.rdropWhile (· = '\r')
  have hstrip : ∀ a, strip (write a) = write a := by
    intro a
    rw [List.rdropWhile_eq_self_iff]
    intro hne
    have := hcr a
    simp only [decide_eq_true_eq]
    rintro hlast
    exact this (hlast ▸ List.getLast_mem hne)
  let read : Text → Option α := fun line =>
    if h : ∃ a, write a = strip line then some h.choose else none
  refine ⟨⟨write, read, fun a => ?_, hnewline, fun line => ?_, fun line hline => ?_⟩,
    fun a t ht => ?_⟩
  · have hfound : ∃ b, write b = strip (write a) := ⟨a, (hstrip a).symm⟩
    have hchoose := hfound.choose_spec
    simp only [read, dif_pos hfound, Option.some.injEq]
    exact hinjective (hchoose.trans (hstrip a))
  · have hsame : strip (line ++ ['\r']) = strip line := List.rdropWhile_concat_pos _ _ _ (by simp)
    simp only [read, hsame]
  · have hnone : ¬ ∃ a, write a = strip line := by
      rintro ⟨a, ha⟩
      have hsub : ∀ c ∈ strip line, c ∈ line := fun c hc => (List.rdropWhile_prefix _ _).subset hc
      have : Text.isBlank (write a) = true := by
        rw [ha, Text.isBlank, List.all_eq_true]
        exact fun c hc => List.all_eq_true.mp hline c (hsub c hc)
      rw [hblank a] at this
      cases this
    simp only [read, dif_neg hnone]
  · show write a = t
    simp [hwrite, unaryText, ht]

/-- **Records of every kind can be written on lines**, the given ones with the given texts. -/
theorem exists_of_samples [Countable α] [DecidableEq α] (samples : List (α × Text))
    (hrecords : (samples.map Prod.fst).Nodup) (htexts : (samples.map Prod.snd).Nodup)
    (hline : ∀ sample ∈ samples,
      '\n' ∉ sample.2 ∧ '\r' ∉ sample.2 ∧ Text.isBlank sample.2 = false) :
    ∃ codec : LineCodec α, ∀ sample ∈ samples, codec.toText sample.1 = sample.2 := by
  let special : α → Option Text := fun a => (RecordLog.find Prod.fst samples a).map Prod.snd
  have hmem : ∀ a t, special a = some t → (a, t) ∈ samples := by
    intro a t ht
    obtain ⟨sample, hfind, rfl⟩ := Option.map_eq_some_iff.mp ht
    exact RecordLog.key_of_find hfind ▸ RecordLog.mem_of_find hfind
  obtain ⟨codec, hcodec⟩ := exists_of_countable special (samples.map fun s => s.2.length).sum
    (fun a t ht => List.le_sum_of_mem (List.mem_map.mpr ⟨(a, t), hmem a t ht, rfl⟩))
    (fun a b t ha hb => congrArg Prod.fst
      (List.inj_on_of_nodup_map htexts (hmem a t ha) (hmem b t hb) rfl))
    (fun a t ht => hline (a, t) (hmem a t ht))
  refine ⟨codec, fun sample hsample => hcodec _ _ ?_⟩
  have hfound := (RecordLog.mem_iff_find hrecords).mp hsample
  show (RecordLog.find Prod.fst samples sample.1).map Prod.snd = some sample.2
  rw [hfound]
  rfl

end Countable

end LineCodec
