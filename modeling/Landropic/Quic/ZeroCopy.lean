import Mathlib.Data.UInt
import Landropic.Foundations.Fs
import Landropic.Foundations.Result

set_option autoImplicit false

/-!
# Sending a range of a file

A range of a file is sent chunk by chunk. Each chunk is read at its position into a buffer of a pool
that is shared with other tasks, and a read may return less than was asked for.

## Main definitions

* `BytesMut` — a buffer, with the memory behind its length.
* `BufferPool` — the pool.
* `ZeroCopyStreamWriter.sendfileToStream` — sending a range of a file.
* `ShortRead` — what reading a file at a position may return.

## Main results

* `ZeroCopyStreamWriter.round_cases` — what one round of the loop does.
* `ZeroCopyStreamWriter.sendfileToStream_exact` — exactly the range is sent.

## Design

What the other tasks do with the pool is an input, and so is what reads and writes return.
Capacities of buffers are left out.
-/

namespace Landropic

/-! ## Buffers -/

/-- A buffer. What its memory holds behind the length is left from an earlier use. -/
structure BytesMut where
  memory : Bytes
  len : ℕ
  /-- The buffer is in its memory. -/
  len_le : len ≤ memory.length

namespace BytesMut

/-- A new buffer. -/
def withCapacity : BytesMut := ⟨[], 0, le_rfl⟩

variable (buffer : BytesMut)

/-- Empty the buffer. -/
def clear : BytesMut := ⟨buffer.memory, 0, Nat.zero_le _⟩

/-- Shorten the buffer, or fill it up with a value. -/
def resize (newLen : ℕ) (value : UInt8) : BytesMut :=
  if h : newLen ≤ buffer.len then ⟨buffer.memory, newLen, h.trans buffer.len_le⟩
  else
    { memory := buffer.memory.take buffer.len ++ List.replicate (newLen - buffer.len) value ++
        buffer.memory.drop newLen
      len := newLen
      len_le := by
        have hle := buffer.len_le
        simp only [List.length_append, List.length_take, List.length_replicate]
        omega }

/-- Copy bytes to the beginning of the buffer, which has to be long enough. -/
def copyFromSlice (bytes : Bytes) : Option BytesMut :=
  if h : bytes.length ≤ buffer.len then
    some
      { memory := bytes ++ buffer.memory.drop bytes.length
        len := buffer.len
        len_le := by
          have hle := buffer.len_le
          rw [List.length_append, List.length_drop]
          omega }
  else none

/-- The first bytes of the buffer. -/
def upTo (n : ℕ) : Option Bytes := if n ≤ buffer.len then some (buffer.memory.take n) else none

@[simp] lemma len_resize (newLen : ℕ) (value : UInt8) :
    (buffer.resize newLen value).len = newLen := by
  rw [resize]
  split <;> rfl

/-- **What was copied can be read back**, whatever the memory held before. -/
lemma exists_copyFromSlice {bytes : Bytes} (h : bytes.length ≤ buffer.len) :
    ∃ copied, buffer.copyFromSlice bytes = some copied ∧ copied.upTo bytes.length = some bytes := by
  rw [copyFromSlice, dif_pos h]
  refine ⟨_, rfl, ?_⟩
  rw [upTo, if_pos h, List.take_left]

end BytesMut

/-- Buffer pool for reducing allocation overhead. The buffer that was returned last comes first. -/
structure BufferPool where
  buffers : List BytesMut
  maxBuffers : ℕ

namespace BufferPool

/-- A pool with some buffers. -/
def new (maxBuffers : ℕ) : BufferPool := ⟨List.replicate (maxBuffers / 4) .withCapacity, maxBuffers⟩

variable (pool : BufferPool)

/-- Take a buffer. -/
def get : BytesMut × BufferPool :=
  match pool.buffers with
  | buffer :: rest => (buffer.clear, { pool with buffers := rest })
  | [] => (.withCapacity, pool)

/-- Return a buffer, unless there are enough. -/
def returnBuffer (buffer : BytesMut) : BufferPool :=
  if pool.buffers.length < pool.maxBuffers then
    { pool with buffers := buffer.clear :: pool.buffers }
  else pool

end BufferPool

/-! ## Sending -/

/-- The errors that sending a file may end with. -/
inductive SendError
  | io (e : IoError)
  | stream (msg : String)

/-- What sending a file meets. -/
structure SendfileInput where
  /-- What other tasks do with the pool before a round takes a buffer, and before it returns it. -/
  others : ℕ → BufferPool → BufferPool
  /-- What the read of a round returns, at an offset and for a number of bytes. -/
  readAt : ℕ → UInt64 → UInt64 → Except IoError Bytes
  /-- Why the write of a round fails, if it does. -/
  writing : ℕ → Option String

/-- How far sending a file has come. -/
structure Sending where
  totalWritten : UInt64
  currentOffset : UInt64
  stream : Bytes
  pool : BufferPool

/-- Zero-copy stream writer. -/
structure ZeroCopyStreamWriter where
  chunkSize : UInt64
  bufferPool : BufferPool

namespace ZeroCopyStreamWriter

/-- Create a new zero-copy stream writer. -/
def new (chunkSize : UInt64) : ZeroCopyStreamWriter := ⟨chunkSize, .new 32⟩

section Sendfile

variable (writer : ZeroCopyStreamWriter) (overflowChecks : Bool) (i : SendfileInput) (size : UInt64)

/-- One round of the loop, and whether there is another one. -/
def sendfileRound (k : ℕ) (s : Sending) : Except (Stop SendError) Bool × Sending :=
  let chunkSize := min (size - s.totalWritten) writer.chunkSize
  let (buffer, pool) := (i.others (2 * k) s.pool).get
  let buffer := buffer.resize chunkSize.toNat 0
  let s := { s with pool := i.others (2 * k + 1) pool }
  match i.readAt k s.currentOffset chunkSize with
  | .error e => (.error (.err (.io e)), s)
  | .ok bytes =>
    match buffer.copyFromSlice bytes with
    | none => (.error .panic, s)
    | some buffer =>
      if bytes.length = 0 then (.ok false, s)
      else
        match buffer.upTo bytes.length, i.writing k with
        | none, _ => (.error .panic, s)
        | some _, some e => (.error (.err (.stream ("Stream write failed: " ++ e))), s)
        | some data, none =>
          let s := { s with stream := s.stream ++ data }
          if overflowChecks ∧ (2 ^ 64 ≤ s.totalWritten.toNat + bytes.length ∨
              2 ^ 64 ≤ s.currentOffset.toNat + bytes.length) then (.error .panic, s)
          else
            (.ok true, { s with
              totalWritten := s.totalWritten + .ofNat bytes.length
              currentOffset := s.currentOffset + .ofNat bytes.length
              pool := s.pool.returnBuffer buffer })

/-- The loop, in at most so many rounds. -/
def sendfileLoop : ℕ → ℕ → Sending → Option (Except (Stop SendError) UInt64 × Sending)
  | 0, _, s => if s.totalWritten < size then none else some (.ok s.totalWritten, s)
  | fuel + 1, k, s =>
    if s.totalWritten < size then
      match writer.sendfileRound overflowChecks i size k s with
      | (.error e, s) => some (.error e, s)
      | (.ok false, s) => some (.ok s.totalWritten, s)
      | (.ok true, s) => sendfileLoop fuel (k + 1) s
    else some (.ok s.totalWritten, s)

/-- Write file directly to stream using sendfile-like optimization. -/
def sendfileToStream (stream : Bytes) (offset : UInt64) :
    Option (Except (Stop SendError) UInt64 × Sending) :=
  -- the rounds suffice, see `sendfileToStream_exact`
  writer.sendfileLoop overflowChecks i size size.toNat 0
    { totalWritten := 0, currentOffset := offset, stream := stream, pool := writer.bufferPool }

end Sendfile

end ZeroCopyStreamWriter

/-! ## What is sent -/

/-- A regular file, whose size is a 64-bit number. -/
structure PlainFile where
  content : Bytes
  length_lt : content.length < 2 ^ 64

/-- The bytes of a file from an offset on, at most so many. -/
def PlainFile.range (file : PlainFile) (offset size : UInt64) : Bytes :=
  (file.content.take (min (offset.toNat + size.toNat) file.content.length)).drop offset.toNat

/-- What reading a file at a position may return: some of the bytes there, at most as many as are
asked for, and none only at the end of the file. -/
structure ShortRead (file : PlainFile) (offset n : UInt64) (bytes : Bytes) : Prop where
  isPrefix : bytes <+: file.content.drop offset.toNat
  length_le : bytes.length ≤ n.toNat
  atEnd : bytes = [] → file.content.length ≤ offset.toNat

namespace ZeroCopyStreamWriter

section Exact

variable {writer : ZeroCopyStreamWriter} {overflowChecks : Bool} {i : SendfileInput}
  {file : PlainFile} {stream : Bytes} {offset size : UInt64} {s : Sending}

/-- So many bytes of the range have been sent. -/
structure Sent (file : PlainFile) (stream : Bytes) (offset size : UInt64) (s : Sending) : Prop where
  le : s.totalWritten.toNat ≤ size.toNat
  currentOffset : s.currentOffset.toNat = offset.toNat + s.totalWritten.toNat
  stream : ∃ sent, s.stream = stream ++ sent ∧ sent <+: file.content.drop offset.toNat ∧
    sent.length = s.totalWritten.toNat

lemma range_eq (file : PlainFile) (offset size : UInt64) :
    file.range offset size = (file.content.drop offset.toNat).take size.toNat := by
  rw [PlainFile.range, List.drop_take, List.take_eq_take_iff, List.length_drop]
  omega

lemma Sent.eq_range (h : Sent file stream offset size s)
    (hend : size ≤ s.totalWritten ∨ file.content.length ≤ s.currentOffset.toNat) :
    s.stream = stream ++ file.range offset size ∧
      s.totalWritten.toNat = (file.range offset size).length := by
  obtain ⟨sent, hstream, hprefix, hlength⟩ := h.stream
  have hsent : sent = file.range offset size := by
    have hle := hprefix.length_le
    rw [List.length_drop] at hle
    have hoffset := h.currentOffset
    have htotal := h.le
    rw [UInt64.le_iff_toNat_le] at hend
    rw [range_eq, List.prefix_iff_eq_take.mp hprefix, List.take_eq_take_iff, List.length_drop]
    omega
  rw [hstream, ← hlength, hsent]
  exact ⟨rfl, rfl⟩

lemma toNat_min (a b : UInt64) : (min a b).toNat = min a.toNat b.toNat := by
  show (if a ≤ b then a else b).toNat = _
  by_cases h : a ≤ b
  · rw [if_pos h, min_eq_left (UInt64.le_iff_toNat_le.mp h)]
  · rw [if_neg h, min_eq_right (not_le.mp (UInt64.le_iff_toNat_le.not.mp h)).le]

/-- **A round of the loop** sends some more bytes, or finds that the file has ended.

**Proof sketch.** What is read is copied to the beginning of the buffer, and just that is sent. As
something was read, the new offset does not lie beyond the end of the file, and so neither sum
overflows. -/
lemma round_cases (h : Sent file stream offset size s) (hlt : s.totalWritten < size)
    (hchunk : 0 < writer.chunkSize)
    (hread : ∀ k offset n, 0 < n → ∃ bytes, i.readAt k offset n = .ok bytes ∧
      ShortRead file offset n bytes)
    (hwrite : ∀ k, i.writing k = none) (k : ℕ) :
    ∃ s', (writer.sendfileRound overflowChecks i size k s = (.ok false, s') ∧
        Sent file stream offset size s' ∧ file.content.length ≤ s'.currentOffset.toNat) ∨
      (writer.sendfileRound overflowChecks i size k s = (.ok true, s') ∧
        Sent file stream offset size s' ∧ s.totalWritten.toNat < s'.totalWritten.toNat) := by
  have hltNat := UInt64.lt_iff_toNat_lt.mp hlt
  have hrest : (size - s.totalWritten).toNat = size.toNat - s.totalWritten.toNat :=
    UInt64.toNat_sub_of_le _ _ (UInt64.le_of_lt hlt)
  set n := min (size - s.totalWritten) writer.chunkSize with hn
  have hmin : n.toNat = min (size.toNat - s.totalWritten.toNat) writer.chunkSize.toNat := by
    rw [hn, toNat_min, hrest]
  have hchunkNat : 0 < writer.chunkSize.toNat := UInt64.lt_iff_toNat_lt.mp hchunk
  have hpos : 0 < n := by
    rw [UInt64.lt_iff_toNat_lt, hmin]
    exact lt_min (Nat.sub_pos_of_lt hltNat) hchunkNat
  have hle : n.toNat ≤ size.toNat - s.totalWritten.toNat := hmin ▸ min_le_left _ _
  obtain ⟨bytes, hbytes, hprefix, hlength, hatEnd⟩ := hread k s.currentOffset n hpos
  have hroom : bytes.length ≤ ((i.others (2 * k) s.pool).get.1.resize n.toNat 0).len := by
    rwa [BytesMut.len_resize]
  obtain ⟨copied, hcopied, hupTo⟩ := BytesMut.exists_copyFromSlice _ hroom
  rw [sendfileRound, ← hn]
  dsimp only
  rw [hbytes]
  dsimp only
  rw [hcopied]
  dsimp only
  by_cases hnil : bytes = []
  · rw [if_pos (by simp [hnil])]
    exact ⟨_, .inl ⟨rfl, ⟨h.le, h.currentOffset, h.stream⟩, hatEnd hnil⟩⟩
  · have hread : 0 < bytes.length := List.length_pos_iff.mpr hnil
    have hsize := size.toNat_lt
    have hfile := file.length_lt
    have hinside := hprefix.length_le
    rw [List.length_drop] at hinside
    have hoffset := h.currentOffset
    have hfits : bytes.length < 2 ^ 64 := by omega
    have hnew : (UInt64.ofNat bytes.length).toNat = bytes.length :=
      UInt64.toNat_ofNat_of_lt' hfits
    have htotal : (s.totalWritten + .ofNat bytes.length).toNat =
        s.totalWritten.toNat + bytes.length := by
      rw [UInt64.toNat_add, hnew, Nat.mod_eq_of_lt (by omega)]
    have hcurrent : (s.currentOffset + .ofNat bytes.length).toNat =
        s.currentOffset.toNat + bytes.length := by
      rw [UInt64.toNat_add, hnew, Nat.mod_eq_of_lt (by omega)]
    obtain ⟨sent, hstream, hsent, hsentLength⟩ := h.stream
    rw [if_neg hread.ne', hupTo, hwrite]
    dsimp only
    rw [if_neg (by omega)]
    refine ⟨_, .inr ⟨rfl, ⟨?_, ?_, sent ++ bytes, ?_, ?_, ?_⟩, ?_⟩⟩
    · rw [htotal]
      omega
    · rw [hcurrent, htotal, hoffset]
      omega
    · rw [hstream, List.append_assoc]
    · -- the bytes are read from where the sent ones end
      obtain ⟨tail, htail⟩ := hsent
      have hdrop : file.content.drop s.currentOffset.toNat = tail := by
        rw [hoffset, ← List.drop_drop, ← htail, ← hsentLength, List.drop_left]
      rw [← htail, ← hdrop]
      exact (List.prefix_append_right_inj sent).mpr hprefix
    · rw [List.length_append, htotal, hsentLength]
    · rw [htotal]
      omega

/-- The loop comes to an end within as many rounds as there are bytes to send. -/
lemma sendfileLoop_exact (hchunk : 0 < writer.chunkSize)
    (hread : ∀ k offset n, 0 < n → ∃ bytes, i.readAt k offset n = .ok bytes ∧
      ShortRead file offset n bytes)
    (hwrite : ∀ k, i.writing k = none) {fuel : ℕ} (k : ℕ) (h : Sent file stream offset size s)
    (hfuel : size.toNat ≤ s.totalWritten.toNat + fuel) :
    ∃ count s', writer.sendfileLoop overflowChecks i size fuel k s = some (.ok count, s') ∧
      count.toNat = (file.range offset size).length ∧
        s'.stream = stream ++ file.range offset size := by
  induction fuel generalizing k s with
  | zero =>
    have hend : size ≤ s.totalWritten := UInt64.le_iff_toNat_le.mpr hfuel
    obtain ⟨hstream, hcount⟩ := h.eq_range (.inl hend)
    exact ⟨_, s, by rw [sendfileLoop, if_neg (UInt64.not_lt.mpr hend)], hcount, hstream⟩
  | succ fuel ih =>
    rw [sendfileLoop]
    by_cases hlt : s.totalWritten < size
    · rw [if_pos hlt]
      obtain ⟨s', hcases⟩ := round_cases h hlt hchunk hread hwrite k
      rcases hcases with ⟨hround, hsent, hend⟩ | ⟨hround, hsent, hmore⟩
      · obtain ⟨hstream, hcount⟩ := hsent.eq_range (.inr hend)
        rw [hround]
        exact ⟨_, s', rfl, hcount, hstream⟩
      · rw [hround]
        exact ih (k + 1) hsent (by omega)
    · obtain ⟨hstream, hcount⟩ := h.eq_range (.inl (UInt64.not_lt.mp hlt))
      rw [if_neg hlt]
      exact ⟨_, s, rfl, hcount, hstream⟩

/-- **Exactly the range is sent**, and the number of its bytes returned, whatever the reads return
at a time and whatever other tasks do with the buffers.

**Proof sketch.** After each round the bytes that were sent are the first ones of what follows the
offset, and the next read starts where they end. Every round but the last sends some. -/
theorem sendfileToStream_exact (writer : ZeroCopyStreamWriter) (file : PlainFile)
    (overflowChecks : Bool) (i : SendfileInput) (stream : Bytes) (offset size : UInt64)
    (hchunk : 0 < writer.chunkSize)
    (hread : ∀ k offset n, 0 < n → ∃ bytes, i.readAt k offset n = .ok bytes ∧
      ShortRead file offset n bytes)
    (hwrite : ∀ k, i.writing k = none) :
    ∃ count s, writer.sendfileToStream overflowChecks i size stream offset = some (.ok count, s) ∧
      count.toNat = (file.range offset size).length ∧
        s.stream = stream ++ file.range offset size := by
  refine sendfileLoop_exact hchunk hread hwrite 0 ⟨Nat.zero_le _, rfl, [], ?_, ?_, rfl⟩ ?_
  · rw [List.append_nil]
  · exact List.nil_prefix
  · exact (Nat.zero_add _).ge

end Exact

/-- Reads of one byte at a time. -/
def byteReads (file : PlainFile) : SendfileInput where
  others _ pool := pool
  readAt _ offset _ := .ok ((file.content.drop offset.toNat).take 1)
  writing _ := none

/-- Two bytes are sent off a file with three, by reads of one byte. -/
theorem sendfileToStream_exact_two : ∃ count s,
    (new 65536).sendfileToStream true (byteReads ⟨[1, 2, 3], by decide⟩) 2 [] 1 =
      some (.ok count, s) ∧
    count.toNat = (PlainFile.range ⟨[1, 2, 3], by decide⟩ 1 2).length ∧
      s.stream = [] ++ PlainFile.range ⟨[1, 2, 3], by decide⟩ 1 2 := by
  refine sendfileToStream_exact (new 65536) ⟨[1, 2, 3], by decide⟩ true _ [] 1 2 (by decide) ?_
    fun _ => rfl
  intro k offset n hn
  refine ⟨_, rfl, List.take_prefix _ _, ?_, fun hnil => ?_⟩
  · have hpos := UInt64.lt_iff_toNat_lt.mp hn
    rw [List.length_take]
    exact (min_le_left _ _).trans hpos
  · rw [List.take_eq_nil_iff] at hnil
    exact List.drop_eq_nil_iff.mp (hnil.resolve_left (by decide))

end ZeroCopyStreamWriter

end Landropic
