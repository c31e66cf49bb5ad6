import Landropic.Foundations.Duplex
import Landropic.Sync.Serving

set_option autoImplicit false

/-!
# The exchange of chunks between two sessions

Two sessions have handled each other's manifest, and exchange requests, chunks and acknowledgments
until no message is left. A session asks once, for at most 100 chunks, and is sent at most ten of
them. It completes when it has all it wants and is then acknowledged a chunk of its own.

## Main definitions

* `LiveSession.exchangeStep` — a session as a party of an exchange.
* `LiveSession.Answerable` — a request that is answered with a chunk.

## Main results

* `LiveSession.feed_chunks_of_few`, `LiveSession.feed_chunks_of_good` — what a session makes of the
  chunks it is sent.
* `LiveSession.got_of_quiet` — what a session has got when no message is left.
* `LiveSession.exchange_completes_iff` — when an exchange leaves a session completed.
-/

namespace Landropic

namespace LiveSession

variable {σ : Type}

/-- A session as a party of an exchange: it sends the messages its handlers return, and none when
they fail. -/
def exchangeStep (env : Env σ) (s : LiveSession σ) (m : Message) : LiveSession σ × List Message :=
  ((receive env s m).2, (receive env s m).1.toOption.getD [])

/-- Two environments have the same hash function and the same kind of store. -/
def Alike (env e : Env σ) : Prop := e.blake3 = env.blake3 ∧ e.store = env.store

variable {env e : Env σ} {s s' : LiveSession σ}

/-! ## Kinds of messages -/

/-- A chunk or an acknowledgment. -/
def IsReply : Message → Prop
  | .chunkData _ | .ack _ => True
  | _ => False

/-- A message of an exchange: a request for chunks, a chunk or an acknowledgment. -/
def IsExchanged : Message → Prop
  | .want _ | .chunkData _ | .ack _ => True
  | _ => False

lemma exchangeStep_chunkData (env : Env σ) (s : LiveSession σ) (chunk : ChunkData) :
    (exchangeStep env s (.chunkData chunk)).2 = [] ∨
      ∃ ack, (exchangeStep env s (.chunkData chunk)).2 = [.ack ack] := by
  simp only [exchangeStep, receive, reply]
  cases (handleChunkData env s chunk).1 with
  | error e => exact .inl rfl
  | ok ack => exact .inr ⟨ack, rfl⟩

lemma exchangeStep_ack (s : LiveSession σ) (ack : Ack) :
    (exchangeStep env s (.ack ack)).2 = [] := by
  simp only [exchangeStep, receive, reply]
  cases (handleAck env s ack).1 with
  | error e => rfl
  | ok => rfl

lemma exchangeStep_want (env : Env σ) (s : LiveSession σ) (want : Want) :
    ∃ chunks : List ChunkData, (exchangeStep env s (.want want)).2 = chunks.map .chunkData ∧
      chunks.length ≤ MAX_CONCURRENT_TRANSFERS := by
  have hlen : ((handleWant env s want).1.toOption.getD []).length ≤ MAX_CONCURRENT_TRANSFERS := by
    unfold handleWant
    cases s.state with
    | transferring total transferred =>
      exact (length_loadWanted_le _ s).trans (List.length_take_le _ _)
    | _ => exact Nat.zero_le _
  simp only [exchangeStep, receive, reply]
  cases hwant : (handleWant env s want).1 with
  | error e => exact ⟨[], rfl, Nat.zero_le _⟩
  | ok chunks =>
    rw [hwant] at hlen
    exact ⟨chunks, rfl, hlen⟩

lemma isReply_exchangeStep (e : Env σ) (s : LiveSession σ) (m : Message) (hm : IsExchanged m) :
    ∀ m' ∈ (exchangeStep e s m).2, IsReply m' := by
  cases m with
  | want want =>
    obtain ⟨chunks, heq, -⟩ := exchangeStep_want e s want
    rw [heq]
    simp [IsReply]
  | chunkData chunk =>
    obtain heq | ⟨ack, heq⟩ := exchangeStep_chunkData e s chunk
    · simp [heq]
    · simp [heq, IsReply]
  | ack ack => simp [exchangeStep_ack]
  | _ => exact hm.elim

lemma IsReply.isExchanged {m : Message} (h : IsReply m) : IsExchanged m := by
  cases m with
  | chunkData chunk => trivial
  | ack ack => trivial
  | _ => exact h.elim

lemma isAck_exchangeStep (e : Env σ) (s : LiveSession σ) (m : Message) (hm : IsReply m) :
    ∀ m' ∈ (exchangeStep e s m).2, ∃ ack, m' = .ack ack := by
  cases m with
  | chunkData chunk =>
    obtain heq | ⟨ack, heq⟩ := exchangeStep_chunkData e s chunk
    · simp [heq]
    · simp [heq]
  | ack ack => simp [exchangeStep_ack]
  | _ => exact hm.elim

/-- A weight of messages that is more than the weight of their answers. -/
def messageWeight : Message → ℕ
  | .want _ => 21
  | .chunkData _ => 2
  | _ => 1

lemma weight_exchangeStep (e : Env σ) (s : LiveSession σ) (m : Message) (hm : IsExchanged m) :
    ((exchangeStep e s m).2.map messageWeight).sum < messageWeight m := by
  cases m with
  | want want =>
    obtain ⟨chunks, heq, hlen⟩ := exchangeStep_want e s want
    have hsum : ((chunks.map Message.chunkData).map messageWeight).sum = chunks.length * 2 := by
      rw [List.map_map]
      exact (List.sum_eq_card_nsmul _ 2 (by simp [messageWeight])).trans (by simp)
    rw [heq, hsum]
    have hten : chunks.length ≤ 10 := hlen
    simp only [messageWeight]
    omega
  | chunkData chunk =>
    obtain heq | ⟨ack, heq⟩ := exchangeStep_chunkData e s chunk
    · simp [heq, messageWeight]
    · simp [heq, messageWeight]
  | ack ack => simp [exchangeStep_ack, messageWeight]
  | _ => exact hm.elim

/-! ## What a session makes of chunks and acknowledgments -/

open Duplex (feed)

/-- The chunk has the hash it is sent with, and is not too large. -/
def Good (env : Env σ) (chunk : ChunkData) : Prop :=
  (env.blake3 chunk.data).asBytes = chunk.hash ∧ chunk.data.length ≤ Cas.MAX_OBJECT_SIZE

instance : DecidablePred (Good env) := fun _ => instDecidableAnd

variable {chunk : ChunkData} {total transferred : ℕ} {got : List (Env σ × Message)}
  {chunks : List ChunkData}

lemma accepts_iff (hfaithful : env.store.Faithful env.blake3) (halike : Alike env e) :
    Accepts e s chunk ↔ Good env chunk := by
  unfold Accepts Good
  rw [halike.1, halike.2, hfaithful.write_ok_iff]

/-- A good chunk is stored, counted and acknowledged. -/
lemma exchangeStep_of_good (hfaithful : env.store.Faithful env.blake3) (halike : Alike env e)
    (hstate : s.state = .transferring total transferred) (hgood : Good env chunk) :
    ∃ s' ack, exchangeStep e s (.chunkData chunk) = (s', [.ack ack]) ∧
      s'.state = progress total transferred ∧
      s'.wantedChunks = s.wantedChunks.erase (Hex.encode chunk.hash) ∧
      s'.cas = (env.store.write s.cas chunk.data).2 := by
  have haccept := handleChunkData_of_accepts hstate ((accepts_iff hfaithful halike).mpr hgood)
  simp only [exchangeStep, receive, reply, haccept]
  exact ⟨_, _, rfl, rfl, rfl, by rw [halike.2]⟩

lemma exchangeStep_of_not_good (hfaithful : env.store.Faithful env.blake3) (halike : Alike env e)
    (hgood : ¬ Good env chunk) :
    ∃ s', exchangeStep e s (.chunkData chunk) = (s', []) ∧ Undisturbed s s' := by
  have hno : ∀ total transferred, s.state = .transferring total transferred →
      ¬ Accepts e s chunk := fun _ _ _ h => hgood ((accepts_iff hfaithful halike).mp h)
  obtain ⟨hundisturbed, stop, hstop⟩ := handleChunkData_of_not_accepts hno
  simp only [exchangeStep, receive, reply, hstop]
  exact ⟨_, rfl, hundisturbed⟩

/-- The messages with these chunks, and what the handlers take from outside for each. -/
structure Carries (env : Env σ) (got : List (Env σ × Message)) (chunks : List ChunkData) :
    Prop where
  messages_eq : got.map Prod.snd = chunks.map .chunkData
  alike : ∀ c ∈ got, Alike env c.1

lemma Carries.eq_nil (h : Carries env got []) : got = [] := by
  simpa using h.messages_eq

lemma Carries.cons (h : Carries env got (chunk :: chunks)) :
    ∃ e rest, got = (e, .chunkData chunk) :: rest ∧ Alike env e ∧ Carries env rest chunks := by
  obtain ⟨⟨e, m⟩, rest, rfl, hm, hrest⟩ := List.map_eq_cons_iff.mp h.messages_eq
  obtain rfl : m = .chunkData chunk := hm
  exact ⟨e, rest, rfl, h.alike _ List.mem_cons_self, hrest,
    fun c hc => h.alike c (List.mem_cons_of_mem _ hc)⟩

/-- **Chunks that are not enough**: as long as fewer good chunks come than are missing, the session
counts them and goes on waiting. -/
theorem feed_chunks_of_few (hfaithful : env.store.Faithful env.blake3)
    (hgot : Carries env got chunks) (hstate : s.state = .transferring total transferred)
    (hfew : (chunks.filter (Good env)).length = 0 ∨
      transferred + (chunks.filter (Good env)).length < total) :
    (feed exchangeStep got s).1.state =
      .transferring total (transferred + (chunks.filter (Good env)).length) := by
  induction chunks generalizing got s transferred with
  | nil =>
    rw [hgot.eq_nil]
    exact hstate
  | cons chunk chunks ih =>
    obtain ⟨e, rest, rfl, halike, hrest⟩ := hgot.cons
    by_cases hgood : Good env chunk
    · obtain ⟨s₁, ack, hstep, hstate₁, -, -⟩ := exchangeStep_of_good hfaithful halike hstate hgood
      rw [List.filter_cons_of_pos (by simpa using hgood), List.length_cons] at hfew ⊢
      have hmore : ¬ transferred + 1 ≥ total := by omega
      rw [progress, if_neg hmore] at hstate₁
      rw [feed, hstep]
      refine (ih hrest hstate₁ (by omega)).trans ?_
      congr 1
      omega
    · obtain ⟨s₁, hstep, hundisturbed⟩ := exchangeStep_of_not_good (s := s) hfaithful halike hgood
      rw [List.filter_cons_of_neg (by simpa using hgood)] at hfew ⊢
      rw [feed, hstep]
      exact ih hrest (hundisturbed.state_eq.trans hstate) hfew

/-- **Chunks that are all good** are stored and no longer wanted, and the last one that is missing
makes the session verify. -/
theorem feed_chunks_of_good (hfaithful : env.store.Faithful env.blake3)
    (hgot : Carries env got chunks) (hgood : ∀ chunk ∈ chunks, Good env chunk ∧ chunk.data ≠ [])
    (hstate : s.state = .transferring total transferred)
    (hlen : transferred + chunks.length ≤ total) :
    (feed exchangeStep got s).1.wantedChunks =
        s.wantedChunks \ (chunks.map fun c => Hex.encode c.hash).toFinset ∧
      (∀ hash, env.store.Has s.cas hash → env.store.Has (feed exchangeStep got s).1.cas hash) ∧
      (∀ chunk ∈ chunks, env.store.Has (feed exchangeStep got s).1.cas (env.blake3 chunk.data)) ∧
      (chunks ≠ [] → transferred + chunks.length = total →
        (feed exchangeStep got s).1.state = .verifying) := by
  induction chunks generalizing got s transferred with
  | nil =>
    rw [hgot.eq_nil]
    simp
  | cons chunk chunks ih =>
    obtain ⟨e, rest, rfl, halike, hrest⟩ := hgot.cons
    obtain ⟨hfirst, hne⟩ := hgood chunk List.mem_cons_self
    obtain ⟨s₁, ack, hstep, hstate₁, hwanted₁, hcas₁⟩ :=
      exchangeStep_of_good hfaithful halike hstate hfirst
    rw [feed, hstep]
    rw [List.length_cons] at hlen
    have hhas : ∀ hash, env.store.Has s.cas hash → env.store.Has s₁.cas hash := by
      rw [hcas₁]
      exact fun hash => hfaithful.write_keeps hne
    have hnew : env.store.Has s₁.cas (env.blake3 chunk.data) := by
      rw [hcas₁]
      exact hfaithful.has_write hne hfirst.2
    cases chunks with
    | nil =>
      rw [hrest.eq_nil]
      refine ⟨?_, hhas, by simpa using hnew, fun _ htotal => ?_⟩
      · simp [hwanted₁, Finset.sdiff_singleton_eq_erase]
      · rw [List.length_singleton] at htotal
        exact hstate₁.trans (if_pos (by omega))
    | cons second chunks =>
      rw [List.length_cons] at hlen
      have hmore : ¬ transferred + 1 ≥ total := by omega
      rw [progress, if_neg hmore] at hstate₁
      obtain ⟨hwanted, hkept, hstored, hverify⟩ := ih hrest
        (fun c hc => hgood c (List.mem_cons_of_mem chunk hc)) hstate₁
        (by rw [List.length_cons]; omega)
      refine ⟨?_, fun hash h => hkept hash (hhas hash h), fun c hc => ?_, fun _ htotal => ?_⟩
      · rw [hwanted, hwanted₁]
        ext hash
        simp
        tauto
      · rcases List.mem_cons.mp hc with rfl | hc
        · exact hkept _ hnew
        · exact hstored c hc
      · refine hverify (by simp) ?_
        simp only [List.length_cons] at htotal ⊢
        omega

/-- **Chunks are acknowledged** exactly if one of them is good. -/
theorem feed_chunks_answers (hfaithful : env.store.Faithful env.blake3)
    (hgot : Carries env got chunks) (hstate : s.state = .transferring total transferred) :
    (feed exchangeStep got s).2 ≠ [] ↔ ∃ chunk ∈ chunks, Good env chunk := by
  induction chunks generalizing got s with
  | nil =>
    rw [hgot.eq_nil]
    simp
  | cons chunk chunks ih =>
    obtain ⟨e, rest, rfl, halike, hrest⟩ := hgot.cons
    by_cases hgood : Good env chunk
    · obtain ⟨s₁, ack, hstep, -, -, -⟩ := exchangeStep_of_good hfaithful halike hstate hgood
      rw [feed, hstep]
      exact iff_of_true (by simp) ⟨chunk, List.mem_cons_self, hgood⟩
    · obtain ⟨s₁, hstep, hundisturbed⟩ := exchangeStep_of_not_good (s := s) hfaithful halike hgood
      rw [feed, hstep]
      simpa [hgood] using ih hrest (hundisturbed.state_eq.trans hstate)

lemma feed_acks_answers (hgot : ∀ c ∈ got, ∃ ack, c.2 = .ack ack) (s : LiveSession σ) :
    (feed exchangeStep got s).2 = [] := by
  induction got generalizing s with
  | nil => rfl
  | cons c rest ih =>
    obtain ⟨ack, hack⟩ := hgot c List.mem_cons_self
    have hrest := ih (fun c' hc' => hgot c' (List.mem_cons_of_mem c hc'))
    simp [feed, hack, exchangeStep_ack, hrest]

lemma feed_acks (hgot : ∀ c ∈ got, ∃ ack, c.2 = .ack ack) (hstate : s.state ≠ .verifying) :
    (feed exchangeStep got s).1 = s := by
  induction got with
  | nil => rfl
  | cons c rest ih =>
    obtain ⟨ack, hack⟩ := hgot c List.mem_cons_self
    have hstep : (exchangeStep c.1 s c.2).1 = s := by
      simp [hack, exchangeStep, receive, handleAck, hstate]
    rw [feed, hstep]
    exact ih fun c' hc' => hgot c' (List.mem_cons_of_mem c hc')

lemma feed_acks_of_verifying (hgot : ∀ c ∈ got, ∃ ack, c.2 = .ack ack)
    (hstate : s.state = .verifying) (hwanted : s.wantedChunks = ∅) :
    ((feed exchangeStep got s).1.state = .completed ↔ got ≠ []) ∧
      (feed exchangeStep got s).1.cas = s.cas := by
  cases got with
  | nil => simp [hstate]
  | cons c rest =>
    obtain ⟨ack, hack⟩ := hgot c List.mem_cons_self
    have hstep : (exchangeStep c.1 s c.2).1.state = .completed ∧
        (exchangeStep c.1 s c.2).1.cas = s.cas := by
      simp only [hack, exchangeStep, receive, snd_reply, handleAck, hstate, if_true, verifyTransfer,
        hwanted, decide_true, updatePeerState]
      cases c.1.databaseError <;> exact ⟨rfl, rfl⟩
    have hrest : (feed exchangeStep rest (exchangeStep c.1 s c.2).1).1 =
        (exchangeStep c.1 s c.2).1 :=
      feed_acks (fun c' hc' => hgot c' (List.mem_cons_of_mem c hc')) (by simp [hstep.1])
    rw [feed, hrest]
    exact ⟨iff_of_true hstep.1 (by simp), hstep.2⟩

/-! ## Exchanges -/

/-- The answer to a request: some chunks that the store gives back, each once; all of them that are
among the first ten, if none of their hashes is too short, and none otherwise. -/
structure Serves (env : Env σ) (s : LiveSession σ) (want : Want) (chunks : List ChunkData) :
    Prop where
  holds : ∀ chunk ∈ chunks, Holds env s chunk.hash chunk.data
  nodup : (chunks.map ChunkData.hash).Nodup
  hash_mem : ∀ hash ∈ chunks.map ChunkData.hash,
    hash ∈ want.chunkHashes.take MAX_CONCURRENT_TRANSFERS
  complete : (∀ hash ∈ want.chunkHashes.take MAX_CONCURRENT_TRANSFERS, 32 ≤ hash.length) →
    ∀ hash ∈ want.chunkHashes.take MAX_CONCURRENT_TRANSFERS, (∃ data, Holds env s hash data) →
      hash ∈ chunks.map ChunkData.hash
  short : (∃ hash ∈ want.chunkHashes.take MAX_CONCURRENT_TRANSFERS, hash.length < 32) → chunks = []

/-- **A request is served** by a session that transfers chunks and has not sent any. -/
theorem exchangeStep_want_serves (hfaithful : env.store.Faithful env.blake3) (halike : Alike env e)
    (hstate : s.state = .transferring total transferred) (hsent : s.sentChunks = ∅) (want : Want) :
    ∃ s' chunks, exchangeStep e s (.want want) = (s', chunks.map .chunkData) ∧
      Undisturbed s s' ∧ Serves env s want chunks := by
  have hundisturbed := undisturbed_handleWant e s want
  have hfaithful' : e.store.Faithful e.blake3 := by rwa [halike.1, halike.2]
  have hholds : ∀ hash data, Holds e s hash data ↔ Holds env s hash data := by
    intro hash data
    unfold Holds
    rw [halike.2]
  have hwant : handleWant e s want =
      loadWanted e (want.chunkHashes.take MAX_CONCURRENT_TRANSFERS) s := by
    simp only [handleWant, hstate]
  rw [hwant] at hundisturbed
  by_cases hshort : ∃ hash ∈ want.chunkHashes.take MAX_CONCURRENT_TRANSFERS, hash.length < 32
  · have hpanic := loadWanted_of_short e (s := s) (by simp [hsent]) hshort
    refine ⟨_, [], ?_, hundisturbed, by simp, by simp, by simp, fun hlong => ?_, fun _ => rfl⟩
    · simp only [exchangeStep, receive, reply, hwant, hpanic]
      rfl
    · obtain ⟨hash, hmem, hlt⟩ := hshort
      exact absurd (hlong hash hmem) (by omega)
  · simp only [not_exists, not_and, not_lt] at hshort
    obtain ⟨chunks, s', heq, -, hnodup, hmem, hdata⟩ := loadWanted_spec hfaithful' hshort s
    simp only [hholds, hsent, Finset.notMem_empty, not_false_eq_true, true_and] at hmem hdata
    rw [heq] at hundisturbed
    refine ⟨s', chunks, ?_, hundisturbed, hdata, hnodup, fun hash h => ((hmem hash).mp h).1,
      fun _ hash h hhas => (hmem hash).mpr ⟨h, hhas⟩, fun hlong => ?_⟩
    · simp only [exchangeStep, receive, reply, hwant, heq]
      rfl
    · obtain ⟨hash, hin, hlt⟩ := hlong
      exact absurd (hshort hash hin) (by omega)

/-- **A request that is answered with a chunk**: none of its first ten hashes is too short, and the
store gives back one of them that is not too large. -/
def Answerable (env : Env σ) (s : LiveSession σ) (want : Want) : Prop :=
  (∀ hash ∈ want.chunkHashes.take MAX_CONCURRENT_TRANSFERS, 32 ≤ hash.length) ∧
    ∃ hash : ContentHash, hash.asBytes ∈ want.chunkHashes.take MAX_CONCURRENT_TRANSFERS ∧
      ∃ data, (env.store.read s.cas hash).1 = .ok data ∧ data.length ≤ Cas.MAX_OBJECT_SIZE

lemma holds_asBytes {hash : ContentHash} {data : Bytes} :
    Holds env s hash.asBytes data ↔ (env.store.read s.cas hash).1 = .ok data := by
  have hbytes : hash.asBytes.take 32 = hash.asBytes :=
    List.take_of_length_le hash.length_asBytes.le
  unfold Holds
  simp only [hbytes]
  exact ⟨fun h => h.2, fun h => ⟨hash.length_asBytes, h⟩⟩

lemma Serves.exists_good_iff (hfaithful : env.store.Faithful env.blake3) {want : Want}
    (h : Serves env s want chunks) :
    (∃ chunk ∈ chunks, Good env chunk) ↔ Answerable env s want := by
  constructor
  · rintro ⟨chunk, hchunk, hhash, hsize⟩
    have hdata := h.holds chunk hchunk
    have hmem := h.hash_mem _ (List.mem_map_of_mem hchunk)
    refine ⟨fun hash hin => ?_, env.blake3 chunk.data, hhash ▸ hmem, chunk.data, ?_, hsize⟩
    · by_contra hshort
      rw [h.short ⟨hash, hin, by omega⟩] at hchunk
      cases hchunk
    · rw [← hhash] at hdata
      exact holds_asBytes.mp hdata
  · rintro ⟨hlong, hash, hmem, data, hread, hsize⟩
    obtain ⟨chunk, hchunk, heq⟩ := List.mem_map.mp
      (h.complete hlong hash.asBytes hmem ⟨data, holds_asBytes.mpr hread⟩)
    have hdata := h.holds chunk hchunk
    rw [heq, holds_asBytes, hread] at hdata
    obtain rfl := Except.ok.inj hdata
    refine ⟨chunk, hchunk, ?_, hsize⟩
    rw [(hfaithful.read_genuine hread).1, heq]

/-- Every chunk that `a` wants is in the store of `b`. -/
def Present (env : Env σ) (a b : LiveSession σ) : Prop :=
  ∀ text ∈ a.wantedChunks, ∃ hash : ContentHash, text = hash.toHex ∧ env.store.Has b.cas hash

/-- The first ten hashes of a request for chunks that are present. -/
lemma take_chunkHashes (hpresent : ∀ text ∈ s.wantedChunks, ∃ hash : ContentHash, text = hash.toHex)
    {order : IterOrder Text} {want : Want}
    (hwant : want.chunkHashes = ((order.iter s.wantedChunks).take SyncSession.MAX_WANT_CHUNKS).map
      fun hash => (Hex.decode hash).getD []) :
    (want.chunkHashes.take MAX_CONCURRENT_TRANSFERS).map Hex.encode =
      (order.iter s.wantedChunks).take MAX_CONCURRENT_TRANSFERS := by
  rw [hwant, ← List.map_take, List.take_take, List.map_map]
  have hmin : min MAX_CONCURRENT_TRANSFERS SyncSession.MAX_WANT_CHUNKS =
      MAX_CONCURRENT_TRANSFERS := rfl
  rw [hmin]
  refine (List.map_congr_left fun text htext => ?_).trans (List.map_id _)
  obtain ⟨hash, rfl⟩ := hpresent text (order.mem_iter.mp (List.mem_of_mem_take htext))
  simp [ContentHash.toHex]

lemma exists_carries {more : List Message} (halike : ∀ c ∈ got, Alike env c.1)
    (h : got.map Prod.snd = chunks.map .chunkData ++ more) :
    ∃ gotChunks gotMore, got = gotChunks ++ gotMore ∧ Carries env gotChunks chunks ∧
      gotMore.map Prod.snd = more := by
  obtain ⟨gotChunks, gotMore, rfl, hchunks, hmore⟩ := List.map_eq_append_iff.mp h
  exact ⟨gotChunks, gotMore, rfl,
    ⟨hchunks, fun c hc => halike c (List.mem_append_left gotMore hc)⟩, hmore⟩

section Run

variable {a b : LiveSession σ} {wantA wantB : Want} {x : Duplex (LiveSession σ) Message}

/-- Two sessions that have just asked each other for chunks. -/
def asking (a b : LiveSession σ) (wantA wantB : Want) : Duplex (LiveSession σ) Message :=
  { left := a, right := b, toLeft := [.want wantB], toRight := [.want wantA] }

/-- The runs of an exchange: messages are delivered in any order between the two directions. -/
def Exchanged (env : Env σ) : Duplex (LiveSession σ) Message → Duplex (LiveSession σ) Message →
    Prop :=
  Runs.Run (Duplex.deliver exchangeStep) fun _ d => Alike env d.2

lemma all_asking : Duplex.All IsExchanged (asking a b wantA wantB) := by
  simp [Duplex.All, asking, IsExchanged]

/-- **An exchange ends**: from every state some deliveries lead to one without messages. -/
theorem exists_quiet_of_exchanged (hrun : Exchanged env (asking a b wantA wantB) x) :
    ∃ x', Exchanged env x x' ∧ x'.Quiet := by
  have hclosed : ∀ (e : Env σ) s m, Alike env e → IsExchanged m →
      ∀ m' ∈ (exchangeStep e s m).2, IsExchanged m' :=
    fun e s m _ hm m' hm' => (isReply_exchangeStep e s m hm m' hm').isExchanged
  have hall := Duplex.all_of_run hclosed all_asking hrun
  exact Duplex.exists_quiet messageWeight hclosed
    (fun e s m _ hm => weight_exchangeStep e s m hm) (e := env) ⟨rfl, rfl⟩ hall

/-- **What a session has got when no message is left**: the chunks the other one serves, and after
them acknowledgments, at least one if and only if it has served a good chunk itself.

**Proof sketch.** By `Duplex.history_of_run` each session has got what the other one sent. A session
first gets the request and answers it with chunks; everything else it gets are chunks and
acknowledgments, so all its other answers are acknowledgments. -/
theorem got_of_quiet (hfaithful : env.store.Faithful env.blake3) {total total' : ℕ}
    (hstateA : a.state = .transferring total 0) (hstateB : b.state = .transferring total' 0)
    (hsentA : a.sentChunks = ∅) (hsentB : b.sentChunks = ∅)
    (hrun : Exchanged env (asking a b wantA wantB) x) (hquiet : x.Quiet) :
    ∃ a₁ chunks own gotChunks gotAcks, Undisturbed a a₁ ∧ Serves env b wantA chunks ∧
      Serves env a wantB own ∧ Carries env gotChunks chunks ∧
      (∀ c ∈ gotAcks, ∃ ack, c.2 = .ack ack) ∧
      (gotAcks ≠ [] ↔ ∃ chunk ∈ own, Good env chunk) ∧
      x.left = (feed exchangeStep gotAcks (feed exchangeStep gotChunks a₁).1).1 := by
  obtain ⟨gotA, gotB, hgotA, hgotB, hhistory⟩ := Duplex.history_of_run
    (fun e s m _ hm m' hm' => (isReply_exchangeStep e s m hm m' hm').isExchanged) all_asking hrun
  have hreplies : ∀ {got : List (Env σ × Message)}, (∀ c ∈ got, Alike env c.1 ∧ IsExchanged c.2) →
      ∀ s, ∀ m ∈ (feed exchangeStep got s).2, IsReply m := fun hgot s =>
    Duplex.forall_mem_feed (fun e s m _ hm => isReply_exchangeStep e s m hm) hgot s
  have htoA := hhistory.toLeft_eq
  have htoB := hhistory.toRight_eq
  have hleft := hhistory.left_eq
  rw [hquiet.1, List.append_nil] at htoA
  rw [hquiet.2, List.append_nil] at htoB
  obtain ⟨⟨eA, mA⟩, restA, rfl, hmA, hrestA⟩ := List.map_eq_cons_iff.mp htoA.symm
  obtain ⟨⟨eB, mB⟩, restB, rfl, hmB, hrestB⟩ := List.map_eq_cons_iff.mp htoB.symm
  obtain rfl : mA = .want wantB := hmA
  obtain rfl : mB = .want wantA := hmB
  have hreplyA : ∀ c ∈ restA, Alike env c.1 ∧ IsReply c.2 := by
    intro c hc
    have hmem := List.mem_map_of_mem (f := Prod.snd) hc
    rw [hrestA] at hmem
    exact ⟨(hgotA c (List.mem_cons_of_mem _ hc)).1, hreplies hgotB b c.2 hmem⟩
  have hreplyB : ∀ c ∈ restB, Alike env c.1 ∧ IsReply c.2 := by
    intro c hc
    have hmem := List.mem_map_of_mem (f := Prod.snd) hc
    rw [hrestB] at hmem
    exact ⟨(hgotB c (List.mem_cons_of_mem _ hc)).1, hreplies hgotA a c.2 hmem⟩
  obtain ⟨a₁, own, hserveA, hundisturbedA, hown⟩ := exchangeStep_want_serves hfaithful
    (hgotA _ List.mem_cons_self).1 hstateA hsentA wantB
  obtain ⟨b₁, chunks, hserveB, hundisturbedB, hchunks⟩ := exchangeStep_want_serves hfaithful
    (hgotB _ List.mem_cons_self).1 hstateB hsentB wantA
  rw [asking, feed, hserveA] at hrestB hleft
  rw [asking, feed, hserveB] at hrestA
  obtain ⟨gotChunks, gotAcks, rfl, hcarries, hacks⟩ := exists_carries
    (fun c hc => (hgotA c (List.mem_cons_of_mem _ hc)).1) hrestA
  obtain ⟨gotOwn, gotAcksB, rfl, hcarriesB, hacksB⟩ := exists_carries
    (fun c hc => (hgotB c (List.mem_cons_of_mem _ hc)).1) hrestB
  have hgotAcks : ∀ c ∈ gotAcks, ∃ ack, c.2 = .ack ack := by
    intro c hc
    have hmem := List.mem_map_of_mem (f := Prod.snd) hc
    rw [hacks] at hmem
    exact Duplex.forall_mem_feed (fun e s m _ hm => isAck_exchangeStep e s m hm) hreplyB b₁ c.2 hmem
  have hgotAcksB : ∀ c ∈ gotAcksB, ∃ ack, c.2 = .ack ack := by
    intro c hc
    have hmem := List.mem_map_of_mem (f := Prod.snd) hc
    rw [hacksB] at hmem
    exact Duplex.forall_mem_feed (fun e s m _ hm => isAck_exchangeStep e s m hm) hreplyA a₁ c.2 hmem
  refine ⟨a₁, chunks, own, gotChunks, gotAcks, hundisturbedA, hchunks, hown, hcarries, hgotAcks,
    ?_, ?_⟩
  · have hanswers := feed_chunks_answers hfaithful hcarriesB
      (hundisturbedB.state_eq.trans hstateB)
    rw [Duplex.feed_append, feed_acks_answers hgotAcksB, List.append_nil] at hacks
    rw [← hanswers, ← hacks]
    simp
  · rw [← hleft]
    simp [Duplex.feed_append]

/-- **The chunks that are served to a session whose chunks are all present**: the first ten it
wants, and what the store gives back for them. -/
lemma Serves.of_present (hpresent : Present env a b)
    {order : IterOrder Text} {chunks : List ChunkData}
    (hwant : wantA.chunkHashes = ((order.iter a.wantedChunks).take SyncSession.MAX_WANT_CHUNKS).map
      fun hash => (Hex.decode hash).getD [])
    (h : Serves env b wantA chunks) :
    chunks.length = min MAX_CONCURRENT_TRANSFERS a.wantedChunks.card ∧
    (∀ chunk ∈ chunks, ∃ hash : ContentHash, chunk.hash = hash.asBytes ∧
      hash.toHex ∈ a.wantedChunks ∧ (env.store.read b.cas hash).1 = .ok chunk.data) ∧
    (a.wantedChunks.card ≤ MAX_CONCURRENT_TRANSFERS → ∀ text ∈ a.wantedChunks,
      ∃ chunk ∈ chunks, text = Hex.encode chunk.hash) := by
  have htake := take_chunkHashes (fun text htext => (hpresent text htext).imp fun _ h => h.1) hwant
  have hasked : ∀ bytes ∈ wantA.chunkHashes.take MAX_CONCURRENT_TRANSFERS,
      ∃ hash : ContentHash, bytes = hash.asBytes ∧ hash.toHex ∈ a.wantedChunks ∧
        env.store.Has b.cas hash := by
    intro bytes hbytes
    have hmem := List.mem_map_of_mem (f := Hex.encode) hbytes
    rw [htake] at hmem
    have hwanted := order.mem_iter.mp (List.mem_of_mem_take hmem)
    obtain ⟨hash, heq, hhas⟩ := hpresent _ hwanted
    obtain rfl : bytes = hash.asBytes := Hex.encode_injective heq
    exact ⟨hash, rfl, hwanted, hhas⟩
  have hlong : ∀ bytes ∈ wantA.chunkHashes.take MAX_CONCURRENT_TRANSFERS, 32 ≤ bytes.length := by
    intro bytes hbytes
    obtain ⟨hash, rfl, -, -⟩ := hasked bytes hbytes
    exact hash.length_asBytes.ge
  have hnodup : (wantA.chunkHashes.take MAX_CONCURRENT_TRANSFERS).Nodup := by
    refine List.Nodup.of_map Hex.encode ?_
    rw [htake]
    exact (order.nodup_iter _).sublist (List.take_sublist _ _)
  have hmem : ∀ bytes, bytes ∈ chunks.map ChunkData.hash ↔
      bytes ∈ wantA.chunkHashes.take MAX_CONCURRENT_TRANSFERS := by
    intro bytes
    refine ⟨h.hash_mem bytes, fun hin => h.complete hlong bytes hin ?_⟩
    obtain ⟨hash, rfl, -, data, hread⟩ := hasked bytes hin
    exact ⟨data, holds_asBytes.mpr hread⟩
  refine ⟨?_, fun chunk hchunk => ?_, fun hcard text htext => ?_⟩
  · have hperm := (List.perm_ext_iff_of_nodup h.nodup hnodup).mpr hmem
    have hlen := congrArg List.length htake
    rw [List.length_map] at hlen
    rw [← List.length_map (f := ChunkData.hash), hperm.length_eq, hlen, List.length_take,
      order.length_iter]
  · obtain ⟨hash, heq, hwanted, -⟩ := hasked _ ((hmem _).mp (List.mem_map_of_mem hchunk))
    have hdata := h.holds chunk hchunk
    rw [heq, holds_asBytes] at hdata
    exact ⟨hash, heq, hwanted, hdata⟩
  · have hall : (order.iter a.wantedChunks).take MAX_CONCURRENT_TRANSFERS =
        order.iter a.wantedChunks :=
      List.take_of_length_le ((order.length_iter _).trans_le hcard)
    have hin := order.mem_iter.mpr htext
    rw [← hall, ← htake] at hin
    obtain ⟨bytes, hbytes, rfl⟩ := List.mem_map.mp hin
    obtain ⟨chunk, hchunk, rfl⟩ := List.mem_map.mp ((hmem bytes).mpr hbytes)
    exact ⟨chunk, hchunk, rfl⟩

/-- **When an exchange leaves a session completed.** Two sessions have handled each other's manifest
and asked each other for chunks; every chunk the first one wants is in the store of the second one.
The exchange ends, and whenever it has ended, the first session is completed and has stored all it
wants if and only if it wants at least one chunk and at most ten, none of them too large, and the
second session has asked it for a chunk that it has.

**Proof sketch.** The session gets the first ten of the chunks it wants. With none of them, with
more than ten wanted, or with one that is too large, it goes on waiting. With all of them it
verifies, and completes if it gets an acknowledgment, which is if it has served a good chunk itself.
-/
theorem exchange_completes_iff (hfaithful : env.store.Faithful env.blake3)
    {a₀ b₀ : LiveSession σ} {envA envB : Env σ} {manifestA manifestB : ProtoManifest}
    (ha : handleManifest envA a₀ manifestB = (.ok wantA, a))
    (hb : handleManifest envB b₀ manifestA = (.ok wantB, b))
    (hsentA : a₀.sentChunks = ∅) (hsentB : b₀.sentChunks = ∅) (hpresent : Present env a b) :
    (∀ x, Exchanged env (asking a b wantA wantB) x → ∃ x', Exchanged env x x' ∧ x'.Quiet) ∧
    ∀ x, Exchanged env (asking a b wantA wantB) x → x.Quiet →
      ((x.left.state = .completed ∧ Present env a x.left) ↔
        1 ≤ a.wantedChunks.card ∧ a.wantedChunks.card ≤ MAX_CONCURRENT_TRANSFERS ∧
        (∀ hash data, hash.toHex ∈ a.wantedChunks → (env.store.read b.cas hash).1 = .ok data →
          data.length ≤ Cas.MAX_OBJECT_SIZE) ∧
        Answerable env a wantB) := by
  refine ⟨fun x => exists_quiet_of_exchanged, fun x hrun hquiet => ?_⟩
  obtain ⟨hwantA, hstateA, hsentA'⟩ := handleManifest_request ha
  obtain ⟨-, hstateB, hsentB'⟩ := handleManifest_request hb
  obtain ⟨a₁, chunks, own, gotChunks, gotAcks, hundisturbed, hchunks, hown, hcarries, hacks,
    hacked, hleft⟩ := got_of_quiet hfaithful hstateA hstateB (hsentA'.trans hsentA)
    (hsentB'.trans hsentB) hrun hquiet
  rw [hown.exists_good_iff hfaithful] at hacked
  have hstate₁ := hundisturbed.state_eq.trans hstateA
  obtain ⟨hlen, hserved, hall⟩ := hchunks.of_present hpresent hwantA
  have hgood : ∀ chunk ∈ chunks, Good env chunk ↔ chunk.data.length ≤ Cas.MAX_OBJECT_SIZE := by
    intro chunk hchunk
    obtain ⟨hash, heq, -, hread⟩ := hserved chunk hchunk
    rw [Good, heq, (hfaithful.read_genuine hread).1]
    simp
  -- a session that is sent too few good chunks goes on waiting
  have hwaits : (chunks.filter (Good env)).length = 0 ∨
      0 + (chunks.filter (Good env)).length < a.wantedChunks.card →
      x.left.state ≠ .completed := by
    intro hfew
    have hfed := feed_chunks_of_few hfaithful hcarries hstate₁ hfew
    rw [hleft, feed_acks hacks (by simp [hfed]), hfed]
    simp
  have hfilter := List.length_filter_le (fun chunk => decide (Good env chunk)) chunks
  by_cases hzero : a.wantedChunks.card = 0
  · exact iff_of_false (fun h => hwaits (by omega) h.1) (fun h => by omega)
  by_cases hmany : MAX_CONCURRENT_TRANSFERS < a.wantedChunks.card
  · exact iff_of_false (fun h => hwaits (by omega) h.1) (fun h => by omega)
  have hlen' : chunks.length = a.wantedChunks.card := by omega
  by_cases hlarge : ∃ chunk ∈ chunks, ¬ Good env chunk
  · obtain ⟨chunk, hchunk, hbad⟩ := hlarge
    have hlt : (chunks.filter (Good env)).length < chunks.length :=
      List.length_filter_lt_length_iff_exists.mpr ⟨chunk, hchunk, by simpa using hbad⟩
    refine iff_of_false (fun h => hwaits (by omega) h.1) (fun h => hbad ?_)
    obtain ⟨hash, -, hwanted, hread⟩ := hserved chunk hchunk
    exact (hgood chunk hchunk).mpr (h.2.2.1 hash chunk.data hwanted hread)
  · simp only [not_exists, not_and, not_not] at hlarge
    have hne : ∀ chunk ∈ chunks, chunk.data ≠ [] := by
      intro chunk hchunk
      obtain ⟨hash, -, -, hread⟩ := hserved chunk hchunk
      exact (hfaithful.read_genuine hread).2
    obtain ⟨hwanted, -, hstored, hverify⟩ := feed_chunks_of_good hfaithful hcarries
      (fun chunk hchunk => ⟨hlarge chunk hchunk, hne chunk hchunk⟩) hstate₁ (by omega)
    have hverify' := hverify (by rintro rfl; simp at hlen'; omega) (by omega)
    have hcard : a.wantedChunks.card ≤ MAX_CONCURRENT_TRANSFERS := not_lt.mp hmany
    have hnone : (feed exchangeStep gotChunks a₁).1.wantedChunks = ∅ := by
      rw [hwanted, hundisturbed.wanted_eq, Finset.sdiff_eq_empty_iff_subset]
      intro text htext
      obtain ⟨chunk, hchunk, rfl⟩ := hall hcard text htext
      exact List.mem_toFinset.mpr (List.mem_map_of_mem hchunk)
    obtain ⟨hcompleted, hcas⟩ := feed_acks_of_verifying hacks hverify' hnone
    rw [← hleft] at hcompleted hcas
    have hpresent' : Present env a x.left := by
      intro text htext
      obtain ⟨chunk, hchunk, rfl⟩ := hall hcard text htext
      have hhash := (hlarge chunk hchunk).1
      refine ⟨env.blake3 chunk.data, by rw [← hhash]; rfl, ?_⟩
      rw [hcas]
      exact hstored chunk hchunk
    rw [hcompleted, hacked]
    constructor
    · rintro ⟨hanswer, -⟩
      refine ⟨by omega, hcard, fun hash data hwants hread => ?_, hanswer⟩
      obtain ⟨chunk, hchunk, heq⟩ := hall hcard _ hwants
      obtain ⟨hash', heq', -, hread'⟩ := hserved chunk hchunk
      obtain rfl : hash = hash' := by
        refine ContentHash.ext (Hex.encode_injective ?_)
        rw [← heq']
        exact heq
      rw [hread] at hread'
      obtain rfl := Except.ok.inj hread'
      exact (hgood chunk hchunk).mp (hlarge chunk hchunk)
    · rintro ⟨-, -, -, hanswer⟩
      exact ⟨hanswer, hpresent'⟩

end Run

section Examples

/-- A session that has loaded a manifest with these chunks, and has some objects. -/
private def holder (chunks : List ContentHash) (objects : HashMap ContentHash Bytes) :
    LiveSession (HashMap ContentHash Bytes) :=
  { new "peer".toList "Peer".toList objects ∅ with
    state := .computingDiff
    ourManifest := some
      { folderId := "folder".toList
        version := 1
        files := [⟨"a".toList, 1, ⟨0, 0⟩, [], chunks.map ContentHash.toHex, none⟩]
        createdAt := ⟨0, 0⟩
        manifestHash := none } }

/-- The manifest of a folder without files. -/
private def noneListed : ProtoManifest := ⟨"folder".toList, [], none, []⟩

/-- The hash of the chunk with this byte. -/
private def hashOf (b : UInt8) : ContentHash := ContentHash.blake3Sample [b]

/-- The objects of a store with the chunk of this byte. -/
private def storing (b : UInt8) : HashMap ContentHash Bytes :=
  (∅ : HashMap ContentHash Bytes).insert (hashOf b) [b]

/-- The session `holder` after it has handled a manifest without files. -/
private def asker (chunks : List ContentHash) (objects : HashMap ContentHash Bytes) :
    LiveSession (HashMap ContentHash Bytes) :=
  (handleManifest memoryEnv (holder chunks objects) noneListed).2

/-- The request of a session for some chunks. -/
private def wantOf (chunks : List ContentHash) : Want :=
  { folderId := "folder".toList, chunkHashes := chunks.map ContentHash.asBytes, priority := 1 }

private lemma present_storing :
    Present memoryEnv (asker [hashOf 1] (storing 2)) (asker [] (storing 1)) ∧
      Present memoryEnv (asker [hashOf 1] (storing 2)) (asker [hashOf 2] (storing 1)) := by
  have hwanted : (asker [hashOf 1] (storing 2)).wantedChunks = {(hashOf 1).toHex} := by
    decide +kernel
  have hread : ∀ b : LiveSession (HashMap ContentHash Bytes), b.cas = storing 1 →
      Present memoryEnv (asker [hashOf 1] (storing 2)) b := by
    intro b hb text htext
    rw [hwanted, Finset.mem_singleton] at htext
    refine ⟨hashOf 1, htext, [1], read_memoryStore.mpr ?_⟩
    rw [hb]
    decide +kernel
  exact ⟨hread _ rfl, hread _ rfl⟩

/-- Two sessions that want a chunk from each other both get it, and complete. -/
theorem exchange_completes_of_one_each : ∃ x,
    Exchanged memoryEnv (asking (asker [hashOf 1] (storing 2)) (asker [hashOf 2] (storing 1))
      (wantOf [hashOf 1]) (wantOf [hashOf 2])) x ∧ x.Quiet ∧ x.left.state = .completed ∧
      Present memoryEnv (asker [hashOf 1] (storing 2)) x.left := by
  have ha : handleManifest memoryEnv (holder [hashOf 1] (storing 2)) noneListed =
      (.ok (wantOf [hashOf 1]), asker [hashOf 1] (storing 2)) :=
    Prod.ext (by decide +kernel) rfl
  have hb : handleManifest memoryEnv (holder [hashOf 2] (storing 1)) noneListed =
      (.ok (wantOf [hashOf 2]), asker [hashOf 2] (storing 1)) :=
    Prod.ext (by decide +kernel) rfl
  have hfaithful : memoryEnv.store.Faithful memoryEnv.blake3 :=
    faithful_memoryStore ContentHash.blake3Sample
  obtain ⟨hends, hiff⟩ := exchange_completes_iff hfaithful ha hb rfl rfl
    present_storing.2
  obtain ⟨x, hrun, hquiet⟩ := hends _ .refl
  have hcard : (asker [hashOf 1] (storing 2)).wantedChunks.card = 1 := by decide +kernel
  refine ⟨x, hrun, hquiet, (hiff x hrun hquiet).mpr ⟨hcard.ge, hcard.trans_le (by decide),
    fun hash data hwanted hread => ?_, by decide +kernel, hashOf 2, by decide +kernel, [2],
    read_memoryStore.mpr (by decide +kernel), by decide +kernel⟩⟩
  have hlookup := (read_memoryStore.mp hread).1
  by_cases hone : hash = hashOf 1
  · subst hone
    have hdata : some [1] = some data := hlookup
    obtain rfl := Option.some.inj hdata
    decide +kernel
  · have hnone : (storing 1).lookup hash = none := by
      rw [storing, Finmap.lookup_insert_of_ne _ hone, Finmap.lookup_empty]
    have hfound : (storing 1).lookup hash = some data := hlookup
    rw [hnone] at hfound
    cases hfound

/-- The deliveries of an exchange in which only the first session wants a chunk. -/
private def deliveries : List (Duplex.Side × Env (HashMap ContentHash Bytes)) :=
  [(.right, memoryEnv), (.left, memoryEnv), (.left, memoryEnv), (.right, memoryEnv)]

/-- A session that wants one chunk gets it, and does not complete, if the other one wants none. -/
theorem not_forall_exchange_completes :
    ¬ ∀ (a₀ b₀ a b : LiveSession (HashMap ContentHash Bytes)) (manifestA manifestB : ProtoManifest)
      (wantA wantB : Want) (x : Duplex (LiveSession (HashMap ContentHash Bytes)) Message),
      handleManifest memoryEnv a₀ manifestB = (.ok wantA, a) →
      handleManifest memoryEnv b₀ manifestA = (.ok wantB, b) →
      a₀.sentChunks = ∅ → b₀.sentChunks = ∅ → Present memoryEnv a b →
      Exchanged memoryEnv (asking a b wantA wantB) x → x.Quiet →
      x.left.state = .completed ∧ Present memoryEnv a x.left := by
  intro hall
  have hexec : (Runs.exec (Duplex.deliver exchangeStep) (fun _ _ => True) deliveries
      (asking (asker [hashOf 1] (storing 2)) (asker [] (storing 1)) (wantOf [hashOf 1])
        (wantOf []))).map (fun x => (x.left.state, x.toLeft, x.toRight)) =
      some (.verifying, [], []) := by decide +kernel
  obtain ⟨x, hx, hfields⟩ := Option.map_eq_some_iff.mp hexec
  obtain ⟨hstate, hto⟩ := Prod.mk.inj hfields
  have hrun := Runs.run_of_exec_of_forall (C := fun _ d => Alike memoryEnv d.2) hx
    (by simp [deliveries, Alike])
  have ha : handleManifest memoryEnv (holder [hashOf 1] (storing 2)) noneListed =
      (.ok (wantOf [hashOf 1]), asker [hashOf 1] (storing 2)) :=
    Prod.ext (by decide +kernel) rfl
  have hb : handleManifest memoryEnv (holder [] (storing 1)) noneListed =
      (.ok (wantOf []), asker [] (storing 1)) :=
    Prod.ext (by decide +kernel) rfl
  have hcompleted := hall _ _ _ _ _ _ _ _ x ha hb rfl rfl present_storing.1 hrun
    (Prod.mk.inj hto)
  rw [hstate] at hcompleted
  cases hcompleted.1

end Examples

end LiveSession

end Landropic
