import Landropic.Cas.Packfile

set_option autoImplicit false

/-!
# The footer of a packfile

The last 32 bytes of a packfile are to be the hash of all the bytes before them. The writer takes
that hash while the header still counts no entries, and writes the count afterwards, so the footer
belongs to a file that differs from the one it ends.

## Main definitions

* `Cas.PackfileWriter.addEach` — calls that add chunks, whatever each of them returns.
* `Cas.PackfileWriter.finished` — the directory with a packfile from its creation on.
* `Cas.Authentic` — the last 32 bytes are the hash of the others.

## Main results

* `Cas.PackfileWriter.authentic_finished_iff` — the footer is right exactly when no chunk was added,
  or the hashes of the two files collide.
-/

namespace Landropic.Cas

/-- The last 32 bytes are the hash of all the bytes before them. -/
def Authentic (blake3 : Bytes → ContentHash) (content : Bytes) : Prop :=
  ∃ front, content = front ++ (blake3 front).asBytes

/-- The chunks that are not refused as too large. -/
def accepted (chunks : List PackChunk) : List PackChunk :=
  chunks.filter fun chunk => chunk.2.length ≤ 2 ^ 32 - 1

variable {blake3 : Bytes → ContentHash} {env : PackEnv} {path : Text} {w : PackfileWriter}
  {dir : Dir} {chunks : List PackChunk}

lemma authentic_append_iff {front : Bytes} {hash : ContentHash} :
    Authentic blake3 (front ++ hash.asBytes) ↔ hash = blake3 front := by
  constructor
  · rintro ⟨front', heq⟩
    have hlength : hash.asBytes.length = (blake3 front').asBytes.length := by simp
    obtain ⟨rfl, hhash⟩ := List.append_inj' heq hlength
    exact ContentHash.ext hhash
  · rintro rfl
    exact ⟨front, rfl⟩

namespace PackfileWriter

/-- Add chunks one after the other, whatever each of the calls returns. -/
def addEach : List PackChunk → PackfileWriter → Dir → PackfileWriter × Dir
  | [], w, dir => (w, dir)
  | (hash, data) :: rest, w, dir => addEach rest (w.addChunk hash data dir).2.1
      (w.addChunk hash data dir).2.2

/-- The directory after a packfile was created, chunks were added to it and it was finalized. -/
def finished (env : PackEnv) (path : Text) (dir : Dir) (chunks : List PackChunk) : Dir :=
  let created := new env path dir
  let added := addEach chunks created.1 created.2
  (added.1.finalize env added.2).2

end PackfileWriter

lemma Writing.addEach {before : List PackChunk} (h : Writing env path w dir before)
    (chunks : List PackChunk) : Writing env path (PackfileWriter.addEach chunks w dir).1
      (PackfileWriter.addEach chunks w dir).2 (before ++ accepted chunks) := by
  induction chunks generalizing w dir before with
  | nil => rwa [accepted, List.filter_nil, List.append_nil]
  | cons chunk chunks ih =>
    obtain ⟨hash, data⟩ := chunk
    rw [PackfileWriter.addEach]
    by_cases hle : data.length ≤ 2 ^ 32 - 1
    · obtain ⟨w', dir', hadd, h', -⟩ := h.addChunk hash hle
      have haccepted : accepted ((hash, data) :: chunks) = (hash, data) :: accepted chunks :=
        List.filter_cons_of_pos (decide_eq_true hle)
      have hrest := ih h'
      rw [List.append_assoc] at hrest
      rw [hadd, haccepted]
      exact hrest
    · have haccepted : accepted ((hash, data) :: chunks) = accepted chunks :=
        List.filter_cons_of_neg (mt of_decide_eq_true hle)
      rw [addChunk_of_lt (Nat.not_le.mp hle), haccepted]
      exact ih h

lemma lookup_finished (haccess : env.createAccess = .readWrite) :
    (PackfileWriter.finished env path dir chunks).lookup path =
      some (packed env.blake3 (accepted chunks)) := by
  obtain ⟨hnew, -⟩ := writing_new env path dir
  obtain ⟨hlookup, -, -⟩ := (hnew.addEach chunks).lookup_finalize haccess
  exact hlookup

/-- **The footer of a packfile is right** exactly when no chunk was added to it, or when the file
has the same hash with a count of zero.

**Proof sketch.** The footer is the hash of the header with a count of zero, the data and the table.
The count is patched after that, so the bytes before the footer are others unless it is zero. -/
theorem PackfileWriter.authentic_finished_iff (blake3 : Bytes → ContentHash) (overflowChecks : Bool)
    (path : Text) (dir : Dir) (chunks : List PackChunk) :
    (∃ content, (finished ⟨blake3, overflowChecks, .readWrite⟩ path dir chunks).lookup path =
        some content ∧ Authentic blake3 content) ↔
      accepted chunks = [] ∨
        blake3 (body 0 (accepted chunks)) = blake3 (body (accepted chunks).length (accepted chunks))
      := by
  rw [lookup_finished rfl]
  constructor
  · rintro ⟨_, hcontent, hauthentic⟩
    obtain rfl := Option.some.inj hcontent
    exact .inr (authentic_append_iff.mp hauthentic)
  · intro h
    refine ⟨_, rfl, authentic_append_iff.mpr ?_⟩
    rcases h with hnil | hsame
    · rw [hnil]
      rfl
    · exact hsame

/-- The bytes of a packfile with the chunk `01` up to its footer, with this count. -/
def bodySample (count : ℕ) : Bytes := body count [(ContentHash.blake3Sample [1], [1])]

/-- A function with the values of `blake3` on the byte `01` and on a packfile that holds it. -/
def footerSample (data : Bytes) : ContentHash :=
  if data = bodySample 0 then
    ⟨[83, 85, 254, 63, 185, 54, 146, 57, 250, 94, 168, 173, 250, 193, 193, 155,
      155, 122, 243, 209, 107, 235, 100, 250, 249, 15, 110, 88, 129, 223, 177, 153], rfl⟩
  else if data = bodySample 1 then
    ⟨[105, 104, 99, 97, 20, 155, 14, 157, 116, 111, 250, 247, 127, 207, 90, 123,
      170, 242, 128, 218, 244, 253, 140, 30, 17, 163, 245, 13, 108, 137, 122, 114], rfl⟩
  else ContentHash.blake3Sample data

/-- The footer of a packfile with a single byte is wrong. -/
theorem PackfileWriter.not_authentic_oneByte :
    ¬ ∃ content, (finished ⟨footerSample, true, .readWrite⟩ "test.pack".toList ∅
        [(ContentHash.blake3Sample [1], [1])]).lookup "test.pack".toList = some content ∧
      Authentic footerSample content := by
  rw [lookup_finished rfl]
  rintro ⟨_, hcontent, hauthentic⟩
  obtain rfl := Option.some.inj hcontent
  have hhash : footerSample (bodySample 0) = footerSample (bodySample 1) :=
    authentic_append_iff.mp hauthentic
  revert hhash
  decide +kernel

end Landropic.Cas
