import Landropic.Foundations.Bytes

set_option autoImplicit false

/-!
# Lines of text

A text is a list of lines, each ended by a line feed, with perhaps a carriage return before it. The
last line may lack its end. What is read from a file is a text only if its bytes are valid UTF-8.

## Main definitions

* `Text.fromUtf8` — the text of some bytes, if they are valid UTF-8.
* `Text.toStringLossy` — the text of any bytes, with replacement characters.
* `Text.lines`, `Text.joinLines` — the lines of a text, and the text of some lines.
* `Text.isBlank` — nothing but white space.

## Main results

* `Text.fromUtf8_utf8` — what is written can be read.
* `Text.lines_joinLines` — joined lines are read back, without carriage returns at their ends.
* `Text.newline_notMem_of_mem_lines` — no line has a line feed in it.
-/

namespace Text

/-! ## Bytes -/

/-- The text whose UTF-8 bytes these are, if there is one. -/
def fromUtf8 (bytes : Bytes) : Option Text := bytes.toByteArray.utf8Decode?.map Array.toList

/-- **What is written can be read.** -/
@[simp] theorem fromUtf8_utf8 (text : Text) : fromUtf8 text.utf8 = some text := by
  have hbytes : text.utf8.toByteArray = List.utf8Encode text := rfl
  rw [fromUtf8, hbytes, List.utf8Decode?_utf8Encode]
  rfl

/-- The ranges of the bytes that follow a first one in UTF-8. -/
def following (b : UInt8) : List (UInt8 × UInt8) :=
  if 0xC2 ≤ b ∧ b ≤ 0xDF then [(0x80, 0xBF)]
  else if b = 0xE0 then [(0xA0, 0xBF), (0x80, 0xBF)]
  else if b = 0xED then [(0x80, 0x9F), (0x80, 0xBF)]
  else if 0xE1 ≤ b ∧ b ≤ 0xEF then [(0x80, 0xBF), (0x80, 0xBF)]
  else if b = 0xF0 then [(0x90, 0xBF), (0x80, 0xBF), (0x80, 0xBF)]
  else if b = 0xF4 then [(0x80, 0x8F), (0x80, 0xBF), (0x80, 0xBF)]
  else if 0xF1 ≤ b ∧ b ≤ 0xF3 then [(0x80, 0xBF), (0x80, 0xBF), (0x80, 0xBF)]
  else []

/-- How many of the first bytes are in the ranges. -/
def inRanges : List (UInt8 × UInt8) → Bytes → ℕ
  | range :: ranges, b :: rest =>
    if range.1 ≤ b ∧ b ≤ range.2 then inRanges ranges rest + 1 else 0
  | _, _ => 0

/-- The text of some bytes, with a replacement character for each stretch of them that is none, in
at most so many steps. -/
def lossyFrom : ℕ → Bytes → Text
  | 0, _ => []
  | _, [] => []
  | fuel + 1, b :: rest =>
    let n := inRanges (following b) rest
    (fromUtf8 (b :: rest.take n)).getD ['\uFFFD'] ++ lossyFrom fuel (rest.drop n)

/-- The text of some bytes, with replacement characters where they are none. -/
def toStringLossy (bytes : Bytes) : Text := lossyFrom bytes.length bytes

lemma toStringLossy_slash (rest : Bytes) :
    toStringLossy (47 :: rest) = '/' :: toStringLossy rest := by
  have hslash : fromUtf8 [47] = some ['/'] := fromUtf8_utf8 ['/']
  rw [toStringLossy, List.length_cons, lossyFrom, show following 47 = [] from rfl, inRanges,
    List.take_zero, List.drop_zero, hslash]
  · rfl
  · exact nofun

/-! ## Lines -/

/-- The characters of the property White_Space. -/
def isWhitespace (c : Char) : Bool :=
  let n := c.toNat
  (9 ≤ n && n ≤ 13) || n == 32 || n == 0x85 || n == 0xA0 || n == 0x1680 ||
    (0x2000 ≤ n && n ≤ 0x200A) || n == 0x2028 || n == 0x2029 || n == 0x202F || n == 0x205F ||
    n == 0x3000

/-- Nothing is left of the text once it is trimmed. -/
def isBlank (text : Text) : Bool := text.all isWhitespace

/-- A line without the carriage return at its end. -/
def stripCr (line : Text) : Text := if line.getLast? = some '\r' then line.dropLast else line

/-- The lines of a text. A last line that is not ended keeps a carriage return. -/
def lines (text : Text) : List Text :=
  let parts := text.splitOn '\n'
  parts.dropLast.map stripCr ++
    match parts.getLast? with
    | some [] => []
    | some last => [last]
    | none => []

/-- The text of some lines, with a line feed between two lines and one at the end. -/
def joinLines (ls : List Text) : Text := ['\n'].intercalate ls ++ ['\n']

lemma eq_stripCr (line : Text) : line = stripCr line ++ ['\r'] ∨ line = stripCr line := by
  unfold stripCr
  split
  · next h =>
    left
    obtain ⟨hne, hlast⟩ := List.getLast?_eq_some_iff.mp h
    simp [hlast]
  · exact .inr rfl

lemma mem_of_mem_stripCr {line : Text} {c : Char} (h : c ∈ stripCr line) : c ∈ line := by
  rcases eq_stripCr line with heq | heq
  · rw [heq]
    exact List.mem_append_left _ h
  · rw [heq]
    exact h

lemma newline_notMem_of_mem_splitOn {text part : Text} (h : part ∈ text.splitOn '\n') :
    '\n' ∉ part := by
  induction text generalizing part with
  | nil =>
    obtain rfl : part = [] := by simpa using h
    simp
  | cons c text ih =>
    rw [List.splitOn_cons_eq_if_modifyHead] at h
    split at h
    · rcases List.mem_cons.mp h with rfl | h
      · simp
      · exact ih h
    · next hc =>
      obtain ⟨first, rest, heq⟩ := List.exists_cons_of_ne_nil (List.splitOn_ne_nil '\n' text)
      rw [heq] at h ih
      rcases List.mem_cons.mp h with rfl | h
      · have hfirst := ih List.mem_cons_self
        simp only [beq_iff_eq] at hc
        simp [hfirst, Ne.symm hc]
      · exact ih (List.mem_cons_of_mem _ h)

/-- **No line has a line feed in it.** -/
theorem newline_notMem_of_mem_lines {text line : Text} (h : line ∈ text.lines) : '\n' ∉ line := by
  rcases List.mem_append.mp h with h | h
  · obtain ⟨part, hpart, rfl⟩ := List.mem_map.mp h
    intro hc
    exact newline_notMem_of_mem_splitOn ((List.dropLast_sublist _).mem hpart)
        (mem_of_mem_stripCr hc)
  · split at h
    · simp at h
    · next last hlast =>
      obtain rfl := List.mem_singleton.mp h
      exact newline_notMem_of_mem_splitOn (List.mem_of_getLast? hlast)
    · simp at h

/-- **Joined lines are read back.** No lines at all make one empty line. -/
theorem lines_joinLines {ls : List Text} (h : ∀ line ∈ ls, '\n' ∉ line) :
    (joinLines ls).lines = if ls = [] then [[]] else ls.map stripCr := by
  have hsplit : (joinLines ls).splitOn '\n' = (['\n'].intercalate ls).splitOn '\n' ++ [[]] :=
    List.splitOn_append_cons_self _ []
  rw [lines, hsplit]
  split_ifs with hnil
  · subst hnil
    rfl
  · rw [List.splitOn_intercalate _ h hnil]
    simp

end Text
