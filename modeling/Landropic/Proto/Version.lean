import Mathlib.Data.List.Infix
import Landropic.Foundations.Bytes

set_option autoImplicit false

/-!
# Versions of the protocol

A version is a text of three numbers. Versions are compatible if they have the same major number.

## Main definitions

* `VersionNegotiator.parseVersion` — the numbers of a version.
* `VersionNegotiator.isCompatible` — the versions that are compatible with ours.

## Main results

* `VersionNegotiator.exists_of_isCompatible` — what a compatible version looks like.
-/

namespace Landropic

namespace VersionNegotiator

/-- Protocol version for compatibility checking. -/
def PROTOCOL_VERSION : Text := "0.1.0".toList

def PROTOCOL_VERSION_MAJOR : ℕ := 0

def PROTOCOL_VERSION_MINOR : ℕ := 1

def PROTOCOL_VERSION_PATCH : ℕ := 0

/-- Parse a 32-bit number: decimal digits, after at most one plus sign. -/
def parseU32 (text : Text) : Option ℕ :=
  let digits := if ['+'] <+: text then text.drop 1 else text
  if digits = [] ∨ ¬ digits.all Char.isDigit then none
  else
    let n := digits.foldl (fun n c => 10 * n + (c.toNat - 48)) 0
    if n < 2 ^ 32 then some n else none

/-- Parse a version text like `0.1.0` into major, minor and patch version. -/
def parseVersion (version : Text) : Option (ℕ × ℕ × ℕ) :=
  match version.splitOn '.' with
  | [major, minor, patch] => do
    let major ← parseU32 major
    let minor ← parseU32 minor
    let patch ← parseU32 patch
    some (major, minor, patch)
  | _ => none

/-- Check if a peer version is compatible with our version: they have the same major version. -/
def isCompatible (peerVersion : Text) : Bool :=
  match parseVersion peerVersion with
  | some (peerMajor, _, _) => peerMajor = PROTOCOL_VERSION_MAJOR
  | none => false

/-- Get a user-friendly compatibility error message. -/
def compatibilityError (peerVersion : Text) : String :=
  match parseVersion peerVersion with
  | some (peerMajor, peerMinor, peerPatch) =>
    s!"Protocol version incompatible: peer {peerMajor}.{peerMinor}.{peerPatch}, we support " ++
      s!"{PROTOCOL_VERSION_MAJOR}.{PROTOCOL_VERSION_MINOR}.{PROTOCOL_VERSION_PATCH} " ++
      "(major version must match)"
  | none =>
    s!"Invalid protocol version format '{String.ofList peerVersion}', expected format like " ++
      s!"'{String.ofList PROTOCOL_VERSION}'"

lemma dot_notMem_of_parseU32 {text : Text} {n : ℕ} (h : parseU32 text = some n) : '.' ∉ text := by
  have hdigits : (if ['+'] <+: text then text.drop 1 else text).all Char.isDigit = true := by
    by_contra hno
    unfold parseU32 at h
    simp only [hno, not_false_eq_true, or_true, if_true] at h
    cases h
  intro hdot
  by_cases hplus : ['+'] <+: text
  · obtain ⟨rest, rfl⟩ := hplus
    have hrest : '.' ∈ rest := by simpa using hdot
    rw [if_pos (List.prefix_append _ _)] at hdigits
    exact absurd (List.all_eq_true.mp hdigits '.' hrest) (by decide)
  · rw [if_neg hplus] at hdigits
    exact absurd (List.all_eq_true.mp hdigits '.' hdot) (by decide)

/-- **A compatible version** starts with a number that is zero, up to a dot. -/
theorem exists_of_isCompatible {version : Text} (h : isCompatible version = true) :
    ∃ major rest, version = major ++ '.' :: rest ∧ parseU32 major = some 0 := by
  unfold isCompatible at h
  split at h
  · next peerMajor peerMinor peerPatch hparse =>
    obtain rfl : peerMajor = PROTOCOL_VERSION_MAJOR := of_decide_eq_true h
    unfold parseVersion at hparse
    split at hparse
    · next major minor patch hparts =>
      obtain ⟨n, hmajor, hparse⟩ := Option.bind_eq_some_iff.mp hparse
      obtain ⟨_, -, hparse⟩ := Option.bind_eq_some_iff.mp hparse
      obtain ⟨_, -, hparse⟩ := Option.bind_eq_some_iff.mp hparse
      obtain ⟨rfl, -⟩ := Prod.mk.inj (Option.some.inj hparse)
      refine ⟨major, minor ++ '.' :: patch, ?_, hmajor⟩
      have hsplit : List.intercalate ['.'] (version.splitOn '.') = version :=
        List.intercalate_splitOn '.'
      rw [← hsplit, hparts]
      simp [List.intercalate]
    · cases hparse
  · cases h

end VersionNegotiator

end Landropic
