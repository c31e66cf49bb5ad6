import Landropic.Proto.SyncHandler
import Landropic.Sync.Handlers

set_option autoImplicit false

/-!
# The versions that the two handlers accept

The session and the protocol handler have versions of their own, and read a version each in its own
way: the handler, as the validation of a greeting, parses three numbers and wants the first to be
zero; the session compares the text before the first dot with its own, which is `1`. So neither
takes the greeting of the other, and the session takes no greeting that is valid.

## Main definitions

* `SessionAccepts`, `HandlerAccepts` — a greeting is answered.
* `VersionsAgree` — valid greetings, and those that are sent, are answered by both.

## Main results

* `isVersionCompatible_of_isCompatible` — no version is compatible for both.
* `handlerAccepts_of_valid` — the protocol handler answers every valid greeting.
* `versionsAgree_iff` — when the rules agree.
-/

namespace Landropic

variable {σ : Type}

/-- The session answers a greeting. -/
def SessionAccepts (env : LiveSession.Env σ) (s : LiveSession σ) (hello : Hello) : Prop :=
  ∃ reply, (s.handleHello env hello).1 = .ok reply

/-- The protocol handler answers a greeting. -/
def HandlerAccepts (env : SyncProtocolHandler.Env) (h : SyncProtocolHandler) (hello : Hello) :
    Prop := ∃ reply, (h.handleHello env hello).1 = .ok reply

/-- The rules agree: a valid greeting is answered by both, and what either sends is valid and
answered by the other. -/
structure VersionsAgree (env : LiveSession.Env σ) (s : LiveSession σ)
    (henv : SyncProtocolHandler.Env) (h : SyncProtocolHandler) (hello : Hello) : Prop where
  accepted : validateHello hello = .ok () → SessionAccepts env s hello ∧ HandlerAccepts henv h hello
  sessionSends : ∀ greeting reply, (s.handleHello env greeting).1 = .ok reply →
    validateHello reply = .ok () ∧ HandlerAccepts henv h reply
  handlerSends : validateHello (h.createHello henv) = .ok () ∧
    SessionAccepts env s (h.createHello henv)

variable {env : LiveSession.Env σ} {s : LiveSession σ} {henv : SyncProtocolHandler.Env}
  {h : SyncProtocolHandler} {hello : Hello}

/-! ## Two ways to read a version -/

/-- **No version is compatible for both**: where the first number is zero, the text before the first
dot is not `1`. -/
theorem isVersionCompatible_of_isCompatible {version : Text}
    (hversion : VersionNegotiator.isCompatible version = true) :
    LiveSession.isVersionCompatible version = false := by
  obtain ⟨major, rest, rfl, hmajor⟩ := VersionNegotiator.exists_of_isCompatible hversion
  have hdot := VersionNegotiator.dot_notMem_of_parseU32 hmajor
  have htake : LiveSession.major (major ++ '.' :: rest) = major := by
    unfold LiveSession.major
    rw [List.takeWhile_append_of_pos fun c hc => ?_]
    · simp
    · exact decide_eq_true fun heq => hdot (heq ▸ hc)
  refine decide_eq_false fun heq => ?_
  have hone : major = ['1'] := htake.symm.trans (heq.symm.trans (by decide))
  rw [hone] at hmajor
  exact absurd hmajor (by decide)

/-! ## What is answered -/

lemma sessionAccepts_iff (hs : s.state = .initializing) :
    SessionAccepts env s hello ↔ LiveSession.isVersionCompatible hello.version = true := by
  unfold SessionAccepts LiveSession.handleHello
  cases hversion : LiveSession.isVersionCompatible hello.version with
  | true => simp [hs]
  | false => simp [hs]

lemma not_handlerAccepts (hversion : VersionNegotiator.isCompatible hello.version = false) :
    ¬ HandlerAccepts henv h hello := by
  rintro ⟨reply, hreply⟩
  unfold SyncProtocolHandler.handleHello at hreply
  split at hreply
  · cases hreply
  · simp only [hversion] at hreply
    cases hreply

/-- **The protocol handler answers every valid greeting.** -/
theorem handlerAccepts_of_valid (hh : h.state = .waitingForHello)
    (hvalid : validateHello hello = .ok ()) : HandlerAccepts henv h hello := by
  obtain ⟨hversion, -, hid, -⟩ := validateHello_eq_ok_iff.mp hvalid
  refine ⟨h.createHello henv, ?_⟩
  simp [SyncProtocolHandler.handleHello, hh, hversion, hid]

lemma version_of_handleHello {reply : Hello}
    (hreply : (s.handleHello env hello).1 = .ok reply) :
    reply.version = LiveSession.PROTOCOL_VERSION := by
  unfold LiveSession.handleHello at hreply
  split at hreply
  · cases hreply
  · split at hreply
    · cases hreply
    · rw [← Except.ok.inj hreply]

/-- **When the rules agree.** It is never so: a greeting that is to be answered by both if it is
valid is one that is not valid, as only the protocol handler answers the valid ones; no reply of the
session is valid, nor does the protocol handler answer it; and the session does not answer the
greeting of the protocol handler.

**Proof sketch.** A valid version has zero as its first number, so it does not start with `1.`, as
the session wants it to and as its own version does. -/
theorem versionsAgree_iff (hs : s.state = .initializing) (hh : h.state = .waitingForHello)
    (hello : Hello) :
    ((validateHello hello = .ok () → SessionAccepts env s hello ∧ HandlerAccepts henv h hello) ↔
      validateHello hello ≠ .ok ()) ∧
    (validateHello hello = .ok () → HandlerAccepts henv h hello) ∧
    (∀ greeting reply, (s.handleHello env greeting).1 = .ok reply →
      validateHello reply ≠ .ok () ∧ ¬ HandlerAccepts henv h reply) ∧
    ¬ SessionAccepts env s (h.createHello henv) ∧ ¬ VersionsAgree env s henv h hello := by
  have hsession : ¬ SessionAccepts env s (h.createHello henv) := by
    rw [sessionAccepts_iff hs]
    exact of_decide_eq_false rfl
  refine ⟨⟨fun hboth hvalid => ?_, fun hno hvalid => absurd hvalid hno⟩, handlerAccepts_of_valid hh,
    fun greeting reply hreply => ?_, hsession, fun hagree => hsession hagree.handlerSends.2⟩
  · have hversion := (sessionAccepts_iff hs).mp (hboth hvalid).1
    rw [isVersionCompatible_of_isCompatible (validateHello_eq_ok_iff.mp hvalid).1] at hversion
    cases hversion
  · have hversion : VersionNegotiator.isCompatible reply.version = false := by
      rw [version_of_handleHello hreply]
      decide
    refine ⟨fun hvalid => ?_, not_handlerAccepts hversion⟩
    rw [(validateHello_eq_ok_iff.mp hvalid).1] at hversion
    cases hversion

/-- A greeting with the version of the protocol handler. -/
def peerHello : Hello where
  version := "0.1.0".toList
  deviceId := List.replicate 32 7
  deviceName := "peer".toList
  capabilities := []
  timestamp := none

/-- The rules for the greeting, of a new session and a new protocol handler. -/
theorem versionsAgree_iff_peerHello :
    ((validateHello peerHello = .ok () →
        SessionAccepts LiveSession.memoryEnv (.new [] [] ∅ ∅) peerHello ∧
          HandlerAccepts (SyncProtocolHandler.sortedEnv false) (.new [] []) peerHello) ↔
      validateHello peerHello ≠ .ok ()) ∧
    (validateHello peerHello = .ok () →
      HandlerAccepts (SyncProtocolHandler.sortedEnv false) (.new [] []) peerHello) ∧
    (∀ greeting reply, (LiveSession.handleHello LiveSession.memoryEnv (.new [] [] ∅ ∅) greeting).1 =
      .ok reply → validateHello reply ≠ .ok () ∧
        ¬ HandlerAccepts (SyncProtocolHandler.sortedEnv false) (.new [] []) reply) ∧
    ¬ SessionAccepts LiveSession.memoryEnv (.new [] [] ∅ ∅)
      (SyncProtocolHandler.createHello (SyncProtocolHandler.sortedEnv false) (.new [] [])) ∧
    ¬ VersionsAgree LiveSession.memoryEnv (.new [] [] ∅ ∅) (SyncProtocolHandler.sortedEnv false)
      (.new [] []) peerHello :=
  versionsAgree_iff rfl rfl peerHello

/-- **A valid greeting that the session refuses.** -/
theorem not_versionsAgree_peerHello : validateHello peerHello = .ok () ∧
    (LiveSession.handleHello LiveSession.memoryEnv (.new [] [] ∅ ∅) peerHello).1 =
      .error (.err (.protocol "Protocol version 0.1.0 not compatible with 1.0.0")) ∧
    ¬ VersionsAgree LiveSession.memoryEnv (.new [] [] ∅ ∅) (SyncProtocolHandler.sortedEnv false)
      (.new [] []) peerHello := by
  have hvalid : validateHello peerHello = .ok () := by decide +kernel
  have hrefused : (LiveSession.handleHello LiveSession.memoryEnv (.new [] [] ∅ ∅) peerHello).1 =
      .error (.err (.protocol "Protocol version 0.1.0 not compatible with 1.0.0")) := by
    decide +kernel
  refine ⟨hvalid, hrefused, fun hagree => ?_⟩
  obtain ⟨reply, hreply⟩ := (hagree.accepted hvalid).1
  rw [hrefused] at hreply
  cases hreply

end Landropic
