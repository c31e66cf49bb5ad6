import Landropic.Daemon.BloomDiff

set_option autoImplicit false

/-!
# The progress of diffs with several peers

A handler keeps the progress of all its peers in one map. An acknowledgement does not say whose diff
it belongs to, other than by the id of its request, which the handler does not look at.

## Main definitions

* `Daemon.DiffRun` — a handler, and the diffs that it has started.
* `Daemon.DiffRun.Undisturbed` — a call changes only the progress of the peer it belongs to, and
  completes a diff only if it is a successful acknowledgement of it.
* `Daemon.DiffRun.Own` — an acknowledgement is for all diffs that are not completed.

## Main results

* `Daemon.DiffRun.undisturbed_iff_own` — which calls disturb no other peer.
* `Daemon.DiffRun.undisturbed_of_run_iff` — which sequences of calls do.
-/

namespace Landropic.Daemon

/-- The id of the request a message is part of. -/
def DiffProtocolMessage.requestId : DiffProtocolMessage → Text
  | requestSummary _ requestId => requestId
  | sendSummary _ requestId => requestId
  | requestDiffDetails _ requestId => requestId
  | sendDiffDetails _ requestId => requestId
  | requestChunks _ requestId => requestId
  | acknowledge requestId _ _ => requestId

/-- A call of a handler. -/
inductive DiffCall
  | startDiff (now : ℕ) (peerId : Text) (path : FilePath) (localManifest : Manifest)
  | handleMessage (order : IterOrder FilePath) (message : DiffProtocolMessage)

/-- A handler, and the diffs that it has started. -/
structure DiffRun where
  handler : DiffProtocolHandler
  /-- The peers with the ids of the requests that were made to them. -/
  started : List (Text × Text)

namespace DiffRun

/-- A new handler has started no diff. -/
def new (deviceId : Text) : DiffRun := ⟨.new deviceId, []⟩

variable (tools : DiffTools) (run : DiffRun)

/-- A call of the handler. -/
def call : DiffCall → DiffRun
  | .startDiff now peerId path localManifest =>
    ⟨(run.handler.startDiff now peerId path localManifest).2,
      run.started ++ [(peerId, run.handler.requestId now)]⟩
  | .handleMessage order message =>
    { run with handler := (run.handler.handleMessage tools order message).2 }

/-- Some calls, one after the other. -/
def calls (calls : List DiffCall) : DiffRun := calls.foldl (call tools) run

/-- A message belongs to the diff with a peer, by the id of the request or by the device of the
summary. -/
def Belongs (message : DiffProtocolMessage) (peerId : Text) : Prop :=
  match message with
  | .sendSummary summary _ => peerId = summary.deviceId
  | message => (peerId, message.requestId) ∈ run.started

/-- The stage of the diff with a peer. -/
def stage (peerId : Text) : Option DiffStage :=
  (run.handler.progress.lookup peerId).map DiffProgress.stage

/-- A call changes only the progress of the peer it belongs to, and a diff is completed only by a
successful acknowledgement of its own. -/
def Undisturbed (call : DiffCall) : Prop :=
  match call with
  | .startDiff now peerId path localManifest => ∀ other ≠ peerId,
    (run.call tools (.startDiff now peerId path localManifest)).handler.progress.lookup other =
      run.handler.progress.lookup other
  | .handleMessage order message =>
    (∀ peerId, (run.call tools (.handleMessage order message)).handler.progress.lookup peerId ≠
        run.handler.progress.lookup peerId → run.Belongs message peerId) ∧
      ∀ peerId, (run.call tools (.handleMessage order message)).stage peerId = some .completed →
        run.stage peerId ≠ some .completed →
          ∃ requestId text, message = .acknowledge requestId true text ∧
            (peerId, requestId) ∈ run.started

/-- If a call is an acknowledgement, it is a successful one of all diffs that are not completed. -/
def Own (call : DiffCall) : Prop :=
  match call with
  | .handleMessage _ (.acknowledge requestId success _) =>
    ∀ peerId progress, run.handler.progress.lookup peerId = some progress →
      progress.stage ≠ .completed → success = true ∧ (peerId, requestId) ∈ run.started
  | _ => True

/-- No diff is in the stage in which details have been requested. -/
def NoneRequesting : Prop :=
  ∀ peerId progress, run.handler.progress.lookup peerId = some progress →
    progress.stage ≠ .requestingDetails

variable {tools run}

/-- A summary changes only the progress of the device it is from, which is compared then. -/
lemma progress_handleSummaryResponse {handler : DiffProtocolHandler} {summary : ManifestSummary}
    {requestId : Text} (peerId : Text) :
    (peerId ≠ summary.deviceId →
      (handler.handleSummaryResponse tools summary requestId).2.progress.lookup peerId =
        handler.progress.lookup peerId) ∧
    ∀ progress, peerId = summary.deviceId →
      (handler.handleSummaryResponse tools summary requestId).2.progress.lookup peerId =
        some progress → progress.stage = .comparingManifests := by
  unfold DiffProtocolHandler.handleSummaryResponse
  constructor
  · intro hne
    dsimp only
    split
    · rw [HashMap.lookup_modify, if_neg hne]
    · split
      · rw [HashMap.lookup_modify, if_neg hne, HashMap.lookup_modify, if_neg hne]
      · rw [HashMap.lookup_modify, if_neg hne, HashMap.lookup_modify, if_neg hne]
  · intro progress hpeer hlookup
    subst hpeer
    dsimp only at hlookup
    split at hlookup
    · rw [HashMap.lookup_modify, if_pos rfl] at hlookup
      obtain ⟨_, -, rfl⟩ := Option.map_eq_some_iff.mp hlookup
      rfl
    · split at hlookup
      all_goals
        rw [HashMap.lookup_modify, if_pos rfl, HashMap.lookup_modify, if_pos rfl,
          Option.map_map] at hlookup
        obtain ⟨_, -, rfl⟩ := Option.map_eq_some_iff.mp hlookup
        rfl

lemma progress_handleDetailsResponse (h : run.NoneRequesting)
    {fileDetails : HashMap Text ManifestEntry} (peerId : Text) :
    (run.handler.handleDetailsResponse fileDetails).progress.lookup peerId =
      run.handler.progress.lookup peerId := by
  rw [DiffProtocolHandler.handleDetailsResponse, HashMap.lookup_mapValues]
  cases hlookup : run.handler.progress.lookup peerId with
  | none => rfl
  | some progress => rw [Option.map_some, if_neg (h peerId progress hlookup)]

/-- An acknowledgement completes all diffs. -/
lemma progress_handleAcknowledge (handler : DiffProtocolHandler) (peerId : Text) :
    handler.handleAcknowledge.progress.lookup peerId =
      (handler.progress.lookup peerId).map fun progress =>
        if progress.stage ≠ .completed then
          { progress with stage := .completed, progressPercent := 100 }
        else progress :=
  HashMap.lookup_mapValues ..

/-- **Details are never requested**, as far as the progress says. -/
lemma NoneRequesting.call (h : run.NoneRequesting) (call : DiffCall) :
    (run.call tools call).NoneRequesting := by
  intro peerId progress hlookup
  cases call with
  | startDiff now peer path localManifest =>
    refine HashMap.forall_lookup_insert (P := fun _ progress => progress.stage ≠ .requestingDetails)
      |>.mpr ⟨by simp, fun peerId progress hold _ => h peerId progress hold⟩ peerId progress hlookup
  | handleMessage order message =>
    cases message with
    | requestSummary path requestId => exact h peerId progress hlookup
    | sendSummary summary requestId =>
      by_cases hpeer : peerId = summary.deviceId
      · rw [(progress_handleSummaryResponse peerId).2 progress hpeer hlookup]
        exact nofun
      · exact h peerId progress
          (((progress_handleSummaryResponse peerId).1 hpeer).symm.trans hlookup)
    | requestDiffDetails suspectedPaths requestId => exact h peerId progress hlookup
    | sendDiffDetails fileDetails requestId =>
      exact h peerId progress ((progress_handleDetailsResponse h peerId).symm.trans hlookup)
    | requestChunks chunkHashes requestId => exact h peerId progress hlookup
    | acknowledge requestId success text =>
      obtain ⟨old, hold, rfl⟩ := Option.map_eq_some_iff.mp
        ((progress_handleAcknowledge run.handler peerId).symm.trans hlookup)
      split
      · exact nofun
      · next hstage => exact fun hrequesting => by simp [hrequesting] at hstage

lemma NoneRequesting.calls (h : run.NoneRequesting) (list : List DiffCall) :
    (run.calls tools list).NoneRequesting := by
  induction list generalizing run with
  | nil => exact h
  | cons call list ih => exact ih (h.call call)

lemma undisturbed_of_eq {order : IterOrder FilePath} {message : DiffProtocolMessage}
    (h : ∀ peerId, (run.call tools (.handleMessage order message)).handler.progress.lookup peerId =
      run.handler.progress.lookup peerId) :
    run.Undisturbed tools (.handleMessage order message) := by
  refine ⟨fun peerId hne => absurd (h peerId) hne, fun peerId hafter hbefore => ?_⟩
  rw [stage, h peerId] at hafter
  exact absurd hafter hbefore

/-- **Which calls disturb no other peer**: all but the acknowledgements that are not for all diffs
that are not completed. -/
theorem undisturbed_iff_own (h : run.NoneRequesting) (call : DiffCall) :
    run.Undisturbed tools call ↔ run.Own call := by
  cases call with
  | startDiff now peerId path localManifest =>
    exact iff_of_true (fun other hne => Finmap.lookup_insert_of_ne _ hne) trivial
  | handleMessage order message =>
    cases message with
    | requestSummary path requestId => exact iff_of_true (undisturbed_of_eq fun _ => rfl) trivial
    | sendSummary summary requestId =>
      refine iff_of_true ⟨fun peerId hne => ?_, fun peerId hafter hbefore => ?_⟩ trivial
      · by_contra hpeer
        exact hne ((progress_handleSummaryResponse peerId).1 hpeer)
      · obtain ⟨progress, hlookup, hstage⟩ := Option.map_eq_some_iff.mp hafter
        by_cases hpeer : peerId = summary.deviceId
        · rw [(progress_handleSummaryResponse peerId).2 progress hpeer hlookup] at hstage
          cases hstage
        · refine absurd ?_ hbefore
          rw [stage, ← (progress_handleSummaryResponse peerId).1 hpeer]
          exact hafter
    | requestDiffDetails suspectedPaths requestId =>
      exact iff_of_true (undisturbed_of_eq fun _ => rfl) trivial
    | sendDiffDetails fileDetails requestId =>
      exact iff_of_true (undisturbed_of_eq fun peerId => progress_handleDetailsResponse h peerId)
        trivial
    | requestChunks chunkHashes requestId =>
      exact iff_of_true (undisturbed_of_eq fun _ => rfl) trivial
    | acknowledge requestId success text =>
      constructor
      · intro hundisturbed peerId progress hlookup hstage
        have hafter := (progress_handleAcknowledge run.handler peerId).trans
          (congrArg _ hlookup)
        rw [Option.map_some, if_pos hstage] at hafter
        obtain ⟨_, _, hmessage, hstarted⟩ := hundisturbed.2 peerId
          (congrArg (Option.map DiffProgress.stage) hafter) fun hcompleted => by
            rw [stage, hlookup] at hcompleted
            exact hstage (Option.some.inj hcompleted)
        injection hmessage with hid hsuccess
        exact ⟨hsuccess, hid ▸ hstarted⟩
      · intro hown
        constructor
        · intro peerId hne
          cases hlookup : run.handler.progress.lookup peerId with
          | none =>
            refine absurd ?_ hne
            exact (progress_handleAcknowledge run.handler peerId).trans (by rw [hlookup]; rfl)
          | some progress =>
            by_cases hstage : progress.stage = .completed
            · refine absurd ?_ hne
              refine (progress_handleAcknowledge run.handler peerId).trans ?_
              rw [hlookup, Option.map_some, if_neg (not_not.mpr hstage)]
            · exact (hown peerId progress hlookup hstage).2
        · intro peerId hafter hbefore
          obtain ⟨new, hnew, -⟩ := Option.map_eq_some_iff.mp hafter
          obtain ⟨progress, hlookup, -⟩ := Option.map_eq_some_iff.mp
            ((progress_handleAcknowledge run.handler peerId).symm.trans hnew)
          have hstage : progress.stage ≠ .completed := fun hcompleted => by
            rw [stage, hlookup] at hbefore
            exact hbefore (congrArg some hcompleted)
          obtain ⟨rfl, hstarted⟩ := hown peerId progress hlookup hstage
          exact ⟨requestId, text, rfl, hstarted⟩

/-- **Which sequences of calls disturb no peer**: those in which every acknowledgement is a
successful one of all diffs that are not completed when it arrives. -/
theorem undisturbed_of_run_iff (tools : DiffTools) (deviceId : Text) (list : List DiffCall) :
    (∀ earlier call later, list = earlier ++ call :: later →
        ((new deviceId).calls tools earlier).Undisturbed tools call) ↔
      ∀ earlier call later, list = earlier ++ call :: later →
        ((new deviceId).calls tools earlier).Own call := by
  have hnone : (new deviceId).NoneRequesting := by
    intro peerId progress hlookup
    rw [new, DiffProtocolHandler.new, Finmap.lookup_empty] at hlookup
    cases hlookup
  refine forall₃_congr fun earlier call later => imp_congr_right fun _ => ?_
  exact undisturbed_iff_own (hnone.calls earlier) call

/-- **An acknowledgement of one peer completes the diffs with all others**, even if it is not
successful. -/
theorem not_undisturbed_twoPeers :
    ¬ ∀ (tools : DiffTools) (deviceId : Text) (list : List DiffCall),
      ∀ earlier call later, list = earlier ++ call :: later →
        ((new deviceId).calls tools earlier).Undisturbed tools call := by
  intro hall
  have hlast := hall
    { hash := fun seed text => seed + text.length
      optimalNumBits := id
      optimalNumHashes := fun _ _ => 7
      optimalNumBits_pos := id
      manifestSize := fun _ => 0
      summarySize := fun _ => 0 } ['d'] _
    [.startDiff 1 ['p'] [['t']] (.new ⟨0, 0⟩ ['f'] 1),
      .startDiff 2 ['q'] [['t']] (.new ⟨0, 0⟩ ['f'] 1)]
    (.handleMessage ⟨Finset.toList, Finset.nodup_toList, Finset.mem_toList⟩
      (.acknowledge ['d', '-', '1'] false none)) [] rfl
  obtain ⟨_, _, hmessage, -⟩ := hlast.2 ['q'] (by rfl) (by decide)
  injection hmessage with _ hsuccess
  cases hsuccess

end DiffRun

end Landropic.Daemon
