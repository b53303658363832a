import LanLink.Registry.ElectionWire

/-! The registry service of a node and its leadership. The service runs when the
last call of the registry callback started it. -/
namespace LanLink.Election.Control
open Words

/-- A manager with the calls of its callback so far. -/
structure Service where
  manager : ElectionManager
  controls : List Bool

def Service.running (s : Service) : Bool := s.controls.getLastD false

inductive Action where
  | startElection
  | handleMessage (registryData : String) (data : Bytes)
  | handleSyncResponse (payload : Bytes)

def Service.apply (s : Service) (o : Outcome) : Service := ⟨o.manager, s.controls ++ o.controls⟩

variable (json : JsonText) (candidateHash : NodeID → UInt64 → UInt64)

def step (s : Service) : Action → Option Service
  | .startElection => some (s.apply s.manager.startElection)
  | .handleMessage registryData data =>
    some (s.apply (s.manager.handleBytes json candidateHash registryData data))
  | .handleSyncResponse payload =>
    some { s with manager := (s.manager.handleSyncBytes json payload).1 }

/-- The service runs exactly while the node leads. -/
def Follows (s : Service) : Prop := s.running = true ↔ s.manager.status = .leader

/-- A leader does not start an election among known nodes, gets no election
request of a higher term, and no synchronization request of a higher term in its
own name. -/
def Undisturbed (m : ElectionManager) : Message → Prop
  | .electionRequest req => m.status = .leader → req.term ≤ m.term
  | .registrySync sync =>
    m.status = .leader → m.term < sync.term → sync.requesterId ≠ m.localId
  | _ => True

def Handover (s : Service) : Action → Prop
  | .startElection => s.manager.status = .leader → s.manager.knownNodes = []
  | .handleMessage _ data => ∀ message, parse json data = .message message →
      Undisturbed s.manager message
  | .handleSyncResponse _ => True

/-- The outcome of an operation of a node whose service followed before. -/
def Tracks (m : ElectionManager) (o : Outcome) : Prop :=
  o.controls.getLastD (decide (m.status = .leader)) = true ↔ o.manager.status = .leader

theorem apply_follows {s : Service} (follows : Follows s) (o : Outcome) :
    Follows (s.apply o) ↔ Tracks s.manager o := by
  have before : s.running = decide (s.manager.status = .leader) := by
    rw [Bool.eq_iff_iff, decide_eq_true_iff]
    exact follows
  rw [Follows, Tracks, Service.running, Service.apply]
  rw [← before, Service.running]
  simp only [List.getLastD_eq_getLast?, List.getLast?_append]
  cases o.controls.getLast? with
  | none => rfl
  | some last => rfl

/-- An operation that keeps the status and does not call the callback. -/
theorem tracks_of_same {m : ElectionManager} {o : Outcome} (silent : o.controls = [])
    (status : o.manager.status = m.status) : Tracks m o := by
  simp [Tracks, silent, status]

/-- An operation that leaves a status other than leader and says nothing. -/
theorem tracks_silent_iff {m : ElectionManager} {o : Outcome} (silent : o.controls = [])
    (status : o.manager.status ≠ .leader) : Tracks m o ↔ m.status ≠ .leader := by
  simp [Tracks, silent, status]

/-- An operation that says what the node has become. -/
theorem tracks_of_last {m : ElectionManager} {o : Outcome} (last : o.controls.getLast? = some b)
    (status : b = true ↔ o.manager.status = .leader) : Tracks m o := by
  rwa [Tracks, List.getLastD_eq_getLast?, last, Option.getD_some]

theorem startElection_tracks (m : ElectionManager) :
    Tracks m m.startElection ↔ (m.status = .leader → m.knownNodes = []) := by
  rw [ElectionManager.startElection]
  split
  · rename_i candidate
    exact iff_of_true (tracks_of_same rfl rfl) (by simp [candidate])
  · split
    · rename_i alone
      exact iff_of_true (tracks_of_same rfl rfl) fun _ => List.length_eq_zero_iff.mp alone
    · rename_i others
      rw [tracks_silent_iff rfl (by simp)]
      rw [List.length_eq_zero_iff] at others
      simp [others]

theorem handleElectionRequest_status (m : ElectionManager) (req : ElectionRequestPayload) :
    (m.handleElectionRequest candidateHash req).controls = [] ∧
      (m.handleElectionRequest candidateHash req).manager.status =
        if req.term > m.term then .follower else m.status := by
  rw [ElectionManager.handleElectionRequest]
  split
  · rename_i older
    have newer : ¬ req.term > m.term := fun greater => absurd older (UInt64.lt_asymm greater)
    simp [newer]
  · refine ⟨rfl, ?_⟩
    by_cases newer : req.term > m.term
    · simp only [newer, if_true]
      split <;> rfl
    · simp only [newer, if_false]
      split <;> rfl

/-- The step down for a higher term does not stop the service. -/
theorem handleElectionRequest_tracks (m : ElectionManager) (req : ElectionRequestPayload) :
    Tracks m (m.handleElectionRequest candidateHash req) ↔
      Undisturbed m (.electionRequest req) := by
  obtain ⟨silent, status⟩ := handleElectionRequest_status candidateHash m req
  rw [Undisturbed]
  by_cases newer : req.term > m.term
  · rw [if_pos newer] at status
    rw [tracks_silent_iff silent (by simp [status])]
    have ahead : ¬ req.term ≤ m.term := UInt64.not_le.mpr newer
    simp [ahead]
  · rw [if_neg newer] at status
    exact iff_of_true (tracks_of_same silent status) fun _ => UInt64.not_lt.mp newer

theorem handleElectionVote_tracks (m : ElectionManager) (vote : ElectionVotePayload) :
    Tracks m (m.handleElectionVote vote) := by
  rcases m.handleElectionVote_cases vote with same | ⟨-, ⟨-, leads⟩ | noted⟩
  · rw [same]
    exact tracks_of_same rfl rfl
  · rw [leads]
    exact tracks_of_last rfl (by simp [ElectionManager.becomeLeader])
  · rw [noted]
    exact tracks_of_same rfl rfl

theorem handleElectionResult_tracks (m : ElectionManager) (result : ElectionResultPayload) :
    Tracks m (m.handleElectionResult result) := by
  rw [ElectionManager.handleElectionResult]
  split
  · exact tracks_of_same rfl rfl
  · split
    · exact tracks_of_same rfl rfl
    · rename_i other
      refine tracks_of_last (b := false) ?_ (by simp [ElectionManager.becomeFollower])
      simp [ElectionManager.followerControls, other]

theorem handleRegistryChange_tracks (m : ElectionManager) (change : RegistryChangePayload) :
    Tracks m (m.handleRegistryChange change) := by
  rw [ElectionManager.handleRegistryChange]
  split
  · exact tracks_of_same rfl rfl
  · split
    · exact tracks_of_same rfl rfl
    · rename_i other
      refine tracks_of_last (b := false) ?_ (by simp [ElectionManager.becomeFollower])
      simp [ElectionManager.followerControls, other]

theorem handleRegistrySync_tracks (m : ElectionManager) (sync : RegistrySyncPayload)
    (registryData : String) :
    Tracks m (m.handleRegistrySync sync registryData) ↔ Undisturbed m (.registrySync sync) := by
  rw [ElectionManager.handleRegistrySync, Undisturbed]
  split
  · rename_i idle
    exact iff_of_true (tracks_of_same rfl rfl) fun leads => absurd leads idle
  · rename_i leads
    rw [not_not] at leads
    split
    · rename_i newer
      by_cases own : sync.requesterId = m.localId
      · rw [tracks_silent_iff (by simp [ElectionManager.followerControls, own])
          (by simp [ElectionManager.becomeFollower])]
        simp [leads, own]
        exact newer
      · refine iff_of_true (tracks_of_last (b := false) ?_ (by simp [ElectionManager.becomeFollower]))
          fun _ _ => own
        simp [ElectionManager.followerControls, own]
    · rename_i older
      exact iff_of_true (tracks_of_same rfl rfl) fun _ newer => absurd newer older

theorem handleMessage_tracks (m : ElectionManager) (registryData : String) (message : Message) :
    Tracks m (m.handleMessage candidateHash registryData message) ↔ Undisturbed m message := by
  cases message with
  | electionRequest req => exact handleElectionRequest_tracks candidateHash m req
  | electionVote vote => exact iff_of_true (handleElectionVote_tracks m vote) trivial
  | electionResult result => exact iff_of_true (handleElectionResult_tracks m result) trivial
  | registryChange change => exact iff_of_true (handleRegistryChange_tracks m change) trivial
  | registrySync sync => exact handleRegistrySync_tracks m sync registryData
  | registrySyncResponse response => exact iff_of_true (tracks_of_same rfl rfl) trivial

variable {json candidateHash}

theorem step_follows {s t : Service} {action : Action} (follows : Follows s)
    (stepped : step json candidateHash s action = some t) : Follows t ↔ Handover json s action := by
  cases action with
  | startElection =>
    cases stepped
    rw [apply_follows follows]
    exact startElection_tracks s.manager
  | handleMessage registryData data =>
    cases stepped
    rw [apply_follows follows, Handover, ElectionManager.handleBytes]
    cases parse json data with
    | ignored =>
      refine iff_of_true (tracks_of_same rfl rfl) ?_
      rintro message ⟨⟩
    | malformed =>
      refine iff_of_true (tracks_of_same rfl rfl) ?_
      rintro message ⟨⟩
    | message message =>
      simp only [Parsed.message.injEq, forall_eq']
      exact handleMessage_tracks candidateHash s.manager registryData message
  | handleSyncResponse payload =>
    cases stepped
    refine iff_of_true ?_ trivial
    rw [Follows, Service.running, ElectionManager.handleSyncBytes]
    split
    · exact follows
    · exact follows

theorem step_total (s : Service) (action : Action) :
    ∃ t, step json candidateHash s action = some t := by
  cases action with
  | startElection | handleMessage | handleSyncResponse => exact ⟨_, rfl⟩

/-- From a node that does not lead and has not called the callback, the service
follows leadership after every step exactly when every step hands it over. -/
theorem service_follows_iff (json : JsonText) (candidateHash : NodeID → UInt64 → UInt64)
    (m : ElectionManager) (idle : m.status ≠ .leader) (actions : List Action) :
    Runs.Always (step json candidateHash) Follows ⟨m, []⟩ actions ↔
      Runs.Meets (step json candidateHash) (Handover json) ⟨m, []⟩ actions := by
  have initial : Follows ⟨m, []⟩ := by simp [Follows, Service.running, idle]
  obtain ⟨last, run⟩ := Runs.exec_total step_total (⟨m, []⟩ : Service) actions
  exact Runs.always_iff (I := fun _ => True) (fun _ _ => trivial)
    (fun _ follows stepped => step_follows follows stepped) run trivial initial

/-- An election that the node wins. -/
def wonElection : List Action :=
  [.startElection, .handleMessage "" (Wire.ballot.encode Wire.exchanged)]

theorem service_follows_wonElection : ∃ m : ElectionManager, m.status ≠ .leader ∧
    Runs.Always (step Wire.exchanged Wire.noHash) Follows ⟨m, []⟩ wonElection := by
  refine ⟨Wire.pair .left, by decide, ?_⟩
  refine (service_follows_iff Wire.exchanged Wire.noHash (Wire.pair .left) (by decide)
    wonElection).mpr ?_
  have parsed := parse_encode (Wire.exchanged_roundTrips Wire.ballot (by decide))
  refine ⟨fun leads => absurd leads (by decide), ?_⟩
  rintro t stepped
  refine ⟨fun message received => ?_, fun _ _ => trivial⟩
  rw [parsed] at received
  cases received
  trivial

/-- A leader that starts a new election keeps its service. -/
theorem service_outlives_leadership : ¬ Runs.Always (step Wire.exchanged Wire.noHash) Follows
    ⟨Wire.pair .left, []⟩ (wonElection ++ [.startElection]) := by
  intro always
  simp only [wonElection, List.cons_append, List.nil_append, Runs.Always, step, Service.apply,
    Wire.ballot_handled, Option.some.injEq, forall_eq'] at always
  have last := always.2.2.2
  revert last
  rw [Follows]
  decide

end LanLink.Election.Control
