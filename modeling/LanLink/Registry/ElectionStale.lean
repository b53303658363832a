import LanLink.Registry.ElectionSteps

/-! Messages of an earlier term. Requests, results and changes are tested for
their term before anything is written; a synchronization response is not. -/
namespace LanLink.Election.Steps
open Words Json

/-- What reaches the two entry points of a node. -/
inductive Input where
  | message (data : Bytes)
  | syncResponse (payload : Bytes)

/-- The term of a request, a result, a change or a response. -/
def Input.term (json : JsonText) : Input → Option UInt64
  | .message data =>
    match parse json data with
    | .message (.electionRequest req) => some req.term
    | .message (.electionResult result) => some result.term
    | .message (.registryChange change) => some change.term
    | _ => none
  | .syncResponse payload =>
    ((json.fromSlice payload).bind registrySyncResponseOf).map (·.term)

def worldOf : EStateM.Result ElectionError World α → World
  | .ok _ w => w
  | .error _ w => w

def Input.process (json : JsonText) (toVec : Value → Option Bytes) (hooks : Hooks)
    (candidateHash : NodeID → UInt64 → UInt64) (w : World) : Input → World
  | .message data => worldOf (handleMessage json toVec hooks candidateHash data w)
  | .syncResponse payload => worldOf (handleSyncResponse json hooks payload w)

/-- The data handed to the load callback. -/
def World.loaded (w : World) : List String :=
  w.called.filterMap fun
    | .load registryData => some registryData
    | _ => none

structure Ignored (w w' : World) : Prop where
  term : w'.manager.term = w.manager.term
  status : w'.manager.status = w.manager.status
  votedFor : w'.manager.votedFor = w.manager.votedFor
  votesReceived : w'.manager.votesReceived = w.manager.votesReceived
  registryId : w'.manager.registryId = w.manager.registryId
  registryName : w'.manager.registryName = w.manager.registryName
  registryAddr : w'.manager.registryAddr = w.manager.registryAddr
  loaded : w'.loaded = w.loaded

theorem Ignored.refl (w : World) : Ignored w w := ⟨rfl, rfl, rfl, rfl, rfl, rfl, rfl, rfl⟩

/-- A response that names the registry on record and brings nothing to load. -/
def Harmless (json : JsonText) (hooks : Hooks) (m : ElectionManager) : Input → Prop
  | .message _ => True
  | .syncResponse payload => ∀ response,
      (json.fromSlice payload).bind registrySyncResponseOf = some response →
      m.registryId = some response.leaderId ∧ m.registryName = some response.leaderName ∧
        (hooks.load = true → response.registryData.isEmpty = true)

variable {json : JsonText} {toVec : Value → Option Bytes} {hooks : Hooks}
  {candidateHash : NodeID → UInt64 → UInt64}

/-- The three handlers of notices test the term before they write. -/
theorem stale_message_process {data : Bytes} {term : UInt64} (w : World)
    (carried : Input.term json (.message data) = some term) (stale : term < w.manager.term) :
    Input.process json toVec hooks candidateHash w (.message data) = w := by
  cases parsed : parse json data with
  | ignored => simp [Input.term, parsed] at carried
  | malformed => simp [Input.term, parsed] at carried
  | message message =>
    obtain ⟨tag, payload, type, value, rfl, typed, read, kind⟩ := parse_message parsed
    simp only [Input.term, parsed] at carried
    cases type with
    | electionRequest =>
      obtain ⟨req, accepted, rfl⟩ := Option.map_eq_some_iff.mp kind
      cases carried
      simp [Input.process, handleMessage, typed, handleElectionRequest, deserialize_run, read,
        accepted, stale, worldOf]
    | electionResult =>
      obtain ⟨result, accepted, rfl⟩ := Option.map_eq_some_iff.mp kind
      cases carried
      simp [Input.process, handleMessage, typed, handleElectionResult, deserialize_run, read,
        accepted, stale, worldOf]
    | registryChange =>
      obtain ⟨change, accepted, rfl⟩ := Option.map_eq_some_iff.mp kind
      cases carried
      simp [Input.process, handleMessage, typed, handleRegistryChange, deserialize_run, read,
        accepted, stale, worldOf]
    | electionVote =>
      obtain ⟨vote, -, rfl⟩ := Option.map_eq_some_iff.mp kind
      cases carried
    | registrySync =>
      obtain ⟨sync, -, rfl⟩ := Option.map_eq_some_iff.mp kind
      cases carried

/-- A stale response writes the registry and loads its data all the same. -/
theorem stale_response_ignored_iff {payload : Bytes} (w : World)
    (response : RegistrySyncResponsePayload)
    (accepted : (json.fromSlice payload).bind registrySyncResponseOf = some response)
    (stale : response.term < w.manager.term) :
    Ignored w (Input.process json toVec hooks candidateHash w (.syncResponse payload)) ↔
      w.manager.registryId = some response.leaderId ∧
        w.manager.registryName = some response.leaderName ∧
        (hooks.load = true → response.registryData.isEmpty = true) := by
  have kept : ¬ response.term > w.manager.term := fun later => UInt64.lt_asymm stale later
  have process : Input.process json toVec hooks candidateHash w (.syncResponse payload) = { w with
      manager := { w.manager with registryId := some response.leaderId,
                                  registryName := some response.leaderName }
      called := w.called ++ if hooks.load = true ∧ response.registryData.isEmpty = false then
        [.load response.registryData] else [] } := by
    rw [Input.process, handleSyncResponse_run, accepted]
    simp only [worldOf, ElectionManager.handleSyncResponse, if_neg kept]
    cases hooks.load <;> cases response.registryData.isEmpty <;> rfl
  rw [process]
  constructor
  · intro ignored
    refine ⟨ignored.registryId.symm, ignored.registryName.symm, fun loads => ?_⟩
    simpa [World.loaded, loads] using ignored.loaded
  · rintro ⟨id, name, empty⟩
    refine ⟨rfl, rfl, rfl, rfl, id.symm, name.symm, rfl, ?_⟩
    have silent : ¬ (hooks.load = true ∧ response.registryData.isEmpty = false) := by
      rintro ⟨loads, filled⟩
      simp [empty loads] at filled
    simp only [World.loaded, if_neg silent, List.append_nil]

/-- A stale message is ignored exactly when it is no response, or a response
that repeats what the node has and loads nothing. -/
theorem stale_ignored_iff (json : JsonText) (toVec : Value → Option Bytes) (hooks : Hooks)
    (candidateHash : NodeID → UInt64 → UInt64) (w : World) (input : Input) (term : UInt64)
    (carried : input.term json = some term) (stale : term < w.manager.term) :
    Ignored w (input.process json toVec hooks candidateHash w) ↔
      Harmless json hooks w.manager input := by
  cases input with
  | message data =>
    rw [stale_message_process w carried stale]
    exact iff_of_true (.refl w) trivial
  | syncResponse payload =>
    obtain ⟨response, accepted, rfl⟩ := Option.map_eq_some_iff.mp carried
    rw [stale_response_ignored_iff w response accepted stale]
    simp [Harmless, accepted]

def staleResponse : RegistrySyncResponsePayload := ⟨Wire.second, "second", 1, "data"⟩

def staleResult : Message := .electionResult ⟨Wire.second, "second", 1⟩

def staleText : JsonText :=
  Wire.textOf [(Message.registrySyncResponse staleResponse).value, staleResult.value]

theorem staleText_reads : ∀ message ∈ [.registrySyncResponse staleResponse, staleResult],
    message.RoundTrips staleText := by
  have distinct : ([(Message.registrySyncResponse staleResponse).value, staleResult.value].map
      Wire.asciiText).Nodup := by decide
  intro message member
  exact Wire.textOf_reads distinct (List.mem_map_of_mem (f := Message.value) member)

/-- A follower of the first node in term 2. -/
def settledWorld : World :=
  ⟨{ ElectionManager.new (List.Vector.replicate 32 3) "third" with
      term := 2, registryId := some Wire.first, registryName := some "first" }, [], []⟩

def staleResultInput : Input := .message (staleResult.encode staleText)

theorem stale_result_ignored : staleResultInput.term staleText = some 1 ∧
    1 < settledWorld.manager.term ∧
    Ignored settledWorld
      (staleResultInput.process staleText asciiVec installed Wire.noHash settledWorld) := by
  have parsed := parse_encode (staleText_reads staleResult (by simp))
  have carried : staleResultInput.term staleText = some 1 := by
    simp only [staleResultInput, Input.term, parsed]
    rfl
  have stale : 1 < settledWorld.manager.term := by decide
  refine ⟨carried, stale, ?_⟩
  exact (stale_ignored_iff _ _ _ _ settledWorld staleResultInput 1 carried stale).mpr trivial

def staleResponseInput : Input :=
  .syncResponse (staleText.toVec (Message.registrySyncResponse staleResponse).value)

/-- A response of term 1 makes a node of term 2 follow the second node and load its data. -/
theorem stale_response_obeyed : staleResponseInput.term staleText = some 1 ∧
    1 < settledWorld.manager.term ∧
    ¬ Ignored settledWorld
      (staleResponseInput.process staleText asciiVec installed Wire.noHash settledWorld) := by
  have trips := staleText_reads (.registrySyncResponse staleResponse) (by simp)
  have accepted : (staleText.fromSlice
      (staleText.toVec (Message.registrySyncResponse staleResponse).value)).bind
        registrySyncResponseOf = some staleResponse := by
    rw [trips, Option.bind_some]
    simp [registrySyncResponseOf, Message.value, record, field]
  refine ⟨?_, by decide, ?_⟩
  · simp only [staleResponseInput, Input.term, accepted]
    rfl
  · rw [staleResponseInput, stale_response_ignored_iff settledWorld staleResponse accepted (by decide)]
    rintro ⟨id, -⟩
    exact absurd id (by decide)

end LanLink.Election.Steps
