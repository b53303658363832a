import LanLink.Registry.ElectionWire

/-! The operations of the election in the order in which they work: what was
written, sent or called before an error stays. Locks are not poisoned, so an
operation fails when JSON cannot be read or written or when no node is known.
Writing JSON is fallible here; a run in which it succeeds computes the outcome
of the manager's operation. -/
namespace LanLink.Election.Steps
open Words Json

inductive Callback where
  | registryControl (start : Bool)
  | sync
  | load (registryData : String)
  deriving DecidableEq

/-- A manager with everything sent and called so far. -/
structure World where
  manager : ElectionManager
  sent : List (KnownNode × Bytes)
  called : List Callback
  deriving DecidableEq

/-- Which functions are installed. The synchronization callback is given by the
data it returns; a failure of the send function is only logged. -/
structure Hooks where
  send : Bool
  registryControl : Bool
  sync : Option String
  load : Bool

abbrev Operation := EStateM ElectionError World

variable (json : JsonText) (toVec : Value → Option Bytes) (hooks : Hooks)
  (candidateHash : NodeID → UInt64 → UInt64)

def update (f : ElectionManager → ElectionManager) : Operation Unit :=
  modify fun w => { w with manager := f w.manager }

def call (callback : Callback) : Operation Unit :=
  modify fun w => { w with called := w.called ++ [callback] }

def serialize (value : Value) : Operation Bytes :=
  match toVec value with
  | some text => pure text
  | none => throw .serializeError

def deserialize (reader : Value → Option α) (payload : Bytes) : Operation α :=
  match (json.fromSlice payload).bind reader with
  | some value => pure value
  | none => throw .serializeError

def control (start : Bool) : Operation Unit := do
  if hooks.registryControl then call (.registryControl start)

def broadcast (message : Bytes) : Operation Unit := do
  if hooks.send then
    modify fun w => { w with sent := w.sent ++ w.manager.knownNodes.map (·, message) }

def startElection : Operation Unit := do
  if (← get).manager.status = .candidate then return
  if (← get).manager.knownNodes.length = 0 then throw .notEnoughNodes
  update ({ · with status := .candidate })
  let newTerm := (← get).manager.term + 1
  update ({ · with term := newTerm })
  update fun m => { m with votedFor := some m.localId }
  update fun m => { m with votesReceived := [m.localId] }
  let m := (← get).manager
  let text ← serialize toVec (Message.electionRequest ⟨m.localId, m.localName, newTerm⟩).value
  broadcast hooks (ElectionMessageType.electionRequest.toU8 :: text)

/-- A leader's announcement is dropped when it cannot be written. -/
def announce (message : Message) : Operation Unit :=
  match toVec message.value with
  | some text => broadcast hooks (message.messageType.toU8 :: text)
  | none => pure ()

def becomeLeader : Operation Unit := do
  update ({ · with status := .leader })
  let m := (← get).manager
  let localAddr := m.getLocalAddr
  update ({ · with registryId := some m.localId })
  update ({ · with registryName := some m.localName })
  update ({ · with registryAddr := localAddr })
  control hooks true
  announce toVec hooks (.electionResult ⟨m.localId, m.localName, m.term⟩)
  match localAddr with
  | some addr => announce toVec hooks (.registryChange ⟨m.localId, m.localName, addr, m.term⟩)
  | none => pure ()

def becomeFollower (newTerm : UInt64) (newRegistryId : Option NodeID) : Operation Unit := do
  if newTerm > (← get).manager.term then update ({ · with term := newTerm })
  update ({ · with status := .follower })
  update ({ · with votedFor := none })
  update ({ · with votesReceived := [] })
  match newRegistryId with
  | some registryId =>
    update ({ · with registryId := some registryId })
    if registryId ≠ (← get).manager.localId then control hooks false
  | none => pure ()
  update ({ · with missedHeartbeats := 0 })

/-- A vote that cannot be written is sent without a payload. -/
def voteMessage (m : ElectionManager) (candidateId : NodeID) (term : UInt64) (granted : Bool) :
    Bytes :=
  ElectionMessageType.electionVote.toU8 ::
    (toVec (m.buildVoteMessage candidateId term granted).value).getD []

def handleElectionRequest (payload : Bytes) : Operation (Option Bytes) := do
  let req ← deserialize json electionRequestOf payload
  let m := (← get).manager
  if req.term < m.term then return some (voteMessage toVec m req.candidateId req.term false)
  if req.term > m.term then becomeFollower hooks req.term none
  let m := (← get).manager
  let granted := m.shouldVoteFor candidateHash req.candidateId req.term
  if granted then update ({ · with votedFor := some req.candidateId })
  return some (voteMessage toVec m req.candidateId req.term granted)

def handleElectionVote (payload : Bytes) : Operation (Option Bytes) := do
  let vote ← deserialize json electionVoteOf payload
  let m := (← get).manager
  if m.status ≠ .candidate then return none
  if vote.term ≠ m.term then return none
  if vote.candidateId ≠ m.localId then return none
  if vote.granted ∧ vote.voterId ∉ m.votesReceived then
    update fun m => { m with votesReceived := m.votesReceived ++ [vote.voterId] }
    let totalNodes := m.knownNodes.length + 1
    if (← get).manager.votesReceived.length > totalNodes / 2 then becomeLeader toVec hooks
  return none

def handleElectionResult (payload : Bytes) : Operation (Option Bytes) := do
  let result ← deserialize json electionResultOf payload
  let m := (← get).manager
  if result.term < m.term then return none
  if result.leaderId = m.localId then return none
  becomeFollower hooks result.term (some result.leaderId)
  return none

def handleRegistryChange (payload : Bytes) : Operation (Option Bytes) := do
  let change ← deserialize json registryChangeOf payload
  let m := (← get).manager
  if change.term < m.term then return none
  if change.registryId = m.localId then return none
  update ({ · with registryId := some change.registryId })
  update ({ · with registryName := some change.registryName })
  update ({ · with registryAddr := some change.registryAddr })
  if m.status = .leader then control hooks false
  becomeFollower hooks change.term (some change.registryId)
  return none

/-- Without a callback the data are empty. -/
def syncData : Operation String := do
  match hooks.sync with
  | some registryData => call .sync; return registryData
  | none => return ""

def handleRegistrySync (payload : Bytes) : Operation (Option Bytes) := do
  let sync ← deserialize json registrySyncOf payload
  let m := (← get).manager
  if m.status ≠ .leader then return none
  if sync.term > m.term then
    becomeFollower hooks sync.term (some sync.requesterId)
    return none
  let registryData ← syncData hooks
  let text ← serialize toVec
    (Message.registrySyncResponse ⟨m.localId, m.localName, m.term, registryData⟩).value
  return some (ElectionMessageType.registrySync.toU8 :: text)

def handleMessage (data : Bytes) : Operation (Option Bytes) :=
  match data with
  | [] => pure none
  | tag :: payload =>
    match ElectionMessageType.fromU8 tag with
    | some .electionRequest => handleElectionRequest json toVec hooks candidateHash payload
    | some .electionVote => handleElectionVote json toVec hooks payload
    | some .electionResult => handleElectionResult json hooks payload
    | some .registryChange => handleRegistryChange json hooks payload
    | some .registrySync => handleRegistrySync json toVec hooks payload
    | none => pure none

def handleSyncResponse (payload : Bytes) : Operation Unit := do
  let response ← deserialize json registrySyncResponseOf payload
  if response.term > (← get).manager.term then update ({ · with term := response.term })
  update ({ · with registryId := some response.leaderId })
  update ({ · with registryName := some response.leaderName })
  if ¬ response.registryData.isEmpty then
    if hooks.load then call (.load response.registryData)

/-- The world after an operation of the manager, which may also have asked the
synchronization callback. -/
def World.after (w : World) (o : Outcome) (asked : List Callback) : World where
  manager := o.manager
  sent := w.sent ++ if hooks.send then o.sends.map fun s => (s.1, s.2.encode json) else []
  called := w.called ++ (if hooks.registryControl then o.controls.map .registryControl else []) ++
    asked

/-- Writing any payload succeeds: the payloads are records of numbers, strings and
booleans, for which the library documents no failure. -/
def Writes : Prop := ∀ message : Message, toVec message.value = some (json.toVec message.value)

variable {json toVec hooks candidateHash}

@[simp] theorem bind_run (x : Operation α) (f : α → Operation β) (w : World) :
    (x >>= f) w = match x w with
      | .ok a w' => f a w'
      | .error e w' => .error e w' := by
  change EStateM.bind x f w = _
  rw [EStateM.bind]
  cases x w <;> rfl

@[simp] theorem map_run (f : α → β) (x : Operation α) (w : World) :
    (f <$> x) w = match x w with
      | .ok a w' => .ok (f a) w'
      | .error e w' => .error e w' := by
  rw [← bind_pure_comp]
  exact bind_run x (pure ∘ f) w

@[simp] theorem pure_run (a : α) (w : World) : (pure a : Operation α) w = .ok a w := rfl

@[simp] theorem throw_run (e : ElectionError) (w : World) :
    (throw e : Operation α) w = .error e w := rfl

@[simp] theorem get_run (w : World) : (get : Operation World) w = .ok w w := rfl

@[simp] theorem update_run (f : ElectionManager → ElectionManager) (w : World) :
    update f w = .ok () { w with manager := f w.manager } := rfl

@[simp] theorem call_run (callback : Callback) (w : World) :
    call callback w = .ok () { w with called := w.called ++ [callback] } := rfl

theorem control_run (start : Bool) (w : World) :
    control hooks start w = .ok () { w with
      called := w.called ++ if hooks.registryControl then [.registryControl start] else [] } := by
  rw [control]
  cases hooks.registryControl <;> simp

theorem broadcast_run (text : Bytes) (w : World) :
    broadcast hooks text w = .ok () { w with
      sent := w.sent ++ if hooks.send then w.manager.knownNodes.map (·, text) else [] } := by
  rw [broadcast]
  cases hooks.send with
  | true => rfl
  | false => simp

theorem becomeFollower_run (term : UInt64) (id : Option NodeID) (w : World) :
    becomeFollower hooks term id w = .ok () { w with
      manager := w.manager.becomeFollower term id
      called := w.called ++ if hooks.registryControl then
        (w.manager.followerControls id).map .registryControl else [] } := by
  unfold becomeFollower ElectionManager.becomeFollower ElectionManager.followerControls
  by_cases later : term > w.manager.term <;> cases id with
  | none => simp [later]
  | some id => by_cases own : id = w.manager.localId <;> simp [later, own, control_run]

theorem deserialize_run {reader : Value → Option α} (payload : Bytes) (w : World) :
    deserialize json reader payload w = match (json.fromSlice payload).bind reader with
      | some value => .ok value w
      | none => .error .serializeError w := by
  rw [deserialize]
  cases (json.fromSlice payload).bind reader <;> rfl

theorem serialize_run (writes : Writes json toVec) (message : Message) (w : World) :
    serialize toVec message.value w = .ok (json.toVec message.value) w := by
  simp [serialize, writes message]

theorem announce_run (writes : Writes json toVec) (message : Message) (w : World) :
    announce toVec hooks message w = .ok () { w with
      sent := w.sent ++ if hooks.send then
        (w.manager.broadcast message).map fun s => (s.1, s.2.encode json) else [] } := by
  rw [announce]
  simp only [writes message, broadcast_run]
  simp [ElectionManager.broadcast, Message.encode, Function.comp_def]

theorem becomeLeader_run (writes : Writes json toVec) (w : World) :
    becomeLeader toVec hooks w = .ok () (w.after json hooks w.manager.becomeLeader []) := by
  have addr (m : ElectionManager) : { m with status := .leader }.getLocalAddr = m.getLocalAddr := rfl
  rw [becomeLeader, ElectionManager.becomeLeader]
  simp only [bind_run, update_run, get_run, control_run, announce_run writes, addr]
  cases w.manager.getLocalAddr with
  | none => cases sending : hooks.send <;> simp [World.after, sending, ElectionManager.broadcast]
  | some addr =>
    simp only [announce_run writes]
    cases sending : hooks.send <;> simp [World.after, sending, ElectionManager.broadcast]

theorem startElection_run (writes : Writes json toVec) (w : World) :
    startElection toVec hooks w = match w.manager.startElection.result with
      | .ok _ => .ok () (w.after json hooks w.manager.startElection [])
      | .error e => .error e w := by
  rw [startElection, ElectionManager.startElection]
  by_cases running : w.manager.status = .candidate
  · simp [running, World.after]
  · by_cases alone : w.manager.knownNodes.length = 0
    · simp [running, List.length_eq_zero_iff.mp alone]
    · simp only [bind_run, get_run, update_run, running, alone, if_false,
        serialize_run writes, broadcast_run]
      simp [World.after, ElectionManager.broadcast, Message.encode, Message.messageType,
        Function.comp_def]

/-- The answer of an operation as bytes. -/
def report (json : JsonText) (o : Outcome) (w : World) :
    EStateM.Result ElectionError World (Option Bytes) :=
  match o.result with
  | .ok reply => .ok (reply.map (·.encode json)) w
  | .error e => .error e w

theorem voteMessage_eq (writes : Writes json toVec) (m : ElectionManager) (candidate : NodeID)
    (term : UInt64) (granted : Bool) : voteMessage toVec m candidate term granted =
      (m.buildVoteMessage candidate term granted).encode json := by
  rw [voteMessage, writes]
  rfl

theorem handleElectionRequest_run (writes : Writes json toVec) (w : World) {payload : Bytes}
    {req : ElectionRequestPayload}
    (accepted : (json.fromSlice payload).bind electionRequestOf = some req) :
    handleElectionRequest json toVec hooks candidateHash payload w =
      report json (w.manager.handleElectionRequest candidateHash req)
        (w.after json hooks (w.manager.handleElectionRequest candidateHash req) []) := by
  rw [handleElectionRequest, ElectionManager.handleElectionRequest]
  simp only [bind_run, deserialize_run, accepted, get_run, voteMessage_eq writes]
  by_cases older : req.term < w.manager.term
  · simp [older, report, World.after]
  · by_cases later : req.term > w.manager.term
    · cases granted : (w.manager.becomeFollower req.term none).shouldVoteFor candidateHash
        req.candidateId req.term <;>
        simp [older, later, granted, becomeFollower_run, report, World.after,
          ElectionManager.followerControls, ElectionManager.buildVoteMessage]
    · cases granted : w.manager.shouldVoteFor candidateHash req.candidateId req.term <;>
        simp [older, later, granted, report, World.after, ElectionManager.buildVoteMessage]

theorem handleElectionVote_run (writes : Writes json toVec) (w : World) {payload : Bytes}
    {vote : ElectionVotePayload}
    (accepted : (json.fromSlice payload).bind electionVoteOf = some vote) :
    handleElectionVote json toVec hooks payload w =
      report json (w.manager.handleElectionVote vote)
        (w.after json hooks (w.manager.handleElectionVote vote) []) := by
  rw [handleElectionVote, ElectionManager.handleElectionVote]
  simp only [bind_run, deserialize_run, accepted, get_run]
  by_cases running : w.manager.status = .candidate
  · by_cases term : vote.term = w.manager.term
    · by_cases candidate : vote.candidateId = w.manager.localId
      · by_cases counted : vote.granted ∧ vote.voterId ∉ w.manager.votesReceived
        · obtain ⟨granted, fresh⟩ := counted
          by_cases majority :
              (w.manager.knownNodes.length + 1) / 2 < w.manager.votesReceived.length + 1
          · simp [running, term, candidate, granted, fresh, majority, becomeLeader_run writes, report]
            rfl
          · simp [running, term, candidate, granted, fresh, majority, report, World.after]
        · simp [running, term, candidate, counted, report, World.after]
      · simp [running, term, candidate, report, World.after]
    · simp [running, term, report, World.after]
  · simp [running, report, World.after]

theorem handleElectionResult_run (w : World) {payload : Bytes} {result : ElectionResultPayload}
    (accepted : (json.fromSlice payload).bind electionResultOf = some result) :
    handleElectionResult json hooks payload w =
      report json (w.manager.handleElectionResult result)
        (w.after json hooks (w.manager.handleElectionResult result) []) := by
  rw [handleElectionResult, ElectionManager.handleElectionResult]
  simp only [bind_run, deserialize_run, accepted, get_run]
  by_cases older : result.term < w.manager.term
  · simp [older, report, World.after]
  · by_cases own : result.leaderId = w.manager.localId
    · simp [older, own, report, World.after]
    · simp [older, own, report, World.after, becomeFollower_run]

theorem handleRegistryChange_run (w : World) {payload : Bytes} {change : RegistryChangePayload}
    (accepted : (json.fromSlice payload).bind registryChangeOf = some change) :
    handleRegistryChange json hooks payload w =
      report json (w.manager.handleRegistryChange change)
        (w.after json hooks (w.manager.handleRegistryChange change) []) := by
  rw [handleRegistryChange, ElectionManager.handleRegistryChange]
  simp only [bind_run, deserialize_run, accepted, get_run]
  by_cases older : change.term < w.manager.term
  · simp [older, report, World.after]
  · by_cases own : change.registryId = w.manager.localId
    · simp [older, own, report, World.after]
    · by_cases leads : w.manager.status = .leader
      · cases controlled : hooks.registryControl <;>
          simp [older, own, leads, controlled, report, World.after, becomeFollower_run, control_run]
      · simp [older, own, leads, report, World.after, becomeFollower_run]

/-- A leader that answers a request of its own or an earlier term asks for the data. -/
def asked (hooks : Hooks) (m : ElectionManager) : Message → List Callback
  | .registrySync sync =>
    if m.status = .leader ∧ ¬ sync.term > m.term ∧ hooks.sync.isSome then [.sync] else []
  | _ => []

theorem syncData_run (w : World) :
    syncData hooks w = .ok (hooks.sync.getD "")
      { w with called := w.called ++ if hooks.sync.isSome then [.sync] else [] } := by
  rw [syncData]
  cases hooks.sync with
  | none => simp
  | some registryData => simp

theorem handleRegistrySync_run (writes : Writes json toVec) (w : World)
    (accepted : (json.fromSlice payload).bind registrySyncOf = some sync) :
    handleRegistrySync json toVec hooks payload w =
      report json (w.manager.handleRegistrySync sync (hooks.sync.getD ""))
        (w.after json hooks (w.manager.handleRegistrySync sync (hooks.sync.getD ""))
          (asked hooks w.manager (.registrySync sync))) := by
  rw [handleRegistrySync, ElectionManager.handleRegistrySync, asked]
  simp only [bind_run, deserialize_run, accepted, get_run]
  by_cases leads : w.manager.status = .leader
  · by_cases later : sync.term > w.manager.term
    · simp [leads, later, report, World.after, becomeFollower_run]
    · simp [leads, later, report, World.after, syncData_run, serialize_run writes]
      rfl
  · simp [leads, report, World.after]

/-- The callback is asked at most for a message that was read. -/
def askedFor (json : JsonText) (hooks : Hooks) (m : ElectionManager) (data : Bytes) :
    List Callback :=
  match parse json data with
  | .message message => asked hooks m message
  | _ => []

theorem refused_run {reader : Value → Option α} (rest : α → Operation β) (w : World)
    (refused : (json.fromSlice payload).bind reader = none) :
    (deserialize json reader payload >>= rest) w = .error .serializeError w := by
  rw [bind_run, deserialize_run, refused]

/-- A handler that reads its payload first and then does what the manager does. -/
theorem handler_run {reader : Value → Option α} {wrap : α → Message}
    {handle : Operation (Option Bytes)} {type : ElectionMessageType} (w : World)
    (typed : ElectionMessageType.fromU8 tag = some type)
    (kind : ∀ value, payloadOf value type = (reader value).map wrap)
    (refused : (json.fromSlice payload).bind reader = none → handle w = .error .serializeError w)
    (accepted : ∀ value, (json.fromSlice payload).bind reader = some value →
      handle w = report json (w.manager.handleMessage candidateHash (hooks.sync.getD "") (wrap value))
        (w.after json hooks
          (w.manager.handleMessage candidateHash (hooks.sync.getD "") (wrap value))
          (asked hooks w.manager (wrap value)))) :
    handle w =
      report json (w.manager.handleBytes json candidateHash (hooks.sync.getD "") (tag :: payload))
        (w.after json hooks
          (w.manager.handleBytes json candidateHash (hooks.sync.getD "") (tag :: payload))
          (askedFor json hooks w.manager (tag :: payload))) := by
  have same : (json.fromSlice payload).bind (payloadOf · type) =
      ((json.fromSlice payload).bind reader).map wrap := by
    cases json.fromSlice payload with
    | none => rfl
    | some value => exact kind value
  rw [ElectionManager.handleBytes, askedFor, parse]
  simp only [typed, same]
  cases reading : (json.fromSlice payload).bind reader with
  | none =>
    rw [refused reading]
    simp [report, World.after]
  | some value =>
    rw [accepted value reading]
    rfl

/-- Run to its end, `handle_message` does what the manager does. -/
theorem handleMessage_run (writes : Writes json toVec) (data : Bytes) (w : World) :
    handleMessage json toVec hooks candidateHash data w =
      report json (w.manager.handleBytes json candidateHash (hooks.sync.getD "") data)
        (w.after json hooks (w.manager.handleBytes json candidateHash (hooks.sync.getD "") data)
          (askedFor json hooks w.manager data)) := by
  cases data with
  | nil => simp [handleMessage, ElectionManager.handleBytes, parse, askedFor, report, World.after]
  | cons tag payload =>
    cases typed : ElectionMessageType.fromU8 tag with
    | none =>
      simp [handleMessage, ElectionManager.handleBytes, parse, typed, askedFor, report, World.after]
    | some type =>
      simp only [handleMessage, typed]
      cases type with
      | electionRequest =>
        exact handler_run w typed (fun _ => rfl) (refused_run _ w)
          fun _ accepted => handleElectionRequest_run writes w accepted
      | electionVote =>
        exact handler_run w typed (fun _ => rfl) (refused_run _ w)
          fun _ accepted => handleElectionVote_run writes w accepted
      | electionResult =>
        exact handler_run w typed (fun _ => rfl) (refused_run _ w)
          fun _ accepted => handleElectionResult_run w accepted
      | registryChange =>
        exact handler_run w typed (fun _ => rfl) (refused_run _ w)
          fun _ accepted => handleRegistryChange_run w accepted
      | registrySync =>
        exact handler_run w typed (fun _ => rfl) (refused_run _ w)
          fun _ accepted => handleRegistrySync_run writes w accepted

theorem handleSyncResponse_run (payload : Bytes) (w : World) :
    handleSyncResponse json hooks payload w =
      match (json.fromSlice payload).bind registrySyncResponseOf with
      | none => .error .serializeError w
      | some response => .ok () { w with
          manager := (w.manager.handleSyncResponse response).1
          called := w.called ++ if hooks.load then
            ((w.manager.handleSyncResponse response).2.toList.map .load) else [] } := by
  rw [handleSyncResponse]
  simp only [bind_run, deserialize_run]
  cases (json.fromSlice payload).bind registrySyncResponseOf with
  | none => rfl
  | some response =>
    simp only [ElectionManager.handleSyncResponse, get_run]
    by_cases later : response.term > w.manager.term <;>
      by_cases empty : response.registryData.isEmpty <;>
      cases hooks.load <;> simp [later, empty]

/-- The manager refuses what cannot be read and nothing else. -/
theorem handleBytes_error {m : ElectionManager}
    (failed : (m.handleBytes json candidateHash registryData data).result = .error e) :
    m.handleBytes json candidateHash registryData data = ⟨m, .error e, [], []⟩ ∧
      parse json data = .malformed := by
  unfold ElectionManager.handleBytes at failed ⊢
  cases parsed : parse json data with
  | ignored =>
    rw [parsed] at failed
    cases failed
  | malformed =>
    rw [parsed] at failed
    cases failed
    exact ⟨rfl, rfl⟩
  | message message =>
    rw [parsed] at failed
    obtain ⟨reply, answered⟩ := handleMessage_answers m registryData (parse_request parsed)
    cases answered.symm.trans failed

/-- Whatever fails has changed nothing, sent nothing and called nothing. -/
theorem errors_are_atomic (json : JsonText) (toVec : Value → Option Bytes) (hooks : Hooks)
    (candidateHash : NodeID → UInt64 → UInt64) (writes : Writes json toVec) (w : World) :
    (∀ data e w', handleMessage json toVec hooks candidateHash data w = .error e w' → w' = w) ∧
      (∀ payload e w', handleSyncResponse json hooks payload w = .error e w' → w' = w) ∧
      (∀ e w', startElection toVec hooks w = .error e w' → w' = w) := by
  refine ⟨?_, ?_, ?_⟩
  · intro data e w' failed
    rw [handleMessage_run writes, report] at failed
    split at failed
    · cases failed
    · rename_i error refused
      cases failed
      obtain ⟨outcome, malformed⟩ := handleBytes_error refused
      simp [outcome, askedFor, malformed, World.after]
  · intro payload e w' failed
    rw [handleSyncResponse_run] at failed
    split at failed
    · cases failed
      rfl
    · cases failed
  · intro e w' failed
    rw [startElection_run writes] at failed
    split at failed
    · cases failed
    · cases failed
      rfl

/-- A fresh node with every function installed. -/
def idleWorld (known : List KnownNode) : World :=
  ⟨{ ElectionManager.new Wire.first "first" with knownNodes := known }, [], []⟩

def installed : Hooks := ⟨true, true, some "data", true⟩

def asciiVec (value : Value) : Option Bytes := some (Wire.asciiText value)

theorem errors_are_atomic_idle :
    (∃ e w', handleMessage Wire.exchanged asciiVec installed Wire.noHash [0x11] (idleWorld []) =
      .error e w' ∧ w' = idleWorld []) ∧
    (∃ e w', startElection asciiVec installed (idleWorld []) = .error e w' ∧ w' = idleWorld []) := by
  have atomic := errors_are_atomic Wire.exchanged asciiVec installed Wire.noHash (fun _ => rfl)
    (idleWorld [])
  have refused : handleMessage Wire.exchanged asciiVec installed Wire.noHash [0x11] (idleWorld []) =
      .error .serializeError (idleWorld []) := rfl
  have alone : startElection asciiVec installed (idleWorld []) =
      .error .notEnoughNodes (idleWorld []) := rfl
  exact ⟨⟨_, _, refused, atomic.1 _ _ _ refused⟩, ⟨_, _, alone, atomic.2.2 _ _ alone⟩⟩

end LanLink.Election.Steps
