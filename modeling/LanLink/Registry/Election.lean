import LanLink.Core.Words

/-! The registry election state machine. A node's manager is a value; each
operation returns the manager after it together with what it put on the wire,
what it answered and how it drove the registry callback. Payloads travel as
values: serialization round-trips, and a synchronization response, which has
the type byte of a request, does not parse as one. Poisoned locks and the
monitor's clock are not modeled. -/
namespace LanLink.Election
open Words

abbrev NodeID := List.Vector UInt8 32

inductive RegistryStatus where
  | follower | candidate | leader
  deriving DecidableEq, Repr

structure ElectionRequestPayload where
  candidateId : NodeID
  candidateName : String
  term : UInt64
  deriving DecidableEq

structure ElectionVotePayload where
  voterId : NodeID
  candidateId : NodeID
  term : UInt64
  granted : Bool
  deriving DecidableEq

structure ElectionResultPayload where
  leaderId : NodeID
  leaderName : String
  term : UInt64
  deriving DecidableEq

structure RegistryChangePayload where
  registryId : NodeID
  registryName : String
  registryAddr : String
  term : UInt64
  deriving DecidableEq

structure RegistrySyncPayload where
  requesterId : NodeID
  requesterName : String
  term : UInt64
  deriving DecidableEq

structure RegistrySyncResponsePayload where
  leaderId : NodeID
  leaderName : String
  term : UInt64
  registryData : String
  deriving DecidableEq

inductive Message where
  | electionRequest (payload : ElectionRequestPayload)
  | electionVote (payload : ElectionVotePayload)
  | electionResult (payload : ElectionResultPayload)
  | registryChange (payload : RegistryChangePayload)
  | registrySync (payload : RegistrySyncPayload)
  | registrySyncResponse (payload : RegistrySyncResponsePayload)
  deriving DecidableEq

inductive ElectionError where
  | serializeError | notEnoughNodes
  deriving DecidableEq, Repr

structure KnownNode where
  id : NodeID
  name : String
  addr : String
  deriving DecidableEq

structure ElectionManager where
  localId : NodeID
  localName : String
  status : RegistryStatus
  term : UInt64
  votedFor : Option NodeID
  registryId : Option NodeID
  registryName : Option String
  registryAddr : Option String
  missedHeartbeats : UInt32
  knownNodes : List KnownNode
  votesReceived : List NodeID
  deriving DecidableEq

/-- What an operation leaves behind: `controls` are the calls of the registry
callback, `sends` the messages handed to the send function with their targets. -/
structure Outcome where
  manager : ElectionManager
  result : Except ElectionError (Option Message)
  sends : List (KnownNode × Message)
  controls : List Bool

namespace ElectionManager

def new (localId : NodeID) (localName : String) : ElectionManager where
  localId
  localName
  status := .follower
  term := 0
  votedFor := none
  registryId := none
  registryName := none
  registryAddr := none
  missedHeartbeats := 0
  knownNodes := []
  votesReceived := []

def addKnownNode (m : ElectionManager) (node : KnownNode) : ElectionManager :=
  if m.knownNodes.any (·.id = node.id) then m
  else { m with knownNodes := m.knownNodes ++ [node] }

def broadcast (m : ElectionManager) (message : Message) : List (KnownNode × Message) :=
  m.knownNodes.map (·, message)

/-- The counter is atomic and wraps, as does the sum in an optimized build. -/
def startElection (m : ElectionManager) : Outcome :=
  if m.status = .candidate then ⟨m, .ok none, [], []⟩
  else if m.knownNodes.length = 0 then ⟨m, .error .notEnoughNodes, [], []⟩
  else
    let newTerm := m.term + 1
    let m := { m with status := .candidate, term := newTerm, votedFor := some m.localId,
                      votesReceived := [m.localId] }
    ⟨m, .ok none, m.broadcast (.electionRequest ⟨m.localId, m.localName, newTerm⟩), []⟩

/-- The node finds its own address only if it knows itself. -/
def getLocalAddr (m : ElectionManager) : Option String :=
  (m.knownNodes.find? (·.id = m.localId)).map (·.addr)

def becomeLeader (m : ElectionManager) : Outcome :=
  let localAddr := m.getLocalAddr
  let m := { m with status := .leader, registryId := some m.localId,
                    registryName := some m.localName, registryAddr := localAddr }
  let change := match localAddr with
    | some addr => m.broadcast (.registryChange ⟨m.localId, m.localName, addr, m.term⟩)
    | none => []
  ⟨m, .ok none, m.broadcast (.electionResult ⟨m.localId, m.localName, m.term⟩) ++ change, [true]⟩

/-- The vote is forgotten whether or not the term grows. -/
def becomeFollower (m : ElectionManager) (newTerm : UInt64) (newRegistryId : Option NodeID) :
    ElectionManager :=
  { m with term := if newTerm > m.term then newTerm else m.term, status := .follower,
           votedFor := none, votesReceived := [], registryId := newRegistryId.or m.registryId,
           missedHeartbeats := 0 }

/-- The registry is stopped when another node takes it over. -/
def followerControls (m : ElectionManager) (newRegistryId : Option NodeID) : List Bool :=
  match newRegistryId with
  | some id => if id ≠ m.localId then [false] else []
  | none => []

def localValue (m : ElectionManager) : UInt64 :=
  (ofBigEndian (m.localId.toList.take 8)).toUInt64

def shouldVoteFor (candidateHash : NodeID → UInt64 → UInt64) (m : ElectionManager)
    (candidateId : NodeID) (term : UInt64) : Bool :=
  if m.votedFor.isSome then false
  else if candidateId = m.localId then true
  else candidateHash candidateId term > m.localValue

def buildVoteMessage (m : ElectionManager) (candidateId : NodeID) (term : UInt64)
    (granted : Bool) : Message :=
  .electionVote ⟨m.localId, candidateId, term, granted⟩

def handleElectionRequest (candidateHash : NodeID → UInt64 → UInt64) (m : ElectionManager)
    (req : ElectionRequestPayload) : Outcome :=
  if req.term < m.term then
    ⟨m, .ok (some (m.buildVoteMessage req.candidateId req.term false)), [], []⟩
  else
    let m := if req.term > m.term then m.becomeFollower req.term none else m
    let granted := m.shouldVoteFor candidateHash req.candidateId req.term
    let m := if granted then { m with votedFor := some req.candidateId } else m
    ⟨m, .ok (some (m.buildVoteMessage req.candidateId req.term granted)), [], []⟩

def handleElectionVote (m : ElectionManager) (vote : ElectionVotePayload) : Outcome :=
  if m.status ≠ .candidate then ⟨m, .ok none, [], []⟩
  else if vote.term ≠ m.term then ⟨m, .ok none, [], []⟩
  else if vote.candidateId ≠ m.localId then ⟨m, .ok none, [], []⟩
  else if vote.granted ∧ vote.voterId ∉ m.votesReceived then
    let m := { m with votesReceived := m.votesReceived ++ [vote.voterId] }
    let totalNodes := m.knownNodes.length + 1
    if totalNodes / 2 < m.votesReceived.length then m.becomeLeader else ⟨m, .ok none, [], []⟩
  else ⟨m, .ok none, [], []⟩

def handleElectionResult (m : ElectionManager) (result : ElectionResultPayload) : Outcome :=
  if result.term < m.term then ⟨m, .ok none, [], []⟩
  else if result.leaderId = m.localId then ⟨m, .ok none, [], []⟩
  else ⟨m.becomeFollower result.term (some result.leaderId), .ok none, [],
    m.followerControls (some result.leaderId)⟩

/-- A leader stops its registry here and once more on the way to follower. -/
def handleRegistryChange (m : ElectionManager) (change : RegistryChangePayload) : Outcome :=
  if change.term < m.term then ⟨m, .ok none, [], []⟩
  else if change.registryId = m.localId then ⟨m, .ok none, [], []⟩
  else
    let stop := if m.status = .leader then [false] else []
    let m := { m with registryId := some change.registryId,
                      registryName := some change.registryName,
                      registryAddr := some change.registryAddr }
    ⟨m.becomeFollower change.term (some change.registryId), .ok none, [],
      stop ++ m.followerControls (some change.registryId)⟩

/-- `registryData` is what the synchronization callback returns. -/
def handleRegistrySync (m : ElectionManager) (sync : RegistrySyncPayload) (registryData : String) :
    Outcome :=
  if m.status ≠ .leader then ⟨m, .ok none, [], []⟩
  else if sync.term > m.term then
    ⟨m.becomeFollower sync.term (some sync.requesterId), .ok none, [],
      m.followerControls (some sync.requesterId)⟩
  else ⟨m, .ok (some (.registrySyncResponse ⟨m.localId, m.localName, m.term, registryData⟩)), [], []⟩

def handleMessage (candidateHash : NodeID → UInt64 → UInt64) (m : ElectionManager)
    (registryData : String) : Message → Outcome
  | .electionRequest req => m.handleElectionRequest candidateHash req
  | .electionVote vote => m.handleElectionVote vote
  | .electionResult result => m.handleElectionResult result
  | .registryChange change => m.handleRegistryChange change
  | .registrySync sync => m.handleRegistrySync sync registryData
  | .registrySyncResponse _ => ⟨m, .error .serializeError, [], []⟩

def requestSync (m : ElectionManager) : Message :=
  .registrySync ⟨m.localId, m.localName, m.term⟩

/-- The term is raised in whatever status the node has. The second component
is the data handed to the load callback. -/
def handleSyncResponse (m : ElectionManager) (response : RegistrySyncResponsePayload) :
    ElectionManager × Option String :=
  ({ m with term := if response.term > m.term then response.term else m.term,
            registryId := some response.leaderId, registryName := some response.leaderName },
    if response.registryData.isEmpty then none else some response.registryData)

/-- A vote that counts is noted and makes a leader with the majority; any other
vote does nothing. -/
theorem handleElectionVote_cases (m : ElectionManager) (vote : ElectionVotePayload) :
    m.handleElectionVote vote = ⟨m, .ok none, [], []⟩ ∨
    (m.status = .candidate ∧ vote = ⟨vote.voterId, m.localId, m.term, true⟩ ∧
      vote.voterId ∉ m.votesReceived) ∧
    ((m.knownNodes.length + 1) / 2 < m.votesReceived.length + 1 ∧
        m.handleElectionVote vote =
          { m with votesReceived := m.votesReceived ++ [vote.voterId] }.becomeLeader ∨
      m.handleElectionVote vote =
        ⟨{ m with votesReceived := m.votesReceived ++ [vote.voterId] }, .ok none, [], []⟩) := by
  rw [handleElectionVote]
  split
  · exact .inl rfl
  · rename_i running
    split
    · exact .inl rfl
    · rename_i term
      split
      · exact .inl rfl
      · rename_i candidate
        split
        · rename_i counted
          obtain ⟨granted, fresh⟩ := counted
          rw [not_not] at running term candidate
          have shape : vote = ⟨vote.voterId, m.localId, m.term, true⟩ := by
            rw [← candidate, ← term, ← granted]
          refine .inr ⟨⟨running, shape, fresh⟩, ?_⟩
          dsimp only
          split
          · rename_i majority
            rw [List.length_append, List.length_singleton] at majority
            exact .inl ⟨majority, rfl⟩
          · exact .inr rfl
        · exact .inl rfl

end ElectionManager

/-- Everything an operation puts on the wire. -/
def Outcome.messages (o : Outcome) : List Message :=
  o.sends.map Prod.snd ++
    match o.result with
    | .ok (some reply) => [reply]
    | _ => []

end LanLink.Election
