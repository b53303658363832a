import LanLink.Core.Runs
import LanLink.Registry.Election

/-! A fixed set of nodes that exchange election messages. Everything sent stays
in the network: a packet can be delivered late, repeatedly, in any order or
never. An address stands for the node that owns it; a reply goes back to the
sender of what it answers. -/
namespace LanLink.Election

/-- The nodes, and what each of them was told about the others. -/
structure Membership where
  members : List NodeID
  distinct : members.Nodup
  name : NodeID → String
  known : NodeID → List KnownNode
  complete : ∀ i ∈ members, ∀ j ∈ members, j ≠ i → ∃ node ∈ known i, node.id = j

structure Packet where
  source : NodeID
  target : NodeID
  message : Message
  deriving DecidableEq

structure Cluster where
  managers : NodeID → ElectionManager
  sent : List Packet

/-- Fresh managers that were told about the members one node at a time. -/
def Membership.start (c : Membership) : Cluster where
  managers i := (c.known i).foldl .addKnownNode (.new i (c.name i))
  sent := []

/-- `respond` hands a synchronization response to its own entry point. -/
inductive Action where
  | startElection (node : NodeID)
  | requestSync (node leader : NodeID)
  | deliver (packet : Packet) (registryData : String)
  | respond (packet : Packet)

/-- The packets a node's operation puts into the network. -/
def Outcome.packets (o : Outcome) (source requester : NodeID) : List Packet :=
  o.sends.map (fun send => ⟨source, send.1.id, send.2⟩) ++
    match o.result with
    | .ok (some reply) => [⟨source, requester, reply⟩]
    | _ => []

def Cluster.update (s : Cluster) (node : NodeID) (m : ElectionManager) (packets : List Packet) :
    Cluster :=
  ⟨Function.update s.managers node m, s.sent ++ packets⟩

def Membership.step (c : Membership) (candidateHash : NodeID → UInt64 → UInt64) (s : Cluster) :
    Action → Option Cluster
  | .startElection i =>
    if i ∈ c.members then
      let o := (s.managers i).startElection
      some (s.update i o.manager (o.packets i i))
    else none
  | .requestSync i leader =>
    if i ∈ c.members then
      some (s.update i (s.managers i) [⟨i, leader, (s.managers i).requestSync⟩])
    else none
  | .deliver p registryData =>
    if p ∈ s.sent ∧ p.target ∈ c.members then
      let o := (s.managers p.target).handleMessage candidateHash registryData p.message
      some (s.update p.target o.manager (o.packets p.target p.source))
    else none
  | .respond p =>
    match p.message with
    | .registrySyncResponse response =>
      if p ∈ s.sent ∧ p.target ∈ c.members then
        some (s.update p.target ((s.managers p.target).handleSyncResponse response).1 [])
      else none
    | _ => none

/-- A vote that is on record: an answered request, or the node's own candidacy. -/
structure Ballot where
  voter : NodeID
  candidate : NodeID
  term : UInt64
  deriving DecidableEq

def Message.ballot : Message → Option Ballot
  | .electionRequest req => some ⟨req.candidateId, req.candidateId, req.term⟩
  | .electionVote vote =>
    if vote.granted then some ⟨vote.voterId, vote.candidateId, vote.term⟩ else none
  | _ => none

/-- The vote of a node for a candidate in a term has been sent. -/
def Granted (sent : List Packet) (voter candidate : NodeID) (term : UInt64) : Prop :=
  ∃ p ∈ sent, p.message.ballot = some ⟨voter, candidate, term⟩

def Campaigned (sent : List Packet) (candidate : NodeID) (term : UInt64) : Prop :=
  ∃ p ∈ sent, ∃ name, p.message = .electionRequest ⟨candidate, name, term⟩

/-- The node has already given its vote of the term to another candidate. -/
def votedOtherwise (sent : List Packet) (voter candidate : NodeID) (term : UInt64) : Bool :=
  sent.any fun p => match p.message.ballot with
    | some b => b.voter = voter && b.term = term && b.candidate ≠ candidate
    | none => false

/-- The steps that cannot break the agreement: no term starts at the end of its
range, no node that has voted grants a second candidate in the same term, and
no leader is moved to a later term by a synchronization response. -/
def careful (candidateHash : NodeID → UInt64 → UInt64) (s : Cluster) : Action → Bool
  | .startElection i =>
    (s.managers i).status = .candidate || (s.managers i).term ≠ UInt64.ofNat (2 ^ 64 - 1)
  | .requestSync _ _ => true
  | .deliver p _ =>
    match p.message with
    | .electionRequest req =>
      !((s.managers p.target).term = req.term &&
        (s.managers p.target).shouldVoteFor candidateHash req.candidateId req.term &&
        votedOtherwise s.sent p.target req.candidateId req.term)
    | _ => true
  | .respond p =>
    match p.message with
    | .registrySyncResponse response =>
      !((s.managers p.target).status = .leader && (s.managers p.target).term < response.term)
    | _ => true

end LanLink.Election
