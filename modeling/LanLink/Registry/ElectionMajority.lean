import LanLink.Registry.ElectionHistory

/-! The majority behind a leader. The electorate is the node and the nodes it
knows; a vote is counted for the term the node is in when it is counted. -/
namespace LanLink.Election.History
open Words

def members (m : ElectionManager) : Finset NodeID :=
  (m.localId :: m.knownNodes.map KnownNode.id).toFinset

/-- A leader counted votes of more than half of the members in its term. -/
def LeadsByMajority (n : Node) : Prop :=
  n.manager.status = .leader →
    Quorum.Wins (members n.manager)
      (fun voter candidate term => ⟨voter, candidate, term, true⟩ ∈ n.counted)
      n.manager.localId n.manager.term

/-- The collected votes are those of different members and were counted in the
term of the node; a follower has none and a leader more than half. -/
structure Tallied (n : Node) : Prop where
  distinct : n.manager.votesReceived.Nodup
  inside : ∀ voter ∈ n.manager.votesReceived, voter ∈ members n.manager
  counted : ∀ voter ∈ n.manager.votesReceived,
    ⟨voter, n.manager.localId, n.manager.term, true⟩ ∈ n.counted
  idle : n.manager.status = .follower → n.manager.votesReceived = []
  elected : n.manager.status = .leader →
    (n.manager.knownNodes.length + 1) / 2 < n.manager.votesReceived.length

/-- A candidate is voted for by members only, and no synchronization response
moves a candidate or a leader to a later term. -/
def Enrolled (json : JsonText) (n : Node) : Control.Action → Prop
  | .startElection => True
  | .handleMessage _ data => ∀ voter,
      parse json data =
        .message (.electionVote ⟨voter, n.manager.localId, n.manager.term, true⟩) →
      n.manager.status = .candidate → voter ∈ members n.manager
  | .handleSyncResponse payload => ∀ response,
      (json.fromSlice payload).bind registrySyncResponseOf = some response →
      n.manager.term < response.term → n.manager.status = .follower

variable {json : JsonText} {candidateHash : NodeID → UInt64 → UInt64} {m m' : ElectionManager}

theorem members_card (m : ElectionManager) : (members m).card ≤ m.knownNodes.length + 1 := by
  have bound := List.toFinset_card_le (m.localId :: m.knownNodes.map KnownNode.id)
  simpa [members] using bound

theorem members_sameNode (same : SameNode m m') : members m' = members m := by
  unfold members
  rw [same.1, same.2]

theorem Tallied.majority {n : Node} (tallied : Tallied n) : LeadsByMajority n := by
  intro leading
  refine Quorum.wins_of_list tallied.distinct tallied.inside ?_ tallied.counted
  have card := members_card n.manager
  have more := tallied.elected leading
  omega

/-- A node that becomes a follower starts over. -/
theorem cleared_tallied (n : Node) (status : m.status = .follower) (votes : m.votesReceived = []) :
    Tallied (n.after m sent counted campaigns) := by
  constructor <;> simp [Node.after, status, votes]

/-- The votes stay valid while their term does; a follower has none to lose. -/
theorem Tallied.unchanged {n : Node} {added : List ElectionVotePayload} (tallied : Tallied n)
    (same : SameNode n.manager m) (status : m.status = n.manager.status)
    (votes : m.votesReceived = n.manager.votesReceived)
    (term : m.term = n.manager.term ∨ n.manager.status = .follower) :
    Tallied (n.after m sent added campaigns) where
  distinct := by
    rw [Node.after, votes]
    exact tallied.distinct
  inside := by
    intro voter member
    rw [Node.after, votes] at member
    rw [Node.after, members_sameNode same]
    exact tallied.inside voter member
  counted := by
    intro voter member
    rw [Node.after, votes] at member
    rcases term with here | following
    · simp only [Node.after, same.1, here]
      exact List.mem_append_left _ (tallied.counted voter member)
    · rw [tallied.idle following] at member
      cases member
  idle := by
    intro following
    rw [Node.after, votes]
    exact tallied.idle (status.symm.trans following)
  elected := by
    intro leading
    simp only [Node.after, same.2, votes]
    exact tallied.elected (status.symm.trans leading)

theorem campaigned_tallied (n : Node) (same : SameNode n.manager m)
    (status : m.status = .candidate) (votes : m.votesReceived = [n.manager.localId]) :
    Tallied (n.after m sent [⟨n.manager.localId, n.manager.localId, m.term, true⟩] campaigns) := by
  constructor
  · simp [Node.after, votes]
  · simp [Node.after, votes, members, same.1]
  · simp [Node.after, votes, same.1]
  · simp [Node.after, status]
  · simp [Node.after, status]

/-- One more member, whose vote has just been counted. -/
theorem Tallied.counts {n : Node} (tallied : Tallied n) (same : SameNode n.manager m)
    (member : voter ∈ members n.manager) (fresh : voter ∉ n.manager.votesReceived)
    (status : m.status = .candidate ∨ m.status = .leader ∧
      (n.manager.knownNodes.length + 1) / 2 < n.manager.votesReceived.length + 1)
    (term : m.term = n.manager.term)
    (votes : m.votesReceived = n.manager.votesReceived ++ [voter]) :
    Tallied (n.after m sent [⟨voter, n.manager.localId, n.manager.term, true⟩] campaigns) where
  distinct := by
    rw [Node.after, votes, List.nodup_append]
    refine ⟨tallied.distinct, List.nodup_singleton _, ?_⟩
    rintro earlier listed last here rfl
    exact fresh (List.mem_singleton.mp here ▸ listed)
  inside := by
    intro v listed
    rw [Node.after, votes] at listed
    rw [Node.after, members_sameNode same]
    rcases List.mem_append.mp listed with old | last
    · exact tallied.inside v old
    · rw [List.mem_singleton.mp last]
      exact member
  counted := by
    intro v listed
    rw [Node.after, votes] at listed
    simp only [Node.after, same.1, term]
    rcases List.mem_append.mp listed with old | last
    · exact List.mem_append_left _ (tallied.counted v old)
    · rw [List.mem_singleton.mp last]
      exact List.mem_append_right _ (List.mem_singleton_self _)
  idle := by
    intro following
    rcases status with running | ⟨leading, -⟩
    · cases running.symm.trans following
    · cases leading.symm.trans following
  elected := by
    intro leading
    rcases status with running | ⟨-, more⟩
    · cases running.symm.trans leading
    · simpa [Node.after, same.2, votes] using more

theorem step_tallied {n t : Node} (tallied : Tallied n) (enrolled : Enrolled json n a)
    (stepped : step json candidateHash n a = some t) : Tallied t := by
  cases step_course stepped with
  | campaigned sent m' candidate same status term vote votes requests =>
    exact campaigned_tallied n same status votes
  | idle a still => exact tallied.unchanged ⟨rfl, rfl⟩ rfl rfl (.inl rfl)
  | reacted registryData data message m' sent parsed same reaction =>
    cases reaction with
    | kept silent kept =>
      subst kept
      exact tallied.unchanged same rfl rfl (.inl rfl)
    | followed silent status vote votes term => exact cleared_tallied n status votes
    | granted candidate answer vote term =>
      rcases term with ⟨-, status, votes⟩ | ⟨here, -, status, votes⟩
      · exact cleared_tallied n status votes
      · exact tallied.unchanged same status votes (.inl here.symm)
    | counted voter silent received running fresh status term vote votes =>
      have joined : countedVotes n.manager m' message =
          [⟨voter, n.manager.localId, n.manager.term, true⟩] := by
        simp [countedVotes, received, votes]
      rw [joined]
      have member := enrolled voter (received ▸ parsed) running
      exact tallied.counts same member fresh status term votes
  | synced payload response parsed =>
    refine tallied.unchanged ⟨rfl, rfl⟩ rfl rfl ?_
    by_cases above : n.manager.term < response.term
    · exact .inr (enrolled response parsed above)
    · exact .inl (if_neg above)

/-- In every run in which only members vote for the node and its term does not
change under its candidacy, a leader counted a majority of the members. -/
theorem leader_has_majority (json : JsonText) (candidateHash : NodeID → UInt64 → UInt64)
    (localId : NodeID) (localName : String) (known : List KnownNode)
    (actions : List Control.Action)
    (enrolled : Runs.Meets (step json candidateHash) (Enrolled json)
      (.start { ElectionManager.new localId localName with knownNodes := known }) actions) :
    Runs.Always (step json candidateHash) LeadsByMajority
      (.start { ElectionManager.new localId localName with knownNodes := known }) actions := by
  refine Runs.always_of_meets (fun tallied guard stepped => step_tallied tallied guard stepped)
    (fun _ tallied => tallied.majority) enrolled ?_
  constructor <;> simp [Node.start, ElectionManager.new]

theorem enrolled_hear (n : Node) (member : message ∈ heard) :
    Enrolled heardText n (hear message) ↔ ∀ voter,
      message = .electionVote ⟨voter, n.manager.localId, n.manager.term, true⟩ →
      n.manager.status = .candidate → voter ∈ members n.manager := by
  simp [Enrolled, hear, heard_parsed message member]

/-- Node 1 campaigns and is elected by the node it knows. -/
theorem leader_has_majority_heard :
    Runs.Meets (step heardText candidateHashes) (Enrolled heardText) (.start listener)
      [.startElection, hear (support 2)] ∧
    Runs.Always (step heardText candidateHashes) LeadsByMajority (.start listener)
      [.startElection, hear (support 2)] := by
  have meets : Runs.Meets (step heardText candidateHashes) (Enrolled heardText) (.start listener)
      [.startElection, hear (support 2)] := by
    have vote : support 2 ∈ heard := by decide
    refine ⟨trivial, ?_⟩
    rintro t stepped
    cases stepped
    refine ⟨(enrolled_hear _ vote).mpr ?_, fun _ _ => trivial⟩
    intro voter same running
    have ids := (ElectionVotePayload.mk.inj (Message.electionVote.inj same)).1
    rw [← ids]
    decide
  exact ⟨meets, leader_has_majority _ _ _ _ _ _ meets⟩

/-- The node after the start of its election. -/
def campaigning : Node :=
  (Node.start listener).after listener.startElection.manager listener.startElection.messages
    [⟨nodeOf 1, nodeOf 1, 1, true⟩] [⟨[0], 1⟩]

/-- The node that is elected by a stranger counted one member of two. -/
theorem leader_without_majority : ¬ Runs.Always (step heardText candidateHashes) LeadsByMajority
    (.start listener) [.startElection, hear (support 3)] := by
  have vote : support 3 ∈ heard := by decide
  have started : step heardText candidateHashes (.start listener) .startElection =
      some campaigning := rfl
  have listed : (campaigning.hears (support 3)).counted =
      [⟨nodeOf 1, nodeOf 1, 1, true⟩, ⟨nodeOf 3, nodeOf 1, 1, true⟩] := rfl
  have stranger : nodeOf 3 ∉ members (campaigning.hears (support 3)).manager := by decide
  have size : (members (campaigning.hears (support 3)).manager).card = 2 := by decide
  rintro ⟨-, always⟩
  obtain ⟨-, always⟩ := always campaigning started
  obtain ⟨voters, inside, majority, counted⟩ := always _ (step_hear _ vote) rfl
  have alone : voters ⊆ {nodeOf 1} := by
    intro voter member
    have vote := counted voter member
    simp only [listed, List.mem_cons, ElectionVotePayload.mk.injEq, List.not_mem_nil,
      or_false] at vote
    rcases vote with ⟨own, -⟩ | ⟨other, -⟩
    · exact Finset.mem_singleton.mpr own
    · exact absurd (other ▸ inside member) stranger
  have card := Finset.card_le_card alone
  rw [Finset.card_singleton] at card
  omega

end LanLink.Election.History
