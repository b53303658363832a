import LanLink.Core.Quorum
import LanLink.Registry.ElectionNetwork

/-! Agreement of the election. Every operation of a node has one of five
effects on its status, term and collected votes; the invariants of the cluster
follow from the effects alone. Votes are read off the packets ever sent, so a
majority once collected is never lost. -/
namespace LanLink.Election

/-- No message of a list carries a vote. -/
def Silent (out : List Message) : Prop := ∀ x ∈ out, x.ballot = none

/-- What one operation may do to a manager, given the message it consumed. -/
inductive Effect (candidateHash : NodeID → UInt64 → UInt64) (m : ElectionManager)
    (input : Option Message) (m' : ElectionManager) (out : List Message) : Prop where
  | keep (silent : Silent out) (status : m'.status = m.status)
      (votes : m'.votesReceived = m.votesReceived) (term : m.term ≤ m'.term)
      (settled : m.status = .leader → m'.term = m.term)
  | stepDown (silent : Silent out) (status : m'.status = .follower) (term : m.term ≤ m'.term)
  | campaign (sends : out ≠ [])
      (requests : ∀ x ∈ out, x = .electionRequest ⟨m.localId, m.localName, m.term + 1⟩)
      (room : m.term < m.term + 1) (status : m'.status = .candidate) (term : m'.term = m.term + 1)
      (votes : m'.votesReceived = [m.localId])
  | grant (req : ElectionRequestPayload) (asked : input = some (.electionRequest req))
      (answer : out = [.electionVote ⟨m.localId, req.candidateId, req.term, true⟩])
      (term : m'.term = req.term)
      (role : (m.term < req.term ∧ m'.status = .follower) ∨
        (m.term = req.term ∧ m.shouldVoteFor candidateHash req.candidateId req.term = true ∧
          m'.status = m.status ∧ m'.votesReceived = m.votesReceived))
  | count (voter : NodeID) (silent : Silent out)
      (received : input = some (.electionVote ⟨voter, m.localId, m.term, true⟩))
      (running : m.status = .candidate) (fresh : voter ∉ m.votesReceived)
      (status : m'.status = .candidate ∨
        m'.status = .leader ∧ (m.knownNodes.length + 1) / 2 < m.votesReceived.length + 1)
      (term : m'.term = m.term) (votes : m'.votesReceived = m.votesReceived ++ [voter])

section
variable {candidateHash : NodeID → UInt64 → UInt64} {m m' : ElectionManager}
  {input : Option Message} {out : List Message}

theorem Effect.idle : Effect candidateHash m input m [] :=
  .keep (by simp [Silent]) rfl rfl (UInt64.le_refl _) (fun _ => rfl)

theorem becomeFollower_term (m : ElectionManager) (term : UInt64) (id : Option NodeID) :
    m.term ≤ (m.becomeFollower term id).term := by
  simp only [ElectionManager.becomeFollower]
  split
  · rename_i above
    exact UInt64.le_of_lt above
  · exact UInt64.le_refl _

theorem lt_succ_of_ne_max {term : UInt64} (room : term ≠ UInt64.ofNat (2 ^ 64 - 1)) :
    term < term + 1 := by
  have bound := term.toNat_lt
  have other : term.toNat ≠ 2 ^ 64 - 1 := by
    intro same
    exact room (UInt64.toNat_inj.mp same)
  rw [UInt64.lt_iff_toNat_lt, UInt64.toNat_add, UInt64.toNat_one]
  omega

theorem startElection_effect (room : m.status = .candidate ∨ m.term ≠ UInt64.ofNat (2 ^ 64 - 1)) :
    Effect candidateHash m input m.startElection.manager m.startElection.messages := by
  simp only [ElectionManager.startElection]
  split
  · exact .idle
  · rename_i waiting
    split
    · exact .idle
    · rename_i company
      have below : m.term ≠ UInt64.ofNat (2 ^ 64 - 1) := room.resolve_left waiting
      refine .campaign ?_ ?_ ?_ rfl rfl rfl
      · simp [Outcome.messages, ElectionManager.broadcast, List.length_eq_zero_iff] at company ⊢
        exact company
      · simp [Outcome.messages, ElectionManager.broadcast]
      · exact lt_succ_of_ne_max below

theorem handleElectionRequest_effect (m : ElectionManager) (req : ElectionRequestPayload) :
    Effect candidateHash m (some (.electionRequest req))
      (m.handleElectionRequest candidateHash req).manager
      (m.handleElectionRequest candidateHash req).messages := by
  simp only [ElectionManager.handleElectionRequest]
  split
  · exact .keep (by simp [Silent, Outcome.messages, ElectionManager.buildVoteMessage,
      Message.ballot]) rfl rfl (UInt64.le_refl _) (fun _ => rfl)
  · rename_i current
    by_cases later : req.term > m.term
    · simp only [if_pos later]
      cases granted : (m.becomeFollower req.term none).shouldVoteFor candidateHash
          req.candidateId req.term with
      | false =>
        exact .stepDown (by simp [Silent, Outcome.messages, ElectionManager.buildVoteMessage,
          Message.ballot]) rfl (becomeFollower_term m req.term none)
      | true =>
        refine .grant req rfl rfl ?_ (.inl ⟨later, rfl⟩)
        simp [ElectionManager.becomeFollower, later]
    · simp only [if_neg later]
      have same : m.term = req.term := UInt64.le_antisymm (UInt64.not_lt.mp current)
        (UInt64.not_lt.mp later)
      cases granted : m.shouldVoteFor candidateHash req.candidateId req.term with
      | false =>
        exact .keep (by simp [Silent, Outcome.messages, ElectionManager.buildVoteMessage,
          Message.ballot]) rfl rfl (UInt64.le_refl _) (fun _ => rfl)
      | true => exact .grant req rfl rfl same (.inr ⟨same, granted, rfl, rfl⟩)

theorem becomeLeader_silent (m : ElectionManager) : Silent m.becomeLeader.messages := by
  intro x member
  simp only [Outcome.messages, ElectionManager.becomeLeader, ElectionManager.broadcast] at member
  cases addr : m.getLocalAddr <;> simp only [addr, List.map_append, List.map_map, List.mem_append,
    List.mem_map, List.append_nil] at member
  · obtain ⟨node, -, rfl⟩ := member
    rfl
  · rcases member with ⟨node, -, rfl⟩ | ⟨node, -, rfl⟩ <;> rfl

theorem handleElectionVote_effect (m : ElectionManager) (vote : ElectionVotePayload) :
    Effect candidateHash m (some (.electionVote vote)) (m.handleElectionVote vote).manager
      (m.handleElectionVote vote).messages := by
  rcases m.handleElectionVote_cases vote with same | ⟨⟨running, shape, fresh⟩, counted⟩
  · rw [same]
    exact .idle
  · have received : some (Message.electionVote vote) =
        some (.electionVote ⟨vote.voterId, m.localId, m.term, true⟩) :=
      congrArg (some ∘ Message.electionVote) shape
    rcases counted with ⟨majority, leads⟩ | noted
    · rw [leads]
      exact .count vote.voterId (becomeLeader_silent _) received running fresh
        (.inr ⟨rfl, majority⟩) rfl rfl
    · rw [noted]
      exact .count vote.voterId (by simp [Silent, Outcome.messages]) received running fresh
        (.inl running) rfl rfl

theorem handleMessage_effect (m : ElectionManager) (registryData : String) (x : Message) :
    Effect candidateHash m (some x) (m.handleMessage candidateHash registryData x).manager
      (m.handleMessage candidateHash registryData x).messages := by
  cases x with
  | electionRequest req => exact handleElectionRequest_effect m req
  | electionVote vote => exact handleElectionVote_effect m vote
  | electionResult result =>
    simp only [ElectionManager.handleMessage, ElectionManager.handleElectionResult]
    split
    · exact .idle
    · split
      · exact .idle
      · exact .stepDown (by simp [Silent, Outcome.messages]) rfl (becomeFollower_term _ _ _)
  | registryChange change =>
    simp only [ElectionManager.handleMessage, ElectionManager.handleRegistryChange]
    split
    · exact .idle
    · split
      · exact .idle
      · exact .stepDown (by simp [Silent, Outcome.messages]) rfl
          (becomeFollower_term _ _ (some change.registryId))
  | registrySync sync =>
    simp only [ElectionManager.handleMessage, ElectionManager.handleRegistrySync]
    split
    · exact .idle
    · split
      · exact .stepDown (by simp [Silent, Outcome.messages]) rfl (becomeFollower_term _ _ _)
      · exact .keep (by simp [Silent, Outcome.messages, Message.ballot]) rfl rfl
          (UInt64.le_refl _) (fun _ => rfl)
  | registrySyncResponse response => exact .idle

theorem handleSyncResponse_effect (m : ElectionManager) (response : RegistrySyncResponsePayload)
    (careful : ¬(m.status = .leader ∧ m.term < response.term)) :
    Effect candidateHash m input (m.handleSyncResponse response).1 [] := by
  refine .keep (by simp [Silent]) rfl rfl ?_ ?_ <;> simp only [ElectionManager.handleSyncResponse]
  · split
    · rename_i above
      exact UInt64.le_of_lt above
    · exact UInt64.le_refl _
  · intro leading
    rw [if_neg (fun above => careful ⟨leading, above⟩)]

/-- No operation changes who a node is or whom it knows. -/
def SameNode (m m' : ElectionManager) : Prop :=
  m'.localId = m.localId ∧ m'.knownNodes = m.knownNodes

theorem startElection_sameNode (m : ElectionManager) : SameNode m m.startElection.manager := by
  simp only [ElectionManager.startElection]
  split
  · exact ⟨rfl, rfl⟩
  · split <;> exact ⟨rfl, rfl⟩

theorem handleElectionRequest_sameNode (m : ElectionManager) (req : ElectionRequestPayload) :
    SameNode m (m.handleElectionRequest candidateHash req).manager := by
  simp only [ElectionManager.handleElectionRequest]
  split
  · exact ⟨rfl, rfl⟩
  · dsimp only
    split <;> split <;> exact ⟨rfl, rfl⟩

theorem handleElectionVote_sameNode (m : ElectionManager) (vote : ElectionVotePayload) :
    SameNode m (m.handleElectionVote vote).manager := by
  rcases m.handleElectionVote_cases vote with same | ⟨-, ⟨-, leads⟩ | noted⟩
  · rw [same]
    exact ⟨rfl, rfl⟩
  · rw [leads]
    exact ⟨rfl, rfl⟩
  · rw [noted]
    exact ⟨rfl, rfl⟩

theorem handleMessage_sameNode (m : ElectionManager) (registryData : String) (x : Message) :
    SameNode m (m.handleMessage candidateHash registryData x).manager := by
  cases x with
  | electionRequest req => exact handleElectionRequest_sameNode m req
  | electionVote vote => exact handleElectionVote_sameNode m vote
  | electionResult result =>
    simp only [ElectionManager.handleMessage, ElectionManager.handleElectionResult]
    repeat' split
    all_goals exact ⟨rfl, rfl⟩
  | registryChange change =>
    simp only [ElectionManager.handleMessage, ElectionManager.handleRegistryChange]
    repeat' split
    all_goals exact ⟨rfl, rfl⟩
  | registrySync sync =>
    simp only [ElectionManager.handleMessage, ElectionManager.handleRegistrySync]
    repeat' split
    all_goals exact ⟨rfl, rfl⟩
  | registrySyncResponse response => exact ⟨rfl, rfl⟩

theorem packets_messages (o : Outcome) (source requester : NodeID) :
    (o.packets source requester).map Packet.message = o.messages := by
  simp only [Outcome.packets, Outcome.messages, List.map_append, List.map_map]
  congr 1
  cases o.result with
  | error error => rfl
  | ok reply => cases reply <;> rfl

end

/-- One step of the cluster, seen at the node that takes it. -/
structure Moves (candidateHash : NodeID → UInt64 → UInt64) (s : Cluster) (i : NodeID)
    (input : Option Message) (m' : ElectionManager) (packets : List Packet) : Prop where
  effect : Effect candidateHash (s.managers i) input m' (packets.map Packet.message)
  sameNode : SameNode (s.managers i) m'
  delivered : ∀ x, input = some x → ∃ p ∈ s.sent, p.message = x
  unvoted : ∀ req, input = some (.electionRequest req) → (s.managers i).term = req.term →
    (s.managers i).shouldVoteFor candidateHash req.candidateId req.term = true →
    ∀ d, Granted s.sent i d req.term → d = req.candidateId

theorem votedOtherwise_false (unvoted : votedOtherwise sent voter candidate term = false)
    (granted : Granted sent voter d term) : d = candidate := by
  obtain ⟨p, member, ballot⟩ := granted
  have other := List.any_eq_false.mp unvoted p member
  simpa [ballot] using other

section
variable {c : Membership} {candidateHash : NodeID → UInt64 → UInt64} {s t : Cluster} {a : Action}

/-- Everything a careful step can do. -/
theorem step_moves (stepped : c.step candidateHash s a = some t)
    (safe : careful candidateHash s a = true) :
    ∃ i ∈ c.members, ∃ input m' packets, t = s.update i m' packets ∧
      Moves candidateHash s i input m' packets := by
  cases a with
  | startElection i =>
    obtain ⟨member, ⟨⟩⟩ := Option.ite_none_right_eq_some.mp stepped
    refine ⟨i, member, none, _, _, rfl, ?_, startElection_sameNode _, by simp, by simp⟩
    rw [packets_messages]
    exact startElection_effect (by simpa [careful] using safe)
  | requestSync i leader =>
    obtain ⟨member, ⟨⟩⟩ := Option.ite_none_right_eq_some.mp stepped
    refine ⟨i, member, none, _, _, rfl, ?_, ⟨rfl, rfl⟩, by simp, by simp⟩
    exact .keep (by simp [Silent, ElectionManager.requestSync, Message.ballot]) rfl rfl
      (UInt64.le_refl _) (fun _ => rfl)
  | deliver p registryData =>
    obtain ⟨⟨sent, member⟩, ⟨⟩⟩ := Option.ite_none_right_eq_some.mp stepped
    refine ⟨p.target, member, some p.message, _, _, rfl, ?_, handleMessage_sameNode _ _ _, ?_, ?_⟩
    · rw [packets_messages]
      exact handleMessage_effect _ _ _
    · rintro x ⟨⟩
      exact ⟨p, sent, rfl⟩
    · rintro req asked current granting d granted
      have message : p.message = .electionRequest req := Option.some.inj asked
      simp only [careful, message, current, granting, decide_true, Bool.and_true,
        Bool.true_and, Bool.not_eq_true'] at safe
      exact votedOtherwise_false safe granted
  | respond p =>
    simp only [Membership.step] at stepped
    split at stepped
    · rename_i response message
      obtain ⟨⟨sent, member⟩, ⟨⟩⟩ := Option.ite_none_right_eq_some.mp stepped
      refine ⟨p.target, member, none, _, _, rfl, ?_, ⟨rfl, rfl⟩, by simp, by simp⟩
      apply handleSyncResponse_effect
      rintro ⟨leading, above⟩
      simp [careful, message, leading, above] at safe
    · cases stepped

end

section
variable {candidateHash : NodeID → UInt64 → UInt64} {m m' : ElectionManager}
  {input : Option Message} {out : List Message}

theorem Effect.term_le (e : Effect candidateHash m input m' out) : m.term ≤ m'.term := by
  cases e with
  | keep _ _ _ term _ => exact term
  | stepDown _ _ term => exact term
  | campaign _ _ room _ term _ =>
    rw [term]
    exact UInt64.le_of_lt room
  | grant req _ _ term role =>
    rw [term]
    rcases role with ⟨above, -⟩ | ⟨same, -⟩
    · exact UInt64.le_of_lt above
    · exact UInt64.le_of_eq same
  | count _ _ _ _ _ _ term _ => exact UInt64.le_of_eq term.symm

/-- A vote a node sends is its own, in the term it reaches; it is either the
first one of a later term or the answer to a request of the current term. -/
theorem Effect.ballot (e : Effect candidateHash m input m' out) (sent : x ∈ out)
    (ballot : x.ballot = some b) : b.voter = m.localId ∧ b.term = m'.term ∧
      (m.term < b.term ∨ ∃ req, input = some (.electionRequest req) ∧ m.term = req.term ∧
        b.term = req.term ∧ b.candidate = req.candidateId ∧
        m.shouldVoteFor candidateHash req.candidateId req.term = true) := by
  cases e with
  | keep silent _ _ _ _ => simp [silent x sent] at ballot
  | stepDown silent _ _ => simp [silent x sent] at ballot
  | campaign _ requests room _ term _ =>
    rw [requests x sent] at ballot
    cases ballot
    exact ⟨rfl, term.symm, .inl room⟩
  | grant req asked answer term role =>
    rw [answer, List.mem_singleton] at sent
    rw [sent] at ballot
    cases ballot
    refine ⟨rfl, term.symm, ?_⟩
    rcases role with ⟨above, -⟩ | ⟨same, granting, -⟩
    · exact .inl above
    · exact .inr ⟨req, asked, same, rfl, rfl, granting⟩
  | count _ silent _ _ _ _ _ _ => simp [silent x sent] at ballot

theorem Effect.ballot_unique (e : Effect candidateHash m input m' out) (first : x ∈ out)
    (second : y ∈ out) (left : x.ballot = some b) (right : y.ballot = some d) : b = d := by
  cases e with
  | keep silent _ _ _ _ => simp [silent x first] at left
  | stepDown silent _ _ => simp [silent x first] at left
  | campaign _ requests _ _ _ _ =>
    rw [requests x first] at left
    rw [requests y second] at right
    exact Option.some.inj (left.symm.trans right)
  | grant req _ answer _ _ =>
    rw [answer, List.mem_singleton] at first second
    rw [first] at left
    rw [second] at right
    exact Option.some.inj (left.symm.trans right)
  | count _ silent _ _ _ _ _ _ => simp [silent x first] at left

/-- A candidacy announced by a step is that of the node itself. -/
theorem Effect.request (e : Effect candidateHash m input m' out)
    (sent : .electionRequest req ∈ out) : req.candidateId = m.localId := by
  cases e with
  | keep silent _ _ _ _ => cases silent _ sent
  | stepDown silent _ _ => cases silent _ sent
  | campaign _ requests _ _ _ _ =>
    cases requests _ sent
    rfl
  | grant _ _ answer _ _ => simp [answer] at sent
  | count _ silent _ _ _ _ _ _ => cases silent _ sent

end

section
variable {sent : List Packet} {packets : List Packet}

theorem granted_append : Granted (sent ++ packets) voter candidate term ↔
    Granted sent voter candidate term ∨
      ∃ x ∈ packets.map Packet.message, x.ballot = some ⟨voter, candidate, term⟩ := by
  simp [Granted, or_and_right, exists_or]

theorem campaigned_append : Campaigned (sent ++ packets) candidate term ↔
    Campaigned sent candidate term ∨
      ∃ name, .electionRequest ⟨candidate, name, term⟩ ∈ packets.map Packet.message := by
  simp only [Campaigned, List.mem_append, or_and_right, exists_or, List.mem_map]
  constructor
  · rintro (earlier | ⟨p, member, name, message⟩)
    · exact .inl earlier
    · exact .inr ⟨name, p, member, message⟩
  · rintro (earlier | ⟨name, p, member, message⟩)
    · exact .inl earlier
    · exact .inr ⟨p, member, name, message⟩

theorem granted_of_campaigned (campaigned : Campaigned sent i term) : Granted sent i i term := by
  obtain ⟨p, member, name, message⟩ := campaigned
  exact ⟨p, member, by rw [message]; rfl⟩

end

/-- The votes a candidate holds were cast for it in its term. -/
def Tallied (sent : List Packet) (i : NodeID) (m : ElectionManager) : Prop :=
  m.votesReceived.Nodup ∧ ∀ v ∈ m.votesReceived, Granted sent v i m.term

/-- The cluster is coherent: votes are bounded by their voter's term, single
and asked for, and the tallies of candidates and leaders are backed by votes. -/
structure Coherent (c : Membership) (s : Cluster) : Prop where
  identity : ∀ i ∈ c.members, (s.managers i).localId = i ∧
    c.members.length ≤ (s.managers i).knownNodes.length + 1
  bounded : ∀ v d t, Granted s.sent v d t → v ∈ c.members ∧ t ≤ (s.managers v).term
  single : Quorum.SingleVote (Granted s.sent)
  requested : ∀ v d t, Granted s.sent v d t → Campaigned s.sent d t
  tallied : ∀ i ∈ c.members, (s.managers i).status = .candidate →
    Campaigned s.sent i (s.managers i).term → Tallied s.sent i (s.managers i)
  elected : ∀ i ∈ c.members, (s.managers i).status = .leader →
    Quorum.Wins c.members.toFinset (Granted s.sent) i (s.managers i).term

@[simp] theorem Cluster.update_self (s : Cluster) (i : NodeID) (m : ElectionManager)
    (packets : List Packet) : (s.update i m packets).managers i = m := by
  simp [Cluster.update]

theorem Cluster.update_other (s : Cluster) (m : ElectionManager) (packets : List Packet)
    (other : j ≠ i) : (s.update i m packets).managers j = s.managers j := by
  simp [Cluster.update, other]

section
variable {c : Membership} {candidateHash : NodeID → UInt64 → UInt64} {s : Cluster} {i : NodeID}
  {input : Option Message} {m' : ElectionManager} {packets : List Packet}

theorem Moves.granted_mono (v d : NodeID) (t : UInt64) (granted : Granted s.sent v d t) :
    Granted (s.update i m' packets).sent v d t := granted_append.mpr (.inl granted)

theorem Moves.bounded (moves : Moves candidateHash s i input m' packets) (member : i ∈ c.members)
    (coherent : Coherent c s) (v d : NodeID) (t : UInt64)
    (granted : Granted (s.update i m' packets).sent v d t) :
    v ∈ c.members ∧ t ≤ ((s.update i m' packets).managers v).term := by
  rcases granted_append.mp granted with earlier | ⟨x, sent, ballot⟩
  · obtain ⟨voter, bound⟩ := coherent.bounded v d t earlier
    refine ⟨voter, ?_⟩
    by_cases same : v = i
    · subst same
      rw [Cluster.update_self]
      exact UInt64.le_trans bound moves.effect.term_le
    · rwa [Cluster.update_other s m' packets same]
  · obtain ⟨voter, term, -⟩ := moves.effect.ballot sent ballot
    have here : v = i := voter.trans (coherent.identity i member).1
    subst here
    rw [Cluster.update_self]
    exact ⟨member, UInt64.le_of_eq term⟩

/-- A new vote never contradicts an earlier one of the same node and term. -/
theorem Moves.agrees (moves : Moves candidateHash s i input m' packets) (member : i ∈ c.members)
    (coherent : Coherent c s) (sent : x ∈ packets.map Packet.message)
    (ballot : x.ballot = some ⟨v, d, t⟩) (earlier : Granted s.sent v e t) : e = d := by
  obtain ⟨voter, -, above | ⟨req, asked, current, term, candidate, granting⟩⟩ :=
    moves.effect.ballot sent ballot
  · have here : v = i := voter.trans (coherent.identity i member).1
    subst here
    have bound := (coherent.bounded v e t earlier).2
    exact absurd (UInt64.lt_of_lt_of_le above bound) (UInt64.lt_irrefl _)
  · have here : v = i := voter.trans (coherent.identity i member).1
    subst here
    have again : t = req.term := term
    subst again
    exact (moves.unvoted req asked current granting e earlier).trans candidate.symm

theorem Moves.single (moves : Moves candidateHash s i input m' packets) (member : i ∈ c.members)
    (coherent : Coherent c s) : Quorum.SingleVote (Granted (s.update i m' packets).sent) := by
  intro v d e t first second
  obtain left | ⟨x, xSent, xBallot⟩ := granted_append.mp first <;>
    rcases granted_append.mp second with right | ⟨y, ySent, yBallot⟩
  · exact coherent.single v d e t left right
  · exact moves.agrees member coherent ySent yBallot left
  · exact (moves.agrees member coherent xSent xBallot right).symm
  · exact congrArg Ballot.candidate (moves.effect.ballot_unique xSent ySent xBallot yBallot)

theorem Moves.requested (moves : Moves candidateHash s i input m' packets)
    (coherent : Coherent c s) (v d : NodeID) (t : UInt64)
    (granted : Granted (s.update i m' packets).sent v d t) :
    Campaigned (s.update i m' packets).sent d t := by
  apply campaigned_append.mpr
  rcases granted_append.mp granted with earlier | ⟨x, sent, ballot⟩
  · exact .inl (coherent.requested v d t earlier)
  · cases effect : moves.effect with
    | keep silent _ _ _ _ => simp [silent x sent] at ballot
    | stepDown silent _ _ => simp [silent x sent] at ballot
    | campaign _ requests _ _ _ _ =>
      have request := requests x sent
      rw [request] at ballot
      cases ballot
      exact .inr ⟨_, request ▸ sent⟩
    | grant req asked answer _ _ =>
      rw [answer, List.mem_singleton] at sent
      rw [sent] at ballot
      cases ballot
      obtain ⟨p, inNetwork, message⟩ := moves.delivered _ asked
      exact .inl ⟨p, inNetwork, req.candidateName, message⟩
    | count _ silent _ _ _ _ _ _ => simp [silent x sent] at ballot

theorem campaigned_of_silent (silent : Silent (packets.map Packet.message))
    (campaigned : Campaigned (s.update i m' packets).sent j term) : Campaigned s.sent j term := by
  rcases campaigned_append.mp campaigned with earlier | ⟨name, sent⟩
  · exact earlier
  · cases silent _ sent

theorem Moves.tallied_mono (tallied : Tallied s.sent i m) (votes : m'.votesReceived = m.votesReceived)
    (term : m'.term = m.term) : Tallied (s.update i m' packets).sent i m' := by
  rw [Tallied, votes, term]
  exact ⟨tallied.1, fun v member => Moves.granted_mono v i m.term (tallied.2 v member)⟩

/-- A counted vote joins the tally. -/
theorem Moves.tallied_count (moves : Moves candidateHash s i input m' packets)
    (tallied : Tallied s.sent i (s.managers i)) (here : (s.managers i).localId = i)
    (received : input = some (.electionVote ⟨voter, (s.managers i).localId, (s.managers i).term, true⟩))
    (fresh : voter ∉ (s.managers i).votesReceived) (term : m'.term = (s.managers i).term)
    (votes : m'.votesReceived = (s.managers i).votesReceived ++ [voter]) :
    Tallied (s.update i m' packets).sent i m' := by
  obtain ⟨p, inNetwork, message⟩ := moves.delivered _ received
  have cast : Granted s.sent voter i (s.managers i).term := by
    refine ⟨p, inNetwork, ?_⟩
    rw [message, here]
    rfl
  rw [Tallied, votes, term]
  constructor
  · exact List.nodup_append.mpr ⟨tallied.1, by simp, by
      intro v member w last same
      rw [List.mem_singleton.mp last] at same
      exact fresh (same ▸ member)⟩
  · intro v member
    rcases List.mem_append.mp member with earlier | last
    · exact Moves.granted_mono v i _ (tallied.2 v earlier)
    · rw [List.mem_singleton.mp last]
      exact Moves.granted_mono voter i _ cast

theorem Moves.tallied_here (moves : Moves candidateHash s i input m' packets)
    (member : i ∈ c.members) (coherent : Coherent c s) (running : m'.status = .candidate)
    (campaigned : Campaigned (s.update i m' packets).sent i m'.term) :
    Tallied (s.update i m' packets).sent i m' := by
  have here := (coherent.identity i member).1
  cases effect : moves.effect with
  | keep silent status votes term _ =>
    have earlier := campaigned_of_silent silent campaigned
    -- a term adopted from a synchronization response was never campaigned in
    have same : m'.term = (s.managers i).term :=
      UInt64.le_antisymm (coherent.bounded i i _ (granted_of_campaigned earlier)).2 term
    rw [same] at earlier
    exact Moves.tallied_mono (coherent.tallied i member (status ▸ running) earlier) votes same
  | stepDown _ status _ => simp [status] at running
  | campaign sends requests _ _ term votes =>
    obtain ⟨x, sent⟩ := List.exists_mem_of_ne_nil _ sends
    have cast : Granted (s.update i m' packets).sent i i m'.term := by
      refine granted_append.mpr (.inr ⟨x, sent, ?_⟩)
      rw [requests x sent, term, here]
      rfl
    rw [Tallied, votes, here]
    exact ⟨by simp, by simpa using cast⟩
  | grant req _ answer term role =>
    rcases role with ⟨-, status⟩ | ⟨same, -, status, votes⟩
    · simp [status] at running
    · have earlier : Campaigned s.sent i m'.term := by
        rcases campaigned_append.mp campaigned with earlier | ⟨name, sent⟩
        · exact earlier
        · simp [answer] at sent
      rw [term, ← same] at earlier
      exact Moves.tallied_mono (coherent.tallied i member (status ▸ running) earlier) votes
        (term.trans same.symm)
  | count voter silent received candidate fresh _ term votes =>
    have earlier := campaigned_of_silent silent campaigned
    rw [term] at earlier
    exact moves.tallied_count (coherent.tallied i member candidate earlier) here received fresh
      term votes

theorem Moves.elected_here (moves : Moves candidateHash s i input m' packets)
    (member : i ∈ c.members) (coherent : Coherent c s) (leading : m'.status = .leader) :
    Quorum.Wins c.members.toFinset (Granted (s.update i m' packets).sent) i m'.term := by
  obtain ⟨here, company⟩ := coherent.identity i member
  cases effect : moves.effect with
  | keep _ status _ _ settled =>
    rw [status] at leading
    rw [settled leading]
    exact (coherent.elected i member leading).mono Moves.granted_mono
  | stepDown _ status _ => simp [status] at leading
  | campaign _ _ _ status _ _ => simp [status] at leading
  | grant req _ _ term role =>
    rcases role with ⟨-, status⟩ | ⟨same, -, status, -⟩
    · simp [status] at leading
    · rw [status] at leading
      rw [term, ← same]
      exact (coherent.elected i member leading).mono Moves.granted_mono
  | count voter _ received candidate fresh status term votes =>
    rcases status with running | ⟨-, majority⟩
    · simp [running] at leading
    · obtain ⟨p, inNetwork, message⟩ := moves.delivered _ received
      have campaigned : Campaigned s.sent i (s.managers i).term :=
        coherent.requested voter i _ ⟨p, inNetwork, by rw [message, here]; rfl⟩
      have tallied := moves.tallied_count (coherent.tallied i member candidate campaigned) here
        received fresh term votes
      refine Quorum.wins_of_list tallied.1 ?_ ?_ tallied.2
      · intro v voted
        exact List.mem_toFinset.mpr (moves.bounded member coherent v i _ (tallied.2 v voted)).1
      · rw [List.toFinset_card_of_nodup c.distinct, votes, List.length_append, List.length_singleton]
        omega

theorem Moves.coherent (moves : Moves candidateHash s i input m' packets) (member : i ∈ c.members)
    (coherent : Coherent c s) : Coherent c (s.update i m' packets) where
  identity := by
    intro j inside
    by_cases same : j = i
    · subst same
      rw [Cluster.update_self, moves.sameNode.1, moves.sameNode.2]
      exact coherent.identity j inside
    · rw [Cluster.update_other s m' packets same]
      exact coherent.identity j inside
  bounded := moves.bounded member coherent
  single := moves.single member coherent
  requested := moves.requested coherent
  tallied := by
    intro j inside running campaigned
    by_cases same : j = i
    · subst same
      rw [Cluster.update_self] at running campaigned ⊢
      exact moves.tallied_here inside coherent running campaigned
    · rw [Cluster.update_other s m' packets same] at running campaigned ⊢
      rcases campaigned_append.mp campaigned with earlier | ⟨name, sent⟩
      · have tallied := coherent.tallied j inside running earlier
        exact ⟨tallied.1, fun v voted => Moves.granted_mono v j _ (tallied.2 v voted)⟩
      · have own := moves.effect.request sent
        exact absurd (own.trans (coherent.identity i member).1) same
  elected := by
    intro j inside leading
    by_cases same : j = i
    · subst same
      rw [Cluster.update_self] at leading ⊢
      exact moves.elected_here inside coherent leading
    · rw [Cluster.update_other s m' packets same] at leading ⊢
      exact (coherent.elected j inside leading).mono Moves.granted_mono

end

theorem addKnownNode_spec (m : ElectionManager) (node : KnownNode) :
    (m.addKnownNode node).localId = m.localId ∧ (m.addKnownNode node).status = m.status ∧
      ∀ id, id ∈ (m.addKnownNode node).knownNodes.map KnownNode.id ↔
        id ∈ m.knownNodes.map KnownNode.id ∨ id = node.id := by
  rw [ElectionManager.addKnownNode]
  split
  · rename_i duplicate
    obtain ⟨entry, known, same⟩ := List.any_eq_true.mp duplicate
    refine ⟨rfl, rfl, fun id => ⟨.inl, ?_⟩⟩
    rintro (earlier | rfl)
    · exact earlier
    · exact List.mem_map.mpr ⟨entry, known, of_decide_eq_true same⟩
  · exact ⟨rfl, rfl, fun id => by simp⟩

/-- Telling a fresh node about others changes nothing but what it knows. -/
theorem addKnownNodes_spec (nodes : List KnownNode) (m : ElectionManager) :
    (nodes.foldl .addKnownNode m).localId = m.localId ∧
      (nodes.foldl .addKnownNode m).status = m.status ∧
      ∀ id, id ∈ (nodes.foldl .addKnownNode m).knownNodes.map KnownNode.id ↔
        id ∈ m.knownNodes.map KnownNode.id ∨ id ∈ nodes.map KnownNode.id := by
  induction nodes generalizing m with
  | nil => simp
  | cons first rest ih =>
    obtain ⟨localId, status, ids⟩ := ih (m.addKnownNode first)
    obtain ⟨sameId, sameStatus, added⟩ := addKnownNode_spec m first
    refine ⟨localId.trans sameId, status.trans sameStatus, fun id => ?_⟩
    rw [List.foldl_cons, ids, added, List.map_cons, List.mem_cons, or_assoc]

theorem start_coherent (c : Membership) : Coherent c c.start where
  identity := by
    intro i member
    obtain ⟨localId, -, ids⟩ := addKnownNodes_spec (c.known i) (.new i (c.name i))
    refine ⟨localId, ?_⟩
    have others : (c.members.erase i).length ≤ (c.start.managers i).knownNodes.length := by
      rw [← List.length_map (f := KnownNode.id)]
      refine ((c.distinct.erase i).subperm ?_).length_le
      intro j other
      obtain ⟨different, inside⟩ := c.distinct.mem_erase_iff.mp other
      obtain ⟨node, known, rfl⟩ := c.complete i member j inside different
      exact (ids node.id).mpr (.inr (List.mem_map_of_mem known))
    rw [List.length_erase_of_mem member] at others
    omega
  bounded := by simp [Granted, Membership.start]
  single := by simp [Quorum.SingleVote, Granted, Membership.start]
  requested := by simp [Granted, Membership.start]
  tallied := by
    intro i member running
    have status := (addKnownNodes_spec (c.known i) (.new i (c.name i))).2.1
    cases status.symm.trans running
  elected := by
    intro i member leading
    have status := (addKnownNodes_spec (c.known i) (.new i (c.name i))).2.1
    cases status.symm.trans leading

section
variable {c : Membership} {candidateHash : NodeID → UInt64 → UInt64} {s t : Cluster}

theorem step_coherent (coherent : Coherent c s) (safe : careful candidateHash s a = true)
    (stepped : c.step candidateHash s a = some t) : Coherent c t := by
  obtain ⟨i, member, input, m', packets, rfl, moves⟩ := step_moves stepped safe
  exact moves.coherent member coherent

/-- A careful run keeps every vote on record. -/
theorem run_granted
    (safe : Runs.Meets (c.step candidateHash) (fun s a => careful candidateHash s a = true) s actions)
    (run : Runs.exec (c.step candidateHash) s actions = some t) (v d : NodeID) (term : UInt64)
    (granted : Granted s.sent v d term) : Granted t.sent v d term := by
  refine Runs.guarded_invariant (P := fun t => Granted t.sent v d term) ?_ safe run granted
  intro s a t granted safe stepped
  obtain ⟨i, -, input, m', packets, rfl, -⟩ := step_moves stepped safe
  exact Moves.granted_mono v d term granted

/-- Agreement: of two nodes that lead the same term anywhere in a careful run,
one earlier and one later or both at once, the first is the second. -/
theorem one_leader_per_term (before after : List Action)
    (safe : Runs.Meets (c.step candidateHash) (fun s a => careful candidateHash s a = true) c.start
      (before ++ after))
    (ran : Runs.exec (c.step candidateHash) c.start before = some s)
    (ranOn : Runs.exec (c.step candidateHash) s after = some t)
    (i : NodeID) (iMember : i ∈ c.members) (iLeads : (s.managers i).status = .leader)
    (j : NodeID) (jMember : j ∈ c.members) (jLeads : (t.managers j).status = .leader)
    (sameTerm : (s.managers i).term = (t.managers j).term) : i = j := by
  obtain ⟨safeBefore, safeAfter⟩ := (Runs.meets_append ran).mp safe
  have early : Coherent c s := Runs.guarded_invariant (fun coherent guard stepped =>
    step_coherent coherent guard stepped) safeBefore ran (start_coherent c)
  have late : Coherent c t := Runs.guarded_invariant (fun coherent guard stepped =>
    step_coherent coherent guard stepped) safeAfter ranOn early
  have iWins := (early.elected i iMember iLeads).mono (run_granted safeAfter ranOn)
  have jWins := late.elected j jMember jLeads
  rw [← sameTerm] at jWins
  exact Quorum.unique_winner late.single iWins jWins

end

/-- The node whose identity is one byte followed by zeros. -/
def nodeOf (byte : UInt8) : NodeID := Words.fill 32 [byte]

def knownOf (byte : UInt8) : KnownNode := ⟨nodeOf byte, "node", "192.168.1.1:9880"⟩

/-- Three nodes that know each other. -/
def trio : Membership where
  members := [nodeOf 1, nodeOf 2, nodeOf 3]
  distinct := by decide
  name _ := "node"
  known i := [knownOf 1, knownOf 2, knownOf 3].filter (·.id ≠ i)
  complete := by
    intro i _ j other different
    simp only [List.mem_cons, List.not_mem_nil, or_false] at other
    rcases other with rfl | rfl | rfl
    · exact ⟨knownOf 1, by simpa [knownOf] using different, rfl⟩
    · exact ⟨knownOf 2, by simpa [knownOf] using different, rfl⟩
    · exact ⟨knownOf 3, by simpa [knownOf] using different, rfl⟩

/-- A candidate hash under which every request is convincing. -/
def convincing (_ : NodeID) (_ : UInt64) : UInt64 := UInt64.ofNat (2 ^ 64 - 1)

def request (candidate target : UInt8) (term : UInt64) : Packet :=
  ⟨nodeOf candidate, nodeOf target, .electionRequest ⟨nodeOf candidate, "node", term⟩⟩

def vote (voter candidate : UInt8) (term : UInt64) : Packet :=
  ⟨nodeOf voter, nodeOf candidate, .electionVote ⟨nodeOf voter, nodeOf candidate, term, true⟩⟩

def result (leader target : UInt8) (term : UInt64) : Packet :=
  ⟨nodeOf leader, nodeOf target, .electionResult ⟨nodeOf leader, "node", term⟩⟩

/-- Node 1 is elected by node 3 and leads on; no other node leads the term. -/
theorem one_leader_per_term_trio : ∃ s t,
    Runs.exec (trio.step convincing) trio.start
      [.startElection (nodeOf 1), .deliver (request 1 3 1) "", .deliver (vote 3 1 1) ""] = some s ∧
    Runs.exec (trio.step convincing) s [.deliver (result 1 3 1) ""] = some t ∧
    (s.managers (nodeOf 1)).status = .leader ∧
    ∀ j ∈ trio.members, (t.managers j).status = .leader →
      (s.managers (nodeOf 1)).term = (t.managers j).term → nodeOf 1 = j := by
  refine ⟨_, _, rfl, rfl, rfl, ?_⟩
  intro j member leads same
  exact one_leader_per_term [.startElection (nodeOf 1), .deliver (request 1 3 1) "",
      .deliver (vote 3 1 1) ""] [.deliver (result 1 3 1) ""] (by decide) rfl rfl
    (nodeOf 1) (by decide) rfl j member leads same

/-- Nodes 1 and 2 campaign in term 1. Node 3 elects node 1, forgets its vote on
the result, and elects node 2 on the late request. -/
theorem two_leaders : ∃ s,
    Runs.exec (trio.step convincing) trio.start
      [.startElection (nodeOf 1), .startElection (nodeOf 2), .deliver (request 1 3 1) "",
        .deliver (vote 3 1 1) "", .deliver (result 1 3 1) "", .deliver (request 2 3 1) "",
        .deliver (vote 3 2 1) ""] = some s ∧
    (s.managers (nodeOf 1)).status = .leader ∧ (s.managers (nodeOf 2)).status = .leader ∧
    (s.managers (nodeOf 1)).term = (s.managers (nodeOf 2)).term ∧ nodeOf 1 ≠ nodeOf 2 :=
  ⟨_, rfl, rfl, rfl, rfl, by decide⟩

end LanLink.Election
