import LanLink.Registry.ElectionControl
import LanLink.Registry.ElectionSafety

/-! What a node does over a whole run: the votes it gives, the votes it counts,
the terms it passes through and the campaigns it starts. The records are read
off the messages and the state of the manager; the operations are those of the
source, on any bytes. -/
namespace LanLink.Election.History
open Words

/-- A campaign with the terms the node had before it and the term it uses. -/
structure Campaign where
  before : List UInt64
  term : UInt64
  deriving DecidableEq

/-- A manager with the record of its node. The own candidacy is a vote given and
a vote counted; the last of the terms is the current one. -/
structure Node where
  manager : ElectionManager
  ballots : List Ballot
  counted : List ElectionVotePayload
  terms : List UInt64
  campaigns : List Campaign

def Node.start (m : ElectionManager) : Node := ⟨m, [], [], [m.term], []⟩

def Node.after (n : Node) (m : ElectionManager) (sent : List Message)
    (counted : List ElectionVotePayload) (campaigns : List Campaign) : Node where
  manager := m
  ballots := n.ballots ++ sent.filterMap Message.ballot
  counted := n.counted ++ counted
  terms := n.terms ++ [m.term]
  campaigns := n.campaigns ++ campaigns

def becomesCandidate (m : ElectionManager) : Bool :=
  m.status ≠ .candidate && m.startElection.manager.status = .candidate

/-- A vote is counted when its voter joins the list. -/
def countedVotes (m m' : ElectionManager) : Message → List ElectionVotePayload
  | .electionVote vote => if m'.votesReceived = m.votesReceived then [] else [vote]
  | _ => []

variable (json : JsonText) (candidateHash : NodeID → UInt64 → UInt64)

def step (n : Node) : Control.Action → Option Node
  | .startElection =>
    let o := n.manager.startElection
    if becomesCandidate n.manager then
      some (n.after o.manager o.messages
        [⟨o.manager.localId, o.manager.localId, o.manager.term, true⟩]
        [⟨n.terms, o.manager.term⟩])
    else some (n.after o.manager o.messages [] [])
  | .handleMessage registryData data =>
    let o := n.manager.handleBytes json candidateHash registryData data
    match parse json data with
    | .message message =>
      some (n.after o.manager o.messages (countedVotes n.manager o.manager message) [])
    | _ => some (n.after o.manager o.messages [] [])
  | .handleSyncResponse payload =>
    some (n.after (n.manager.handleSyncBytes json payload).1 [] [] [])

/-- For every term the node gave its vote to at most one candidate. -/
def OneVotePerTerm (n : Node) : Prop :=
  ∀ b ∈ n.ballots, ∀ c ∈ n.ballots, b.term = c.term → b.candidate = c.candidate

/-- The terms never decrease and every campaign has a term of its own above all
earlier ones. -/
def TermsGrow (n : Node) : Prop :=
  n.terms.Pairwise (· ≤ ·) ∧ ∀ c ∈ n.campaigns, ∀ term ∈ c.before, term < c.term

/-- A notice of another leader in the term the node is in. -/
def Deposes (m : ElectionManager) : Message → Prop
  | .electionResult result => result.term = m.term ∧ result.leaderId ≠ m.localId
  | .registryChange change => change.term = m.term ∧ change.registryId ≠ m.localId
  | _ => False

instance (m : ElectionManager) (message : Message) : Decidable (Deposes m message) :=
  match message with
  | .electionResult _ | .registryChange _ => inferInstanceAs (Decidable (_ ∧ _))
  | .electionRequest _ | .electionVote _ | .registrySync _ | .registrySyncResponse _ =>
    inferInstanceAs (Decidable False)

/-- An election that starts in the last term there is. -/
def Wraps (m : ElectionManager) : Prop :=
  becomesCandidate m = true ∧ m.term = UInt64.ofNat (2 ^ 64 - 1)

/-- Everything a message can do to the manager that handles it. -/
inductive Reaction (m : ElectionManager) (message : Message) (m' : ElectionManager)
    (sent : List Message) : Prop where
  | kept (silent : Silent sent) (same : m' = m)
  | followed (silent : Silent sent) (status : m'.status = .follower) (vote : m'.votedFor = none)
      (votes : m'.votesReceived = [])
      (term : m.term < m'.term ∨ m.term = m'.term ∧ Deposes m message)
  | granted (candidate : NodeID)
      (answer : sent.filterMap Message.ballot = [⟨m.localId, candidate, m'.term⟩])
      (vote : m'.votedFor = some candidate)
      (term : m.term < m'.term ∧ m'.status = .follower ∧ m'.votesReceived = [] ∨
        m.term = m'.term ∧ m.votedFor = none ∧ m'.status = m.status ∧
          m'.votesReceived = m.votesReceived)
  | counted (voter : NodeID) (silent : Silent sent)
      (received : message = .electionVote ⟨voter, m.localId, m.term, true⟩)
      (running : m.status = .candidate) (fresh : voter ∉ m.votesReceived)
      (status : m'.status = .candidate ∨
        m'.status = .leader ∧ (m.knownNodes.length + 1) / 2 < m.votesReceived.length + 1)
      (term : m'.term = m.term) (vote : m'.votedFor = m.votedFor)
      (votes : m'.votesReceived = m.votesReceived ++ [voter])

variable {json candidateHash} {m : ElectionManager}

theorem silent_nil : Silent [] := by
  intro x member
  cases member

/-- A step down, possibly after the registry was written. -/
theorem becomeFollower_follows {written : ElectionManager} (sameTerm : written.term = m.term)
    (message : Message) (term : UInt64) (id : Option NodeID)
    (reached : m.term < term ∨ term = m.term ∧ Deposes m message) :
    Reaction m message (written.becomeFollower term id) [] := by
  refine .followed silent_nil rfl rfl rfl ?_
  rcases reached with above | ⟨same, deposes⟩
  · left
    simp [ElectionManager.becomeFollower, sameTerm, above]
  · exact .inr ⟨by simp [ElectionManager.becomeFollower, sameTerm, same], deposes⟩

theorem refusal_silent (candidate : NodeID) (term : UInt64) :
    Silent [m.buildVoteMessage candidate term false] := by
  simp [Silent, ElectionManager.buildVoteMessage, Message.ballot]

theorem shouldVoteFor_free (granted : m.shouldVoteFor candidateHash candidate term = true) :
    m.votedFor = none := by
  rw [ElectionManager.shouldVoteFor] at granted
  cases voted : m.votedFor with
  | none => rfl
  | some other => simp [voted] at granted

theorem handleElectionRequest_reaction (m : ElectionManager) (req : ElectionRequestPayload) :
    Reaction m (.electionRequest req) (m.handleElectionRequest candidateHash req).manager
      (m.handleElectionRequest candidateHash req).messages := by
  simp only [ElectionManager.handleElectionRequest]
  split
  · exact .kept (refusal_silent _ _) rfl
  · rename_i current
    by_cases later : req.term > m.term
    · simp only [if_pos later]
      have term : (m.becomeFollower req.term none).term = req.term := by
        simp [ElectionManager.becomeFollower, later]
      have above : m.term < (m.becomeFollower req.term none).term := by rwa [term]
      cases granted : (m.becomeFollower req.term none).shouldVoteFor candidateHash
          req.candidateId req.term with
      | false => exact .followed (refusal_silent _ _) rfl rfl rfl (.inl above)
      | true =>
        refine .granted req.candidateId ?_ rfl (.inl ⟨above, rfl, rfl⟩)
        simp [Outcome.messages, ElectionManager.buildVoteMessage, Message.ballot, later,
          ElectionManager.becomeFollower]
    · simp only [if_neg later]
      have same : m.term = req.term := UInt64.le_antisymm (UInt64.not_lt.mp current)
        (UInt64.not_lt.mp later)
      cases granted : m.shouldVoteFor candidateHash req.candidateId req.term with
      | false => exact .kept (refusal_silent _ _) rfl
      | true =>
        refine .granted req.candidateId ?_ rfl (.inr ⟨rfl, shouldVoteFor_free granted, rfl, rfl⟩)
        simp [Outcome.messages, ElectionManager.buildVoteMessage, Message.ballot, same]

theorem handleElectionVote_reaction (m : ElectionManager) (vote : ElectionVotePayload) :
    Reaction m (.electionVote vote) (m.handleElectionVote vote).manager
      (m.handleElectionVote vote).messages := by
  rcases m.handleElectionVote_cases vote with same | ⟨⟨running, shape, fresh⟩, counted⟩
  · rw [same]
    exact .kept silent_nil rfl
  · have received : Message.electionVote vote =
        .electionVote ⟨vote.voterId, m.localId, m.term, true⟩ := congrArg Message.electionVote shape
    rcases counted with ⟨majority, leads⟩ | noted
    · rw [leads]
      exact .counted vote.voterId (becomeLeader_silent _) received running fresh
        (.inr ⟨rfl, majority⟩) rfl rfl rfl
    · rw [noted]
      exact .counted vote.voterId silent_nil received running fresh (.inl running) rfl rfl rfl

theorem term_reached {term : UInt64} (current : ¬ term < m.term) :
    m.term < term ∨ term = m.term := by
  rcases UInt64.lt_or_eq_of_le (UInt64.not_lt.mp current) with above | same
  · exact .inl above
  · exact .inr same.symm

theorem handleMessage_reaction (m : ElectionManager) (registryData : String) (message : Message) :
    Reaction m message (m.handleMessage candidateHash registryData message).manager
      (m.handleMessage candidateHash registryData message).messages := by
  cases message with
  | electionRequest req => exact handleElectionRequest_reaction m req
  | electionVote vote => exact handleElectionVote_reaction m vote
  | electionResult result =>
    simp only [ElectionManager.handleMessage, ElectionManager.handleElectionResult]
    split
    · exact .kept silent_nil rfl
    · rename_i current
      split
      · exact .kept silent_nil rfl
      · rename_i other
        apply becomeFollower_follows rfl
        exact (term_reached current).imp_right fun same => ⟨same, same, other⟩
  | registryChange change =>
    simp only [ElectionManager.handleMessage, ElectionManager.handleRegistryChange]
    split
    · exact .kept silent_nil rfl
    · rename_i current
      split
      · exact .kept silent_nil rfl
      · rename_i other
        refine becomeFollower_follows ?_ _ _ _ ?_
        · rfl
        · exact (term_reached current).imp_right fun same => ⟨same, same, other⟩
  | registrySync sync =>
    simp only [ElectionManager.handleMessage, ElectionManager.handleRegistrySync]
    split
    · exact .kept silent_nil rfl
    · split
      · rename_i above
        exact becomeFollower_follows rfl _ _ _ (.inl above)
      · exact .kept (by simp [Silent, Outcome.messages, Message.ballot]) rfl
  | registrySyncResponse response => exact .kept silent_nil rfl

/-- Everything an operation can do to a node. -/
inductive Course (json : JsonText) (n : Node) : Control.Action → Node → Prop where
  | campaigned (sent : List Message) (m' : ElectionManager)
      (candidate : becomesCandidate n.manager = true) (sameNode : SameNode n.manager m')
      (status : m'.status = .candidate) (term : m'.term = n.manager.term + 1)
      (vote : m'.votedFor = some n.manager.localId)
      (votes : m'.votesReceived = [n.manager.localId])
      (requests : ∀ x ∈ sent, x.ballot = some ⟨n.manager.localId, n.manager.localId, m'.term⟩) :
      Course json n .startElection (n.after m' sent
        [⟨n.manager.localId, n.manager.localId, m'.term, true⟩] [⟨n.terms, m'.term⟩])
  | idle (a : Control.Action) (still : a = .startElection → becomesCandidate n.manager = false) :
      Course json n a (n.after n.manager [] [] [])
  | reacted (registryData : String) (data : Bytes) (message : Message) (m' : ElectionManager)
      (sent : List Message) (parsed : parse json data = .message message)
      (sameNode : SameNode n.manager m') (reaction : Reaction n.manager message m' sent) :
      Course json n (.handleMessage registryData data)
        (n.after m' sent (countedVotes n.manager m' message) [])
  | synced (payload : Bytes) (response : RegistrySyncResponsePayload)
      (parsed : (json.fromSlice payload).bind registrySyncResponseOf = some response) :
      Course json n (.handleSyncResponse payload)
        (n.after (n.manager.handleSyncResponse response).1 [] [] [])

theorem startElection_course (n : Node)
    (stepped : step json candidateHash n .startElection = some t) :
    Course json n .startElection t := by
  simp only [step] at stepped
  have same := startElection_sameNode n.manager
  by_cases waiting : n.manager.status = .candidate
  · have still : becomesCandidate n.manager = false := by simp [becomesCandidate, waiting]
    simp only [still, ElectionManager.startElection, waiting, if_true] at stepped
    cases stepped
    exact .idle _ fun _ => still
  · by_cases alone : n.manager.knownNodes.length = 0
    · have still : becomesCandidate n.manager = false := by
        simp [becomesCandidate, ElectionManager.startElection, waiting, alone]
      simp only [still, ElectionManager.startElection, waiting, alone, if_true, if_false] at stepped
      cases stepped
      exact .idle _ fun _ => still
    · have candidate : becomesCandidate n.manager = true := by
        simp [becomesCandidate, ElectionManager.startElection, waiting, alone]
      simp only [candidate, if_true] at stepped
      cases stepped
      rw [same.1]
      apply Course.campaigned _ _ candidate same
      all_goals simp only [ElectionManager.startElection, waiting, alone, if_false]
      simp [Outcome.messages, ElectionManager.broadcast, Message.ballot]

/-- One step does one of these things and nothing else. -/
theorem step_course (stepped : step json candidateHash n a = some t) : Course json n a t := by
  cases a with
  | startElection => exact startElection_course n stepped
  | handleMessage registryData data =>
    simp only [step, ElectionManager.handleBytes] at stepped
    cases parsed : parse json data with
    | ignored =>
      simp only [parsed] at stepped
      cases stepped
      exact .idle _ fun started => Control.Action.noConfusion started
    | malformed =>
      simp only [parsed] at stepped
      cases stepped
      exact .idle _ fun started => Control.Action.noConfusion started
    | message message =>
      simp only [parsed] at stepped
      cases stepped
      exact .reacted registryData data message _ _ parsed (handleMessage_sameNode _ _ _)
        (handleMessage_reaction _ _ _)
  | handleSyncResponse payload =>
    simp only [step, ElectionManager.handleSyncBytes] at stepped
    cases parsed : (json.fromSlice payload).bind registrySyncResponseOf with
    | none =>
      simp only [parsed] at stepped
      cases stepped
      exact .idle _ fun started => Control.Action.noConfusion started
    | some response =>
      simp only [parsed] at stepped
      cases stepped
      exact .synced payload response parsed

section Votes

/-- The votes given in the term of the node agree with the vote it remembers;
none was given in a later term. -/
structure Recorded (n : Node) : Prop where
  single : OneVotePerTerm n
  bounded : ∀ b ∈ n.ballots, b.term ≤ n.manager.term
  current : ∀ b ∈ n.ballots, b.term = n.manager.term → n.manager.votedFor = some b.candidate

theorem mem_after_ballots {n : Node} : b ∈ (n.after m sent counted campaigns).ballots ↔
    b ∈ n.ballots ∨ ∃ x ∈ sent, x.ballot = some b := by
  simp [Node.after, List.mem_filterMap]

theorem Recorded.after {n : Node} (recorded : Recorded n) (term : n.manager.term ≤ m.term)
    (kept : n.manager.term = m.term → ∀ b ∈ n.ballots, b.term = m.term →
      m.votedFor = some b.candidate)
    (given : ∀ x ∈ sent, ∀ b, x.ballot = some b → b.term = m.term ∧ m.votedFor = some b.candidate) :
    Recorded (n.after m sent counted campaigns) := by
  have bounded : ∀ b ∈ (n.after m sent counted campaigns).ballots, b.term ≤ m.term := by
    intro b member
    rcases mem_after_ballots.mp member with old | ⟨x, inSent, ballot⟩
    · exact UInt64.le_trans (recorded.bounded b old) term
    · exact UInt64.le_of_eq (given x inSent b ballot).1
  have current : ∀ b ∈ (n.after m sent counted campaigns).ballots, b.term = m.term →
      m.votedFor = some b.candidate := by
    intro b member here
    rcases mem_after_ballots.mp member with old | ⟨x, inSent, ballot⟩
    · have reached : n.manager.term = m.term :=
        UInt64.le_antisymm term (here ▸ recorded.bounded b old)
      exact kept reached b old here
    · exact (given x inSent b ballot).2
  refine ⟨?_, bounded, current⟩
  intro b bMember c cMember same
  -- two votes of the current term are both the one remembered
  have agree (here : b.term = m.term) : b.candidate = c.candidate := by
    have first := current b bMember here
    have second := current c cMember (same.symm.trans here)
    exact Option.some.inj (first.symm.trans second)
  rcases mem_after_ballots.mp bMember with bOld | ⟨x, inSent, ballot⟩
  · rcases mem_after_ballots.mp cMember with cOld | ⟨x, inSent, ballot⟩
    · exact recorded.single b bOld c cOld same
    · exact agree (same.trans (given x inSent c ballot).1)
  · exact agree (given x inSent b ballot).1

theorem silent_gives {P : Ballot → Prop} (silent : Silent sent) :
    ∀ x ∈ sent, ∀ b, x.ballot = some b → P b := by
  intro x member b ballot
  simp [silent x member] at ballot

variable (json) in
/-- No notice of another leader reaches the node in a term it has voted in, and
no election starts in the last term. -/
def Remembers (n : Node) : Control.Action → Prop
  | .startElection => ¬ Wraps n.manager
  | .handleMessage _ data => ∀ message, parse json data = .message message →
      Deposes n.manager message → ∀ b ∈ n.ballots, b.term ≠ n.manager.term
  | .handleSyncResponse _ => True

theorem campaign_above (candidate : becomesCandidate m = true) (room : ¬ Wraps m) :
    m.term < m.term + 1 :=
  lt_succ_of_ne_max fun last => room ⟨candidate, last⟩

theorem handleSyncResponse_term (m : ElectionManager) (response : RegistrySyncResponsePayload) :
    m.term ≤ (m.handleSyncResponse response).1.term := by
  simp only [ElectionManager.handleSyncResponse]
  split
  · rename_i above
    exact UInt64.le_of_lt above
  · exact UInt64.le_refl _

theorem reaction_recorded {n : Node} (recorded : Recorded n)
    (reaction : Reaction n.manager message m sent)
    (remembers : Deposes n.manager message → ∀ b ∈ n.ballots, b.term ≠ n.manager.term) :
    Recorded (n.after m sent counted campaigns) := by
  cases reaction with
  | kept silent same =>
    subst same
    exact recorded.after (UInt64.le_refl _) (fun _ => recorded.current) (silent_gives silent)
  | followed silent status vote votes term =>
    rcases term with above | ⟨same, deposes⟩
    · exact recorded.after (UInt64.le_of_lt above) (fun same => absurd same (UInt64.ne_of_lt above))
        (silent_gives silent)
    · refine recorded.after (UInt64.le_of_eq same) ?_ (silent_gives silent)
      intro _ b member here
      exact absurd (here.trans same.symm) (remembers deposes b member)
  | granted candidate answer vote term =>
    have given : ∀ x ∈ sent, ∀ b, x.ballot = some b →
        b.term = m.term ∧ m.votedFor = some b.candidate := by
      intro x member b ballot
      have listed := List.mem_filterMap.mpr ⟨x, member, ballot⟩
      rw [answer, List.mem_singleton] at listed
      subst listed
      exact ⟨rfl, vote⟩
    rcases term with ⟨above, -⟩ | ⟨same, free, -⟩
    · exact recorded.after (UInt64.le_of_lt above) (fun same => absurd same (UInt64.ne_of_lt above))
        given
    · refine recorded.after (UInt64.le_of_eq same) ?_ given
      intro _ b member here
      -- a vote given in this term would be remembered
      have voted := recorded.current b member (here.trans same.symm)
      simp [free] at voted
  | counted voter silent received running fresh status term vote votes =>
    refine recorded.after (UInt64.le_of_eq term.symm) ?_ (silent_gives silent)
    intro _ b member here
    rw [vote]
    exact recorded.current b member (here.trans term)

theorem step_recorded {n t : Node} (recorded : Recorded n) (remembers : Remembers json n a)
    (stepped : step json candidateHash n a = some t) : Recorded t := by
  cases step_course stepped with
  | campaigned sent m' candidate sameNode status term vote votes requests =>
    have above : n.manager.term < m'.term := by
      rw [term]
      exact campaign_above candidate remembers
    apply recorded.after (UInt64.le_of_lt above) (fun same => absurd same (UInt64.ne_of_lt above))
    intro x member b ballot
    have own := Option.some.inj ((requests x member).symm.trans ballot)
    subst own
    exact ⟨rfl, vote⟩
  | idle a still => exact recorded.after (UInt64.le_refl _) (fun _ => recorded.current) (by simp)
  | reacted registryData data message m' sent parsed sameNode reaction =>
    exact reaction_recorded recorded reaction (remembers message parsed)
  | synced payload response parsed =>
    refine recorded.after (handleSyncResponse_term _ _) ?_ (by simp)
    intro same b member here
    exact recorded.current b member (here.trans same.symm)

/-- In every run that never makes the node forget a vote of its term, it votes
for at most one candidate per term. -/
theorem one_vote_per_term (json : JsonText) (candidateHash : NodeID → UInt64 → UInt64)
    (m : ElectionManager) (actions : List Control.Action)
    (remembers : Runs.Meets (step json candidateHash) (Remembers json) (.start m) actions) :
    Runs.Always (step json candidateHash) OneVotePerTerm (.start m) actions := by
  have initial : Recorded (.start m) := by
    constructor <;> simp [OneVotePerTerm, Node.start]
  exact Runs.always_of_meets (fun recorded guard stepped => step_recorded recorded guard stepped)
    (fun _ recorded => recorded.single) remembers initial

/-- A fresh node that knows one other. -/
def listener : ElectionManager := (ElectionManager.new (nodeOf 1) "node").addKnownNode (knownOf 2)

def ask (candidate : UInt8) : Message := .electionRequest ⟨nodeOf candidate, "node", 1⟩

def won (term : UInt64) : Message := .electionResult ⟨nodeOf 2, "node", term⟩

def support (voter : UInt8) : Message := .electionVote ⟨nodeOf voter, nodeOf 1, 1, true⟩

def heard : List Message :=
  [ask 2, ask 3, won 1, won (UInt64.ofNat (2 ^ 64 - 1)), support 2, support 3]

def heardText : JsonText := Wire.textOf (heard.map Message.value)

/-- The hashes of the candidates 2 and 3 in term 1. -/
def candidateHashes (candidate : NodeID) (_ : UInt64) : UInt64 :=
  if candidate = nodeOf 2 then 0x3856927d3922adf0 else 0xa3b11379d8fd51d4

def hear (message : Message) : Control.Action := .handleMessage "" (message.encode heardText)

theorem heard_parsed : ∀ message ∈ heard,
    parse heardText (message.encode heardText) = .message message := by
  have distinct : ((heard.map Message.value).map Wire.asciiText).Nodup := by decide
  intro message member
  have trips : message.RoundTrips heardText :=
    Wire.textOf_reads distinct (List.mem_map_of_mem member)
  rw [parse_encode trips]
  simp only [heard, List.mem_cons, List.not_mem_nil, or_false] at member
  rcases member with rfl | rfl | rfl | rfl | rfl | rfl <;> rfl

/-- The node after a message that its library can read. -/
def Node.hears (n : Node) (message : Message) : Node :=
  let o := n.manager.handleMessage candidateHashes "" message
  n.after o.manager o.messages (countedVotes n.manager o.manager message) []

theorem step_hear (n : Node) (member : message ∈ heard) :
    step heardText candidateHashes n (hear message) = some (n.hears message) := by
  simp only [step, hear, ElectionManager.handleBytes, heard_parsed message member, Node.hears]

theorem remembers_hear (n : Node) (member : message ∈ heard) :
    Remembers heardText n (hear message) ↔
      (Deposes n.manager message → ∀ b ∈ n.ballots, b.term ≠ n.manager.term) := by
  simp [Remembers, hear, heard_parsed message member]

theorem one_vote_per_term_heard :
    Runs.Meets (step heardText candidateHashes) (Remembers heardText) (.start listener)
      [hear (won 1), hear (ask 2), hear (ask 3)] ∧
    Runs.Always (step heardText candidateHashes) OneVotePerTerm (.start listener)
      [hear (won 1), hear (ask 2), hear (ask 3)] := by
  have meets : Runs.Meets (step heardText candidateHashes) (Remembers heardText) (.start listener)
      [hear (won 1), hear (ask 2), hear (ask 3)] := by
    have result : won 1 ∈ heard := by decide
    have second : ask 2 ∈ heard := by decide
    have third : ask 3 ∈ heard := by decide
    simp only [Runs.Meets, step_hear _ result, step_hear _ second, Option.some.injEq, forall_eq',
      remembers_hear _ result, remembers_hear _ second, remembers_hear _ third]
    refine ⟨by decide, by decide, by decide, fun _ _ => trivial⟩
  exact ⟨meets, one_vote_per_term _ _ _ _ meets⟩

/-- The node votes for node 2, forgets it on the result, and votes for node 3. -/
theorem second_vote_in_term : ¬ Runs.Always (step heardText candidateHashes) OneVotePerTerm
    (.start listener) [hear (ask 2), hear (won 1), hear (ask 3)] := by
  have second : ask 2 ∈ heard := by decide
  have result : won 1 ∈ heard := by decide
  have third : ask 3 ∈ heard := by decide
  simp only [Runs.Always, step_hear _ second, step_hear _ result, step_hear _ third,
    Option.some.injEq, forall_eq']
  rintro ⟨-, -, -, last⟩
  revert last
  rw [OneVotePerTerm]
  decide

end Votes

section Terms

theorem Reaction.term_le (reaction : Reaction m message m' sent) : m.term ≤ m'.term := by
  cases reaction with
  | kept _ same => rw [same]; exact UInt64.le_refl _
  | followed _ _ _ _ term =>
    rcases term with above | ⟨same, -⟩
    · exact UInt64.le_of_lt above
    · exact UInt64.le_of_eq same
  | granted _ _ _ term =>
    rcases term with ⟨above, -⟩ | ⟨same, -⟩
    · exact UInt64.le_of_lt above
    · exact UInt64.le_of_eq same
  | counted _ _ _ _ _ _ term _ _ => exact UInt64.le_of_eq term.symm

/-- No election starts in the last term. -/
def HasRoom (n : Node) : Control.Action → Prop
  | .startElection => ¬ Wraps n.manager
  | _ => True

/-- The record of the terms ends with the current one. -/
def UpToDate (n : Node) : Prop := ∃ earlier, n.terms = earlier ++ [n.manager.term]

theorem after_upToDate (n : Node) : UpToDate (n.after m sent counted campaigns) := ⟨n.terms, rfl⟩

theorem UpToDate.bounded {n : Node} (upToDate : UpToDate n) (grow : n.terms.Pairwise (· ≤ ·)) :
    ∀ term ∈ n.terms, term ≤ n.manager.term := by
  obtain ⟨earlier, terms⟩ := upToDate
  rw [terms] at grow ⊢
  intro term member
  rcases List.mem_append.mp member with old | last
  · exact (List.pairwise_append.mp grow).2.2 term old _ (List.mem_singleton_self _)
  · rw [List.mem_singleton.mp last]
    exact UInt64.le_refl _

/-- A term that is not below the current one keeps the record in order. -/
theorem TermsGrow.after {n : Node} (grow : TermsGrow n) (upToDate : UpToDate n)
    (term : n.manager.term ≤ m.term)
    (above : ∀ c ∈ campaigns, c.before = n.terms ∧ n.manager.term < c.term) :
    TermsGrow (n.after m sent counted campaigns) := by
  have bounded := upToDate.bounded grow.1
  constructor
  · refine List.pairwise_append.mpr ⟨grow.1, List.pairwise_singleton _ _, ?_⟩
    intro earlier member last here
    rw [List.mem_singleton.mp here]
    exact UInt64.le_trans (bounded earlier member) term
  · intro c member earlier inBefore
    rcases List.mem_append.mp member with old | new
    · exact grow.2 c old earlier inBefore
    · obtain ⟨before, below⟩ := above c new
      rw [before] at inBefore
      exact UInt64.lt_of_le_of_lt (bounded earlier inBefore) below

theorem wrapped_not_grows {n : Node} (upToDate : UpToDate n)
    (last : n.manager.term = UInt64.ofNat (2 ^ 64 - 1)) (term : m.term = n.manager.term + 1) :
    ¬ TermsGrow (n.after m sent counted campaigns) := by
  rintro ⟨grow, -⟩
  obtain ⟨earlier, terms⟩ := upToDate
  have listed : n.manager.term ∈ n.terms := by simp [terms]
  have below := (List.pairwise_append.mp grow).2.2 _ listed _ (List.mem_singleton_self m.term)
  rw [term, last] at below
  exact absurd below (by decide)

theorem step_upToDate {n t : Node} (stepped : step json candidateHash n a = some t) :
    UpToDate t := by
  cases step_course stepped with
  | campaigned | idle | reacted | synced => exact after_upToDate n

/-- A step keeps the terms in order exactly when it does not wrap around. -/
theorem step_grows {n t : Node} (upToDate : UpToDate n) (grow : TermsGrow n)
    (stepped : step json candidateHash n a = some t) : TermsGrow t ↔ HasRoom n a := by
  cases step_course stepped with
  | campaigned sent m' candidate sameNode status term vote votes requests =>
    by_cases last : n.manager.term = UInt64.ofNat (2 ^ 64 - 1)
    · exact iff_of_false (wrapped_not_grows upToDate last term) (not_not.mpr ⟨candidate, last⟩)
    · have above : n.manager.term < m'.term := by
        rw [term]
        exact lt_succ_of_ne_max last
      refine iff_of_true (grow.after upToDate (UInt64.le_of_lt above) ?_) fun wraps => last wraps.2
      intro c member
      rw [List.mem_singleton.mp member]
      exact ⟨rfl, above⟩
  | idle a still =>
    apply iff_of_true (grow.after upToDate (UInt64.le_refl _) (by simp))
    cases a with
    | startElection =>
      rintro ⟨candidate, -⟩
      simp [still rfl] at candidate
    | handleMessage | handleSyncResponse => trivial
  | reacted registryData data message m' sent parsed sameNode reaction =>
    exact iff_of_true (grow.after upToDate reaction.term_le (by simp)) trivial
  | synced payload response parsed =>
    exact iff_of_true (grow.after upToDate (handleSyncResponse_term _ _) (by simp)) trivial

theorem step_total (n : Node) (a : Control.Action) : ∃ t, step json candidateHash n a = some t := by
  cases a with
  | startElection =>
    simp only [step]
    split <;> exact ⟨_, rfl⟩
  | handleMessage registryData data =>
    simp only [step]
    split <;> exact ⟨_, rfl⟩
  | handleSyncResponse payload => exact ⟨_, rfl⟩

/-- Along every run the terms never decrease and every campaign uses a term of
its own, exactly when no election starts in the last term. -/
theorem terms_grow_iff (json : JsonText) (candidateHash : NodeID → UInt64 → UInt64)
    (m : ElectionManager) (actions : List Control.Action) :
    Runs.Always (step json candidateHash) TermsGrow (.start m) actions ↔
      Runs.Meets (step json candidateHash) HasRoom (.start m) actions := by
  have initial : TermsGrow (.start m) := by simp [TermsGrow, Node.start]
  obtain ⟨last, run⟩ := Runs.exec_total step_total (Node.start m) actions
  exact Runs.always_iff (fun _ stepped => step_upToDate stepped)
    (fun upToDate grow stepped => step_grows upToDate grow stepped) run ⟨[], rfl⟩ initial

/-- A result of the last term and an election after it bring the node back to term 0. -/
theorem term_wraps : ¬ Runs.Always (step heardText candidateHashes) TermsGrow (.start listener)
    [hear (won (UInt64.ofNat (2 ^ 64 - 1))), .startElection] := by
  have result : won (UInt64.ofNat (2 ^ 64 - 1)) ∈ heard := by decide
  simp only [Runs.Always, step_hear _ result, Option.some.injEq, forall_eq']
  rintro ⟨-, -, always⟩
  have last := always _ rfl
  revert last
  rw [TermsGrow]
  decide

end Terms

end LanLink.Election.History
