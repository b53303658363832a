import LanLink.Core.Runs
import LanLink.Vpn.HandshakeFreshness

/-! Both parties of the handshake over a network that may lose, double, delay and
reorder their messages, but does not make any up. A delivery hands some message that
was sent to the call that the receiver makes. -/
namespace LanLink.Vpn
open Words Runs

/-- The parties with all messages that each of them sent so far. -/
structure HandshakeWorld where
  initiator : HandshakeInitiator
  responder : HandshakeResponder
  toResponder : List Bytes
  toInitiator : List Bytes

inductive HandshakeAction where
  | startHandshake (noise : Option Bytes)
  | handleHello (i : Nat) (noise : Bool) (replyNow : UInt64)
  | handleHelloAck (i : Nat) (now replyNow : UInt64)
  | handleData (i : Nat) (now : UInt64)
  | complete

/-- What a call returns is sent if it is a message. -/
def sentBy : Except HandshakeError Bytes → List Bytes
  | .ok msg => [msg]
  | .error _ => []

namespace HandshakeWorld

def new (a b : NodeID) : HandshakeWorld := ⟨.new a, .new b, [], []⟩

def step (s : HandshakeWorld) : HandshakeAction → Option HandshakeWorld
  | .startHandshake noise =>
    let (result, initiator) := s.initiator.startHandshake noise
    some { s with initiator, toResponder := s.toResponder ++ sentBy result }
  | .handleHello i noise replyNow => do
    let msg ← s.toResponder[i]?
    let (result, responder) := s.responder.handleHello msg noise replyNow
    return { s with responder, toInitiator := s.toInitiator ++ sentBy result }
  | .handleHelloAck i now replyNow => do
    let msg ← s.toInitiator[i]?
    let (result, initiator) ← s.initiator.handleHelloAck msg now replyNow
    return { s with initiator, toResponder := s.toResponder ++ sentBy result }
  | .handleData i now => do
    let msg ← s.toResponder[i]?
    let (_, responder) ← s.responder.handleData msg now
    return { s with responder }
  | .complete => some { s with initiator := s.initiator.complete.2 }

end HandshakeWorld

def helloMessage (publicKey : Bytes) : Bytes := HandshakeMsgType.hello.toU8 :: publicKey

def timestampedMessage (type : HandshakeMsgType) (nodeId : NodeID) (timestamp : UInt64) : Bytes :=
  type.toU8 :: TimestampedPayload.toBytes ⟨timestamp, nodeId.toList⟩

def isDataMessage (msg : Bytes) : Bool := msg.head? == some HandshakeMsgType.data.toU8

/-- How far the messages got: the timestamps of the one hello acknowledgement and of the
one data message that were ever sent, what either party knows of them, and what is
assumed of all clocks. -/
structure Linked (stamp : UInt64 → Prop) (a b : NodeID) (ack data : Option UInt64)
    (s : HandshakeWorld) : Prop where
  initiatorId : s.initiator.nodeId = a
  responderId : s.responder.nodeId = b
  acks : s.toInitiator = ack.toList.map (timestampedMessage .helloAck b)
  hellos : ∀ msg ∈ s.toResponder, isDataMessage msg ∨ ∃ key, msg = helloMessage key
  datas : s.toResponder.filter isDataMessage = data.toList.map (timestampedMessage .data a)
  answered : data.isSome → ack.isSome
  stamped : ∀ t, t ∈ ack ∨ t ∈ data → stamp t
  initiatorUsed : s.initiator.usedTimestamps = if data.isSome then ack.toList else []
  responderUsed : s.responder.usedTimestamps =
    if s.responder.phase = .established then data.toList else []
  initiatorPhase : (s.initiator.phase = .init ∧ data = none) ∨ s.initiator.phase = .helloSent ∨
    ((s.initiator.phase = .helloAckReceived ∨ s.initiator.phase = .established) ∧ data.isSome)
  responderPhase : (s.responder.phase = .init ∧ ack = none) ∨
    (s.responder.phase = .helloReceived ∧ ack.isSome) ∨
    (s.responder.phase = .established ∧ data.isSome)

theorem Linked.new (stamp : UInt64 → Prop) (a b : NodeID) : Linked stamp a b none none (.new a b) where
  initiatorId := rfl
  responderId := rfl
  acks := rfl
  hellos := by simp [HandshakeWorld.new]
  datas := rfl
  answered := id
  stamped := by simp
  initiatorUsed := rfl
  responderUsed := rfl
  initiatorPhase := .inl ⟨rfl, rfl⟩
  responderPhase := .inl ⟨rfl, rfl⟩

theorem isDataMessage_timestamped (type : HandshakeMsgType) (nodeId : NodeID) (t : UInt64) :
    isDataMessage (timestampedMessage type nodeId t) ↔ type = .data := by
  cases type <;> simp [isDataMessage, timestampedMessage, HandshakeMsgType.toU8]

theorem isDataMessage_hello (key : Bytes) : ¬ isDataMessage (helloMessage key) := by
  simp [isDataMessage, helloMessage, HandshakeMsgType.toU8]

/-- What a call that checks a message can do. -/
theorem HandshakeInitiator.handleHelloAck_cases {s t : HandshakeInitiator}
    (called : s.handleHelloAck msg now replyNow = some (result, t)) :
    (∃ e, result = .error e ∧ t = s) ∨
    s.phase = .helloSent ∧ ∃ used,
      checkMessage .helloAck "invalid HelloACK message" s.usedTimestamps msg now = some (.ok used) ∧
      result = .ok (timestampedMessage .data s.nodeId replyNow) ∧
      t = { s with phase := .helloAckReceived, usedTimestamps := used } := by
  rw [handleHelloAck] at called
  split at called
  · cases called
    exact .inl ⟨_, rfl, rfl⟩
  · rename_i phase
    rw [Option.bind_eq_bind, Option.bind_eq_some_iff] at called
    obtain ⟨checked, passed, called⟩ := called
    cases checked with
    | error e =>
      cases called
      exact .inl ⟨e, rfl, rfl⟩
    | ok used =>
      cases called
      exact .inr ⟨not_not.mp phase, used, passed, rfl, rfl⟩

theorem HandshakeInitiator.handleHelloAck_accepts {s : HandshakeInitiator} {used : List UInt64}
    (phase : s.phase = .helloSent) (passed : checkMessage .helloAck "invalid HelloACK message"
      s.usedTimestamps msg now = some (.ok used)) :
    s.handleHelloAck msg now replyNow = some (.ok (timestampedMessage .data s.nodeId replyNow),
      { s with phase := .helloAckReceived, usedTimestamps := used }) := by
  rw [handleHelloAck, if_neg (not_not.mpr phase), passed]
  rfl

theorem HandshakeResponder.handleData_cases {s t : HandshakeResponder}
    (called : s.handleData msg now = some (result, t)) :
    t = s ∨ s.phase = .helloReceived ∧ ∃ used,
      checkMessage .data "invalid Data message" s.usedTimestamps msg now = some (.ok used) ∧
      t = { s with phase := .established, usedTimestamps := used } := by
  rw [handleData] at called
  split at called
  · cases called
    exact .inl rfl
  · rename_i phase
    rw [Option.bind_eq_bind, Option.bind_eq_some_iff] at called
    obtain ⟨checked, passed, called⟩ := called
    cases checked with
    | error e =>
      cases called
      exact .inl rfl
    | ok used =>
      cases called
      exact .inr ⟨not_not.mp phase, used, passed, rfl⟩

theorem HandshakeResponder.handleHello_cases (s : HandshakeResponder) (msg : Bytes) (noise : Bool)
    (replyNow : UInt64) :
    (∃ e, s.handleHello msg noise replyNow = (.error e, s)) ∨
    s.phase = .init ∧ s.handleHello msg noise replyNow =
      (.ok (timestampedMessage .helloAck s.nodeId replyNow), { s with phase := .helloReceived }) := by
  rw [handleHello]
  split
  · exact .inl ⟨_, rfl⟩
  · rename_i phase
    split
    · exact .inl ⟨_, rfl⟩
    · split
      · exact .inl ⟨_, rfl⟩
      · exact .inr ⟨not_not.mp phase, rfl⟩

/-- A message passes the checks with the timestamp that its sender put into it. -/
theorem checkMessage_passed (passed : checkMessage type invalid used
    (timestampedMessage type nodeId t) now = some (.ok next)) : next = used ++ [t] ∧ t ∉ used := by
  rw [timestampedMessage, checkMessage_timestamped] at passed
  split at passed
  · cases passed
  · split at passed
    · cases passed
    · split at passed
      · cases passed
      · rename_i unknown
        cases passed
        exact ⟨rfl, unknown⟩

theorem checkMessage_type (passed : checkMessage .data invalid used msg now = some (.ok next)) :
    isDataMessage msg := by
  cases msg with
  | nil => cases passed
  | cons tag body =>
    rw [checkMessage] at passed
    split at passed
    · cases passed
    · rename_i same
      simpa [isDataMessage] using not_not.mp same

section
variable {stamp : UInt64 → Prop} {a b : NodeID} {ack data : Option UInt64} {s t : HandshakeWorld}

theorem Linked.startHandshake (linked : Linked stamp a b ack data s)
    (stepped : s.step (.startHandshake noise) = some t) : Linked stamp a b ack data t := by
  cases noise with
  | none =>
    cases stepped
    simpa [HandshakeInitiator.startHandshake, sentBy] using linked
  | some key =>
    cases stepped
    refine { linked with hellos := ?_, datas := ?_, initiatorPhase := .inr (.inl rfl) }
    · intro msg member
      rcases List.mem_append.mp member with old | new
      · exact linked.hellos msg old
      · exact .inr ⟨key, List.mem_singleton.mp new⟩
    · have hello := isDataMessage_hello key
      simpa [HandshakeInitiator.startHandshake, sentBy, helloMessage, linked.datas] using hello

theorem Linked.handleHello (linked : Linked stamp a b ack data s)
    (stamped : stamp replyNow) (stepped : s.step (.handleHello i noise replyNow) = some t) :
    ∃ ack, Linked stamp a b ack data t := by
  obtain ⟨msg, -, stepped⟩ := Option.bind_eq_some_iff.mp stepped
  rcases s.responder.handleHello_cases msg noise replyNow with ⟨e, refused⟩ | ⟨phase, answered⟩
  · rw [refused] at stepped
    cases stepped
    exact ⟨ack, by simpa [sentBy] using linked⟩
  · rw [answered] at stepped
    cases stepped
    have none : ack = none := by
      rcases linked.responderPhase with ⟨-, none⟩ | ⟨later, -⟩ | ⟨later, -⟩
      · exact none
      · rw [phase] at later
        cases later
      · rw [phase] at later
        cases later
    subst none
    have unsent : data = none := Option.not_isSome_iff_eq_none.mp fun sent => by
      cases linked.answered sent
    subst unsent
    refine ⟨some replyNow, { linked with
      acks := ?_
      answered := ?_
      stamped := by simpa using stamped
      responderUsed := ?_
      responderPhase := .inr (.inl ⟨rfl, rfl⟩) }⟩
    · simp [sentBy, linked.acks, linked.responderId]
    · simp
    · simp [linked.responderUsed, phase]

/-- The one acknowledgement is accepted only before a data message was sent. -/
theorem Linked.accepted_once {i : Nat} (linked : Linked stamp a b ack data s)
    (found : s.toInitiator[i]? = some msg) (passed : checkMessage .helloAck invalid
      s.initiator.usedTimestamps msg now = some (.ok used)) :
    data = none ∧ ∃ u, ack = some u ∧ used = [u] := by
  have member := List.mem_of_getElem? found
  rw [linked.acks] at member
  obtain ⟨u, sent, rfl⟩ := List.mem_map.mp member
  obtain rfl : ack = some u := Option.mem_toList.mp sent
  obtain ⟨rfl, unknown⟩ := checkMessage_passed passed
  have unsent : data = none := Option.not_isSome_iff_eq_none.mp fun sent => by
    simp [linked.initiatorUsed, sent] at unknown
  refine ⟨unsent, u, rfl, ?_⟩
  simp [linked.initiatorUsed, unsent]

theorem Linked.handleHelloAck (linked : Linked stamp a b ack data s) (stamped : stamp replyNow)
    (stepped : s.step (.handleHelloAck i now replyNow) = some t) :
    ∃ data', Linked stamp a b ack data' t ∧ (t = s ∨ data = none) := by
  obtain ⟨msg, found, stepped⟩ := Option.bind_eq_some_iff.mp stepped
  obtain ⟨⟨result, initiator⟩, called, stepped⟩ := Option.bind_eq_some_iff.mp stepped
  cases stepped
  rcases HandshakeInitiator.handleHelloAck_cases called with
    ⟨e, rfl, rfl⟩ | ⟨phase, used, passed, rfl, rfl⟩
  · exact ⟨data, by simpa [sentBy] using linked, .inl (by simp [sentBy])⟩
  · obtain ⟨rfl, u, rfl, rfl⟩ := linked.accepted_once found passed
    refine ⟨some replyNow, { linked with
      hellos := ?_
      datas := ?_
      answered := ?_
      stamped := ?_
      initiatorUsed := ?_
      responderUsed := ?_
      initiatorPhase := .inr (.inr ⟨.inl rfl, rfl⟩)
      responderPhase := ?_ }, .inr rfl⟩
    · intro msg member
      rcases List.mem_append.mp member with old | new
      · exact linked.hellos msg old
      · rw [List.mem_singleton.mp new]
        exact .inl ((isDataMessage_timestamped ..).mpr rfl)
    · have isData := (isDataMessage_timestamped .data a replyNow).mpr rfl
      simp [sentBy, linked.datas, isData, linked.initiatorId]
    · simp
    · rintro t (sent | sent)
      · exact linked.stamped t (.inl sent)
      · exact Option.some.inj sent ▸ stamped
    · simp
    · have used := linked.responderUsed
      split at used
      · rename_i established
        rcases linked.responderPhase with ⟨phase, -⟩ | ⟨phase, -⟩ | ⟨-, sent⟩
        · rw [established] at phase
          cases phase
        · rw [established] at phase
          cases phase
        · cases sent
      · rename_i before
        simp [used, before]
    · exact linked.responderPhase.imp_right (Or.imp_right fun ⟨phase, _⟩ => ⟨phase, rfl⟩)

theorem Linked.handleData (linked : Linked stamp a b ack data s)
    (stepped : s.step (.handleData i now) = some t) : Linked stamp a b ack data t := by
  obtain ⟨msg, found, stepped⟩ := Option.bind_eq_some_iff.mp stepped
  obtain ⟨⟨result, responder⟩, called, stepped⟩ := Option.bind_eq_some_iff.mp stepped
  cases stepped
  rcases HandshakeResponder.handleData_cases called with rfl | ⟨phase, used, passed, rfl⟩
  · exact linked
  · have member : msg ∈ s.toResponder.filter isDataMessage :=
      List.mem_filter.mpr ⟨List.mem_of_getElem? found, checkMessage_type passed⟩
    rw [linked.datas] at member
    obtain ⟨u, sent, rfl⟩ := List.mem_map.mp member
    obtain rfl : data = some u := Option.mem_toList.mp sent
    obtain ⟨rfl, -⟩ := checkMessage_passed passed
    exact { linked with
      responderUsed := by simp [linked.responderUsed, phase]
      responderPhase := .inr (.inr ⟨rfl, rfl⟩) }

theorem Linked.complete (linked : Linked stamp a b ack data s)
    (stepped : s.step .complete = some t) : Linked stamp a b ack data t := by
  cases stepped
  rw [HandshakeInitiator.complete]
  split
  · exact linked
  · rename_i phase
    have phase := not_not.mp phase
    have sent : data.isSome := by
      rcases linked.initiatorPhase with ⟨before, -⟩ | before | ⟨-, sent⟩
      · rw [phase] at before
        cases before
      · rw [phase] at before
        cases before
      · exact sent
    exact { linked with initiatorPhase := .inr (.inr ⟨.inr rfl, sent⟩) }

/-- The clock that a call puts into its answer. -/
def HandshakeAction.clock : HandshakeAction → Option UInt64
  | .handleHello _ _ replyNow | .handleHelloAck _ _ replyNow => some replyNow
  | .startHandshake _ | .handleData _ _ | .complete => none

theorem Linked.step (linked : ∃ ack data, Linked stamp a b ack data s)
    (stamped : ∀ now ∈ action.clock, stamp now) (stepped : s.step action = some t) :
    ∃ ack data, Linked stamp a b ack data t := by
  obtain ⟨ack, data, linked⟩ := linked
  cases action with
  | startHandshake noise => exact ⟨ack, data, linked.startHandshake stepped⟩
  | handleHello i noise replyNow =>
    obtain ⟨ack, linked⟩ := linked.handleHello (stamped replyNow rfl) stepped
    exact ⟨ack, data, linked⟩
  | handleHelloAck i now replyNow =>
    obtain ⟨data, linked, -⟩ := linked.handleHelloAck (stamped replyNow rfl) stepped
    exact ⟨ack, data, linked⟩
  | handleData i now => exact ⟨ack, data, linked.handleData stepped⟩
  | complete => exact ⟨ack, data, linked.complete stepped⟩

theorem run_linked (run : exec HandshakeWorld.step (.new a b) actions = some s)
    (stamped : ∀ action ∈ actions, ∀ now ∈ action.clock, stamp now) :
    ∃ ack data, Linked stamp a b ack data s :=
  guarded_invariant (g := fun _ action => ∀ now ∈ HandshakeAction.clock action, stamp now)
    (P := fun s => ∃ ack data, Linked stamp a b ack data s) Linked.step
    (meets_of_forall fun action member _ => stamped action member) run ⟨none, none, .new stamp a b⟩

theorem run_linked_any (run : exec HandshakeWorld.step (.new a b) actions = some s) :
    ∃ ack data, Linked (fun _ => True) a b ack data s :=
  run_linked run fun _ _ _ _ => trivial

/-- Over every run, the responder answers one hello and the initiator accepts that answer
once; who is established got the one message that the other party sent, and the responder
only after the initiator accepted its answer. -/
theorem handshake_agreement (a b : NodeID) (actions : List HandshakeAction) (s : HandshakeWorld)
    (run : exec HandshakeWorld.step (.new a b) actions = some s) :
    s.toInitiator.length ≤ 1 ∧ (s.toResponder.filter isDataMessage).length ≤ 1 ∧
    (s.initiator.phase = .established → ∃ t, s.toInitiator = [timestampedMessage .helloAck b t] ∧
      s.initiator.usedTimestamps = [t]) ∧
    (s.responder.phase = .established → ∃ t u,
      s.toInitiator = [timestampedMessage .helloAck b t] ∧ s.initiator.usedTimestamps = [t] ∧
      s.toResponder.filter isDataMessage = [timestampedMessage .data a u] ∧
      s.responder.usedTimestamps = [u]) ∧
    s.initiator.phase ≠ .failed ∧ s.responder.phase ≠ .failed := by
  obtain ⟨ack, data, linked⟩ := run_linked_any run
  have both (sent : data.isSome) : ∃ t u, ack = some t ∧ data = some u := by
    obtain ⟨u, rfl⟩ := Option.isSome_iff_exists.mp sent
    obtain ⟨t, rfl⟩ := Option.isSome_iff_exists.mp (linked.answered rfl)
    exact ⟨t, u, rfl, rfl⟩
  refine ⟨?_, ?_, ?_, ?_, ?_, ?_⟩
  · rw [linked.acks]
    cases ack <;> simp
  · rw [linked.datas]
    cases data <;> simp
  · intro established
    have sent : data.isSome := by
      rcases linked.initiatorPhase with ⟨phase, -⟩ | phase | ⟨-, sent⟩
      · simp [established] at phase
      · simp [established] at phase
      · exact sent
    obtain ⟨t, u, rfl, rfl⟩ := both sent
    exact ⟨t, by simp [linked.acks], by simp [linked.initiatorUsed]⟩
  · intro established
    have sent : data.isSome := by
      rcases linked.responderPhase with ⟨phase, -⟩ | ⟨phase, -⟩ | ⟨-, sent⟩
      · simp [established] at phase
      · simp [established] at phase
      · exact sent
    obtain ⟨t, u, rfl, rfl⟩ := both sent
    refine ⟨t, u, by simp [linked.acks], by simp [linked.initiatorUsed], by simp [linked.datas], ?_⟩
    simp [linked.responderUsed, established]
  · rcases linked.initiatorPhase with ⟨phase, -⟩ | phase | ⟨phase | phase, -⟩ <;> simp [phase]
  · rcases linked.responderPhase with ⟨phase, -⟩ | ⟨phase, -⟩ | ⟨phase, -⟩ <;> simp [phase]

/-- A run in which every message arrives in the second in which it was sent. -/
def promptRun : List HandshakeAction :=
  [.startHandshake (some [9]), .handleHello 0 true 1700000000,
    .handleHelloAck 0 1700000000 1700000000, .handleData 1 1700000000, .complete]

def promptWorld : HandshakeWorld where
  initiator := ⟨zeroId, .established, [1700000000]⟩
  responder := ⟨zeroId, .established, [1700000000]⟩
  toResponder := [helloMessage [9], timestampedMessage .data zeroId 1700000000]
  toInitiator := [timestampedMessage .helloAck zeroId 1700000000]

theorem handshake_agreement_prompt : ∃ t u,
    promptWorld.toInitiator = [timestampedMessage .helloAck zeroId t] ∧
    promptWorld.initiator.usedTimestamps = [t] ∧
    promptWorld.toResponder.filter isDataMessage = [timestampedMessage .data zeroId u] ∧
    promptWorld.responder.usedTimestamps = [u] :=
  (handshake_agreement zeroId zeroId promptRun promptWorld rfl).2.2.2.1 rfl

/-- The replay window fits into a word after the clock's value. -/
def WindowFits (now : UInt64) : Prop := now.toNat + replayWindowSecs < 2 ^ 64

instance (now : UInt64) : Decidable (WindowFits now) := inferInstanceAs (Decidable (_ < _))

def HandshakeWorld.BothEstablished (s : HandshakeWorld) : Prop :=
  s.initiator.phase = .established ∧ s.responder.phase = .established

/-- The initiator started again after it had accepted an acknowledgement. -/
def HandshakeWorld.Restarted (s : HandshakeWorld) : Prop :=
  s.initiator.phase = .helloSent ∧ s.initiator.usedTimestamps ≠ []

/-- A message that arrives in the second in which it was sent is accepted. -/
theorem checkMessage_prompt (fits : WindowFits u) (unknown : u ∉ used) :
    checkMessage type invalid used (timestampedMessage type nodeId u) u = some (.ok (used ++ [u])) := by
  have past : ¬ u.toNat + replayWindowSecs < u.toNat := by omega
  rw [timestampedMessage, checkMessage_timestamped, if_neg (Nat.not_le.mpr fits), if_neg past,
    if_neg unknown]

theorem Linked.restarted_iff (linked : Linked stamp a b ack data s) :
    s.Restarted ↔ s.initiator.phase = .helloSent ∧ data.isSome := by
  refine and_congr_right fun _ => ?_
  rw [linked.initiatorUsed]
  cases data with
  | none => simp
  | some =>
    obtain ⟨t, rfl⟩ := Option.isSome_iff_exists.mp (linked.answered rfl)
    simp

/-- Nothing that is in the network brings an initiator forward that started again. -/
theorem Linked.restarted_step (linked : ∃ ack data, Linked (fun _ => True) a b ack data s)
    (restarted : s.Restarted) (stepped : s.step action = some t) : t.Restarted := by
  obtain ⟨ack, data, linked⟩ := linked
  obtain ⟨phase, sent⟩ := linked.restarted_iff.mp restarted
  cases action with
  | startHandshake noise =>
    cases noise with
    | none =>
      cases stepped
      exact restarted
    | some key =>
      cases stepped
      exact ⟨rfl, restarted.2⟩
  | handleHello i noise replyNow =>
    obtain ⟨msg, -, stepped⟩ := Option.bind_eq_some_iff.mp stepped
    cases stepped
    exact restarted
  | handleHelloAck i now replyNow =>
    obtain ⟨data', -, same | unsent⟩ := linked.handleHelloAck trivial stepped
    · exact same ▸ restarted
    · rw [unsent] at sent
      cases sent
  | handleData i now =>
    obtain ⟨msg, -, stepped⟩ := Option.bind_eq_some_iff.mp stepped
    obtain ⟨⟨result, responder⟩, -, stepped⟩ := Option.bind_eq_some_iff.mp stepped
    cases stepped
    exact restarted
  | complete =>
    cases stepped
    rw [HandshakeInitiator.complete, if_pos (by simp [phase])]
    exact restarted

/-- The data message establishes the responder if it is not so yet. -/
theorem Linked.data_establishes (linked : Linked WindowFits a b ack (some u) s) :
    ∃ i t, s.step (.handleData i u) = some t ∧ Linked WindowFits a b ack (some u) t ∧
      t.initiator = s.initiator ∧ t.responder.phase = .established := by
  have member : timestampedMessage .data a u ∈ s.toResponder.filter isDataMessage := by
    simp [linked.datas]
  obtain ⟨i, found⟩ := List.mem_iff_getElem?.mp (List.mem_filter.mp member).1
  rcases linked.responderPhase with ⟨-, none⟩ | ⟨phase, -⟩ | ⟨phase, -⟩
  · have sent := linked.answered rfl
    rw [none] at sent
    cases sent
  · have unused : s.responder.usedTimestamps = [] := by simp [linked.responderUsed, phase]
    have passed : checkMessage .data "invalid Data message" s.responder.usedTimestamps
        (timestampedMessage .data a u) u = some (.ok (s.responder.usedTimestamps ++ [u])) :=
      checkMessage_prompt (linked.stamped u (.inr rfl)) (by simp [unused])
    have stepped : s.step (.handleData i u) = some { s with responder :=
        { s.responder with phase := .established, usedTimestamps := s.responder.usedTimestamps ++ [u] } } := by
      simp [HandshakeWorld.step, found, HandshakeResponder.handleData, phase, passed]
    exact ⟨i, _, stepped, linked.handleData stepped, rfl, rfl⟩
  · have stepped : s.step (.handleData i u) = some s := by
      simp [HandshakeWorld.step, found, HandshakeResponder.handleData, phase]
    exact ⟨i, s, stepped, linked, rfl, phase⟩

theorem Linked.finishes (linked : Linked WindowFits a b ack (some u) s)
    (forward : s.initiator.phase = .helloAckReceived ∨ s.initiator.phase = .established) :
    ∃ actions t, exec HandshakeWorld.step s actions = some t ∧ t.BothEstablished := by
  obtain ⟨i, t, stepped, -, same, established⟩ := linked.data_establishes
  refine ⟨[.handleData i u, .complete], { t with initiator := t.initiator.complete.2 },
    exec_cons.mpr ⟨t, stepped, exec_cons.mpr ⟨_, rfl, rfl⟩⟩, ?_, established⟩
  rw [same, HandshakeInitiator.complete]
  rcases forward with phase | phase <;> simp [phase]

theorem Linked.hello_answered (linked : Linked WindowFits a b ack none s) :
    ∃ actions t u, exec HandshakeWorld.step s actions = some t ∧
      Linked WindowFits a b (some u) none t ∧ t.initiator.phase = .helloSent := by
  -- starting is possible in every phase, and the last hello is the one delivered
  let started : HandshakeWorld := { s with
    initiator := { s.initiator with phase := .helloSent }
    toResponder := s.toResponder ++ [helloMessage []] }
  have start : s.step (.startHandshake (some [])) = some started := rfl
  have again := linked.startHandshake start
  have found : started.toResponder[s.toResponder.length]? = some (helloMessage []) := by
    simp [started]
  rcases linked.responderPhase with ⟨phase, none⟩ | ⟨phase, sent⟩ | ⟨-, sent⟩
  · let answered : HandshakeWorld := { started with
      responder := { s.responder with phase := .helloReceived }
      toInitiator := s.toInitiator ++ [timestampedMessage .helloAck s.responder.nodeId 0] }
    have hello : started.step (.handleHello s.toResponder.length true 0) = some answered := by
      rw [HandshakeWorld.step, found]
      simp [HandshakeResponder.handleHello, phase, helloMessage, started, answered, sentBy,
        timestampedMessage]
    have fits : WindowFits 0 := by decide
    have later := again.handleHello fits hello
    obtain ⟨ack, later⟩ := later
    have acked : ack.isSome := by
      rcases later.responderPhase with ⟨same, -⟩ | ⟨-, sent⟩ | ⟨same, -⟩
      · cases same
      · exact sent
      · cases same
    obtain ⟨u, rfl⟩ := Option.isSome_iff_exists.mp acked
    exact ⟨[_, _], answered, u, exec_cons.mpr ⟨_, start, exec_cons.mpr ⟨_, hello, rfl⟩⟩, later, rfl⟩
  · obtain ⟨u, rfl⟩ := Option.isSome_iff_exists.mp sent
    exact ⟨[_], started, u, exec_cons.mpr ⟨_, start, rfl⟩, again, rfl⟩
  · cases sent

theorem Linked.ack_accepted (linked : Linked WindowFits a b (some u) none s)
    (phase : s.initiator.phase = .helloSent) :
    ∃ t, s.step (.handleHelloAck 0 u 0) = some t ∧ t.initiator.phase = .helloAckReceived ∧
      ∃ now, Linked WindowFits a b (some u) (some now) t := by
  have found : s.toInitiator[0]? = some (timestampedMessage .helloAck b u) := by
    simp [linked.acks]
  have unused : u ∉ s.initiator.usedTimestamps := by simp [linked.initiatorUsed]
  have passed : checkMessage .helloAck "invalid HelloACK message" s.initiator.usedTimestamps
      (timestampedMessage .helloAck b u) u = some (.ok (s.initiator.usedTimestamps ++ [u])) :=
    checkMessage_prompt (linked.stamped u (.inl rfl)) unused
  let accepted : HandshakeWorld := { s with
    initiator := { s.initiator with
      phase := .helloAckReceived, usedTimestamps := s.initiator.usedTimestamps ++ [u] }
    toResponder := s.toResponder ++ [timestampedMessage .data s.initiator.nodeId 0] }
  have stepped : s.step (.handleHelloAck 0 u 0) = some accepted := by
    rw [HandshakeWorld.step, found, Option.bind_eq_bind, Option.bind_some,
      HandshakeInitiator.handleHelloAck_accepts phase passed]
    rfl
  obtain ⟨data, later, -⟩ := linked.handleHelloAck (by decide) stepped
  have sent : data.isSome := by
    rcases later.initiatorPhase with ⟨same, -⟩ | same | ⟨-, sent⟩
    · cases same
    · cases same
    · exact sent
  obtain ⟨now, rfl⟩ := Option.isSome_iff_exists.mp sent
  exact ⟨accepted, stepped, rfl, now, later⟩

end

/-- From every state that a run reaches, both parties can still get established exactly if
the initiator did not start again after it accepted the acknowledgement: the responder
answers no second hello. -/
theorem can_establish_iff (a b : NodeID) (actions : List HandshakeAction) (s : HandshakeWorld)
    (fits : ∀ action ∈ actions, ∀ now ∈ action.clock, WindowFits now)
    (run : exec HandshakeWorld.step (.new a b) actions = some s) :
    (∃ later t, exec HandshakeWorld.step s later = some t ∧ t.BothEstablished) ↔ ¬ s.Restarted := by
  constructor
  · rintro ⟨later, t, further, established, -⟩ restarted
    obtain ⟨ack, data, linked⟩ := run_linked_any run
    have stuck := Runs.invariant
      (P := fun s => (∃ ack data, Linked (fun _ => True) a b ack data s) ∧ s.Restarted)
      (fun held stepped => ⟨Linked.step held.1 (by simp) stepped,
        Linked.restarted_step held.1 held.2 stepped⟩) further ⟨⟨ack, data, linked⟩, restarted⟩
    rw [stuck.2.1] at established
    cases established
  · intro forward
    obtain ⟨ack, data, linked⟩ := run_linked run fits
    cases data with
    | none =>
      obtain ⟨first, t, u, start, answered, phase⟩ := linked.hello_answered
      obtain ⟨v, accept, phase, now, sent⟩ := answered.ack_accepted phase
      obtain ⟨last, w, finish, established⟩ := sent.finishes (.inl phase)
      exact ⟨first ++ .handleHelloAck 0 u 0 :: last, w,
        exec_append.mpr ⟨t, start, exec_cons.mpr ⟨v, accept, finish⟩⟩, established⟩
    | some u =>
      refine linked.finishes ?_
      rcases linked.initiatorPhase with ⟨-, none⟩ | phase | ⟨phase, -⟩
      · cases none
      · exact absurd (linked.restarted_iff.mpr ⟨phase, rfl⟩) forward
      · exact phase

/-- A hello after the handshake is never answered. -/
theorem handshake_restarted : ¬ ∃ later t,
    exec HandshakeWorld.step { promptWorld with
      initiator := { promptWorld.initiator with phase := .helloSent }
      toResponder := promptWorld.toResponder ++ [helloMessage [8]] } later = some t ∧
    t.BothEstablished := by
  intro can
  have fits : (promptRun ++ [HandshakeAction.startHandshake (some [8])]).all
      (fun action => action.clock.all fun now => WindowFits now) := rfl
  exact (can_establish_iff zeroId zeroId (promptRun ++ [.startHandshake (some [8])]) _
    (fun action member now inside =>
      of_decide_eq_true ((Option.all_eq_true _ _).mp (List.all_eq_true.mp fits action member) now inside))
    rfl).mp can ⟨rfl, by decide⟩

/-- The whole exchange in one place: whether the library made the responder's key pair, what
it answers the parties, and the clock at the four calls that read it. A failed assertion
has no result. -/
def performHandshake (initiatorId responderId : NodeID) (responderKey : Bool)
    (noise : Option Bytes) (responderNoise : Bool)
    (ackSent ackChecked dataSent dataChecked : UInt64) :
    Option (Except HandshakeError (HandshakePhase × HandshakePhase)) :=
  if !responderKey then some (.error .snowError)
  else
    match (HandshakeInitiator.new initiatorId).startHandshake noise with
    | (.error e, _) => some (.error e)
    | (.ok hello, initiator) => do
      guard (initiator.phase = .helloSent)
      match (HandshakeResponder.new responderId).handleHello hello responderNoise ackSent with
      | (.error e, _) => return .error e
      | (.ok helloAck, responder) =>
        guard (responder.phase = .helloReceived)
        match ← initiator.handleHelloAck helloAck ackChecked dataSent with
        | (.error e, _) => return .error e
        | (.ok data, initiator) =>
          guard (initiator.phase = .helloAckReceived)
          match ← responder.handleData data dataChecked with
          | (.error e, _) => return .error e
          | (.ok _, responder) =>
            guard (responder.phase = .established)
            match initiator.complete with
            | (.error e, _) => return .error e
            | (.ok _, initiator) =>
              guard (initiator.phase = .established)
              return .ok (initiator.phase, responder.phase)

theorem checkMessage_fresh (type : HandshakeMsgType) (invalid : String) (nodeId : NodeID)
    (sent now : UInt64) : checkMessage type invalid [] (timestampedMessage type nodeId sent) now =
      if WindowFits sent then
        if now.toNat ≤ sent.toNat + replayWindowSecs then some (.ok [sent])
        else some (.error (.timestampExpired sent now))
      else none := by
  rw [timestampedMessage, checkMessage_timestamped]
  by_cases fits : WindowFits sent
  · rw [if_neg (Nat.not_le.mpr fits), if_pos fits]
    by_cases current : now.toNat ≤ sent.toNat + replayWindowSecs
    · rw [if_neg (Nat.not_lt.mpr current), if_pos current]
      rfl
    · rw [if_pos (Nat.not_le.mp current), if_neg current]
  · rw [if_pos (Nat.not_lt.mp fits), if_neg fits]

/-- What the exchange does once the library has set up both parties. -/
theorem performHandshake_eq (initiatorId responderId : NodeID) (publicKey : Bytes)
    (ackSent ackChecked dataSent dataChecked : UInt64) :
    performHandshake initiatorId responderId true (some publicKey) true ackSent ackChecked
      dataSent dataChecked = do
        let checked ← checkMessage .helloAck "invalid HelloACK message" []
          (timestampedMessage .helloAck responderId ackSent) ackChecked
        match checked with
        | .error e => return .error e
        | .ok _ =>
          let checked ← checkMessage .data "invalid Data message" []
            (timestampedMessage .data initiatorId dataSent) dataChecked
          return checked.map fun _ => (.established, .established) := by
  have hello : (HandshakeResponder.new responderId).handleHello
      (HandshakeMsgType.hello.toU8 :: publicKey) true ackSent =
    (.ok (timestampedMessage .helloAck responderId ackSent), ⟨responderId, .helloReceived, []⟩) := rfl
  simp only [performHandshake, Bool.not_true, Bool.false_eq_true, if_false,
    HandshakeInitiator.startHandshake, hello, guard_true, HandshakeInitiator.new]
  cases acked : checkMessage .helloAck "invalid HelloACK message" []
      (timestampedMessage .helloAck responderId ackSent) ackChecked with
  | none => simp [HandshakeInitiator.handleHelloAck, acked]
  | some checked =>
    cases checked with
    | error e => simp [HandshakeInitiator.handleHelloAck, acked]
    | ok used =>
      cases received : checkMessage .data "invalid Data message" []
          (timestampedMessage .data initiatorId dataSent) dataChecked with
      | none =>
        simp [HandshakeInitiator.handleHelloAck_accepts, acked, HandshakeResponder.handleData, received]
      | some checked =>
        cases checked <;> simp [HandshakeInitiator.handleHelloAck_accepts, acked,
          HandshakeResponder.handleData, received, HandshakeInitiator.complete, Except.map]

/-- It succeeds exactly if the library does, no clock overflows the window and both messages
arrive within it; then both parties are established and no assertion fails. -/
theorem performHandshake_ok_iff (initiatorId responderId : NodeID) (responderKey : Bool)
    (noise : Option Bytes) (responderNoise : Bool)
    (ackSent ackChecked dataSent dataChecked : UInt64) (phases : HandshakePhase × HandshakePhase) :
    performHandshake initiatorId responderId responderKey noise responderNoise ackSent ackChecked
      dataSent dataChecked = some (.ok phases) ↔
    (responderKey ∧ noise.isSome ∧ responderNoise) ∧
    (WindowFits ackSent ∧ ackChecked.toNat ≤ ackSent.toNat + replayWindowSecs) ∧
    (WindowFits dataSent ∧ dataChecked.toNat ≤ dataSent.toNat + replayWindowSecs) ∧
    phases = (.established, .established) := by
  cases responderKey with
  | false => simp [performHandshake]
  | true =>
    cases noise with
    | none => simp [performHandshake, HandshakeInitiator.startHandshake]
    | some publicKey =>
      cases responderNoise with
      | false =>
        simp [performHandshake, HandshakeInitiator.startHandshake, HandshakeResponder.handleHello,
          HandshakeResponder.new]
      | true =>
        rw [performHandshake_eq, checkMessage_fresh, checkMessage_fresh]
        by_cases ackFits : WindowFits ackSent
        · by_cases ackCurrent : ackChecked.toNat ≤ ackSent.toNat + replayWindowSecs
          · by_cases dataFits : WindowFits dataSent
            · by_cases dataCurrent : dataChecked.toNat ≤ dataSent.toNat + replayWindowSecs
              · simp [ackFits, ackCurrent, dataFits, dataCurrent, Except.map, eq_comm]
              · simp [ackFits, ackCurrent, dataFits, dataCurrent, Except.map]
            · simp [ackFits, ackCurrent, dataFits]
          · simp [ackFits, ackCurrent]
        · simp [ackFits]

end LanLink.Vpn
