import LanLink.Core.Json
import LanLink.Core.Runs
import LanLink.Registry.Election

/-! Election messages as bytes: a type byte and a JSON payload. The text of a
JSON value is written and read by a library, which is a parameter here; the
fields of the payloads are those of the source's structures. -/
namespace LanLink.Election
open Words Json

inductive ElectionMessageType where
  | electionRequest | electionVote | electionResult | registryChange | registrySync
  deriving DecidableEq, Repr

def ElectionMessageType.toU8 : ElectionMessageType → UInt8
  | .electionRequest => 0x11
  | .electionVote => 0x12
  | .electionResult => 0x13
  | .registryChange => 0x14
  | .registrySync => 0x15

def ElectionMessageType.fromU8 (b : UInt8) : Option ElectionMessageType :=
  if b = 0x11 then some .electionRequest
  else if b = 0x12 then some .electionVote
  else if b = 0x13 then some .electionResult
  else if b = 0x14 then some .registryChange
  else if b = 0x15 then some .registrySync
  else none

/-- A synchronization response goes out under the type of a request. -/
def Message.messageType : Message → ElectionMessageType
  | .electionRequest _ => .electionRequest
  | .electionVote _ => .electionVote
  | .electionResult _ => .electionResult
  | .registryChange _ => .registryChange
  | .registrySync _ | .registrySyncResponse _ => .registrySync

def Message.value : Message → Value
  | .electionRequest p => .object
      [("candidate_id", ofVector p.candidateId), ("candidate_name", .string p.candidateName),
        ("term", ofU64 p.term)]
  | .electionVote p => .object
      [("voter_id", ofVector p.voterId), ("candidate_id", ofVector p.candidateId),
        ("term", ofU64 p.term), ("granted", .bool p.granted)]
  | .electionResult p => .object
      [("leader_id", ofVector p.leaderId), ("leader_name", .string p.leaderName),
        ("term", ofU64 p.term)]
  | .registryChange p => .object
      [("registry_id", ofVector p.registryId), ("registry_name", .string p.registryName),
        ("registry_addr", .string p.registryAddr), ("term", ofU64 p.term)]
  | .registrySync p => .object
      [("requester_id", ofVector p.requesterId), ("requester_name", .string p.requesterName),
        ("term", ofU64 p.term)]
  | .registrySyncResponse p => .object
      [("leader_id", ofVector p.leaderId), ("leader_name", .string p.leaderName),
        ("term", ofU64 p.term), ("registry_data", .string p.registryData)]

def electionRequestOf (value : Value) : Option ElectionRequestPayload := do
  match ← record ["candidate_id", "candidate_name", "term"] value with
  | [id, name, term] => return ⟨← asVector 32 id, ← asString name, ← asU64 term⟩
  | _ => none

def electionVoteOf (value : Value) : Option ElectionVotePayload := do
  match ← record ["voter_id", "candidate_id", "term", "granted"] value with
  | [voter, candidate, term, granted] =>
    return ⟨← asVector 32 voter, ← asVector 32 candidate, ← asU64 term, ← asBool granted⟩
  | _ => none

def electionResultOf (value : Value) : Option ElectionResultPayload := do
  match ← record ["leader_id", "leader_name", "term"] value with
  | [id, name, term] => return ⟨← asVector 32 id, ← asString name, ← asU64 term⟩
  | _ => none

def registryChangeOf (value : Value) : Option RegistryChangePayload := do
  match ← record ["registry_id", "registry_name", "registry_addr", "term"] value with
  | [id, name, addr, term] =>
    return ⟨← asVector 32 id, ← asString name, ← asString addr, ← asU64 term⟩
  | _ => none

def registrySyncOf (value : Value) : Option RegistrySyncPayload := do
  match ← record ["requester_id", "requester_name", "term"] value with
  | [id, name, term] => return ⟨← asVector 32 id, ← asString name, ← asU64 term⟩
  | _ => none

def registrySyncResponseOf (value : Value) : Option RegistrySyncResponsePayload := do
  match ← record ["leader_id", "leader_name", "term", "registry_data"] value with
  | [id, name, term, registryData] =>
    return ⟨← asVector 32 id, ← asString name, ← asU64 term, ← asString registryData⟩
  | _ => none

/-- The library that writes and reads the text of a value. -/
structure JsonText where
  toVec : Value → Bytes
  fromSlice : Bytes → Option Value

variable (json : JsonText)

def Message.encode (message : Message) : Bytes :=
  message.messageType.toU8 :: json.toVec message.value

/-- What the dispatcher makes of its input: nothing, an error of the payload, or
a message for the handler of its type. -/
inductive Parsed where
  | ignored
  | malformed
  | message (message : Message)

def payloadOf (value : Value) : ElectionMessageType → Option Message
  | .electionRequest => (electionRequestOf value).map .electionRequest
  | .electionVote => (electionVoteOf value).map .electionVote
  | .electionResult => (electionResultOf value).map .electionResult
  | .registryChange => (registryChangeOf value).map .registryChange
  | .registrySync => (registrySyncOf value).map .registrySync

def parse : Bytes → Parsed
  | [] => .ignored
  | tag :: payload =>
    match ElectionMessageType.fromU8 tag with
    | none => .ignored
    | some type =>
      match (json.fromSlice payload).bind (payloadOf · type) with
      | some message => .message message
      | none => .malformed

variable (candidateHash : NodeID → UInt64 → UInt64)

/-- The source's `handle_message`. -/
def ElectionManager.handleBytes (m : ElectionManager) (registryData : String) (data : Bytes) :
    Outcome :=
  match parse json data with
  | .ignored => ⟨m, .ok none, [], []⟩
  | .malformed => ⟨m, .error .serializeError, [], []⟩
  | .message message => m.handleMessage candidateHash registryData message

/-- The source's `handle_sync_response`, without what it hands to the callback. -/
def ElectionManager.handleSyncBytes (m : ElectionManager) (payload : Bytes) :
    ElectionManager × Except ElectionError Unit :=
  match (json.fromSlice payload).bind registrySyncResponseOf with
  | some response => ((m.handleSyncResponse response).1, .ok ())
  | none => (m, .error .serializeError)

@[simp] theorem fromU8_toU8 (type : ElectionMessageType) :
    ElectionMessageType.fromU8 type.toU8 = some type := by
  cases type <;> rfl

/-- Every payload is read back from its fields, except that a response has the
type of a request and lacks the requester. -/
theorem payloadOf_value (message : Message) :
    payloadOf message.value message.messageType =
      match message with
      | .registrySyncResponse _ => none
      | _ => some message := by
  cases message with
  | electionRequest p =>
    simp [payloadOf, Message.messageType, Message.value, electionRequestOf, record, field]
  | electionVote p =>
    simp [payloadOf, Message.messageType, Message.value, electionVoteOf, record, field]
  | electionResult p =>
    simp [payloadOf, Message.messageType, Message.value, electionResultOf, record, field]
  | registryChange p =>
    simp [payloadOf, Message.messageType, Message.value, registryChangeOf, record, field]
  | registrySync p =>
    simp [payloadOf, Message.messageType, Message.value, registrySyncOf, record, field]
  | registrySyncResponse p =>
    simp [payloadOf, Message.messageType, Message.value, registrySyncOf, record, field]

/-- The text of a payload is read back as it was written. -/
def Message.RoundTrips (message : Message) : Prop :=
  json.fromSlice (json.toVec message.value) = some message.value

/-- The handler of a kind of message; a response has an entry point of its own. -/
def ElectionManager.handler (m : ElectionManager) (registryData : String) : Message → Outcome
  | .registrySyncResponse response => ⟨(m.handleSyncResponse response).1, .ok none, [], []⟩
  | message => m.handleMessage candidateHash registryData message

/-- A node accepts the bytes of a message and hands them to its handler. -/
structure Accepted (m : ElectionManager) (message : Message) : Prop where
  parsed : ∀ registryData, (m.handleBytes json candidateHash registryData
    (message.encode json)).result ≠ .error .serializeError
  dispatched : ∀ registryData, m.handleBytes json candidateHash registryData
    (message.encode json) = m.handler candidateHash registryData message

variable {json candidateHash}

/-- What the dispatcher makes of the bytes of a message. -/
def Message.received : Message → Parsed
  | .registrySyncResponse _ => .malformed
  | message => .message message

theorem parse_encode {message : Message} (trips : message.RoundTrips json) :
    parse json (message.encode json) = message.received := by
  rw [Message.RoundTrips] at trips
  simp only [parse, Message.encode, fromU8_toU8, trips, Option.bind_some, payloadOf_value]
  cases message with
  | electionRequest | electionVote | electionResult | registryChange | registrySync => rfl
  | registrySyncResponse => rfl

/-- A handler that has its payload answers. -/
theorem handleMessage_answers (m : ElectionManager) (registryData : String) {message : Message}
    (request : ∀ response, message ≠ .registrySyncResponse response) :
    ∃ reply, (m.handleMessage candidateHash registryData message).result = .ok reply := by
  cases message with
  | electionRequest req =>
    simp only [ElectionManager.handleMessage, ElectionManager.handleElectionRequest]
    split <;> exact ⟨_, rfl⟩
  | electionVote vote =>
    rw [ElectionManager.handleMessage]
    rcases m.handleElectionVote_cases vote with same | ⟨-, ⟨-, leads⟩ | noted⟩
    · exact ⟨none, by rw [same]⟩
    · exact ⟨none, by rw [leads, ElectionManager.becomeLeader]⟩
    · exact ⟨none, by rw [noted]⟩
  | electionResult result =>
    simp only [ElectionManager.handleMessage, ElectionManager.handleElectionResult]
    split_ifs <;> exact ⟨_, rfl⟩
  | registryChange change =>
    simp only [ElectionManager.handleMessage, ElectionManager.handleRegistryChange]
    split_ifs <;> exact ⟨_, rfl⟩
  | registrySync sync =>
    simp only [ElectionManager.handleMessage, ElectionManager.handleRegistrySync]
    split_ifs <;> exact ⟨_, rfl⟩
  | registrySyncResponse response => exact absurd rfl (request response)

/-- A message is read from a payload of the type that its first byte names. -/
theorem parse_message {data : Bytes} {message : Message}
    (parsed : parse json data = .message message) :
    ∃ tag payload type value, data = tag :: payload ∧ ElectionMessageType.fromU8 tag = some type ∧
      json.fromSlice payload = some value ∧ payloadOf value type = some message := by
  cases data with
  | nil => cases parsed
  | cons tag payload =>
    simp only [parse] at parsed
    split at parsed
    · cases parsed
    · rename_i type typed
      split at parsed
      · rename_i found reading
        cases parsed
        obtain ⟨value, read, kind⟩ := Option.bind_eq_some_iff.mp reading
        exact ⟨tag, payload, type, value, rfl, typed, read, kind⟩
      · cases parsed

/-- The dispatcher has no type for a response. -/
theorem parse_request {data : Bytes} {message : Message}
    (parsed : parse json data = .message message)
    (response : RegistrySyncResponsePayload) : message ≠ .registrySyncResponse response := by
  obtain ⟨tag, payload, type, value, -, -, -, kind⟩ := parse_message parsed
  rintro rfl
  cases type <;> simp [payloadOf] at kind

/-- Only a response fails: its bytes are taken for a request. -/
theorem accepted_iff (m : ElectionManager) {message : Message} (trips : message.RoundTrips json) :
    Accepted json candidateHash m message ↔
      ∀ response, message ≠ .registrySyncResponse response := by
  constructor
  · rintro accepted response rfl
    apply accepted.parsed ""
    simp [ElectionManager.handleBytes, parse_encode trips, Message.received]
  · intro request
    have dispatched (registryData : String) : m.handleBytes json candidateHash registryData
        (message.encode json) = m.handleMessage candidateHash registryData message := by
      rw [ElectionManager.handleBytes, parse_encode trips]
      cases message with
      | electionRequest | electionVote | electionResult | registryChange | registrySync => rfl
      | registrySyncResponse response => exact absurd rfl (request response)
    constructor
    · intro registryData
      rw [dispatched]
      have answers : ∃ reply, (m.handleMessage candidateHash registryData message).result =
          .ok reply := handleMessage_answers m registryData request
      obtain ⟨reply, answered⟩ := answers
      simp [answered]
    · intro registryData
      rw [dispatched]
      cases message with
      | electionRequest | electionVote | electionResult | registryChange | registrySync => rfl
      | registrySyncResponse response => exact absurd rfl (request response)

theorem messages_silent (m : ElectionManager) (controls : List Bool) :
    Outcome.messages ⟨m, .ok none, [], controls⟩ = [] := rfl

theorem becomeLeader_messages (m : ElectionManager) (response : RegistrySyncResponsePayload) :
    .registrySyncResponse response ∉ m.becomeLeader.messages := by
  simp only [Outcome.messages, ElectionManager.becomeLeader, ElectionManager.broadcast]
  cases m.getLocalAddr with
  | none => simp
  | some addr => simp

/-- A response is what a leader answers to a request that is not ahead of it. -/
theorem response_mem_handleMessage (m : ElectionManager) (registryData : String)
    (message : Message) :
    (∃ response, .registrySyncResponse response ∈
        (m.handleMessage candidateHash registryData message).messages) ↔
      ∃ sync, message = .registrySync sync ∧ m.status = .leader ∧ ¬ m.term < sync.term := by
  cases message with
  | electionRequest req =>
    simp only [ElectionManager.handleMessage, ElectionManager.handleElectionRequest,
      ElectionManager.buildVoteMessage]
    split <;> simp [Outcome.messages]
  | electionVote vote =>
    rw [ElectionManager.handleMessage]
    rcases m.handleElectionVote_cases vote with same | ⟨-, ⟨-, leads⟩ | noted⟩
    · simp [same, messages_silent]
    · simp [leads, becomeLeader_messages]
    · simp [noted, messages_silent]
  | electionResult result =>
    simp only [ElectionManager.handleMessage, ElectionManager.handleElectionResult]
    split_ifs <;> simp [Outcome.messages]
  | registryChange change =>
    simp only [ElectionManager.handleMessage, ElectionManager.handleRegistryChange]
    split_ifs <;> simp [Outcome.messages]
  | registrySync sync =>
    simp only [ElectionManager.handleMessage, ElectionManager.handleRegistrySync]
    split_ifs <;> simp_all [Outcome.messages]
  | registrySyncResponse response => simp [ElectionManager.handleMessage, Outcome.messages]

namespace Wire
variable (json candidateHash)

inductive Party where
  | left | right
  deriving DecidableEq, Repr

abbrev Managers := Party → ElectionManager

/-- `registryData` is what the synchronization callback returns. -/
inductive Action where
  | startElection (party : Party)
  | requestSync (party : Party)
  | handleMessage (party : Party) (registryData : String) (data : Bytes)
  | handleSyncResponse (party : Party) (payload : Bytes)

def step (s : Managers) : Action → Option Managers
  | .startElection p => some (Function.update s p (s p).startElection.manager)
  | .requestSync _ => some s
  | .handleMessage p registryData data =>
    some (Function.update s p ((s p).handleBytes json candidateHash registryData data).manager)
  | .handleSyncResponse p payload =>
    some (Function.update s p ((s p).handleSyncBytes json payload).1)

/-- The messages a party emits in a step. -/
def emitted (s : Managers) : Action → List Message
  | .startElection p => (s p).startElection.messages
  | .requestSync p => [(s p).requestSync]
  | .handleMessage p registryData data =>
    ((s p).handleBytes json candidateHash registryData data).messages
  | .handleSyncResponse _ _ => []

/-- Whatever is emitted is accepted by the other party, now and later. -/
def Understood (s : Managers) (action : Action) : Prop :=
  ∀ message ∈ emitted json candidateHash s action, ∀ receiver : ElectionManager,
    Accepted json candidateHash receiver message

/-- No leader is asked for its data by a node that is not ahead of it. -/
def Unanswered (s : Managers) : Action → Prop
  | .handleMessage p _ data => ∀ sync, parse json data = .message (.registrySync sync) →
      (s p).status = .leader → (s p).term < sync.term
  | _ => True

def RoundTrips (s : Managers) (action : Action) : Prop :=
  ∀ message ∈ emitted json candidateHash s action, message.RoundTrips json

variable {json candidateHash}

theorem response_emitted_iff (s : Managers) (action : Action) :
    (∃ response, .registrySyncResponse response ∈ emitted json candidateHash s action) ↔
      ¬ Unanswered json s action := by
  cases action with
  | startElection p =>
    simp only [emitted, Unanswered, ElectionManager.startElection]
    split_ifs <;> simp [Outcome.messages, ElectionManager.broadcast]
  | requestSync p => simp [emitted, Unanswered, ElectionManager.requestSync]
  | handleSyncResponse p payload => simp [emitted, Unanswered]
  | handleMessage p registryData data =>
    simp only [emitted, Unanswered, ElectionManager.handleBytes]
    cases parse json data with
    | ignored => simp [Outcome.messages]
    | malformed => simp [Outcome.messages]
    | message message =>
      simp only [response_mem_handleMessage, Parsed.message.injEq]
      push Not
      rfl

theorem understood_iff {s : Managers} {action : Action}
    (trips : RoundTrips json candidateHash s action) :
    Understood json candidateHash s action ↔ Unanswered json s action := by
  have answered : (∃ response, .registrySyncResponse response ∈
      emitted json candidateHash s action) ↔ ¬ Unanswered json s action :=
    response_emitted_iff s action
  rw [← not_iff_not, ← answered]
  constructor
  · intro lost
    by_contra none
    refine lost fun message sent receiver => (accepted_iff receiver (trips message sent)).mpr ?_
    rintro response rfl
    exact none ⟨response, sent⟩
  · rintro ⟨response, sent⟩ understood
    exact (accepted_iff (s .left) (trips _ sent)).mp (understood _ sent (s .left)) response rfl

/-- In every run of two nodes each message is accepted by its receiver exactly
when no leader answers a synchronization request. -/
theorem understood_iff_unanswered (json : JsonText) (candidateHash : NodeID → UInt64 → UInt64)
    (s : Managers) (actions : List Action)
    (trips : Runs.Meets (step json candidateHash) (RoundTrips json candidateHash) s actions) :
    Runs.Meets (step json candidateHash) (Understood json candidateHash) s actions ↔
      Runs.Meets (step json candidateHash) (Unanswered json) s actions :=
  Runs.meets_congr understood_iff trips

/-- The text of a value whose names are plain ASCII. -/
def asciiText (value : Value) : Bytes := value.text.map fun c => c.toNat.toUInt8

/-- A library that knows some values. -/
def textOf (values : List Value) : JsonText where
  toVec := asciiText
  fromSlice bytes := values.find? fun value => asciiText value = bytes

def first : NodeID := List.Vector.replicate 32 1

def second : NodeID := List.Vector.replicate 32 2

/-- Two fresh nodes, of which the left one knows the right one. -/
def pair : Managers
  | .left => (ElectionManager.new first "first").addKnownNode ⟨second, "second", "10.0.0.2:9880"⟩
  | .right => .new second "second"

def ballot : Message := .electionVote ⟨second, first, 1, true⟩

def request : Message := .registrySync ⟨second, "second", 0⟩

/-- What is on the wire when the left node is elected and the right node asks it
for its data. -/
def onWire : List Message :=
  [.electionRequest ⟨first, "first", 1⟩, ballot, .electionResult ⟨first, "first", 1⟩, request,
    .registrySyncResponse ⟨first, "first", 1, "data"⟩]

def exchanged : JsonText := textOf (onWire.map Message.value)

def electionRun : List Action :=
  [.startElection .left, .handleMessage .left "" (ballot.encode exchanged), .requestSync .right]

def syncRun : List Action :=
  electionRun ++ [.handleMessage .left "data" (request.encode exchanged)]

def noHash : NodeID → UInt64 → UInt64 := fun _ _ => 0

/-- Values with different texts are read back. -/
theorem textOf_reads {values : List Value} (distinct : (values.map asciiText).Nodup)
    (member : value ∈ values) : (textOf values).fromSlice (asciiText value) = some value := by
  cases found : (textOf values).fromSlice (asciiText value) with
  | none =>
    have missed := List.find?_eq_none.mp found value member
    simp at missed
  | some other =>
    have same : asciiText other = asciiText value := by
      simpa using List.find?_some found
    rw [List.inj_on_of_nodup_map distinct (List.mem_of_find?_eq_some found) member same]

theorem exchanged_roundTrips : ∀ message ∈ onWire, message.RoundTrips exchanged := by
  have distinct : ((onWire.map Message.value).map asciiText).Nodup := by decide
  intro message member
  exact textOf_reads distinct (List.mem_map_of_mem member)

theorem ballot_handled (m : ElectionManager) (registryData : String) :
    m.handleBytes exchanged noHash registryData (ballot.encode exchanged) =
      m.handleMessage noHash registryData ballot := by
  have trips := exchanged_roundTrips ballot (by decide)
  rw [ElectionManager.handleBytes, parse_encode trips]
  rfl

theorem request_handled (m : ElectionManager) (registryData : String) :
    m.handleBytes exchanged noHash registryData (request.encode exchanged) =
      m.handleMessage noHash registryData request := by
  have trips := exchanged_roundTrips request (by decide)
  rw [ElectionManager.handleBytes, parse_encode trips]
  rfl

/-- The left node after the vote of the right one. -/
def elected : Outcome := (pair .left).startElection.manager.handleMessage noHash "" ballot

/-- The two nodes after the election. -/
def afterElection : Managers :=
  Function.update (Function.update pair .left (pair .left).startElection.manager) .left
    elected.manager

theorem electionRun_exec :
    Runs.exec (step exchanged noHash) pair electionRun = some afterElection := by
  simp only [electionRun, Runs.exec, step, ballot_handled, Option.bind_some]
  rfl

theorem electionRun_roundTrips :
    Runs.Meets (step exchanged noHash) (RoundTrips exchanged noHash) pair electionRun := by
  have started : ∀ message ∈ (pair .left).startElection.messages, message ∈ onWire := by decide
  have won : ∀ message ∈ elected.messages, message ∈ onWire := by decide
  have asked : ∀ message ∈ [(pair .right).requestSync], message ∈ onWire := by decide
  simp only [electionRun, Runs.Meets, step, Option.some.injEq, forall_eq', RoundTrips, emitted,
    ballot_handled, and_true]
  exact ⟨fun message sent => exchanged_roundTrips message (started message sent),
    fun message sent => exchanged_roundTrips message (won message sent),
    fun message sent => exchanged_roundTrips message (asked message sent)⟩

theorem election_understood :
    Runs.Meets (step exchanged noHash) (Understood exchanged noHash) pair electionRun := by
  apply (understood_iff_unanswered exchanged noHash pair electionRun electionRun_roundTrips).mpr
  have parsed := parse_encode (exchanged_roundTrips ballot (by decide))
  simp only [electionRun, Runs.Meets, step, Option.some.injEq, forall_eq', Unanswered, parsed]
  simp [Message.received, ballot]

theorem reply_emitted : emitted exchanged noHash afterElection
    (.handleMessage .left "data" (request.encode exchanged)) =
      [.registrySyncResponse ⟨first, "first", 1, "data"⟩] := by
  rw [emitted, request_handled]
  decide

/-- A leader's answer to a synchronization request is an error for the node that
asked, although every text is read back as it was written. -/
theorem reply_not_understood :
    Runs.Meets (step exchanged noHash) (RoundTrips exchanged noHash) pair syncRun ∧
      ¬ Runs.Meets (step exchanged noHash) (Understood exchanged noHash) pair syncRun := by
  have trips := exchanged_roundTrips (.registrySyncResponse ⟨first, "first", 1, "data"⟩) (by decide)
  rw [syncRun, Runs.meets_append electionRun_exec, Runs.meets_append electionRun_exec]
  simp only [Runs.Meets, RoundTrips, Understood, reply_emitted, List.forall_mem_singleton]
  constructor
  · exact ⟨electionRun_roundTrips, trips, fun _ _ => trivial⟩
  · rintro ⟨-, understood, -⟩
    exact (accepted_iff elected.manager trips).mp (understood elected.manager) _ rfl

end Wire

end LanLink.Election
