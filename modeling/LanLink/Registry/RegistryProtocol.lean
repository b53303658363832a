import LanLink.Registry.CenterConsistency

/-! The messages between the registry and its clients. What the answers say is told from a book:
the entries in the order in which their names were registered. -/
namespace LanLink.Center
open Words Json Maps
open LanLink.Election (NodeID)

/-- What the requests of a client hold. -/
inductive Request where
  | register (name : String) (nodeId : NodeID)
  | lookup (name : String)
  | reverseLookup (nodeId : NodeID)
  | listNodes

structure NodeInfo where
  name : String
  nodeId : NodeID
  registeredAt : UInt64
  lastSeen : UInt64
  deriving DecidableEq

inductive Reply where
  | registerAck (success : Bool) (message : String)
  | lookupResponse (found : Bool) (nodeId : Option NodeID)
  | reverseLookupResponse (found : Bool) (name : Option String)
  | listNodesResponse (nodes : List NodeInfo) (count : UInt64)
  deriving DecidableEq

def registerAckOf (value : Value) : Option Reply := do
  match ← record ["success", "message"] value with
  | [success, message] => return .registerAck (← asBool success) (← asString message)
  | _ => none

def asOption (read : Value → Option α) : Value → Option (Option α)
  | .null => some none
  | value => (read value).map some

/-- An optional field may be missing. -/
def optionalField (fields : List (String × Value)) (name : String) : Option Value :=
  match fields.filter fun entry => entry.1 = name with
  | [] => some .null
  | [entry] => some entry.2
  | _ => none

def foundOf (key : String) (read : Value → Option α) : Value → Option (Bool × Option α)
  | .object fields => do
    let found ← asBool (← field fields "found")
    return (found, ← asOption read (← optionalField fields key))
  | .array [found, value] => return (← asBool found, ← asOption read value)
  | _ => none

def nodeInfoOf (value : Value) : Option NodeInfo := do
  match ← record ["name", "node_id", "registered_at", "last_seen"] value with
  | [name, id, registered, seen] =>
    return ⟨← asString name, ← asVector 32 id, ← asU64 registered, ← asU64 seen⟩
  | _ => none

def asArray (read : Value → Option α) : Value → Option (List α)
  | .array values => values.mapM read
  | _ => none

def listNodesResponseOf (value : Value) : Option Reply := do
  match ← record ["nodes", "count"] value with
  | [nodes, count] => return .listNodesResponse (← asArray nodeInfoOf nodes) (← asU64 count)
  | _ => none

def Request.messageType : Request → RegistryMessageType
  | .register .. => .register
  | .lookup _ => .lookup
  | .reverseLookup _ => .reverseLookup
  | .listNodes => .listNodes

def Request.value : Request → Value
  | .register name nodeId => .object [("name", .string name), ("node_id", ofVector nodeId)]
  | .lookup name => .object [("name", .string name)]
  | .reverseLookup nodeId => .object [("node_id", ofVector nodeId)]
  | .listNodes => .null

def RegistryEntry.info (entry : RegistryEntry) : NodeInfo :=
  ⟨entry.name, entry.nodeId, entry.registeredAt, entry.lastSeen⟩

section
variable (json : SerdeJson)

/-- A list of the nodes is asked for by the type alone. -/
def Request.payload (request : Request) : Bytes :=
  match request with
  | .listNodes => [request.messageType.toU8]
  | _ => request.messageType.toU8 :: json.toVec request.value

def parseResponse (type : RegistryMessageType) (read : Value → Option α) : Bytes → Option α
  | [] => none
  | tag :: rest => if tag ≠ type.toU8 then none else (json.fromSlice rest).bind read

def parseRegisterAck : Bytes → Option Reply := parseResponse json .registerAck registerAckOf

def parseLookupResponse : Bytes → Option Reply :=
  parseResponse json .lookupResponse fun value =>
    (foundOf "node_id" (asVector 32) value).map fun (found, id) => .lookupResponse found id

def parseReverseLookupResponse : Bytes → Option Reply :=
  parseResponse json .reverseLookupResponse fun value =>
    (foundOf "name" asString value).map fun (found, name) => .reverseLookupResponse found name

def parseListNodesResponse : Bytes → Option Reply :=
  parseResponse json .listNodesResponse listNodesResponseOf

/-- The parser of the answer to a request. -/
def Request.parse : Request → Bytes → Option Reply
  | .register .. => parseRegisterAck json
  | .lookup _ => parseLookupResponse json
  | .reverseLookup _ => parseReverseLookupResponse json
  | .listNodes => parseListNodesResponse json

end

/-- A request and when it is handled, with the fault of the file that is saved. -/
structure Exchange where
  request : Request
  now : UInt64
  fault : Option String

/-- What the client makes of the server's answer. -/
def RegistryServer.ask (json : SerdeJson) (s : RegistryServer) (exchange : Exchange) :
    Option Reply × RegistryServer :=
  let (response, next) :=
    s.processMessage json (exchange.request.payload json) exchange.now exchange.fault
  (response.bind (exchange.request.parse json), next)

/-- The entries of a book: only a name that is new is registered. -/
def enter (book : List RegistryEntry) (exchange : Exchange) : List RegistryEntry :=
  match exchange.request with
  | .register name nodeId =>
    if book.any (·.name = name) then book else book ++ [.new name nodeId exchange.now]
  | _ => book

/-- What a book answers; the nodes are listed in any order. -/
def Answers (book : List RegistryEntry) : Request → Reply → Prop
  | .register name _, reply =>
    reply = if book.any (·.name = name) then
      .registerAck false (RegistryError.alreadyRegistered name).text
    else .registerAck true s!"registered '{name}'"
  | .lookup name, reply =>
    let id := (book.find? (·.name = name)).map (·.nodeId)
    reply = .lookupResponse id.isSome id
  | .reverseLookup id, reply =>
    let name := (book.reverse.find? (·.nodeId = id)).map (·.name)
    reply = .reverseLookupResponse name.isSome name
  | .listNodes, reply =>
    ∃ nodes, nodes.Perm (book.map RegistryEntry.info) ∧
      reply = .listNodesResponse nodes (.ofNat book.length)

/-- The library reads back the text of the value. -/
def Carried (json : SerdeJson) (value : Value) : Prop := json.fromSlice (json.toVec value) = some value

def NodeInfo.value (node : NodeInfo) : Value := .object
  [("name", .string node.name), ("node_id", ofVector node.nodeId),
    ("registered_at", ofU64 node.registeredAt), ("last_seen", ofU64 node.lastSeen)]

/-- The value that the server writes for a reply. -/
def Reply.value : Reply → Value
  | .registerAck success message => ackValue success message
  | .lookupResponse _ nodeId => foundValue "node_id" nodeId ofVector
  | .reverseLookupResponse _ name => foundValue "name" name .string
  | .listNodesResponse nodes _ => .object
      [("nodes", .array (nodes.map NodeInfo.value)), ("count", .number nodes.length)]

@[simp] theorem RegistryMessageType.fromU8_toU8 (type : RegistryMessageType) :
    RegistryMessageType.fromU8 type.toU8 = some type := by
  cases type <;> rfl

theorem parseResponse_respond {json : SerdeJson} {value : Value} (carried : Carried json value)
    (type : RegistryMessageType) (read : Value → Option α) :
    parseResponse json type read (RegistryServer.respond json type value) = read value := by
  rw [RegistryServer.respond, parseResponse, if_neg (not_not.mpr rfl), carried, Option.bind_some]

theorem registerAckOf_value (success : Bool) (message : String) :
    registerAckOf (ackValue success message) = some (.registerAck success message) := by
  simp [registerAckOf, ackValue, record, field]

theorem foundOf_value {read : Value → Option α} {write : α → Value} {found : Option α}
    (reads : ∀ a, read (write a) = some a) (visible : ∀ a, write a ≠ .null)
    (other : key ≠ "found") : foundOf key read (foundValue key found write) = some (found.isSome, found) := by
  cases found with
  | none => simp [foundOf, foundValue, field, optionalField, other, other.symm, asOption]
  | some a =>
    have present : asOption read (write a) = some (some a) := by
      rw [asOption]
      · rw [reads]
        rfl
      · exact visible a
    simp [foundOf, foundValue, field, optionalField, other, other.symm, present]

theorem asArray_map {read : Value → Option β} {write : α → Value} {f : α → β}
    (reads : ∀ a, read (write a) = some (f a)) (items : List α) :
    asArray read (.array (items.map write)) = some (items.map f) := by
  rw [asArray]
  induction items with
  | nil => rfl
  | cons a rest ih => simp [reads, ih]

theorem nodeInfoOf_value (node : NodeInfo) : nodeInfoOf node.value = some node := by
  simp [nodeInfoOf, NodeInfo.value, record, field]

theorem nodesValue_info (entries : List RegistryEntry) : nodesValue entries = .object
    [("nodes", .array (entries.map (NodeInfo.value ∘ RegistryEntry.info))),
      ("count", .number entries.length)] := by
  rw [nodesValue, List.length_map]
  rfl

theorem asU64_number (small : n < 2 ^ 64) : asU64 (.number (n : Nat)) = some (.ofNat n) := by
  rw [asU64, asNat_number small]
  rfl

theorem listNodesResponseOf_value (nodes : List NodeInfo) (few : nodes.length < 2 ^ 64) :
    listNodesResponseOf (Reply.listNodesResponse nodes count).value =
      some (.listNodesResponse nodes (.ofNat nodes.length)) := by
  have read : asArray nodeInfoOf (.array (nodes.map NodeInfo.value)) = some nodes := by
    rw [asArray_map (f := id) nodeInfoOf_value nodes, List.map_id]
  simp [listNodesResponseOf, Reply.value, record, field, read, asU64_number few]

/-- The server's maps hold the entries of the book. The last name that was registered for an id
is its reverse entry. -/
structure Holds (s : RegistryServer) (book : List RegistryEntry) : Prop where
  names : ∀ name, s.names.lookup name = book.find? (·.name = name)
  listed : s.listNodes.Perm book
  reverse : ∀ id, s.reverse.lookup id = (book.reverse.find? (·.nodeId = id)).map (·.name)

theorem new_holds (file : Option String) : Holds (.new file) [] := ⟨fun _ => rfl, .nil, fun _ => rfl⟩

section
variable {s : RegistryServer} {book : List RegistryEntry} {json : SerdeJson}

theorem Holds.named (holds : Holds s book) (name : String) :
    name ∈ s.names ↔ book.any (·.name = name) = true := by
  rw [← AList.lookup_isSome, holds.names, List.find?_isSome, List.any_eq_true]

/-- Whatever is saved. -/
theorem Holds.persist (holds : Holds s book) (fault : Option String) :
    Holds (s.persist json fault) book := by
  obtain ⟨names, reverse⟩ : (s.persist json fault).names = s.names ∧
      (s.persist json fault).reverse = s.reverse := s.persist_maps fault
  refine ⟨fun name => ?_, ?_, fun id => ?_⟩
  · rw [names]
    exact holds.names name
  · rw [RegistryServer.listNodes, names]
    exact holds.listed
  · rw [reverse]
    exact holds.reverse id

theorem Holds.register (holds : Holds s book) (name : String) (nodeId : NodeID) (now : UInt64)
    (fault : Option String) :
    Holds (s.register json name nodeId now fault).2 (enter book ⟨.register name nodeId, now, fault⟩) := by
  rw [RegistryServer.register, RegistryServer.registerNames, enter]
  dsimp only
  by_cases taken : name ∈ s.names
  · rw [if_pos taken, if_pos ((holds.named name).mp taken)]
    exact holds
  · rw [if_neg taken, if_neg (mt (holds.named name).mpr taken)]
    apply Holds.persist
    have unknown : book.find? (·.name = name) = none := by
      rw [← holds.names]
      exact AList.lookup_eq_none.mpr taken
    refine ⟨fun other => ?_, ?_, fun id => ?_⟩
    · rw [RegistryServer.updateReverse, List.find?_append]
      by_cases same : other = name
      · subst same
        rw [AList.lookup_insert, unknown]
        simp [RegistryEntry.new]
      · rw [AList.lookup_insert_ne same, holds.names]
        simp [RegistryEntry.new, Ne.symm same]
    · rw [RegistryServer.listNodes, RegistryServer.updateReverse, pairs,
        AList.entries_insert_of_notMem taken]
      exact (List.Perm.cons _ holds.listed).trans (List.perm_append_singleton _ _).symm
    · rw [RegistryServer.updateReverse, List.reverse_append, List.reverse_singleton,
        List.singleton_append, List.find?_cons]
      by_cases same : id = nodeId
      · subst same
        simp [RegistryEntry.new]
      · simp [RegistryEntry.new, AList.lookup_insert_ne same, Ne.symm same, holds.reverse]

/-- The text of a request is read back; a list of the nodes has none. -/
def Request.Readable (json : SerdeJson) : Request → Prop
  | .listNodes => True
  | request => Carried json request.value

theorem registerPayloadOf_value (name : String) (nodeId : NodeID) :
    registerPayloadOf (Request.register name nodeId).value = some (name, nodeId) := by
  simp [registerPayloadOf, Request.value, record, field]

theorem lookupPayloadOf_value (name : String) :
    lookupPayloadOf (Request.lookup name).value = some name := by
  simp [lookupPayloadOf, Request.value, record, field]

theorem reverseLookupPayloadOf_value (nodeId : NodeID) :
    reverseLookupPayloadOf (Request.reverseLookup nodeId).value = some nodeId := by
  simp [reverseLookupPayloadOf, Request.value, record, field]

def Request.responseType : Request → RegistryMessageType
  | .register .. => .registerAck
  | .lookup _ => .lookupResponse
  | .reverseLookup _ => .reverseLookupResponse
  | .listNodes => .listNodesResponse

/-- The server answers with the bytes of what the book says. -/
theorem Holds.respond (holds : Holds s book) (request : Request) (now : UInt64)
    (fault : Option String) (readable : request.Readable json) : ∃ reply next,
    s.processMessage json (request.payload json) now fault =
      (some (RegistryServer.respond json request.responseType reply.value), next) ∧
    Answers book request reply ∧ Holds next (enter book ⟨request, now, fault⟩) := by
  cases request with
  | register name nodeId =>
    have read : json.fromSlice (json.toVec (Request.register name nodeId).value) = _ := readable
    have taken := holds.named name
    have kept : Holds (s.register json name nodeId now fault).2
        (enter book ⟨.register name nodeId, now, fault⟩) := holds.register name nodeId now fault
    simp only [RegistryServer.processMessage, Request.payload, Request.messageType,
      RegistryMessageType.fromU8_toU8, read, Option.bind_some, registerPayloadOf_value]
    by_cases known : name ∈ s.names
    · refine ⟨.registerAck false (RegistryError.alreadyRegistered name).text, _, ?_,
        (if_pos (taken.mp known)).symm, kept⟩
      rw [RegistryServer.register, RegistryServer.registerNames, if_pos known]
      rfl
    · refine ⟨.registerAck true s!"registered '{name}'", _, ?_,
        (if_neg (mt taken.mpr known)).symm, kept⟩
      rw [RegistryServer.register, RegistryServer.registerNames, if_neg known]
      rfl
  | lookup name =>
    have read : json.fromSlice (json.toVec (Request.lookup name).value) = _ := readable
    simp only [RegistryServer.processMessage, Request.payload, Request.messageType,
      RegistryMessageType.fromU8_toU8, read, Option.bind_some, lookupPayloadOf_value,
      RegistryServer.lookup, holds.names]
    exact ⟨.lookupResponse _ _, s, rfl, rfl, holds⟩
  | reverseLookup nodeId =>
    have read : json.fromSlice (json.toVec (Request.reverseLookup nodeId).value) = _ := readable
    simp only [RegistryServer.processMessage, Request.payload, Request.messageType,
      RegistryMessageType.fromU8_toU8, read, Option.bind_some, reverseLookupPayloadOf_value,
      RegistryServer.reverseLookup, holds.reverse]
    exact ⟨.reverseLookupResponse _ _, s, rfl, rfl, holds⟩
  | listNodes =>
    refine ⟨.listNodesResponse (s.listNodes.map RegistryEntry.info) (.ofNat book.length), s, ?_,
      ⟨_, holds.listed.map _, rfl⟩, holds⟩
    rw [Reply.value, List.length_map, List.map_map]
    exact congrArg (fun value => (some (RegistryServer.respond json .listNodesResponse value), s))
      (nodesValue_info s.listNodes)

theorem Request.parse_respond {request : Request} {reply : Reply}
    (answers : Answers book request reply) (few : book.length < 2 ^ 64)
    (carried : Carried json reply.value) :
    request.parse json (RegistryServer.respond json request.responseType reply.value) = some reply := by
  cases request with
  | register name nodeId =>
    obtain ⟨success, message, rfl⟩ : ∃ success message, reply = .registerAck success message := by
      rw [answers]
      split
      · exact ⟨_, _, rfl⟩
      · exact ⟨_, _, rfl⟩
    rw [Request.parse, parseRegisterAck, Request.responseType, parseResponse_respond carried]
    exact registerAckOf_value success message
  | lookup name =>
    cases answers
    rw [Request.parse, parseLookupResponse, Request.responseType, parseResponse_respond carried,
      Reply.value, foundOf_value asVector_ofVector (fun _ => nofun) (by decide)]
    rfl
  | reverseLookup nodeId =>
    cases answers
    rw [Request.parse, parseReverseLookupResponse, Request.responseType,
      parseResponse_respond carried, Reply.value,
      foundOf_value asString_string (fun _ => nofun) (by decide)]
    rfl
  | listNodes =>
    obtain ⟨nodes, listed, rfl⟩ := answers
    have length : nodes.length = book.length := by rw [listed.length_eq, List.length_map]
    rw [Request.parse, parseListNodesResponse, Request.responseType, parseResponse_respond carried,
      ← length]
    exact listNodesResponseOf_value nodes (length ▸ few)

theorem Holds.next (holds : Holds s book) (exchange : Exchange)
    (readable : exchange.request.Readable json) :
    Holds (s.ask json exchange).2 (enter book exchange) := by
  obtain ⟨reply, next, processed, -, kept⟩ :=
    holds.respond exchange.request exchange.now exchange.fault readable
  rw [RegistryServer.ask, processed]
  exact kept

end

/-- The server after some exchanges, and the book of them. -/
def RegistryServer.after (json : SerdeJson) (file : Option String) (earlier : List Exchange) :
    RegistryServer := earlier.foldl (fun s exchange => (s.ask json exchange).2) (.new file)

def bookOf (earlier : List Exchange) : List RegistryEntry := earlier.foldl enter []

theorem after_holds (json : SerdeJson) (file : Option String) (earlier : List Exchange)
    (readable : ∀ exchange ∈ earlier, exchange.request.Readable json) :
    Holds (.after json file earlier) (bookOf earlier) := by
  have run {s : RegistryServer} {book : List RegistryEntry} (holds : Holds s book) :
      Holds (earlier.foldl (fun s exchange => (s.ask json exchange).2) s) (earlier.foldl enter book) := by
    induction earlier generalizing s book with
    | nil => exact holds
    | cons exchange rest ih =>
      exact ih (fun other member => readable other (List.mem_cons_of_mem exchange member))
        (holds.next exchange (readable exchange List.mem_cons_self))
  exact run (new_holds file)

theorem enter_length (book : List RegistryEntry) (exchange : Exchange) :
    (enter book exchange).length ≤ book.length + 1 := by
  rw [enter]
  split
  · split
    · omega
    · simp
  · omega

theorem bookOf_length (earlier : List Exchange) : (bookOf earlier).length ≤ earlier.length := by
  have run (book : List RegistryEntry) :
      (earlier.foldl enter book).length ≤ book.length + earlier.length := by
    induction earlier generalizing book with
    | nil => exact Nat.le_refl _
    | cons exchange rest ih =>
      have first := enter_length book exchange
      have later := ih (enter book exchange)
      rw [List.foldl_cons, List.length_cons]
      omega
  simpa [bookOf] using run []

/-- Whatever was asked before, a client reads from the answer to its request what the book of the
registrations says. -/
theorem registry_served (json : SerdeJson) (file : Option String) (earlier : List Exchange)
    (exchange : Exchange) (few : earlier.length < 2 ^ 64)
    (readable : ∀ other ∈ exchange :: earlier, other.request.Readable json)
    (carried : ∀ reply, Answers (bookOf earlier) exchange.request reply → Carried json reply.value) :
    ∃ reply, ((RegistryServer.after json file earlier).ask json exchange).1 = some reply ∧
      Answers (bookOf earlier) exchange.request reply := by
  have holds := after_holds json file earlier fun other member =>
    readable other (List.mem_cons_of_mem exchange member)
  obtain ⟨reply, next, processed, answers, -⟩ := holds.respond exchange.request exchange.now
    exchange.fault (readable exchange List.mem_cons_self)
  refine ⟨reply, ?_, answers⟩
  rw [RegistryServer.ask, processed]
  exact Request.parse_respond answers (Nat.lt_of_le_of_lt (bookOf_length earlier) few)
    (carried reply answers)

def alphaRegistered : List Exchange := [⟨.register "alpha" (idOf 1), 5, none⟩]

def alphaLookup : Exchange := ⟨.lookup "alpha", 7, none⟩

def alphaFound : Reply := .lookupResponse true (some (idOf 1))

def alphaTexts : SerdeJson :=
  serdeOf [(Request.register "alpha" (idOf 1)).value, alphaLookup.request.value, alphaFound.value]

theorem registry_served_alpha : ∃ reply,
    ((RegistryServer.after alphaTexts none alphaRegistered).ask alphaTexts alphaLookup).1 =
      some reply ∧ Answers (bookOf alphaRegistered) alphaLookup.request reply := by
  refine registry_served alphaTexts none alphaRegistered alphaLookup (by decide) ?_ ?_
  · intro other member
    rcases List.mem_cons.mp member with rfl | earlier
    · exact (rfl : Carried alphaTexts alphaLookup.request.value)
    · rw [List.mem_singleton.mp earlier]
      exact (rfl : Carried alphaTexts (Request.register "alpha" (idOf 1)).value)
  · rintro reply rfl
    exact (rfl : Carried alphaTexts alphaFound.value)

end LanLink.Center
