import LanLink.Core.Hex
import LanLink.Core.Maps
import LanLink.Core.Runs
import LanLink.Registry.ElectionWire

/-! The server of the registry: names with their entries, and the reverse map from
node ids to names. Writers change the two maps in two critical sections, one after
the other, and then save the data. No thread panics while it holds a lock, so
locks are never poisoned. -/
namespace LanLink.Center
open Words Json Maps Runs
open LanLink.Election (NodeID JsonText)

def defaultCacheTtl : UInt64 := 60

inductive RegistryMessageType where
  | register | registerAck | lookup | lookupResponse | reverseLookup | reverseLookupResponse
  | listNodes | listNodesResponse
  deriving DecidableEq, Repr

def RegistryMessageType.fromU8 (b : UInt8) : Option RegistryMessageType :=
  if b = 0x01 then some .register
  else if b = 0x02 then some .registerAck
  else if b = 0x03 then some .lookup
  else if b = 0x04 then some .lookupResponse
  else if b = 0x05 then some .reverseLookup
  else if b = 0x06 then some .reverseLookupResponse
  else if b = 0x07 then some .listNodes
  else if b = 0x08 then some .listNodesResponse
  else none

def RegistryMessageType.toU8 : RegistryMessageType → UInt8
  | .register => 0x01
  | .registerAck => 0x02
  | .lookup => 0x03
  | .lookupResponse => 0x04
  | .reverseLookup => 0x05
  | .reverseLookupResponse => 0x06
  | .listNodes => 0x07
  | .listNodesResponse => 0x08

inductive RegistryError where
  | alreadyRegistered (name : String)
  | notFound (name : String)
  | ioError (msg : String)
  | serializeError (msg : String)
  deriving DecidableEq

def RegistryError.text : RegistryError → String
  | .alreadyRegistered name => s!"name '{name}' is already registered"
  | .notFound name => s!"name '{name}' not found"
  | .ioError msg => s!"io error: {msg}"
  | .serializeError msg => s!"serialize error: {msg}"

structure RegistryEntry where
  name : String
  nodeId : NodeID
  registeredAt : UInt64
  lastSeen : UInt64
  ttl : UInt64
  deriving DecidableEq

def RegistryEntry.new (name : String) (nodeId : NodeID) (now : UInt64) : RegistryEntry :=
  ⟨name, nodeId, now, now, defaultCacheTtl⟩

def RegistryEntry.value (entry : RegistryEntry) : Value := .object
  [("name", .string entry.name), ("node_id", ofVector entry.nodeId),
    ("registered_at", ofU64 entry.registeredAt), ("last_seen", ofU64 entry.lastSeen),
    ("ttl", ofU64 entry.ttl)]

def registryEntryOf (value : Value) : Option RegistryEntry := do
  match ← record ["name", "node_id", "registered_at", "last_seen", "ttl"] value with
  | [name, id, registered, seen, ttl] =>
    return ⟨← asString name, ← asVector 32 id, ← asU64 registered, ← asU64 seen, ← asU64 ttl⟩
  | _ => none

def nodeIdToHex (nodeId : NodeID) : String := .ofList (Hex.encode nodeId.toList)

def nodeIdFromHex (text : String) : Option NodeID := do
  let bytes ← Hex.decode text.toList
  if fits : bytes.length = 32 then some ⟨bytes, fits⟩ else none

/-- The data of the file; ids are keys of a JSON object and so written in hexadecimal. -/
structure RegistryData where
  names : Map String RegistryEntry
  reverse : Map String String

def RegistryData.value (data : RegistryData) : Value := .object
  [("names", ofFields RegistryEntry.value (pairs data.names)),
    ("reverse", ofFields .string (pairs data.reverse))]

def registryDataOf (value : Value) : Option RegistryData := do
  match ← record ["names", "reverse"] value with
  | [names, reverse] =>
    return ⟨insertAll ∅ (← asFields registryEntryOf names),
      insertAll ∅ (← asFields asString reverse)⟩
  | _ => none

/-- The library that writes and reads the text of a value, also in its indented form;
`error` is its message about a text that holds no registry data. -/
structure SerdeJson extends JsonText where
  toStringPretty : Value → String
  fromStr : String → Option Value
  error : String → String

/-- `file` is the content of the file of the server's path, if it exists. -/
structure RegistryServer where
  names : Map String RegistryEntry
  reverse : Map NodeID String
  dirty : Bool
  file : Option String

def RegistryServer.new (file : Option String) : RegistryServer := ⟨∅, ∅, false, file⟩

def isWhitespace (c : Char) : Bool :=
  let n := c.toNat
  (0x09 ≤ n && n ≤ 0x0d) || n == 0x20 || n == 0x85 || n == 0xa0 || n == 0x1680 ||
    (0x2000 ≤ n && n ≤ 0x200a) || n == 0x2028 || n == 0x2029 || n == 0x202f || n == 0x205f ||
    n == 0x3000

def registerPayloadOf (value : Value) : Option (String × NodeID) := do
  match ← record ["name", "node_id"] value with
  | [name, id] => return (← asString name, ← asVector 32 id)
  | _ => none

def lookupPayloadOf (value : Value) : Option String := do
  match ← record ["name"] value with
  | [name] => asString name
  | _ => none

def reverseLookupPayloadOf (value : Value) : Option NodeID := do
  match ← record ["node_id"] value with
  | [id] => asVector 32 id
  | _ => none

def ackValue (success : Bool) (message : String) : Value :=
  .object [("success", .bool success), ("message", .string message)]

/-- The answer to both lookups. -/
def foundValue (key : String) (found : Option α) (write : α → Value) : Value :=
  .object [("found", .bool found.isSome), (key, (found.map write).getD .null)]

def nodesValue (entries : List RegistryEntry) : Value :=
  let nodes := entries.map fun entry => .object
    [("name", .string entry.name), ("node_id", ofVector entry.nodeId),
      ("registered_at", ofU64 entry.registeredAt), ("last_seen", ofU64 entry.lastSeen)]
  .object [("nodes", .array nodes), ("count", .number nodes.length)]

namespace RegistryServer

/-- The data that is saved. -/
def data (s : RegistryServer) : RegistryData :=
  ⟨s.names, insertAll ∅ ((pairs s.reverse).map fun entry => (nodeIdToHex entry.1, entry.2))⟩

def lookup (s : RegistryServer) (name : String) : Option NodeID :=
  (s.names.lookup name).map (·.nodeId)

def reverseLookup (s : RegistryServer) (nodeId : NodeID) : Option String :=
  s.reverse.lookup nodeId

def listNodes (s : RegistryServer) : List RegistryEntry := (pairs s.names).map (·.2)

section
variable (json : SerdeJson)

/-- `fault` is the error of a file that cannot be read. The names are replaced; the
entries of the reverse map are added to those that are there. -/
def loadFromFile (s : RegistryServer) (fault : Option String) :
    Except RegistryError Unit × RegistryServer :=
  match s.file with
  | none => (.ok (), s)
  | some text =>
    match fault with
    | some msg => (.error (.ioError msg), s)
    | none =>
      if text.toList.all isWhitespace then (.ok (), s)
      else
        match (json.fromStr text).bind registryDataOf with
        | none => (.error (.serializeError (json.error text)), s)
        | some data =>
          let entries := (pairs data.reverse).filterMap fun entry =>
            (nodeIdFromHex entry.1).map fun nodeId => (nodeId, entry.2)
          (.ok (), { s with names := data.names, reverse := insertAll s.reverse entries })

/-- `fault` is the error of a file, or of its directory, that cannot be written. -/
def saveToFile (s : RegistryServer) (fault : Option String) :
    Except RegistryError Unit × RegistryServer :=
  match fault with
  | some msg => (.error (.ioError msg), s)
  | none => (.ok (), { s with file := some (json.toStringPretty s.data.value), dirty := false })

/-- An error is only logged. -/
def saveIfDirty (s : RegistryServer) (fault : Option String) : RegistryServer :=
  if s.dirty then (s.saveToFile json fault).2 else s

/-- The last part of every writer. -/
def persist (s : RegistryServer) (fault : Option String) : RegistryServer :=
  { s with dirty := true }.saveIfDirty json fault

/-- The first critical section of `register`. -/
def registerNames (s : RegistryServer) (name : String) (nodeId : NodeID) (now : UInt64) :
    Except RegistryError RegistryServer :=
  if name ∈ s.names then .error (.alreadyRegistered name)
  else .ok { s with names := s.names.insert name (.new name nodeId now) }

/-- The first critical section of `upsert`, with the id that the name had. -/
def upsertNames (s : RegistryServer) (name : String) (nodeId : NodeID) (now : UInt64) :
    RegistryServer × Option NodeID :=
  ({ s with names := s.names.insert name (.new name nodeId now) }, s.lookup name)

/-- The second critical section; `register` has no old id to remove. -/
def updateReverse (s : RegistryServer) (old : Option NodeID) (name : String) (nodeId : NodeID) :
    RegistryServer :=
  let reverse := match old with
    | some oldId => s.reverse.erase oldId
    | none => s.reverse
  { s with reverse := reverse.insert nodeId name }

def register (s : RegistryServer) (name : String) (nodeId : NodeID) (now : UInt64)
    (fault : Option String) : Except RegistryError Unit × RegistryServer :=
  match s.registerNames name nodeId now with
  | .error e => (.error e, s)
  | .ok s => (.ok (), (s.updateReverse none name nodeId).persist json fault)

def upsert (s : RegistryServer) (name : String) (nodeId : NodeID) (now : UInt64)
    (fault : Option String) : Except RegistryError Unit × RegistryServer :=
  let (s, old) := s.upsertNames name nodeId now
  (.ok (), (s.updateReverse old name nodeId).persist json fault)

def updateHeartbeat (s : RegistryServer) (name : String) (now : UInt64) (fault : Option String) :
    Except RegistryError Unit × RegistryServer :=
  match s.names.lookup name with
  | none => (.error (.notFound name), s)
  | some entry =>
    let names := s.names.insert name { entry with lastSeen := now }
    (.ok (), { s with names }.persist json fault)

def respond (type : RegistryMessageType) (value : Value) : Bytes := type.toU8 :: json.toVec value

/-- A request that is unknown or cannot be read is not answered, and neither is a
response. -/
def processMessage (s : RegistryServer) (payload : Bytes) (now : UInt64) (fault : Option String) :
    Option Bytes × RegistryServer :=
  match payload with
  | [] => (none, s)
  | tag :: rest =>
    match RegistryMessageType.fromU8 tag with
    | none => (none, s)
    | some .register =>
      match (json.fromSlice rest).bind registerPayloadOf with
      | none => (none, s)
      | some (name, nodeId) =>
        let done := s.register json name nodeId now fault
        let ack := match done.1 with
          | .ok () => ackValue true s!"registered '{name}'"
          | .error e => ackValue false e.text
        (some (respond json .registerAck ack), done.2)
    | some .lookup =>
      match (json.fromSlice rest).bind lookupPayloadOf with
      | none => (none, s)
      | some name =>
        (some (respond json .lookupResponse (foundValue "node_id" (s.lookup name) ofVector)), s)
    | some .reverseLookup =>
      match (json.fromSlice rest).bind reverseLookupPayloadOf with
      | none => (none, s)
      | some nodeId =>
        (some (respond json .reverseLookupResponse
          (foundValue "name" (s.reverseLookup nodeId) .string)), s)
    | some .listNodes => (some (respond json .listNodesResponse (nodesValue s.listNodes)), s)
    | some .registerAck | some .lookupResponse | some .reverseLookupResponse
    | some .listNodesResponse => (none, s)

end

end RegistryServer

end LanLink.Center
