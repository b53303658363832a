import LanLink.Vpn.DhtMessages
import LanLink.Vpn.Multihop

/-! Datagrams between the nodes of one network: the frames, the sender and the
receive loop. What the socket answers is an input; so is the table of nodes that
the sender finds after it waited for answers to its broadcast. -/
namespace LanLink.Vpn
open Words Maps

inductive AddressError where
  | invalidFormat (msg : String)
  | unknownNode (name : String)
  | resolveTimeout (name : String)
  | cacheExpired (name : String)
  deriving DecidableEq

def AddressError.text : AddressError → String
  | .invalidFormat msg => s!"invalid address format: {msg}"
  | .unknownNode name => s!"unknown node: {name}"
  | .resolveTimeout name => s!"resolve timeout for node: {name}"
  | .cacheExpired name => s!"cache expired for node: {name}"

structure ParsedAddress where
  name : String
  port : Option UInt16
  deriving DecidableEq

/-- The text before the first colon, and the text behind it if there is one. -/
def splitOnce (chars : List Char) : List Char × Option (List Char) :=
  match chars.dropWhile (· ≠ ':') with
  | [] => (chars, none)
  | _ :: rest => (chars.takeWhile (· ≠ ':'), some rest)

/-- A number of 16 bits; a plus sign may stand before the digits. -/
def parseU16 (chars : List Char) : Option UInt16 :=
  let digits := match chars with
    | '+' :: rest => rest
    | all => all
  if digits ≠ [] ∧ digits.all Char.isDigit ∧ Nat.ofDigitChars 10 digits 0 < 2 ^ 16 then
    some (Nat.ofDigitChars 10 digits 0).toUInt16
  else none

def ParsedAddress.parse (addr : String) : Except AddressError ParsedAddress :=
  let unexpected := AddressError.invalidFormat
    s!"expected node:<name> or node:<name>:<port>, got: {addr}"
  match splitOnce addr.toList with
  | (_, none) => .error unexpected
  | (scheme, some rest) =>
    if scheme ≠ "node".toList then .error unexpected
    else
      match splitOnce rest with
      | ([], _) => .error (.invalidFormat "node name cannot be empty")
      | (name, none) => .ok ⟨.ofList name, none⟩
      | (name, some portStr) =>
        match parseU16 portStr with
        | none => .error (.invalidFormat s!"invalid port number: {String.ofList portStr}")
        | some port =>
          if port = 0 then .error (.invalidFormat "port number cannot be zero")
          else .ok ⟨.ofList name, some port⟩

inductive UdpMessageType where
  | discover | discoverReply | data | heartbeat
  deriving DecidableEq, Repr

def UdpMessageType.fromU8 (b : UInt8) : Option UdpMessageType :=
  if b = 0x01 then some .discover
  else if b = 0x02 then some .discoverReply
  else if b = 0x03 then some .data
  else if b = 0x04 then some .heartbeat
  else none

def UdpMessageType.toU8 : UdpMessageType → UInt8
  | .discover => 0x01
  | .discoverReply => 0x02
  | .data => 0x03
  | .heartbeat => 0x04

@[simp] theorem UdpMessageType.fromU8_toU8 (type : UdpMessageType) :
    fromU8 type.toU8 = some type := by
  cases type <;> rfl

/-- The part that all frames share: the length of the name is cut to a byte. -/
def buildHeader (type : UdpMessageType) (name : String) (nodeId : NodeID) : Bytes :=
  type.toU8 :: (asBytes name).length.toUInt8 :: (asBytes name ++ nodeId.toList)

def buildDiscoverMsg (name : String) (nodeId : NodeID) : Bytes := buildHeader .discover name nodeId

def buildDiscoverReply (name : String) (nodeId : NodeID) : Bytes :=
  buildHeader .discoverReply name nodeId

/-- The length of the data is cut to two bytes. -/
def buildDataMsg (name : String) (nodeId : NodeID) (data : Bytes) : Bytes :=
  buildHeader .data name nodeId ++ (bigEndian 2 data.length ++ data)

def fromUtf8 (bytes : Bytes) : Option String := String.fromUTF8? ⟨bytes.toArray⟩

def parseUdpFrame (buf : Bytes) : Option (UdpMessageType × String × NodeID × Option Bytes) :=
  if buf.length < 2 + 32 then none
  else do
    let msgType ← UdpMessageType.fromU8 (← buf[0]?)
    let nameLen := (← buf[1]?).toNat
    if buf.length < 2 + nameLen + 32 then none
    else
      let name ← fromUtf8 ((buf.drop 2).take nameLen)
      let idStart := 2 + nameLen
      let nodeId := fill 32 (buf.drop idStart)
      if msgType = .data then
        let dataOffset := idStart + 32
        if buf.length < dataOffset + 2 then none
        else
          let dataLen := ofBigEndian ((buf.drop dataOffset).take 2)
          let dataStart := dataOffset + 2
          if buf.length < dataStart + dataLen then none
          else return (msgType, name, nodeId, some ((buf.drop dataStart).take dataLen))
      else return (msgType, name, nodeId, none)

inductive NodeStatus where
  | online | offline | connecting | error
  deriving DecidableEq, Repr

structure SocketAddr where
  ip : String
  port : UInt16
  deriving DecidableEq

structure LanNode where
  name : String
  id : NodeID
  addr : SocketAddr
  lastSeen : Nat
  status : NodeStatus

/-- `socket` says whether the port has been bound. -/
structure LanRouter where
  localName : String
  localId : NodeID
  port : UInt16
  nodes : Map String LanNode
  receivedData : List (String × Bytes)
  socket : Bool

def receiveBuffer : Nat := 4096

def LanRouter.recordNode (r : LanRouter) (name : String) (id : NodeID) (addr : SocketAddr)
    (now : Nat) : LanRouter :=
  if name ≠ r.localName then
    { r with nodes := r.nodes.insert name ⟨name, id, addr, now, .online⟩ }
  else r

/-- One round of the receive loop, with the replies it sends. A datagram is cut to the
size of the buffer; a frame that cannot be parsed is dropped. -/
def LanRouter.receive (r : LanRouter) (datagram : Bytes) (addr : SocketAddr) (now : Nat) :
    LanRouter × List (Bytes × SocketAddr) :=
  match parseUdpFrame (datagram.take receiveBuffer) with
  | none => (r, [])
  | some (.discover, name, id, _) =>
    (r.recordNode name id addr now, [(buildDiscoverReply r.localName r.localId, addr)])
  | some (.discoverReply, name, id, _) => (r.recordNode name id addr now, [])
  | some (.data, name, _, some data) =>
    ({ r with receivedData := r.receivedData ++ [(name, data)] }, [])
  | some (.data, _, _, none) => (r, [])
  | some (.heartbeat, name, _, _) =>
    match r.nodes.lookup name with
    | none => (r, [])
    | some node =>
      ({ r with nodes := r.nodes.insert name { node with lastSeen := now, status := .online } }, [])

/-- The answer of the socket to a datagram for an address: an error, or none. -/
abbrev SendTo := Bytes → String → Option String

/-- A broadcast that goes out is the datagram with its address. -/
def LanRouter.broadcastDiscover (r : LanRouter) (sendTo : SendTo) :
    Except RouterError (Bytes × String) :=
  if !r.socket then .error (.sendFailed "socket not initialized")
  else
    let msg := buildDiscoverMsg r.localName r.localId
    let broadcast := s!"255.255.255.255:{r.port}"
    match sendTo msg broadcast with
    | some e => .error (.sendFailed s!"broadcast failed: {e}")
    | none => .ok (msg, broadcast)

/-- The node of a name, with the datagrams sent to find it. -/
def LanRouter.locate (r : LanRouter) (name : String) (later : Map String LanNode)
    (sendTo : SendTo) : Except RouterError LanNode × List (Bytes × String) :=
  match r.nodes.lookup name with
  | some node => (.ok node, [])
  | none =>
    match r.broadcastDiscover sendTo with
    | .error e => (.error e, [])
    | .ok datagram =>
      match later.lookup name with
      | some node => (.ok node, [datagram])
      | none => (.error (.unreachable s!"node not found: {name}"), [datagram])

/-- The result of the call, and the datagrams that went out. -/
def LanRouter.send (r : LanRouter) (target : String) (data : Bytes) (later : Map String LanNode)
    (sendTo : SendTo) : Except RouterError Unit × List (Bytes × String) :=
  match ParsedAddress.parse target with
  | .error e => (.error (.invalidData e.text), [])
  | .ok parsed =>
    match r.locate parsed.name later sendTo with
    | (.error e, sent) => (.error e, sent)
    | (.ok node, sent) =>
      let targetPort := parsed.port.getD r.port
      let targetAddr := s!"{node.addr.ip}:{targetPort}"
      let msg := buildDataMsg r.localName r.localId data
      if !r.socket then (.error (.sendFailed "socket not initialized"), sent)
      else
        match sendTo msg targetAddr with
        | some e => (.error (.sendFailed s!"send to {targetAddr} failed: {e}"), sent)
        | none => (.ok (), sent ++ [(msg, targetAddr)])

theorem fromUtf8_asBytes (text : String) : fromUtf8 (asBytes text) = some text := by
  simp only [fromUtf8, asBytes, Array.toArray_toList]
  rw [String.fromUTF8?, dif_pos text.isValidUTF8]
  rfl

theorem asBytes_of_fromUtf8 (read : fromUtf8 bytes = some text) : asBytes text = bytes := by
  unfold fromUtf8 String.fromUTF8? at read
  split at read
  · cases read
    rfl
  · cases read

/-- The name in front of what the frame carries, for a name that fits its length byte. -/
theorem parseUdpFrame_header {name : String} (short : (asBytes name).length ≤ 255)
    (type : UdpMessageType) (id : NodeID) (rest : Bytes) :
    parseUdpFrame (buildHeader type name id ++ rest) =
      if type = .data then
        if rest.length < 2 then none
        else
          let dataLen := ofBigEndian (rest.take 2)
          if rest.length < 2 + dataLen then none
          else some (type, name, id, some ((rest.drop 2).take dataLen))
      else some (type, name, id, none) := by
  have byte : (asBytes name).length.toUInt8.toNat = (asBytes name).length :=
    Nat.mod_eq_of_lt (Nat.lt_succ_of_le short)
  have body : (buildHeader type name id ++ rest).drop 2 =
      asBytes name ++ (id.toList ++ rest) := by
    simp [buildHeader]
  have behind : (buildHeader type name id ++ rest).drop (2 + (asBytes name).length) =
      id.toList ++ rest := by
    rw [← List.drop_drop, body, List.drop_left]
  have tail : (buildHeader type name id ++ rest).drop (2 + (asBytes name).length + 32) = rest := by
    rw [← List.drop_drop, behind, drop_id]
  have total : (buildHeader type name id ++ rest).length =
      2 + (asBytes name).length + 32 + rest.length := by
    simp [buildHeader]
    omega
  have first : (buildHeader type name id ++ rest)[0]? = some type.toU8 := rfl
  have second : (buildHeader type name id ++ rest)[1]? = some (asBytes name).length.toUInt8 := rfl
  have long : ¬ 2 + (asBytes name).length + 32 + rest.length < 2 + 32 := by omega
  have named : ¬ 2 + (asBytes name).length + 32 + rest.length < 2 + (asBytes name).length + 32 := by
    omega
  have last : (buildHeader type name id ++ rest).drop (2 + (asBytes name).length + 32 + 2) =
      rest.drop 2 := by
    rw [← List.drop_drop, tail]
  have room (n : Nat) : 2 + (asBytes name).length + 32 + rest.length <
      2 + (asBytes name).length + 32 + 2 + n ↔ rest.length < 2 + n := by
    omega
  have word := room 0
  simp only [Nat.add_zero] at word
  simp only [parseUdpFrame, total, first, second, long, named, if_false, Option.bind_eq_bind,
    Option.bind_some, UdpMessageType.fromU8_toU8, byte, body, List.take_left, fromUtf8_asBytes,
    behind, fill_id, tail, last, room, word, Option.pure_def]

/-- What a parsed frame holds is no longer than its length byte allows and than the
frame itself. -/
theorem parseUdpFrame_sound {id : NodeID} {data : Option Bytes}
    (parsed : parseUdpFrame buf = some (type, name, id, data)) :
    (asBytes name).length ≤ 255 ∧
    ∀ bytes, data = some bytes → (asBytes name).length + 36 + bytes.length ≤ buf.length := by
  rw [parseUdpFrame] at parsed
  split at parsed
  · cases parsed
  · simp only [Option.bind_eq_bind, Option.bind_eq_some_iff] at parsed
    obtain ⟨tag, -, msgType, -, lengthByte, -, parsed⟩ := parsed
    split at parsed
    · cases parsed
    · rename_i named
      obtain ⟨text, read, parsed⟩ := Option.bind_eq_some_iff.mp parsed
      have range := lengthByte.toNat_lt
      have nameLength : (asBytes text).length = lengthByte.toNat := by
        rw [asBytes_of_fromUtf8 read, List.length_take, List.length_drop]
        omega
      split at parsed
      · split at parsed
        · cases parsed
        · split at parsed
          · cases parsed
          · rename_i enough
            cases parsed
            refine ⟨by omega, ?_⟩
            rintro bytes ⟨⟩
            simp only [List.length_take, List.length_drop]
            omega
      · cases parsed
        exact ⟨by omega, nofun⟩

theorem parseUdpFrame_discover_iff (type : UdpMessageType) (other : type ≠ .data) (name : String)
    (id : NodeID) : parseUdpFrame (buildHeader type name id) = some (type, name, id, none) ↔
      (asBytes name).length ≤ 255 := by
  constructor
  · intro parsed
    exact (parseUdpFrame_sound parsed).1
  · intro short
    have parsed := parseUdpFrame_header short type id []
    rwa [List.append_nil, if_neg other] at parsed

theorem parseUdpFrame_data {name : String} (short : (asBytes name).length ≤ 255) {data : Bytes}
    (small : data.length < 2 ^ 16) (id : NodeID) :
    parseUdpFrame (buildDataMsg name id data) = some (.data, name, id, some data) := by
  have length : ofBigEndian (bigEndian 2 data.length) = data.length := ofBigEndian_bigEndian small
  have total : (bigEndian 2 data.length ++ data).length = 2 + data.length := by
    rw [List.length_append, bigEndian_length]
  have word : ¬ 2 + data.length < 2 := by omega
  simp only [buildDataMsg, parseUdpFrame_header short, if_true, total, word, if_false,
    List.take_left' (bigEndian_length 2 _), List.drop_left' (bigEndian_length 2 _), length,
    Nat.lt_irrefl, List.take_length]

theorem buildDataMsg_length (name : String) (id : NodeID) (data : Bytes) :
    (buildDataMsg name id data).length = (asBytes name).length + 36 + data.length := by
  simp [buildDataMsg, buildHeader]
  omega

/-- A data frame, cut to the buffer, yields its name and its data exactly when the name
fits its length byte and the frame fits the buffer. -/
theorem parseUdpFrame_cut_iff (name : String) (id : NodeID) (data : Bytes) :
    (∃ sender, parseUdpFrame ((buildDataMsg name id data).take receiveBuffer) =
      some (.data, name, sender, some data)) ↔
    (asBytes name).length ≤ 255 ∧ (asBytes name).length + 36 + data.length ≤ receiveBuffer := by
  constructor
  · rintro ⟨sender, parsed⟩
    obtain ⟨short, fits⟩ := parseUdpFrame_sound parsed
    refine ⟨short, (fits data rfl).trans ?_⟩
    rw [List.length_take]
    exact Nat.min_le_left _ _
  · rintro ⟨short, fits⟩
    have whole : (buildDataMsg name id data).take receiveBuffer = buildDataMsg name id data := by
      apply List.take_of_length_le
      rwa [buildDataMsg_length]
    have small : data.length < 2 ^ 16 := by
      have limit : receiveBuffer < 2 ^ 16 := by decide
      omega
    rw [whole]
    exact ⟨id, parseUdpFrame_data short small id⟩

namespace LanRouter

theorem recordNode_receivedData (r : LanRouter) (name : String) (id : NodeID) (addr : SocketAddr)
    (now : Nat) : (r.recordNode name id addr now).receivedData = r.receivedData := by
  rw [recordNode]
  split
  · rfl
  · rfl

/-- Data is recorded by a data frame and by nothing else. -/
theorem receive_records_iff (r : LanRouter) (datagram : Bytes) (addr : SocketAddr) (now : Nat)
    (entry : String × Bytes) :
    (r.receive datagram addr now).1.receivedData = r.receivedData ++ [entry] ↔
    ∃ sender, parseUdpFrame (datagram.take receiveBuffer) =
      some (.data, entry.1, sender, some entry.2) := by
  have longer : r.receivedData ≠ r.receivedData ++ [entry] := by simp
  rw [receive]
  split
  case h_1 unparsed => simp [unparsed]
  case h_2 parsed => simp [parsed, recordNode_receivedData]
  case h_3 parsed => simp [parsed, recordNode_receivedData]
  case h_4 name sender data parsed =>
    simp [parsed, Prod.ext_iff]
  case h_5 parsed => simp [parsed]
  case h_6 parsed =>
    split
    · simp [parsed]
    · simp [parsed]

/-- A call that succeeds has sent the data frame. -/
theorem send_ok (r : LanRouter) {target : String} {data : Bytes} {later : Map String LanNode}
    {sendTo : SendTo} (done : (r.send target data later sendTo).1 = .ok ()) :
    ∃ addr, (buildDataMsg r.localName r.localId data, addr) ∈
      (r.send target data later sendTo).2 := by
  unfold send at done ⊢
  split at done
  · cases done
  · split at done
    · cases done
    · dsimp only at done
      split at done
      · cases done
      · rename_i bound
        split at done
        · cases done
        · rename_i answer
          simp only [if_neg bound, answer]
          exact ⟨_, List.mem_append.mpr (.inr (List.mem_singleton_self _))⟩

/-- What a receiver records of a datagram that was sent, and what it reads of the
messages of the discovery. -/
theorem delivery_iff (sender receiver : LanRouter) (target : String) (data : Bytes)
    (later : Map String LanNode) (sendTo : SendTo) (addr : SocketAddr) (now : Nat) (name : String)
    (id : NodeID) :
    ((sender.send target data later sendTo).1 = .ok () →
      (∃ dest, (buildDataMsg sender.localName sender.localId data, dest) ∈
        (sender.send target data later sendTo).2) ∧
      ((receiver.receive (buildDataMsg sender.localName sender.localId data) addr
          now).1.receivedData = receiver.receivedData ++ [(sender.localName, data)] ↔
        (asBytes sender.localName).length ≤ 255 ∧
        (asBytes sender.localName).length + 36 + data.length ≤ receiveBuffer)) ∧
    (parseUdpFrame (buildDiscoverMsg name id) = some (.discover, name, id, none) ↔
      (asBytes name).length ≤ 255) ∧
    (parseUdpFrame (buildDiscoverReply name id) = some (.discoverReply, name, id, none) ↔
      (asBytes name).length ≤ 255) := by
  refine ⟨fun done => ⟨sender.send_ok done, ?_⟩, ?_, ?_⟩
  · rw [receive_records_iff]
    exact parseUdpFrame_cut_iff sender.localName sender.localId data
  · exact parseUdpFrame_discover_iff .discover nofun name id
  · exact parseUdpFrame_discover_iff .discoverReply nofun name id

def lanNeighbour : LanNode := ⟨"beta", zeroId, ⟨"192.168.1.2", 9876⟩, 0, .online⟩

def lanSender : LanRouter :=
  ⟨"alpha", zeroId, 9876, (∅ : Map String LanNode).insert "beta" lanNeighbour, [], true⟩

theorem delivery_iff_hello :
    (lanSender.send "node:beta" [104, 105] ∅ fun _ _ => none).1 = .ok () ∧
    ((lanSender.receive (buildDataMsg "alpha" zeroId [104, 105]) ⟨"192.168.1.1", 9876⟩
        0).1.receivedData = lanSender.receivedData ++ [("alpha", [104, 105])] ↔
      (asBytes "alpha").length ≤ 255 ∧ (asBytes "alpha").length + 36 + 2 ≤ receiveBuffer) :=
  ⟨rfl, ((delivery_iff lanSender lanSender "node:beta" [104, 105] ∅ (fun _ _ => none)
    ⟨"192.168.1.1", 9876⟩ 0 "alpha" zeroId).1 rfl).2⟩

/-- The sender sees success, and the receiver records nothing of 5000 bytes. -/
theorem delivery_lost :
    (lanSender.send "node:beta" (List.replicate 5000 0) ∅ fun _ _ => none).1 = .ok () ∧
    ¬ (lanSender.receive (buildDataMsg "alpha" zeroId (List.replicate 5000 0))
      ⟨"192.168.1.1", 9876⟩ 0).1.receivedData =
        lanSender.receivedData ++ [("alpha", List.replicate 5000 0)] := by
  refine ⟨rfl, ?_⟩
  rw [receive_records_iff, parseUdpFrame_cut_iff, List.length_replicate]
  rintro ⟨-, fits⟩
  have above : receiveBuffer < 36 + 5000 := by decide
  omega

end LanRouter

end LanLink.Vpn
