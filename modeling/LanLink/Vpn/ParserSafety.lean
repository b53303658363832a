import LanLink.Vpn.Codecs
import LanLink.Vpn.LanRouter

/-! The readers of bytes from the network with the accesses of the machine: offsets
are `usize` words of 64 bits whose addition aborts on overflow, and an index, a
slice or the copy into an array aborts when it does not fit. `none` is such an
abort; the `None` and `Err` of the source are results. -/
namespace LanLink.Vpn
open Words Records
open LanLink.Chunk (slice)

inductive BootstrapRequestType where
  | getNodeList | reportNode | nodeListResponse
  deriving DecidableEq, Repr

def BootstrapRequestType.fromU8 (b : UInt8) : Option BootstrapRequestType :=
  if b = 0x01 then some .getNodeList
  else if b = 0x02 then some .reportNode
  else if b = 0x03 then some .nodeListResponse
  else none

def BootstrapRequestType.toU8 : BootstrapRequestType → UInt8
  | .getNodeList => 0x01
  | .reportNode => 0x02
  | .nodeListResponse => 0x03

structure BootstrapRequest where
  requestType : BootstrapRequestType
  senderId : NodeID
  senderName : String
  timestamp : UInt64
  deriving DecidableEq

/-- The length of the name is cut to a byte. -/
def BootstrapRequest.toBytes (req : BootstrapRequest) : Bytes :=
  req.requestType.toU8 :: (req.senderId.toList ++ ((asBytes req.senderName).length.toUInt8 ::
    (asBytes req.senderName ++ bigEndian 8 req.timestamp.toNat)))

namespace Checked

/-- `a + b` for offsets. -/
def add (a b : Nat) : Option Nat := checkedAdd 64 a b

/-- The big-endian word in a slice of eight bytes; any other slice is refused. -/
def wordOf (bytes : Bytes) : Option UInt64 :=
  if bytes.length = 8 then some (ofBigEndian bytes).toUInt64 else none

/-- `u16::from_be_bytes([data[offset], data[offset + 1]])`. -/
def readU16 (data : Bytes) (offset : Nat) : Option Nat := do
  return ofBigEndian [← data[offset]?, ← data[(← add offset 1)]?]

/-- `u32::from_be_bytes` of the four bytes at an offset. -/
def readU32 (data : Bytes) (offset : Nat) : Option Nat := do
  return ofBigEndian [← data[offset]?, ← data[(← add offset 1)]?, ← data[(← add offset 2)]?,
    ← data[(← add offset 3)]?]

def parseUdpFrame (buf : Bytes) :
    Option (Option (UdpMessageType × String × NodeID × Option Bytes)) :=
  if buf.length < 2 + 32 then some none
  else do
    match UdpMessageType.fromU8 (← buf[0]?) with
    | none => return none
    | some msgType =>
      let nameLen := (← buf[1]?).toNat
      if buf.length < (← add (← add 2 nameLen) 32) then return none
      else
        match fromUtf8 (← slice buf 2 (← add 2 nameLen)) with
        | none => return none
        | some name =>
          let idStart ← add 2 nameLen
          let nodeId ← nodeIdOf (← slice buf idStart (← add idStart 32))
          if msgType = .data then
            let dataOffset ← add idStart 32
            if buf.length < (← add dataOffset 2) then return none
            else
              let dataLen ← readU16 buf dataOffset
              let dataStart ← add dataOffset 2
              if buf.length < (← add dataStart dataLen) then return none
              else
                let data ← slice buf dataStart (← add dataStart dataLen)
                return some (msgType, name, nodeId, some data)
          else return some (msgType, name, nodeId, none)

def decodeNodes (data : Bytes) : Nat → Nat → List (NodeID × String) →
    Option (List (NodeID × String))
  | 0, _, nodes => some nodes
  | n + 1, offset, nodes => do
    if data.length < (← add (← add offset 32) 2) then return nodes
    else
      let nodeId ← nodeIdOf (← slice data offset (← add offset 32))
      let offset ← add offset 32
      let addrLen ← readU16 data offset
      let offset ← add offset 2
      if data.length < (← add offset addrLen) then return nodes
      else
        let addr := fromUtf8OrDefault (← slice data offset (← add offset addrLen))
        let offset ← add offset addrLen
        decodeNodes data n offset (nodes ++ [(nodeId, addr)])

def decodeNodeList (data : Bytes) : Option (List (NodeID × String)) :=
  if data.length < 2 then some []
  else do
    let count ← readU16 data 0
    decodeNodes data count 2 []

/-- The answer of the function, and the manager it leaves behind. A sum that the source
writes more than once is computed once. -/
def handlePut (sha256 : Bytes → NodeID) (m : DhtManager) (data : Bytes) (now : UInt64) :
    Option (Option Unit × DhtManager) :=
  if data.length < 2 then some (none, m)
  else do
    let keyLen ← readU16 data 0
    let keyEnd ← add 2 keyLen
    let sizeEnd ← add keyEnd 4
    if data.length < sizeEnd then return (none, m)
    else
      let key ← slice data 2 keyEnd
      let valueLen ← readU32 data keyEnd
      let valueEnd ← add sizeEnd valueLen
      let ttlEnd ← add valueEnd 8
      if data.length < ttlEnd then return (none, m)
      else
        let value ← slice data sizeEnd valueEnd
        match wordOf (← slice data valueEnd ttlEnd) with
        | none => return (none, m)
        | some ttl => return (some (), m.putValue sha256 key value ttl now)

def Message.fromBytes (data : Bytes) : Option (Except RelayError Message) :=
  if data.length < 5 then some (.error (.parseError "message too short"))
  else do
    let len ← readU32 data 0
    let tag ← data[4]?
    match MessageType.fromU8 tag with
    | none => return .error (.parseError s!"invalid message type: {tag}")
    | some msgType =>
      if data.length < (← add 5 len) then
        return .error (.parseError s!"payload too short: expected {len} bytes")
      else
        let payload ← slice data 5 (← add 5 len)
        return .ok ⟨msgType, payload⟩

def HeartbeatMessage.fromBytes (data : Bytes) : Option (Option HeartbeatMessage) :=
  if data.length < 1 + 32 + 8 + 8 then some none
  else do
    match HeartbeatMsgType.fromU8 (← data[0]?) with
    | none => return none
    | some msgType =>
      let senderId ← nodeIdOf (← slice data 1 33)
      match wordOf (← slice data 33 41) with
      | none => return none
      | some timestamp =>
        match wordOf (← slice data 41 49) with
        | none => return none
        | some sequence => return some ⟨msgType, senderId, timestamp, sequence⟩

def SelfHealMessage.fromBytes (data : Bytes) : Option (Option SelfHealMessage) :=
  if data.length < 1 + 32 + 8 then some none
  else do
    match HealMsgType.fromU8 (← data[0]?) with
    | none => return none
    | some msgType =>
      let senderId ← nodeIdOf (← slice data 1 (1 + 32))
      match wordOf (← slice data (1 + 32) (1 + 32 + 8)) with
      | none => return none
      | some timestamp =>
        let payload ← slice data (1 + 32 + 8) data.length
        return some ⟨msgType, senderId, timestamp, payload⟩

def TimestampedPayload.fromBytes (data : Bytes) : Option (Option TimestampedPayload) :=
  if data.length < 8 then some none
  else do
    match wordOf (← slice data 0 8) with
    | none => return none
    | some timestamp =>
      let payload ← slice data 8 data.length
      return some ⟨timestamp, payload⟩

def BootstrapRequest.fromBytes (data : Bytes) : Option (Option BootstrapRequest) :=
  if data.length < 1 + 32 + 1 + 8 then some none
  else do
    match BootstrapRequestType.fromU8 (← data[0]?) with
    | none => return none
    | some requestType =>
      let senderId ← nodeIdOf (← slice data 1 33)
      let nameLen := (← data[33]?).toNat
      let nameEnd ← add 34 nameLen
      if data.length < (← add nameEnd 8) then return none
      else
        match fromUtf8 (← slice data 34 nameEnd) with
        | none => return none
        | some senderName =>
          match wordOf (← slice data nameEnd (← add 42 nameLen)) with
          | none => return none
          | some timestamp => return some ⟨requestType, senderId, senderName, timestamp⟩

theorem add_of_lt (fits : a + b < 2 ^ 64) : add a b = some (a + b) := checkedAdd_of_lt fits

theorem bind_index {data : Bytes} (inside : i < data.length) (next : UInt8 → Option α) :
    (data[i]? >>= next) = next data[i] := by
  rw [List.getElem?_eq_getElem inside]
  rfl

theorem slice_rest {data : Bytes} (inside : offset ≤ data.length) :
    slice data offset data.length = some (data.drop offset) := by
  rw [slice_eq (Nat.le_refl _) inside, List.take_of_length_le (by simp)]

theorem wordOf_take {data : Bytes} (inside : offset + 8 ≤ data.length) :
    wordOf ((data.drop offset).take 8) =
      some (ofBigEndian ((data.drop offset).take 8)).toUInt64 := by
  have length : ((data.drop offset).take 8).length = 8 := by
    simp only [List.length_take, List.length_drop]
    omega
  exact if_pos length

theorem readU16_eq {data : Bytes} (inside : offset + 2 ≤ data.length) (fits : offset < 2 ^ 63) :
    readU16 data offset = some (ofBigEndian ((data.drop offset).take 2)) := by
  have next : add offset 1 = some (offset + 1) := add_of_lt (by omega)
  rw [← Vpn.readU16_eq inside, readU16, next]
  rfl

theorem readU32_eq {data : Bytes} (inside : offset + 4 ≤ data.length) (fits : offset < 2 ^ 63) :
    readU32 data offset = some (ofBigEndian ((data.drop offset).take 4)) := by
  have second : add offset 1 = some (offset + 1) := add_of_lt (by omega)
  have third : add offset 2 = some (offset + 2) := add_of_lt (by omega)
  have fourth : add offset 3 = some (offset + 3) := add_of_lt (by omega)
  have bytes : (data.drop offset).take 4 =
      [data[offset], data[offset + 1], data[offset + 2], data[offset + 3]] := by
    rw [List.drop_eq_getElem_cons (by omega), List.drop_eq_getElem_cons (by omega),
      List.drop_eq_getElem_cons (by omega), List.drop_eq_getElem_cons (by omega)]
    rfl
  have here (i : Nat) (within : i < data.length) : data[i]? = some data[i] :=
    List.getElem?_eq_getElem within
  rw [readU32, second, third, fourth, here offset (by omega)]
  simp only [here (offset + 1) (by omega), here (offset + 2) (by omega),
    here (offset + 3) (by omega), Option.bind_eq_bind, Option.bind_some, Option.pure_def, bytes]

theorem TimestampedPayload.fromBytes_eq (data : Bytes) :
    fromBytes data = some (Vpn.TimestampedPayload.fromBytes data) := by
  rw [fromBytes, Vpn.TimestampedPayload.fromBytes]
  by_cases short : data.length < 8
  · simp [short]
  · have word : wordOf ((data.drop 0).take 8) =
        some (ofBigEndian ((data.drop 0).take 8)).toUInt64 := wordOf_take (by omega)
    have front : slice data 0 8 = some ((data.drop 0).take 8) := slice_eq (by omega) (by omega)
    have rest : slice data 8 data.length = some (data.drop 8) := slice_rest (by omega)
    simp only [short, if_false, front, rest, word, Option.bind_eq_bind, Option.bind_some,
      Option.pure_def]
    rw [List.drop_zero]

theorem SelfHealMessage.fromBytes_eq (data : Bytes) :
    fromBytes data = some (Vpn.SelfHealMessage.fromBytes data) := by
  rw [fromBytes, Vpn.SelfHealMessage.fromBytes]
  by_cases short : data.length < 1 + 32 + 8
  · simp [short]
  · have tag : data[0]? = some data[0] := List.getElem?_eq_getElem (by omega)
    cases known : HealMsgType.fromU8 data[0] with
    | none => simp [short, tag, known]
    | some msgType =>
      have id : slice data 1 (1 + 32) = some ((data.drop 1).take 32) := slice_add (by omega)
      have time : slice data (1 + 32) (1 + 32 + 8) = some ((data.drop (1 + 32)).take 8) :=
        slice_add (by omega)
      have rest : slice data (1 + 32 + 8) data.length = some (data.drop (1 + 32 + 8)) :=
        slice_rest (by omega)
      have node : nodeIdOf ((data.drop 1).take 32) = some (fill 32 (data.drop 1)) :=
        nodeIdOf_take (by omega)
      have word := wordOf_take (show 1 + 32 + 8 ≤ data.length by omega)
      simp only [short, if_false, tag, known, id, node, time, word, rest, Option.bind_eq_bind,
        Option.bind_some, Option.pure_def]

theorem HeartbeatMessage.fromBytes_eq (data : Bytes) :
    fromBytes data = some (Vpn.HeartbeatMessage.fromBytes data) := by
  rw [fromBytes, Vpn.HeartbeatMessage.fromBytes]
  by_cases short : data.length < 1 + 32 + 8 + 8
  · simp [short]
  · have tag : data[0]? = some data[0] := List.getElem?_eq_getElem (by omega)
    cases known : HeartbeatMsgType.fromU8 data[0] with
    | none => simp [short, tag, known]
    | some msgType =>
      have id : slice data 1 33 = some ((data.drop 1).take 32) := slice_eq (by omega) (by omega)
      have first : slice data 33 41 = some ((data.drop 33).take 8) :=
        slice_eq (by omega) (by omega)
      have second : slice data 41 49 = some ((data.drop 41).take 8) :=
        slice_eq (by omega) (by omega)
      have node : nodeIdOf ((data.drop 1).take 32) = some (fill 32 (data.drop 1)) :=
        nodeIdOf_take (by omega)
      have time := wordOf_take (show 33 + 8 ≤ data.length by omega)
      have count := wordOf_take (show 41 + 8 ≤ data.length by omega)
      simp only [short, if_false, tag, known, id, node, first, time, second, count,
        Option.bind_eq_bind, Option.bind_some, Option.pure_def]

/-- The bound of the language on a slice keeps every sum below the width of the word. -/
theorem decodeNodes_eq {data : Bytes} (bound : data.length ≤ Chunk.isizeMax) (n offset : Nat)
    (nodes : List (NodeID × String)) (inside : offset ≤ data.length) :
    decodeNodes data n offset nodes = Vpn.decodeNodes data n offset nodes := by
  rw [Chunk.isizeMax] at bound
  induction n generalizing offset nodes with
  | zero => rfl
  | succ n ih =>
    rw [decodeNodes, Vpn.decodeNodes]
    have idEnd : add offset 32 = some (offset + 32) := add_of_lt (by omega)
    have wordEnd : add (offset + 32) 2 = some (offset + 32 + 2) := add_of_lt (by omega)
    simp only [idEnd, wordEnd, Option.bind_eq_bind, Option.bind_some]
    by_cases short : data.length < offset + 32 + 2
    · simp [short]
    · have size : offset + 32 + 2 ≤ data.length := Nat.le_of_not_lt short
      have small : ofBigEndian ((data.drop (offset + 32)).take 2) < 256 ^ 2 := ofBigEndian_take_lt
      simp only [short, if_false, readU16_eq size (by omega), Vpn.readU16_eq size,
        Option.bind_some]
      generalize ofBigEndian ((data.drop (offset + 32)).take 2) = addrLen at small ⊢
      have addrEnd : add (offset + 32 + 2) addrLen = some (offset + 32 + 2 + addrLen) :=
        add_of_lt (by omega)
      simp only [addrEnd, Option.bind_some]
      by_cases cut : data.length < offset + 32 + 2 + addrLen
      · simp [cut]
      · simp only [cut, if_false, ih _ _ (Nat.le_of_not_lt cut)]

theorem decodeNodeList_eq {data : Bytes} (bound : data.length ≤ Chunk.isizeMax) :
    decodeNodeList data = Vpn.decodeNodeList data := by
  rw [decodeNodeList, Vpn.decodeNodeList]
  by_cases short : data.length < 2
  · simp [short]
  · have inside : 2 ≤ data.length := Nat.le_of_not_lt short
    simp only [short, if_false, readU16_eq inside (by decide), Vpn.readU16_eq inside,
      Option.bind_eq_bind, Option.bind_some, decodeNodes_eq bound _ 2 [] inside]

theorem Message.fromBytes_eq (data : Bytes) :
    fromBytes data = some (Vpn.Message.fromBytes data) := by
  match data with
  | [] | [_] | [_, _] | [_, _, _] | [_, _, _, _] => rfl
  | b0 :: b1 :: b2 :: b3 :: tag :: rest =>
    have size : readU32 (b0 :: b1 :: b2 :: b3 :: tag :: rest) 0 =
        some (ofBigEndian [b0, b1, b2, b3]) := rfl
    have small : ofBigEndian [b0, b1, b2, b3] < 256 ^ 4 := ofBigEndian_lt _
    have long : ¬ (b0 :: b1 :: b2 :: b3 :: tag :: rest).length < 5 := by simp
    rw [fromBytes, if_neg long, size]
    simp only [Vpn.Message.fromBytes, Option.bind_eq_bind, Option.bind_some]
    generalize ofBigEndian [b0, b1, b2, b3] = len at small ⊢
    have payloadEnd : add 5 len = some (5 + len) := add_of_lt (by omega)
    have room : rest.length + 5 < 5 + len ↔ rest.length < len := by omega
    cases known : MessageType.fromU8 tag with
    | none => simp [known]
    | some msgType =>
      by_cases cut : rest.length < len
      · simp [known, payloadEnd, room, cut]
      · have payload : slice (b0 :: b1 :: b2 :: b3 :: tag :: rest) 5 (5 + len) =
            some (rest.take len) := by
          rw [slice_add (by simp only [List.length_cons]; omega)]
          rfl
        simp [known, payloadEnd, room, cut, payload]

theorem parseUdpFrame_eq (buf : Bytes) :
    parseUdpFrame buf = some (Vpn.parseUdpFrame buf) := by
  rw [parseUdpFrame, Vpn.parseUdpFrame]
  by_cases short : buf.length < 2 + 32
  · rw [if_pos short, if_pos short]
  · have range := buf[1].toNat_lt
    rw [if_neg short, if_neg short, bind_index (by omega), bind_index (by omega)]
    cases UdpMessageType.fromU8 buf[0] with
    | none => rfl
    | some msgType =>
      -- The type is settled before the length of the name is read.
      change (buf[1]? >>= _) = some (buf[1]? >>= _)
      rw [bind_index (by omega), bind_index (by omega)]
      generalize buf[1].toNat = nameLen at range ⊢
      have nameEnd : add 2 nameLen = some (2 + nameLen) := add_of_lt (by omega)
      have idEnd : add (2 + nameLen) 32 = some (2 + nameLen + 32) := add_of_lt (by omega)
      have wordEnd : add (2 + nameLen + 32) 2 = some (2 + nameLen + 32 + 2) :=
        add_of_lt (by omega)
      simp only [nameEnd, idEnd, wordEnd, Option.bind_eq_bind, Option.bind_some]
      by_cases named : buf.length < 2 + nameLen + 32
      · simp [named]
      · have nameBytes : slice buf 2 (2 + nameLen) = some ((buf.drop 2).take nameLen) :=
          slice_add (by omega)
        have idBytes : slice buf (2 + nameLen) (2 + nameLen + 32) =
            some ((buf.drop (2 + nameLen)).take 32) := slice_add (by omega)
        have node : nodeIdOf ((buf.drop (2 + nameLen)).take 32) =
            some (fill 32 (buf.drop (2 + nameLen))) := nodeIdOf_take (by omega)
        simp only [named, if_false, nameBytes, idBytes, node, Option.bind_some]
        cases fromUtf8 ((buf.drop 2).take nameLen) with
        | none => rfl
        | some name =>
          by_cases word : buf.length < 2 + nameLen + 32 + 2
          · simp [word, apply_ite some]
          · have small : ofBigEndian ((buf.drop (2 + nameLen + 32)).take 2) < 256 ^ 2 :=
              ofBigEndian_take_lt
            have size := readU16_eq (Nat.le_of_not_lt word) (by omega)
            simp only [word, if_false, size, Option.bind_some]
            generalize ofBigEndian ((buf.drop (2 + nameLen + 32)).take 2) = dataLen at small ⊢
            have dataEnd : add (2 + nameLen + 32 + 2) dataLen =
                some (2 + nameLen + 32 + 2 + dataLen) := add_of_lt (by omega)
            by_cases cut : buf.length < 2 + nameLen + 32 + 2 + dataLen
            · simp [dataEnd, cut, apply_ite some]
            · have data : slice buf (2 + nameLen + 32 + 2) (2 + nameLen + 32 + 2 + dataLen) =
                  some ((buf.drop (2 + nameLen + 32 + 2)).take dataLen) := slice_add (by omega)
              simp [dataEnd, cut, data, apply_ite some]

end Checked

theorem HealMsgType.toU8_of_fromU8 (known : fromU8 b = some type) : type.toU8 = b := by
  grind [fromU8, toU8]

theorem HeartbeatMsgType.toU8_of_fromU8 (known : fromU8 b = some type) : type.toU8 = b := by
  grind [fromU8, toU8]

theorem UdpMessageType.toU8_of_fromU8 (known : fromU8 b = some type) : type.toU8 = b := by
  grind [fromU8, toU8]

theorem MessageType.toU8_of_fromU8 (known : fromU8 b = some type) : type.toU8 = b := by
  grind [fromU8, toU8]

theorem BootstrapRequestType.toU8_of_fromU8 (known : fromU8 b = some type) : type.toU8 = b := by
  grind [fromU8, toU8]

section
variable {data rest : Bytes} {offset : Nat}

/-- A field at an offset, and the fields behind it. -/
theorem field_at {field : Bytes} (front : field = (data.drop offset).take n)
    (behind : rest <+: data.drop (offset + n)) : field ++ rest <+: data.drop offset := by
  rw [← List.drop_drop] at behind
  have both := (List.prefix_append_right_inj ((data.drop offset).take n)).mpr behind
  rwa [List.take_append_drop, ← front] at both

theorem byte_at (here : data[offset]? = some byte) (behind : rest <+: data.drop (offset + 1)) :
    byte :: rest <+: data.drop offset := by
  obtain ⟨inside, rfl⟩ := List.getElem?_eq_some_iff.mp here
  rw [List.drop_eq_getElem_cons inside]
  exact List.cons_prefix_cons.mpr ⟨rfl, behind⟩

theorem id_at (inside : offset + 32 ≤ data.length) (behind : rest <+: data.drop (offset + 32)) :
    (fill 32 (data.drop offset)).toList ++ rest <+: data.drop offset :=
  field_at (fill_of_enough (by simp only [List.length_drop]; omega)) behind

theorem word_at (inside : offset + 8 ≤ data.length) (behind : rest <+: data.drop (offset + 8)) :
    bigEndian 8 (ofBigEndian ((data.drop offset).take 8)).toUInt64.toNat ++ rest <+:
      data.drop offset :=
  field_at (bigEndian_word (by simp only [List.length_drop]; omega)) behind

theorem last_word_at (inside : offset + 8 ≤ data.length) :
    bigEndian 8 (ofBigEndian ((data.drop offset).take 8)).toUInt64.toNat <+: data.drop offset := by
  have word := word_at inside List.nil_prefix
  rwa [List.append_nil] at word

/-- A field behind its length, a number of `width` bytes. -/
theorem sized_at (word : offset + width ≤ data.length)
    (size : ofBigEndian ((data.drop offset).take width) = n)
    (inside : offset + width + n ≤ data.length) (behind : rest <+: data.drop (offset + width + n)) :
    bigEndian width ((data.drop (offset + width)).take n).length ++
      ((data.drop (offset + width)).take n ++ rest) <+: data.drop offset := by
  have length : ((data.drop (offset + width)).take n).length = n := by
    simp only [List.length_take, List.length_drop]
    omega
  have digits : bigEndian width n = (data.drop offset).take width := by
    rw [← size]
    exact bigEndian_take (by simp only [List.length_drop]; omega)
  rw [length]
  exact field_at digits (field_at rfl behind)

/-- A name with its length in one byte. -/
theorem name_at {byte : UInt8} (inside : offset + byte.toNat ≤ data.length)
    (text : fromUtf8 ((data.drop offset).take byte.toNat) = some name) :
    asBytes name = (data.drop offset).take byte.toNat ∧ (asBytes name).length.toUInt8 = byte := by
  have bytes := asBytes_of_fromUtf8 text
  refine ⟨bytes, ?_⟩
  have length : (asBytes name).length = byte.toNat := by
    rw [bytes, List.length_take, List.length_drop]
    omega
  rw [length, Nat.toUInt8, UInt8.ofNat_toNat]

end

theorem TimestampedPayload.toBytes_fromBytes {data : Bytes} (parsed : fromBytes data = some t) :
    t.toBytes <+: data := by
  rw [fromBytes] at parsed
  split at parsed
  · cases parsed
  · rename_i long
    cases parsed
    have whole : bigEndian 8 (ofBigEndian (data.take 8)).toUInt64.toNat ++ data.drop 8 = data := by
      rw [bigEndian_word (Nat.not_lt.mp long), List.take_append_drop]
    exact ⟨[], (List.append_nil _).trans whole⟩

theorem SelfHealMessage.toBytes_fromBytes {data : Bytes} (parsed : fromBytes data = some msg) :
    msg.toBytes <+: data := by
  rw [fromBytes] at parsed
  split at parsed
  · cases parsed
  · simp only [Option.bind_eq_bind, Option.bind_eq_some_iff, Option.pure_def,
      Option.some.injEq] at parsed
    obtain ⟨tag, first, msgType, known, rfl⟩ := parsed
    rw [toBytes, HealMsgType.toU8_of_fromU8 known]
    exact byte_at first (id_at (by omega) (word_at (by omega) List.prefix_rfl))

theorem HeartbeatMessage.toBytes_fromBytes {data : Bytes} (parsed : fromBytes data = some msg) :
    msg.toBytes <+: data := by
  rw [fromBytes] at parsed
  split at parsed
  · cases parsed
  · simp only [Option.bind_eq_bind, Option.bind_eq_some_iff, Option.pure_def,
      Option.some.injEq] at parsed
    obtain ⟨tag, first, msgType, known, rfl⟩ := parsed
    rw [toBytes, HeartbeatMsgType.toU8_of_fromU8 known]
    exact byte_at first (id_at (by omega) (word_at (by omega) (last_word_at (by omega))))

theorem Message.toBytes_fromBytes {data : Bytes} (parsed : fromBytes data = .ok msg) :
    msg.toBytes <+: data := by
  unfold fromBytes at parsed
  split at parsed
  · rename_i b0 b1 b2 b3 tag rest
    dsimp only at parsed
    split at parsed
    · cases parsed
    · rename_i msgType known
      split at parsed
      · cases parsed
      · rename_i enough
        cases parsed
        have length : (rest.take (ofBigEndian [b0, b1, b2, b3])).length =
            ofBigEndian [b0, b1, b2, b3] := List.length_take_of_le (Nat.le_of_not_lt enough)
        have digits : bigEndian 4 (ofBigEndian [b0, b1, b2, b3]) = [b0, b1, b2, b3] :=
          bigEndian_ofBigEndian [b0, b1, b2, b3]
        rw [toBytes, MessageType.toU8_of_fromU8 known, length, digits]
        simpa using List.take_prefix _ rest
  · cases parsed

/-- The frame that carries what was parsed. -/
def udpFrame : UdpMessageType × String × NodeID × Option Bytes → Bytes
  | (type, name, id, none) => buildHeader type name id
  | (type, name, id, some data) => buildHeader type name id ++ (bigEndian 2 data.length ++ data)

theorem header_at {buf rest : Bytes} {lengthByte : UInt8} (first : buf[0]? = some tag)
    (known : UdpMessageType.fromU8 tag = some type) (second : buf[1]? = some lengthByte)
    (inside : 2 + lengthByte.toNat + 32 ≤ buf.length)
    (text : fromUtf8 ((buf.drop 2).take lengthByte.toNat) = some name)
    (behind : rest <+: buf.drop (2 + lengthByte.toNat + 32)) :
    buildHeader type name (fill 32 (buf.drop (2 + lengthByte.toNat))) ++ rest <+: buf := by
  obtain ⟨bytes, length⟩ := name_at (by omega) text
  rw [buildHeader, UdpMessageType.toU8_of_fromU8 known, length, List.cons_append, List.cons_append,
    List.append_assoc]
  exact byte_at first (byte_at second (field_at bytes (id_at inside behind)))

theorem udpFrame_parseUdpFrame {buf : Bytes} (parsed : parseUdpFrame buf = some frame) :
    udpFrame frame <+: buf := by
  rw [parseUdpFrame] at parsed
  split at parsed
  · cases parsed
  · simp only [Option.bind_eq_bind, Option.bind_eq_some_iff] at parsed
    obtain ⟨tag, first, msgType, known, lengthByte, second, parsed⟩ := parsed
    split at parsed
    · cases parsed
    · rename_i named
      obtain ⟨name, text, parsed⟩ := Option.bind_eq_some_iff.mp parsed
      have inside := Nat.le_of_not_lt named
      split at parsed
      · split at parsed
        · cases parsed
        · split at parsed
          · cases parsed
          · rename_i enough
            cases parsed
            have data := sized_at (by omega) rfl (Nat.le_of_not_lt enough) List.nil_prefix
            rw [List.append_nil] at data
            exact header_at first known second inside text data
      · cases parsed
        have header := header_at first known second inside text List.nil_prefix
        rwa [List.append_nil] at header

/-- `[key_len(2)] [key] [value_len(4)] [value] [ttl(8)]`. -/
def putPayload (key value : Bytes) (ttl : UInt64) : Bytes :=
  bigEndian 2 key.length ++ (key ++ (bigEndian 4 value.length ++ (value ++ bigEndian 8 ttl.toNat)))

/-- The handler refuses the message and leaves the manager alone, or stores the value
of a payload that the message begins with. -/
def Handled (sha256 : Bytes → NodeID) (m : DhtManager) (data : Bytes) (now : UInt64)
    (result : Option Unit × DhtManager) : Prop :=
  result = (none, m) ∨ ∃ key value ttl, putPayload key value ttl <+: data ∧
    result = (some (), m.putValue sha256 key value ttl now)

theorem Checked.handlePut_spec (sha256 : Bytes → NodeID) (m : DhtManager) (data : Bytes)
    (now : UInt64) : ∃ result, handlePut sha256 m data now = some result ∧
      m.handlePut sha256 data now = some result.2 ∧ Handled sha256 m data now result := by
  rw [handlePut, DhtManager.handlePut]
  by_cases short : data.length < 2
  · rw [if_pos short, if_pos short]
    exact ⟨_, rfl, rfl, .inl rfl⟩
  · have keySize : ofBigEndian ((data.drop 0).take 2) < 256 ^ 2 := ofBigEndian_take_lt
    have two : 0 + 2 ≤ data.length := by omega
    rw [if_neg short, if_neg short, readU16_eq two (by decide), Vpn.readU16_eq two]
    simp only [Option.bind_eq_bind, Option.bind_some]
    generalize keyEq : ofBigEndian ((data.drop 0).take 2) = keyLen at keySize ⊢
    have keyEnd : add 2 keyLen = some (2 + keyLen) := add_of_lt (by omega)
    have sizeEnd : add (2 + keyLen) 4 = some (2 + keyLen + 4) := add_of_lt (by omega)
    simp only [keyEnd, sizeEnd, Option.bind_some]
    by_cases keyed : data.length < 2 + keyLen + 4
    · rw [if_pos keyed, if_pos keyed]
      exact ⟨_, rfl, rfl, .inl rfl⟩
    · have valueSize : ofBigEndian ((data.drop (2 + keyLen)).take 4) < 256 ^ 4 :=
        ofBigEndian_take_lt
      have four : 2 + keyLen + 4 ≤ data.length := Nat.le_of_not_lt keyed
      have key : slice data 2 (2 + keyLen) = some ((data.drop 2).take keyLen) :=
        slice_add (by omega)
      have size := readU32_eq four (by omega)
      have sizeBytes := slice_add four
      rw [if_neg keyed, if_neg keyed]
      simp only [key, size, sizeBytes, Option.bind_some]
      generalize valueEq : ofBigEndian ((data.drop (2 + keyLen)).take 4) = valueLen at valueSize ⊢
      have valueEnd : add (2 + keyLen + 4) valueLen = some (2 + keyLen + 4 + valueLen) :=
        add_of_lt (by omega)
      have ttlEnd : add (2 + keyLen + 4 + valueLen) 8 = some (2 + keyLen + 4 + valueLen + 8) :=
        add_of_lt (by omega)
      simp only [valueEnd, ttlEnd, Option.bind_some]
      by_cases cut : data.length < 2 + keyLen + 4 + valueLen + 8
      · rw [if_pos cut, if_pos cut]
        exact ⟨_, rfl, rfl, .inl rfl⟩
      · have eight : 2 + keyLen + 4 + valueLen + 8 ≤ data.length := Nat.le_of_not_lt cut
        have value : slice data (2 + keyLen + 4) (2 + keyLen + 4 + valueLen) =
            some ((data.drop (2 + keyLen + 4)).take valueLen) := slice_add (by omega)
        rw [if_neg cut, if_neg cut]
        simp only [value, slice_add eight, wordOf_take eight, Option.bind_some]
        refine ⟨_, rfl, rfl, .inr ⟨_, _, _, ?_, rfl⟩⟩
        exact sized_at two keyEq (by omega)
          (sized_at four valueEq (by omega) (last_word_at eight))

/-- The reader returns, and a value it gives stands at the front of the bytes. -/
def Sound (encode : α → Bytes) (data : Bytes) (run : Option (Option α)) : Prop :=
  ∃ result, run = some result ∧ ∀ value ∈ result, encode value <+: data

theorem Checked.BootstrapRequest.fromBytes_sound (data : Bytes) :
    Sound Vpn.BootstrapRequest.toBytes data (fromBytes data) := by
  rw [fromBytes]
  by_cases short : data.length < 1 + 32 + 1 + 8
  · rw [if_pos short]
    exact ⟨none, rfl, nofun⟩
  · have first : data[0]? = some data[0] := List.getElem?_eq_getElem (by omega)
    have lengthByte : data[33]? = some data[33] := List.getElem?_eq_getElem (by omega)
    have range := data[33].toNat_lt
    rw [if_neg short, bind_index (by omega)]
    cases known : BootstrapRequestType.fromU8 data[0] with
    | none => exact ⟨none, rfl, nofun⟩
    | some requestType =>
      have id : slice data 1 33 = some ((data.drop 1).take 32) := slice_eq (by omega) (by omega)
      have node : nodeIdOf ((data.drop 1).take 32) = some (fill 32 (data.drop 1)) :=
        nodeIdOf_take (by omega)
      simp only [id, node, lengthByte, Option.bind_eq_bind, Option.bind_some]
      have nameEnd : add 34 data[33].toNat = some (34 + data[33].toNat) := add_of_lt (by omega)
      have wordEnd : add (34 + data[33].toNat) 8 = some (34 + data[33].toNat + 8) :=
        add_of_lt (by omega)
      have sameEnd : add 42 data[33].toNat = some (34 + data[33].toNat + 8) := by
        rw [add_of_lt (by omega), Nat.add_right_comm]
      simp only [nameEnd, wordEnd, sameEnd, Option.bind_some]
      by_cases cut : data.length < 34 + data[33].toNat + 8
      · rw [if_pos cut]
        exact ⟨none, rfl, nofun⟩
      · have eight : 34 + data[33].toNat + 8 ≤ data.length := Nat.le_of_not_lt cut
        have name : slice data 34 (34 + data[33].toNat) =
            some ((data.drop 34).take data[33].toNat) := slice_add (by omega)
        rw [if_neg cut]
        simp only [name, slice_add eight, wordOf_take eight, Option.bind_some]
        cases text : fromUtf8 ((data.drop 34).take data[33].toNat) with
        | none => exact ⟨none, rfl, nofun⟩
        | some senderName =>
          refine ⟨_, rfl, ?_⟩
          rintro req ⟨⟩
          obtain ⟨bytes, length⟩ := name_at (by omega) text
          rw [Vpn.BootstrapRequest.toBytes, BootstrapRequestType.toU8_of_fromU8 known, length]
          exact byte_at first (id_at (by omega)
            (byte_at lengthByte (field_at bytes (last_word_at eight))))

/-- A reader that agrees with one that takes the bytes apart. -/
theorem sound_of_eq {encode : α → Bytes} {read : Bytes → Option α}
    (agrees : run = some (read data)) (front : ∀ value, read data = some value →
      encode value <+: data) : Sound encode data run :=
  ⟨_, agrees, fun value found => front value found⟩

/-- No reader leaves a byte string that fits the address space or overflows an offset.
What it returns is an answer without a value, or a value whose own bytes stand at the
front of the string: a frame, a message, a request, the records of a list of nodes, or
the payload of a stored value. -/
theorem readers_stay_inside (d : Chunk.Slice) :
    Sound udpFrame d.bytes (Checked.parseUdpFrame d.bytes) ∧
    (∃ nodes, Checked.decodeNodeList d.bytes = some nodes ∧
      Framed NodeFrame nodes (d.bytes.drop 2)) ∧
    (∀ sha256 m now, ∃ result, Checked.handlePut sha256 m d.bytes now = some result ∧
      Handled sha256 m d.bytes now result) ∧
    (∃ result, Checked.Message.fromBytes d.bytes = some result ∧
      ∀ msg, result = .ok msg → msg.toBytes <+: d.bytes) ∧
    Sound HeartbeatMessage.toBytes d.bytes (Checked.HeartbeatMessage.fromBytes d.bytes) ∧
    Sound SelfHealMessage.toBytes d.bytes (Checked.SelfHealMessage.fromBytes d.bytes) ∧
    Sound TimestampedPayload.toBytes d.bytes (Checked.TimestampedPayload.fromBytes d.bytes) ∧
    Sound BootstrapRequest.toBytes d.bytes (Checked.BootstrapRequest.fromBytes d.bytes) := by
  refine ⟨?_, ?_, ?_, ?_, ?_, ?_, ?_, ?_⟩
  · exact sound_of_eq (Checked.parseUdpFrame_eq d.bytes) fun _ => udpFrame_parseUdpFrame
  · refine ⟨_, (Checked.decodeNodeList_eq d.bound).trans (decodeNodeList_eq d.bytes), ?_⟩
    split
    · exact .nil _
    · exact (readUpTo_framed readNode_reads _ _).2
  · intro sha256 m now
    obtain ⟨result, returns, -, handled⟩ := Checked.handlePut_spec sha256 m d.bytes now
    exact ⟨result, returns, handled⟩
  · exact ⟨_, Checked.Message.fromBytes_eq d.bytes, fun _ => Message.toBytes_fromBytes⟩
  · exact sound_of_eq (Checked.HeartbeatMessage.fromBytes_eq d.bytes)
      fun _ => HeartbeatMessage.toBytes_fromBytes
  · exact sound_of_eq (Checked.SelfHealMessage.fromBytes_eq d.bytes)
      fun _ => SelfHealMessage.toBytes_fromBytes
  · exact sound_of_eq (Checked.TimestampedPayload.fromBytes_eq d.bytes)
      fun _ => TimestampedPayload.toBytes_fromBytes
  · exact Checked.BootstrapRequest.fromBytes_sound d.bytes

end LanLink.Vpn
