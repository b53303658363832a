import LanLink.Core.Records
import LanLink.Vpn.Dht

/-! The bytes of DHT messages: lists of nodes, stored values, and the answers of
the dispatcher. -/
namespace LanLink.Vpn
open Words Bits Maps Records
open LanLink.Chunk (slice)

def u16Max : Nat := 65535

def asBytes (text : String) : Bytes := text.toByteArray.data.toList

/-- Bytes that are not UTF-8 give the empty text. -/
def fromUtf8OrDefault (bytes : Bytes) : String := (String.fromUTF8? ⟨bytes.toArray⟩).getD ""

/-- An address that is too long is cut off. -/
def encodeNode (node : NodeID × String) : Bytes :=
  let addrBytes := asBytes node.2
  let addrLen := min addrBytes.length u16Max
  node.1.toList ++ bigEndian 2 addrLen ++ addrBytes.take addrLen

def encodeNodeList (nodes : List (NodeID × String)) : Bytes :=
  let count := min nodes.length u16Max
  bigEndian 2 count ++ (nodes.take count).flatMap encodeNode

/-- Two bytes at an offset, as a number. -/
def readU16 (data : Bytes) (offset : Nat) : Option Nat := do
  let high ← data[offset]?
  let low ← data[offset + 1]?
  return ofBigEndian [high, low]

/-- The copy into an array of 32 bytes aborts on any other length. -/
def nodeIdOf (bytes : Bytes) : Option NodeID :=
  if length : bytes.length = 32 then some ⟨bytes, length⟩ else none

def decodeNodes (data : Bytes) : Nat → Nat → List (NodeID × String) →
    Option (List (NodeID × String))
  | 0, _, nodes => some nodes
  | n + 1, offset, nodes =>
    if data.length < offset + 32 + 2 then some nodes
    else do
      let nodeId ← nodeIdOf (← slice data offset (offset + 32))
      let addrLen ← readU16 data (offset + 32)
      let offset := offset + 32 + 2
      if data.length < offset + addrLen then some nodes
      else
        let addr := fromUtf8OrDefault (← slice data offset (offset + addrLen))
        decodeNodes data n (offset + addrLen) (nodes ++ [(nodeId, addr)])

def decodeNodeList (data : Bytes) : Option (List (NodeID × String)) :=
  if data.length < 2 then some []
  else do
    let count ← readU16 data 0
    decodeNodes data count 2 []

section
variable (sha256 : Bytes → NodeID)

def DhtManager.putValue (m : DhtManager) (key value : Bytes) (ttl now : UInt64) : DhtManager :=
  { m with values := m.values.insert (sha256 key) ⟨value, now, ttl⟩ }

def DhtManager.getValueByHash (m : DhtManager) (keyHash : NodeID) (now : UInt64) :
    Option ValueEntry :=
  (m.values.lookup keyHash).filter fun v => !v.isExpired now

/-- A message that is too short changes nothing. -/
def DhtManager.handlePut (m : DhtManager) (data : Bytes) (now : UInt64) : Option DhtManager :=
  if data.length < 2 then some m
  else do
    let keyLen ← readU16 data 0
    if data.length < 2 + keyLen + 4 then some m
    else
      let key ← slice data 2 (2 + keyLen)
      let valueLen := ofBigEndian (← slice data (2 + keyLen) (2 + keyLen + 4))
      if data.length < 2 + keyLen + 4 + valueLen + 8 then some m
      else
        let value ← slice data (2 + keyLen + 4) (2 + keyLen + 4 + valueLen)
        let ttl := ofBigEndian
          (← slice data (2 + keyLen + 4 + valueLen) (2 + keyLen + 4 + valueLen + 8))
        return m.putValue sha256 key value ttl.toUInt64 now

def createDhtMessage (type : DhtMessageType) (payload : Bytes) : Bytes := type.toU8 :: payload

/-- `now` is the instant and `nowSecs` the time of the system clock. -/
def DhtManager.processMessage (m : DhtManager) (senderId : NodeID) (payload : Bytes) (now : Nat)
    (nowSecs : UInt64) : Option (DhtManager × List Bytes) :=
  match payload with
  | [] => some (m, [])
  | tag :: data =>
    match DhtMessageType.fromU8 tag with
    | none => some (m, [])
    | some .ping => some ((m.touchNode senderId now).1, [createDhtMessage .pong []])
    | some .pong => some ((m.touchNode senderId now).1, [])
    | some .findNode =>
      if data.length < 32 then some (m, [createDhtMessage .nodes (encodeNodeList [])])
      else do
        let target ← nodeIdOf (← slice data 0 32)
        return (m, [createDhtMessage .nodes (encodeNodeList (m.findNode target))])
    | some .nodes => do
      let nodes ← decodeNodeList data
      return (nodes.foldl (fun m node => (m.insertNode node.1 node.2 now).1) m, [])
    | some .put => do
      let m ← m.handlePut sha256 data nowSecs
      return (m, [])
    | some .get =>
      if data.length < 32 then some (m, [])
      else do
        let keyHash ← nodeIdOf (← slice data 0 32)
        match m.getValueByHash keyHash nowSecs with
        | none => return (m, [])
        | some entry => return (m, [createDhtMessage .value
            (keyHash.toList ++ bigEndian 4 entry.value.length ++ entry.value)])
    | some .value => some (m, [])

end

/-- A record of a node: the identifier, the length of the address and its bytes. -/
def NodeFrame (node : NodeID × String) (record : Bytes) : Prop :=
  ∃ text : Bytes, text.length ≤ u16Max ∧ node.2 = fromUtf8OrDefault text ∧
    record = node.1.toList ++ bigEndian 2 text.length ++ text

/-- The record in front of a string, with what stands behind it. -/
def readNode (bytes : Bytes) : Option ((NodeID × String) × Bytes) :=
  if bytes.length < 34 then none
  else
    let addrLen := ofBigEndian ((bytes.drop 32).take 2)
    if bytes.length < 34 + addrLen then none
    else some ((fill 32 bytes, fromUtf8OrDefault ((bytes.drop 34).take addrLen)),
      bytes.drop (34 + addrLen))

theorem slice_eq {data : Bytes} (inside : stop ≤ data.length) (order : start ≤ stop) :
    slice data start stop = some ((data.drop start).take (stop - start)) :=
  if_pos ⟨order, inside⟩

theorem slice_add {data : Bytes} (inside : offset + n ≤ data.length) :
    slice data offset (offset + n) = some ((data.drop offset).take n) := by
  rw [slice_eq inside (Nat.le_add_right _ _), Nat.add_sub_cancel_left]

theorem readU16_eq {data : Bytes} (inside : offset + 2 ≤ data.length) :
    readU16 data offset = some (ofBigEndian ((data.drop offset).take 2)) := by
  have first : offset < data.length := by omega
  have next : offset + 1 < data.length := by omega
  have bytes : (data.drop offset).take 2 = [data[offset], data[offset + 1]] := by
    rw [List.drop_eq_getElem_cons first, List.drop_eq_getElem_cons next]
    rfl
  simp [readU16, first, next, bytes]

theorem nodeIdOf_take {data : Bytes} (inside : offset + 32 ≤ data.length) :
    nodeIdOf ((data.drop offset).take 32) = some (fill 32 (data.drop offset)) := by
  have length : ((data.drop offset).take 32).length = 32 := by
    simp only [List.length_take, List.length_drop]
    omega
  have enough : 32 ≤ (data.drop offset).length := by
    simp only [List.length_drop]
    omega
  rw [nodeIdOf, dif_pos length]
  exact congrArg some (List.Vector.eq _ _ (fill_of_enough enough).symm)

theorem fill_id (id : NodeID) (rest : Bytes) : fill 32 (id.toList ++ rest) = id := by
  apply List.Vector.eq
  rw [fill_of_enough (by simp), List.take_left' id.toList_length]

theorem drop_id (id : NodeID) (rest : Bytes) : (id.toList ++ rest).drop 32 = rest :=
  List.drop_left' id.toList_length

theorem readNode_drop {data : Bytes} (inside : offset ≤ data.length) :
    readNode (data.drop offset) =
      if data.length < offset + 32 + 2 then none
      else
        let addrLen := ofBigEndian ((data.drop (offset + 32)).take 2)
        if data.length < offset + 32 + 2 + addrLen then none
        else some ((fill 32 (data.drop offset),
            fromUtf8OrDefault ((data.drop (offset + 32 + 2)).take addrLen)),
          data.drop (offset + 32 + 2 + addrLen)) := by
  have header : data.length - offset < 34 ↔ data.length < offset + 32 + 2 := by omega
  have body (addrLen : Nat) :
      data.length - offset < 34 + addrLen ↔ data.length < offset + 32 + 2 + addrLen := by omega
  have behind (addrLen : Nat) : offset + (34 + addrLen) = offset + 32 + 2 + addrLen := by omega
  simp only [readNode, List.length_drop, List.drop_drop, header, body, behind]

/-- The loop reads the records behind its offset and never leaves the data. -/
theorem decodeNodes_eq (data : Bytes) (n offset : Nat) (nodes : List (NodeID × String))
    (inside : offset ≤ data.length) :
    decodeNodes data n offset nodes = some (nodes ++ readUpTo readNode n (data.drop offset)) := by
  induction n generalizing offset nodes with
  | zero => simp [decodeNodes, readUpTo]
  | succ n ih =>
    rw [decodeNodes, readUpTo]
    rw [readNode_drop inside]
    by_cases short : data.length < offset + 32 + 2
    · simp [short]
    · have length : readU16 data (offset + 32) =
          some (ofBigEndian ((data.drop (offset + 32)).take 2)) := readU16_eq (by omega)
      have id : slice data offset (offset + 32) = some ((data.drop offset).take 32) :=
        slice_add (by omega)
      have node : nodeIdOf ((data.drop offset).take 32) = some (fill 32 (data.drop offset)) :=
        nodeIdOf_take (by omega)
      simp only [short, if_false, id, node, length, Option.bind_eq_bind, Option.bind_some]
      generalize ofBigEndian ((data.drop (offset + 32)).take 2) = addrLen
      by_cases cut : data.length < offset + 32 + 2 + addrLen
      · simp [cut]
      · have addr : slice data (offset + 32 + 2) (offset + 32 + 2 + addrLen) =
            some ((data.drop (offset + 32 + 2)).take addrLen) := slice_add (by omega)
        simp only [cut, if_false, addr, Option.bind_some]
        rw [ih _ _ (by omega), List.append_assoc, List.singleton_append]

/-- Decoding never leaves the data. -/
theorem decodeNodeList_eq (data : Bytes) :
    decodeNodeList data = some (if data.length < 2 then []
      else readUpTo readNode (ofBigEndian (data.take 2)) (data.drop 2)) := by
  rw [decodeNodeList]
  by_cases short : data.length < 2
  · simp [short]
  · have count : readU16 data 0 = some (ofBigEndian ((data.drop 0).take 2)) := readU16_eq (by omega)
    simp only [short, if_false, count, Option.bind_eq_bind, Option.bind_some, List.drop_zero]
    rw [decodeNodes_eq data _ 2 [] (by omega), List.nil_append]

theorem ofBigEndian_le_u16Max {bytes : Bytes} (two : bytes.length = 2) :
    ofBigEndian bytes ≤ u16Max := by
  have bound := ofBigEndian_lt bytes
  rw [two] at bound
  exact Nat.le_of_lt_succ bound

/-- A record of known parts is taken apart again. -/
theorem readNode_append (nodeId : NodeID) {text : Bytes} (short : text.length ≤ u16Max)
    (rest : Bytes) :
    readNode (nodeId.toList ++ (bigEndian 2 text.length ++ (text ++ rest))) =
      some ((nodeId, fromUtf8OrDefault text), rest) := by
  have idLength : nodeId.toList.length = 32 := nodeId.toList_length
  have word : text.length < 256 ^ 2 := by
    simp only [u16Max] at short
    omega
  have header : (nodeId.toList ++ (bigEndian 2 text.length ++ (text ++ rest))).drop 32 =
      bigEndian 2 text.length ++ (text ++ rest) := List.drop_left' idLength
  have body : (nodeId.toList ++ (bigEndian 2 text.length ++ (text ++ rest))).drop 34 =
      text ++ rest := by
    rw [show 34 = 32 + 2 from rfl, ← List.drop_drop, header]
    exact List.drop_left' (bigEndian_length 2 _)
  have id : fill 32 (nodeId.toList ++ (bigEndian 2 text.length ++ (text ++ rest))) = nodeId := by
    apply List.Vector.eq
    rw [fill_of_enough (by simp)]
    exact List.take_left' idLength
  have size : ofBigEndian (((nodeId.toList ++ (bigEndian 2 text.length ++ (text ++ rest))).drop
      32).take 2) = text.length := by
    rw [header, List.take_left' (bigEndian_length 2 _), ofBigEndian_bigEndian word]
  have total : (nodeId.toList ++ (bigEndian 2 text.length ++ (text ++ rest))).length =
      34 + text.length + rest.length := by
    simp only [List.length_append, idLength, bigEndian_length]
    omega
  have enough : ¬ 34 + text.length + rest.length < 34 := by omega
  have complete : ¬ 34 + text.length + rest.length < 34 + text.length := by omega
  simp only [readNode, total, enough, size, complete, if_false, id, body, ← List.drop_drop,
    List.take_left', List.drop_left']

theorem readNode_reads : Reads NodeFrame readNode where
  reads := by
    rintro ⟨nodeId, addr⟩ record rest ⟨text, short, decoded, rfl⟩
    simp only at decoded
    rw [List.append_assoc, List.append_assoc, readNode_append nodeId short rest, decoded]
  framed := by
    intro bytes node rest found
    rw [readNode] at found
    split at found
    · cases found
    · rename_i header
      dsimp only at found
      split at found
      · cases found
      · rename_i body
        cases found
        have two : ((bytes.drop 32).take 2).length = 2 := by
          simp only [List.length_take, List.length_drop]
          omega
        have length : ((bytes.drop 34).take (ofBigEndian ((bytes.drop 32).take 2))).length =
            ofBigEndian ((bytes.drop 32).take 2) := by
          simp only [List.length_take, List.length_drop]
          omega
        have word : bigEndian 2 (ofBigEndian ((bytes.drop 32).take 2)) = (bytes.drop 32).take 2 :=
          bigEndian_take (by simp only [List.length_drop]; omega)
        refine ⟨_, ⟨(bytes.drop 34).take (ofBigEndian ((bytes.drop 32).take 2)), ?_, rfl, rfl⟩, ?_⟩
        · rw [length]
          exact ofBigEndian_le_u16Max two
        · rw [length, word, fill_of_enough (by omega), List.append_assoc, List.append_assoc,
            ← List.drop_drop, List.take_append_drop, show 34 = 32 + 2 from rfl, ← List.drop_drop,
            List.take_append_drop, List.take_append_drop]

theorem fromUtf8OrDefault_asBytes (text : String) : fromUtf8OrDefault (asBytes text) = text := by
  simp only [fromUtf8OrDefault, asBytes, Array.toArray_toList]
  rw [String.fromUTF8?, dif_pos text.isValidUTF8]
  rfl

theorem encodeNode_eq {node : NodeID × String} (short : (asBytes node.2).length ≤ u16Max) :
    encodeNode node =
      node.1.toList ++ bigEndian 2 (asBytes node.2).length ++ asBytes node.2 := by
  rw [encodeNode, Nat.min_eq_left short, List.take_length]

theorem encodeNodes_framed {nodes : List (NodeID × String)}
    (short : ∀ node ∈ nodes, (asBytes node.2).length ≤ u16Max) :
    Framed NodeFrame nodes (nodes.flatMap encodeNode) := by
  induction nodes with
  | nil => exact .nil []
  | cons node rest ih =>
    obtain ⟨first, others⟩ := List.forall_mem_cons.mp short
    rw [List.flatMap_cons]
    refine .cons ?_ (ih others)
    exact ⟨asBytes node.2, first, (fromUtf8OrDefault_asBytes node.2).symm, encodeNode_eq first⟩

theorem decode_encodeNodeList {nodes : List (NodeID × String)} (few : nodes.length ≤ u16Max)
    (short : ∀ node ∈ nodes, (asBytes node.2).length ≤ u16Max) :
    decodeNodeList (encodeNodeList nodes) = some nodes := by
  have word : nodes.length < 256 ^ 2 := by
    simp only [u16Max] at few
    omega
  have two := bigEndian_length 2 nodes.length
  have enough : ¬ (bigEndian 2 nodes.length ++ nodes.flatMap encodeNode).length < 2 := by
    simp only [List.length_append, two]
    omega
  rw [encodeNodeList, Nat.min_eq_left few, List.take_length, decodeNodeList_eq, if_neg enough,
    List.take_left' two, List.drop_left' two, ofBigEndian_bigEndian word,
    readUpTo_all readNode_reads (encodeNodes_framed short)]

/-- A list of at most 65535 nodes with addresses of at most 65535 bytes is read
back as it was written. Whatever the bytes, the decoder returns the longest list
of complete records that the count announces; an address that is not UTF-8 is
returned empty. -/
theorem decodeNodeList_longest :
    (∀ nodes : List (NodeID × String), nodes.length ≤ u16Max →
      (∀ node ∈ nodes, (asBytes node.2).length ≤ u16Max) →
      decodeNodeList (encodeNodeList nodes) = some nodes) ∧
    ∀ data : Bytes, ∃ nodes, decodeNodeList data = some nodes ∧
      if data.length < 2 then nodes = []
      else Longest NodeFrame (ofBigEndian (data.take 2)) (data.drop 2) nodes := by
  refine ⟨fun nodes few short => decode_encodeNodeList few short, fun data => ?_⟩
  refine ⟨_, decodeNodeList_eq data, ?_⟩
  split
  · rfl
  · exact readUpTo_longest readNode_reads _ _

def zeroId : NodeID := List.Vector.replicate 32 0

theorem decodeNodeList_longest_one : [(zeroId, "10.0.0.3:9876")].length ≤ u16Max ∧
    (∀ node ∈ [(zeroId, "10.0.0.3:9876")], (asBytes node.2).length ≤ u16Max) ∧
    decodeNodeList (encodeNodeList [(zeroId, "10.0.0.3:9876")]) =
      some [(zeroId, "10.0.0.3:9876")] :=
  ⟨by decide, by decide, decodeNodeList_longest.1 _ (by decide) (by decide)⟩

/-- A record whose address is the text it stands for. -/
def TextFrame (node : NodeID × String) (record : Bytes) : Prop :=
  (asBytes node.2).length ≤ u16Max ∧
    record = node.1.toList ++ bigEndian 2 (asBytes node.2).length ++ asBytes node.2

/-- A byte that no text has. -/
def noText : Bytes := [0xFF]

/-- A list of one node whose address is no text. -/
def badAddress : Bytes :=
  bigEndian 2 1 ++ (zeroId.toList ++ (bigEndian 2 noText.length ++ (noText ++ [])))

theorem decode_badAddress : decodeNodeList badAddress = some [(zeroId, "")] := by
  have invalid : ¬ ByteArray.IsValidUTF8 ⟨#[0xFF]⟩ := by
    intro valid
    have first := valid.isUTF8FirstByte_getElem_zero (by decide)
    revert first
    decide
  have empty : fromUtf8OrDefault noText = "" := by
    rw [fromUtf8OrDefault, String.fromUTF8?, noText, dif_neg invalid]
    rfl
  have record : readNode (zeroId.toList ++ (bigEndian 2 noText.length ++ (noText ++ []))) =
      some ((zeroId, fromUtf8OrDefault noText), []) := readNode_append zeroId (by decide) []
  have count : ofBigEndian (badAddress.take 2) = 1 := by decide
  have body : badAddress.drop 2 =
      zeroId.toList ++ (bigEndian 2 noText.length ++ (noText ++ [])) := rfl
  rw [decodeNodeList_eq, if_neg (by decide), count, body, readUpTo, record, empty]
  rfl

/-- The decoder returns a node for an address that is no text. -/
theorem decode_invalid_address : ¬ ∃ nodes, decodeNodeList badAddress = some nodes ∧
    Longest TextFrame (ofBigEndian (badAddress.take 2)) (badAddress.drop 2) nodes := by
  rintro ⟨nodes, decoded, longest⟩
  rw [decode_badAddress] at decoded
  cases decoded
  obtain ⟨record, rest, ⟨-, encoded⟩, body, -⟩ := longest.framed.uncons
  -- the record of the node says that its address has no bytes
  have header := congrArg (fun bytes : Bytes => bytes.take 34) body
  rw [encoded] at header
  have same : (badAddress.drop 2).take 34 = List.replicate 34 0 := header
  revert same
  decide

end LanLink.Vpn
