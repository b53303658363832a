import LanLink.Vpn.Handshake
import LanLink.Vpn.Relay
import LanLink.Vpn.SelfHeal

/-! The formats of self-heal messages and heartbeats, and how they travel in the
frames of the relay. The offsets of the source are the drops and takes of the
readers. -/
namespace LanLink.Vpn
open Words

def HealMsgType.fromU8 (b : UInt8) : Option HealMsgType :=
  if b = 0x01 then some .healPing
  else if b = 0x02 then some .healPong
  else if b = 0x03 then some .partitionSync
  else none

def HealMsgType.toU8 : HealMsgType → UInt8
  | .healPing => 0x01
  | .healPong => 0x02
  | .partitionSync => 0x03

@[simp] theorem HealMsgType.fromU8_toU8 (type : HealMsgType) : fromU8 type.toU8 = some type := by
  cases type <;> rfl

def SelfHealMessage.toBytes (msg : SelfHealMessage) : Bytes :=
  msg.msgType.toU8 :: (msg.senderId.toList ++ (bigEndian 8 msg.timestamp.toNat ++ msg.payload))

def SelfHealMessage.fromBytes (data : Bytes) : Option SelfHealMessage :=
  if data.length < 1 + 32 + 8 then none
  else do
    let msgType ← HealMsgType.fromU8 (← data[0]?)
    return ⟨msgType, fill 32 (data.drop 1), (ofBigEndian ((data.drop (1 + 32)).take 8)).toUInt64,
      data.drop (1 + 32 + 8)⟩

inductive HeartbeatMsgType where
  | request | response
  deriving DecidableEq, Repr

def HeartbeatMsgType.fromU8 (b : UInt8) : Option HeartbeatMsgType :=
  if b = 0x01 then some .request
  else if b = 0x02 then some .response
  else none

def HeartbeatMsgType.toU8 : HeartbeatMsgType → UInt8
  | .request => 0x01
  | .response => 0x02

@[simp] theorem HeartbeatMsgType.fromU8_toU8 (type : HeartbeatMsgType) :
    fromU8 type.toU8 = some type := by
  cases type <;> rfl

structure HeartbeatMessage where
  msgType : HeartbeatMsgType
  senderId : NodeID
  timestamp : UInt64
  sequence : UInt64
  deriving DecidableEq

def HeartbeatMessage.toBytes (msg : HeartbeatMessage) : Bytes :=
  msg.msgType.toU8 :: (msg.senderId.toList ++
    (bigEndian 8 msg.timestamp.toNat ++ bigEndian 8 msg.sequence.toNat))

def HeartbeatMessage.fromBytes (data : Bytes) : Option HeartbeatMessage :=
  if data.length < 1 + 32 + 8 + 8 then none
  else do
    let msgType ← HeartbeatMsgType.fromU8 (← data[0]?)
    return ⟨msgType, fill 32 (data.drop 1), (ofBigEndian ((data.drop 33).take 8)).toUInt64,
      (ofBigEndian ((data.drop 41).take 8)).toUInt64⟩

/-- A word of 64 bits in front of a string is read back. -/
theorem ofBigEndian_take_word (word : UInt64) (rest : Bytes) :
    (ofBigEndian ((bigEndian 8 word.toNat ++ rest).take 8)).toUInt64 = word := by
  have range : word.toNat < 256 ^ 8 := word.toNat_lt
  rw [List.take_left' (bigEndian_length 8 _), ofBigEndian_bigEndian range, Nat.toUInt64,
    UInt64.ofNat_toNat]

theorem drop_word (word : UInt64) (rest : Bytes) :
    (bigEndian 8 word.toNat ++ rest).drop 8 = rest :=
  List.drop_left' (bigEndian_length 8 _)

theorem SelfHealMessage.fromBytes_toBytes (msg : SelfHealMessage) :
    fromBytes msg.toBytes = some msg := by
  have long : ¬ msg.toBytes.length < 1 + 32 + 8 := by
    simp [toBytes]
    omega
  have body : msg.toBytes.drop 1 =
      msg.senderId.toList ++ (bigEndian 8 msg.timestamp.toNat ++ msg.payload) := rfl
  have behind : msg.toBytes.drop (1 + 32) = bigEndian 8 msg.timestamp.toNat ++ msg.payload := by
    rw [← List.drop_drop, body, drop_id]
  have rest : msg.toBytes.drop (1 + 32 + 8) = msg.payload := by
    rw [← List.drop_drop, behind, drop_word]
  rw [fromBytes, if_neg long, body, behind, rest, fill_id, ofBigEndian_take_word]
  simp [toBytes]

theorem HeartbeatMessage.fromBytes_toBytes (msg : HeartbeatMessage) :
    fromBytes msg.toBytes = some msg := by
  have long : ¬ msg.toBytes.length < 1 + 32 + 8 + 8 := by simp [toBytes]
  have body : msg.toBytes.drop 1 = msg.senderId.toList ++
      (bigEndian 8 msg.timestamp.toNat ++ bigEndian 8 msg.sequence.toNat) := rfl
  have behind : msg.toBytes.drop 33 =
      bigEndian 8 msg.timestamp.toNat ++ bigEndian 8 msg.sequence.toNat := by
    rw [show 33 = 1 + 32 from rfl, ← List.drop_drop, body, drop_id]
  have rest : msg.toBytes.drop 41 = bigEndian 8 msg.sequence.toNat ++ [] := by
    rw [show 41 = 33 + 8 from rfl, ← List.drop_drop, behind, drop_word, List.append_nil]
  rw [fromBytes, if_neg long, body, behind, rest, fill_id, ofBigEndian_take_word,
    ofBigEndian_take_word]
  simp [toBytes]

theorem Message.fromBytes_toBytes {msg : Message} (small : msg.payload.length < 2 ^ 32)
    (suffix : Bytes) : fromBytes (msg.toBytes ++ suffix) = .ok msg := by
  have len : ofBigEndian (bigEndian 4 msg.payload.length) = msg.payload.length :=
    ofBigEndian_bigEndian small
  obtain ⟨b0, b1, b2, b3, word⟩ := List.length_eq_four.mp (bigEndian_length 4 msg.payload.length)
  rw [word] at len
  simp [toBytes, fromBytes, word, len]

/-- What the frame accepts: five bytes at least, a known type, and as many bytes behind
them as the length says. -/
theorem Message.fromBytes_ok_iff (data : Bytes) : (∃ msg, fromBytes data = .ok msg) ↔
    5 ≤ data.length ∧ (∃ tag type, data[4]? = some tag ∧ MessageType.fromU8 tag = some type) ∧
    5 + ofBigEndian (data.take 4) ≤ data.length := by
  match data with
  | [] | [_] | [_, _] | [_, _, _] | [_, _, _, _] => simp [fromBytes]
  | b0 :: b1 :: b2 :: b3 :: tag :: rest =>
    cases known : MessageType.fromU8 tag with
    | none => simp [fromBytes, known]
    | some type =>
      have bound : 5 + ofBigEndian [b0, b1, b2, b3] ≤ rest.length + 5 ↔
          ¬ rest.length < ofBigEndian [b0, b1, b2, b3] := by omega
      by_cases short : rest.length < ofBigEndian [b0, b1, b2, b3]
      · simp [fromBytes, known, short, bound]
      · simp [fromBytes, known, short, bound]

/-- A message of another format inside a frame: the frame, then its payload. -/
def unwrap (fromBytes : Bytes → Option α) (frame : Bytes) : Option α :=
  match Message.fromBytes frame with
  | .ok msg => fromBytes msg.payload
  | .error _ => none

theorem unwrap_toBytes {fromBytes : Bytes → Option α} {inner : Bytes}
    (small : inner.length < 2 ^ 32) (reads : fromBytes inner = some a) (type : MessageType)
    (suffix : Bytes) : unwrap fromBytes (Message.toBytes ⟨type, inner⟩ ++ suffix) = some a := by
  have frame : Message.fromBytes (Message.toBytes ⟨type, inner⟩ ++ suffix) = .ok ⟨type, inner⟩ :=
    Message.fromBytes_toBytes small suffix
  rw [unwrap, frame]
  exact reads

/-- Every format reads back what it writes, the frame also with anything behind it; a
frame accepts exactly the strings that are long enough and of a known type; and a
self-heal message or a heartbeat is recovered from the frame it travels in. -/
theorem message_codecs :
    (∀ (msg : Message) (suffix : Bytes), msg.payload.length < 2 ^ 32 →
      Message.fromBytes (msg.toBytes ++ suffix) = .ok msg) ∧
    (∀ data, (∃ msg, Message.fromBytes data = .ok msg) ↔
      5 ≤ data.length ∧ (∃ tag type, data[4]? = some tag ∧ MessageType.fromU8 tag = some type) ∧
      5 + ofBigEndian (data.take 4) ≤ data.length) ∧
    (∀ msg, SelfHealMessage.fromBytes msg.toBytes = some msg) ∧
    (∀ msg, HeartbeatMessage.fromBytes msg.toBytes = some msg) ∧
    (∀ t, TimestampedPayload.fromBytes t.toBytes = some t) ∧
    (∀ (msg : SelfHealMessage) type suffix, msg.toBytes.length < 2 ^ 32 →
      unwrap SelfHealMessage.fromBytes (Message.toBytes ⟨type, msg.toBytes⟩ ++ suffix) = some msg) ∧
    ∀ (msg : HeartbeatMessage) type suffix, unwrap HeartbeatMessage.fromBytes
      (Message.toBytes ⟨type, msg.toBytes⟩ ++ suffix) = some msg := by
  refine ⟨fun _ suffix small => Message.fromBytes_toBytes small suffix, Message.fromBytes_ok_iff,
    SelfHealMessage.fromBytes_toBytes, HeartbeatMessage.fromBytes_toBytes,
    TimestampedPayload.fromBytes_toBytes, ?_, ?_⟩
  · intro msg type suffix small
    exact unwrap_toBytes small msg.fromBytes_toBytes type suffix
  · intro msg type suffix
    have small : msg.toBytes.length < 2 ^ 32 := by simp [HeartbeatMessage.toBytes]
    exact unwrap_toBytes small msg.fromBytes_toBytes type suffix

theorem message_codecs_ping : (SelfHealMessage.toBytes ⟨.healPing, zeroId, 7, [1, 2]⟩).length = 43 ∧
    unwrap SelfHealMessage.fromBytes (Message.toBytes
      ⟨.selfHeal, SelfHealMessage.toBytes ⟨.healPing, zeroId, 7, [1, 2]⟩⟩ ++ [9]) =
      some ⟨.healPing, zeroId, 7, [1, 2]⟩ :=
  ⟨by decide, message_codecs.2.2.2.2.2.1 _ _ _ (by decide)⟩

end LanLink.Vpn
