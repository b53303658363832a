import LanLink.Core.Hex
import LanLink.Core.Json
import LanLink.Vpn.DhtMessages

/-! Messages of the relay: the frame as bytes, and the reader of a TCP stream. -/
namespace LanLink.Vpn
open Words

inductive MessageType where
  | handshake | data | ack | heartbeat | relay | registry | dht | route | selfHeal
  deriving DecidableEq, Repr

def MessageType.fromU8 (b : UInt8) : Option MessageType :=
  if b = 0x01 then some .handshake
  else if b = 0x02 then some .data
  else if b = 0x03 then some .ack
  else if b = 0x04 then some .heartbeat
  else if b = 0x05 then some .relay
  else if b = 0x06 then some .registry
  else if b = 0x07 then some .dht
  else if b = 0x08 then some .route
  else if b = 0x09 then some .selfHeal
  else none

def MessageType.toU8 : MessageType → UInt8
  | .handshake => 0x01
  | .data => 0x02
  | .ack => 0x03
  | .heartbeat => 0x04
  | .relay => 0x05
  | .registry => 0x06
  | .dht => 0x07
  | .route => 0x08
  | .selfHeal => 0x09

@[simp] theorem MessageType.fromU8_toU8 (type : MessageType) : fromU8 type.toU8 = some type := by
  cases type <;> rfl

inductive ErrorKind where
  | unexpectedEof | wouldBlock | other
  deriving DecidableEq, Repr

inductive RelayError where
  | ioError (kind : ErrorKind)
  | connectionError (msg : String)
  | parseError (msg : String)
  | poolFull
  | unreachable (addr : String)
  | timeout
  deriving DecidableEq

structure Message where
  msgType : MessageType
  payload : Bytes
  deriving DecidableEq

/-- The length field keeps the low 32 bits of the length. -/
def Message.toBytes (msg : Message) : Bytes :=
  bigEndian 4 msg.payload.length ++ msg.msgType.toU8 :: msg.payload

def Message.fromBytes : Bytes → Except RelayError Message
  | b0 :: b1 :: b2 :: b3 :: tag :: rest =>
    let len := ofBigEndian [b0, b1, b2, b3]
    match MessageType.fromU8 tag with
    | none => .error (.parseError s!"invalid message type: {tag}")
    | some msgType =>
      if rest.length < len then .error (.parseError s!"payload too short: expected {len} bytes")
      else .ok ⟨msgType, rest.take len⟩
  | _ => .error (.parseError "message too short")

/-- What is left to read of a stream, and the error of a read past its end: the end
of a stream that its writer closed, or a read that timed out. -/
structure TcpStream where
  bytes : Bytes
  ending : ErrorKind

/-- A read that fails has used up what there was. -/
def TcpStream.readExact (stream : TcpStream) (n : Nat) : Except ErrorKind Bytes × TcpStream :=
  if stream.bytes.length < n then (.error stream.ending, { stream with bytes := [] })
  else (.ok (stream.bytes.take n), { stream with bytes := stream.bytes.drop n })

def maxMessage : Nat := 1024 * 1024

/-- The type is looked at only after the payload has been read; the sender is a
placeholder. -/
def TcpServer.readMessage (stream : TcpStream) :
    Except RelayError (Option (NodeID × Message)) × TcpStream :=
  match stream.readExact 4 with
  | (.error .unexpectedEof, stream) | (.error .wouldBlock, stream) => (.ok none, stream)
  | (.error .other, stream) => (.error (.ioError .other), stream)
  | (.ok lenBuf, stream) =>
    let len := ofBigEndian lenBuf
    if maxMessage < len then (.error (.parseError "message too large"), stream)
    else
      match stream.readExact 1 with
      | (.error kind, stream) => (.error (.ioError kind), stream)
      | (.ok typeBuf, stream) =>
        match stream.readExact len with
        | (.error kind, stream) => (.error (.ioError kind), stream)
        | (.ok payload, stream) =>
          match MessageType.fromU8 (typeBuf.headD 0) with
          | none => (.error (.parseError s!"invalid type: {typeBuf.headD 0}"), stream)
          | some msgType => (.ok (some (zeroId, ⟨msgType, payload⟩)), stream)

/-- Every message is written as a whole; the stream is closed behind the last one. -/
def TcpServer.send (stream : TcpStream) (msg : Message) : TcpStream :=
  { stream with bytes := stream.bytes ++ msg.toBytes }

def TcpServer.readMessages : Nat → TcpStream →
    List (Except RelayError (Option (NodeID × Message)))
  | 0, _ => []
  | n + 1, stream => (readMessage stream).1 :: readMessages n (readMessage stream).2

theorem TcpStream.readExact_append (front : Bytes) (length : front.length = n) (rest : Bytes)
    (ending : ErrorKind) :
    readExact ⟨front ++ rest, ending⟩ n = (.ok front, ⟨rest, ending⟩) := by
  have enough : ¬ (front ++ rest).length < n := by
    rw [List.length_append]
    omega
  rw [readExact, if_neg enough, List.take_left' length, List.drop_left' length]

theorem TcpStream.readExact_ok {stream : TcpStream} {bytes : Bytes}
    (done : stream.readExact n = (.ok bytes, next)) : bytes.length = n := by
  rw [readExact] at done
  split at done
  · cases done
  · cases done
    simp
    omega

namespace TcpServer

theorem readMessage_closed : readMessage ⟨[], .unexpectedEof⟩ = (.ok none, ⟨[], .unexpectedEof⟩) :=
  rfl

/-- A message that is not too large is read back, and the stream goes on behind it. -/
theorem readMessage_toBytes {msg : Message} (small : msg.payload.length ≤ maxMessage)
    (rest : Bytes) (ending : ErrorKind) :
    readMessage ⟨msg.toBytes ++ rest, ending⟩ = (.ok (some (zeroId, msg)), ⟨rest, ending⟩) := by
  have word : msg.payload.length < 256 ^ 4 := Nat.lt_of_le_of_lt small (by decide)
  have len := ofBigEndian_bigEndian word
  have split : msg.toBytes ++ rest =
      bigEndian 4 msg.payload.length ++ ([msg.msgType.toU8] ++ (msg.payload ++ rest)) := by
    simp [Message.toBytes]
  simp only [readMessage, split, TcpStream.readExact_append _ (bigEndian_length 4 _), len,
    Nat.not_lt.mpr small, if_false, TcpStream.readExact_append (n := 1) [_] rfl,
    TcpStream.readExact_append msg.payload rfl, List.headD_cons,
    MessageType.fromU8_toU8]

/-- Whatever the stream holds, no message above the limit comes out of it. -/
theorem readMessage_small (done : (readMessage stream).1 = .ok (some (sender, msg))) :
    msg.payload.length ≤ maxMessage := by
  rw [readMessage] at done
  split at done
  case h_1 => cases done
  case h_2 => cases done
  case h_3 => cases done
  case h_4 lenBuf stream _ =>
    dsimp only at done
    split at done
    · cases done
    · rename_i small
      split at done
      · cases done
      · split at done
        · cases done
        · rename_i payload next paid
          split at done
          · cases done
          · cases done
            rw [TcpStream.readExact_ok paid]
            exact Nat.not_lt.mp small

theorem sent_bytes (messages : List Message) (stream : TcpStream) :
    messages.foldl send stream =
      { stream with bytes := stream.bytes ++ messages.flatMap Message.toBytes } := by
  induction messages generalizing stream with
  | nil => simp
  | cons msg rest ih => simp [ih, send]

theorem readMessages_flatMap (messages : List Message) :
    readMessages (messages.length + 1) ⟨messages.flatMap Message.toBytes, .unexpectedEof⟩ =
      messages.map (fun msg => .ok (some (zeroId, msg))) ++ [.ok none] ↔
    ∀ msg ∈ messages, msg.payload.length ≤ maxMessage := by
  induction messages with
  | nil => simp [readMessages, readMessage_closed]
  | cons msg rest ih =>
    rw [List.flatMap_cons, List.length_cons, readMessages, List.map_cons, List.cons_append,
      List.forall_mem_cons, ← ih]
    constructor
    · intro read
      obtain ⟨first, later⟩ := List.cons.inj read
      have small : msg.payload.length ≤ maxMessage :=
        readMessage_small first
      rw [readMessage_toBytes small] at later
      exact ⟨small, later⟩
    · rintro ⟨small, later⟩
      rw [readMessage_toBytes small, later]

/-- Messages written one after the other are read back, and then the end of the
stream, exactly when none of them is above the limit of the reader. -/
theorem readMessages_sent (messages : List Message) :
    readMessages (messages.length + 1) (messages.foldl send ⟨[], .unexpectedEof⟩) =
      messages.map (fun msg => .ok (some (zeroId, msg))) ++ [.ok none] ↔
    ∀ msg ∈ messages, msg.payload.length ≤ maxMessage := by
  rw [sent_bytes]
  exact readMessages_flatMap messages

end TcpServer

/-- The index, the data and the name of the file of a block; the keys are sorted. -/
def blockPayload (fileName : String) (blockIndex : UInt32) (data : Bytes) : Json.Value :=
  .object
    [("block_index", .number blockIndex.toNat), ("data_hex", .string (.ofList (Hex.encode data))),
      ("file_name", .string fileName)]

/-- The message that carries a block of a file. -/
def sendBlock (fileName : String) (blockIndex : UInt32) (data : Bytes) : Message :=
  ⟨.data, asBytes ("INCR_BLOCK:" ++ .ofList (blockPayload fileName blockIndex data).text)⟩

theorem length_le_asBytes (text : String) : text.toList.length ≤ (asBytes text).length := by
  rw [asBytes, ← String.utf8Encode_toList, List.utf8Encode, List.toList_data_toByteArray]
  induction text.toList with
  | nil => exact Nat.zero_le _
  | cons c rest ih =>
    have positive := c.utf8Size_pos
    rw [List.flatMap_cons, List.length_append, String.length_utf8EncodeChar, List.length_cons]
    omega

theorem length_le_quoted (text : String) : text.toList.length ≤ (Json.quoted text).length := by
  have escaped (chars : List Char) : chars.length ≤ (chars.flatMap Json.escape).length := by
    induction chars with
    | nil => exact Nat.zero_le _
    | cons c rest ih =>
      have one : 1 ≤ (Json.escape c).length := by
        rw [Json.escape]
        repeat' split
        all_goals simp
      rw [List.flatMap_cons, List.length_append, List.length_cons]
      omega
  have inner := escaped text.toList
  simp only [Json.quoted, List.cons_append, List.length_cons, List.length_append]
  omega

theorem blockPayload_length (fileName : String) (blockIndex : UInt32) (data : Bytes) :
    2 * data.length ≤ (blockPayload fileName blockIndex data).text.length := by
  have digits := length_le_quoted (.ofList (Hex.encode data))
  rw [String.toList_ofList, Hex.encode_length] at digits
  simp only [blockPayload, Json.Value.text, Json.textFields, List.length_append, List.length_cons]
  omega

theorem length_le_asBytes_append (front : String) (chars : List Char) :
    chars.length ≤ (asBytes (front ++ .ofList chars)).length := by
  have text := length_le_asBytes (front ++ .ofList chars)
  rw [String.toList_append, List.length_append, String.toList_ofList] at text
  exact (Nat.le_add_left _ _).trans text

/-- The hexadecimal digits alone take two bytes for every byte of the block. -/
theorem sendBlock_length (fileName : String) (blockIndex : UInt32) (data : Bytes) :
    2 * data.length ≤ (sendBlock fileName blockIndex data).payload.length :=
  (blockPayload_length fileName blockIndex data).trans (length_le_asBytes_append _ _)

/-- A block of the default size of 4 MiB does not come through. -/
theorem sendBlock_refused : ¬ TcpServer.readMessages 2
    ([sendBlock "video.mp4" 0 (List.replicate 4194304 0)].foldl TcpServer.send
      ⟨[], .unexpectedEof⟩) =
    [.ok (some (zeroId, sendBlock "video.mp4" 0 (List.replicate 4194304 0))), .ok none] := by
  rw [TcpServer.sent_bytes]
  intro read
  have small := (TcpServer.readMessages_flatMap
    [sendBlock "video.mp4" 0 (List.replicate 4194304 0)]).mp read _ (List.mem_singleton_self _)
  have large := sendBlock_length "video.mp4" 0 (List.replicate 4194304 0)
  rw [List.length_replicate] at large
  exact absurd (large.trans small) (by decide)

end LanLink.Vpn
