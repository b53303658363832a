import LanLink.Protocol.Control

/-! Control messages from the daemon to the client. The daemon bounds nothing:
the client reads a datagram into a buffer of one maximal packet, refuses a
frame above 64 KiB, and trims the ciphertext by the header's 16-bit length. -/
namespace LanLink.Session
open Words LanLink.Frame Crypto Control

section
variable (serialize : ControlMsg → Bytes) (encrypt : Psk → Nonce → Bytes → Option Bytes)

/-- The datagram of a message; `none` when the cipher fails and nothing is sent. -/
def sendControl (connId : UInt64) (psk : Psk) (seq : UInt64) (msg : ControlMsg) : Option Bytes :=
  controlPacket serialize encrypt connId psk seq.toUInt32 msg

def buildControlPacketTcp (connId : UInt64) (psk : Psk) (seq : UInt64) (msg : ControlMsg) : Bytes :=
  (controlPacket serialize encrypt connId psk seq.toUInt32 msg).getD []

end

/-- A frame on the stream: the length in four big-endian bytes, then the data. -/
def tcpSend (data : Bytes) : Bytes := bigEndian 4 data.length ++ data

/-- The largest frame the client accepts. -/
def maxFrame : Nat := 65536

def parsePacket (data : Bytes) : Option (PacketHeader × Bytes) :=
  (PacketHeader.decode data).map fun parsed => (parsed.1, data.drop headerSize)

/-- Trim to the length in the header. -/
def trim (hdr : PacketHeader) (ct : Bytes) : Bytes := ct.take (min hdr.payloadLen.toNat ct.length)

/-- The receive call cuts the datagram to the buffer. -/
def recvParsed (datagram : Bytes) : Except String (PacketHeader × Bytes) :=
  match parsePacket (datagram.take maxPacket) with
  | some (hdr, ct) => .ok (hdr, trim hdr ct)
  | none => .error "Bad packet"

/-- The frame at the front of the stream; `none` when the client gives up on it. -/
def tcpReadFrame (stream : Bytes) : Except String (Option Bytes) :=
  if stream.length < 4 then .ok none
  else
    let frameLen := ofBigEndian (stream.take 4)
    if frameLen = 0 ∨ maxFrame < frameLen then .ok none
    else if (stream.drop 4).length < frameLen then .error "early eof"
    else .ok (some ((stream.drop 4).take frameLen))

section
variable (decrypt : Psk → Nonce → Bytes → Option Bytes) (deserialize : Bytes → Option ControlMsg)

def openControl (psk : Psk) (nonce : Nonce) (ct : Bytes) : Option ControlMsg :=
  (decrypt psk nonce ct).bind deserialize

def recvControlUdp (psk : Psk) (datagram : Bytes) : Except String (Option ControlMsg) := do
  let (hdr, data) ← recvParsed datagram
  if hdr.pktType ≠ .data ∨ data.isEmpty then return none
  return openControl decrypt deserialize psk hdr.nonce data

def recvControlTcp (psk : Psk) (stream : Bytes) : Except String (Option ControlMsg) := do
  match ← tcpReadFrame stream with
  | some frame =>
    match PacketHeader.decode frame with
    | some (hdr, _) =>
      if hdr.pktType ≠ .data then return none
      return openControl decrypt deserialize psk hdr.nonce (trim hdr (frame.drop headerSize))
    | none => return none
  | none => return none

end

/-- The cipher on one plaintext: it succeeds, appends a 16-byte tag and opens
what it sealed; whatever opens under the nonce is 16 bytes longer than its
plaintext. -/
structure Opens (encrypt decrypt : Psk → Nonce → Bytes → Option Bytes) (psk : Psk) (nonce : Nonce)
    (plaintext ciphertext : Bytes) : Prop where
  encrypted : encrypt psk nonce plaintext = some ciphertext
  decrypted : decrypt psk nonce ciphertext = some plaintext
  length : ciphertext.length = plaintext.length + 16
  tagged : ∀ c p, decrypt psk nonce c = some p → c.length = p.length + 16

/-- The serializer on one message: it reads back what it wrote, and reads the
message from nothing that does not start with its bytes. -/
structure Reads (serialize : ControlMsg → Bytes) (deserialize : Bytes → Option ControlMsg)
    (msg : ControlMsg) : Prop where
  roundTrip : deserialize (serialize msg) = some msg
  canonical : ∀ bytes, deserialize bytes = some msg → serialize msg <+: bytes

section
variable {serialize : ControlMsg → Bytes} {deserialize : Bytes → Option ControlMsg}
  {encrypt decrypt : Psk → Nonce → Bytes → Option Bytes} {psk : Psk} {connId : UInt64}
  {seq : UInt64} {msg : ControlMsg} {ciphertext : Bytes}

/-- A ciphertext that opens to the message is long enough to hold it. -/
theorem openControl_length (reads : Reads serialize deserialize msg)
    (cipher : Opens encrypt decrypt psk nonce (serialize msg) ciphertext)
    (received : openControl decrypt deserialize psk nonce ct = some msg) :
    (serialize msg).length + 16 ≤ ct.length := by
  obtain ⟨plaintext, decrypted, parsed⟩ := Option.bind_eq_some_iff.mp received
  have longer := cipher.tagged ct plaintext decrypted
  have inside := (reads.canonical plaintext parsed).length_le
  omega

theorem openControl_whole (reads : Reads serialize deserialize msg)
    (cipher : Opens encrypt decrypt psk nonce (serialize msg) ciphertext) :
    openControl decrypt deserialize psk nonce ciphertext = some msg := by
  rw [openControl, cipher.decrypted, Option.bind_some, reads.roundTrip]

/-- The header the daemon puts in front of a ciphertext. -/
def replyHeader (connId : UInt64) (seq : UInt32) (ciphertext : Bytes) : PacketHeader where
  connId
  pktType := .data
  flags := .reliable
  streamId := StreamId.control.toU16
  seq
  ackSeq := 0
  ackBitmap := 0
  payloadLen := ciphertext.length.toUInt16
  nonce := makeNonce connId seq

theorem controlPacket_eq {seq : UInt32}
    (cipher : Opens encrypt decrypt psk (makeNonce connId seq) (serialize msg) ciphertext) :
    controlPacket serialize encrypt connId psk seq msg =
      some ((replyHeader connId seq ciphertext).encode ++ ciphertext) := by
  simp only [controlPacket, sealing, cipher.encrypted, Option.map_some]
  rfl

theorem take_packet (hdr : PacketHeader) (ct : Bytes) (n : Nat) :
    (hdr.encode ++ ct).take (headerSize + n) = hdr.encode ++ ct.take n := by
  rw [List.take_append, PacketHeader.encode_length, List.take_of_length_le (by simp),
    Nat.add_sub_cancel_left]

theorem drop_packet (hdr : PacketHeader) (ct : Bytes) :
    (hdr.encode ++ ct).drop headerSize = ct := by
  rw [← hdr.encode_length, List.drop_left]

theorem trim_length (hdr : PacketHeader) (ct : Bytes) : (trim hdr ct).length ≤ ct.length := by
  simp [trim]

/-- A length that fits the header's field survives the trimming. -/
theorem trim_whole {seq : UInt32} (fits : ciphertext.length < 2 ^ 16) :
    trim (replyHeader connId seq ciphertext) ciphertext = ciphertext := by
  have kept : ciphertext.length.toUInt16.toNat = ciphertext.length := by
    simpa using Nat.mod_eq_of_lt fits
  simp [trim, replyHeader, kept]

theorem recvControlUdp_packet {seq : UInt32} :
    recvControlUdp decrypt deserialize psk
        ((replyHeader connId seq ciphertext).encode ++ ciphertext) =
      .ok (if (trim (replyHeader connId seq ciphertext) (ciphertext.take (maxPayload + 16))).isEmpty
        then none
        else openControl decrypt deserialize psk (makeNonce connId seq)
          (trim (replyHeader connId seq ciphertext) (ciphertext.take (maxPayload + 16)))) := by
  have cut := take_packet (replyHeader connId seq ciphertext) ciphertext (maxPayload + 16)
  have size : maxPacket = headerSize + (maxPayload + 16) := rfl
  have kind : (replyHeader connId seq ciphertext).pktType = .data := rfl
  simp only [recvControlUdp, recvParsed, parsePacket, size, cut, PacketHeader.decode_encode,
    Option.map_some, drop_packet, bind, Except.bind, kind, ne_eq, not_true_eq_false, false_or]
  split <;> rfl

/-- Over UDP a message arrives exactly when it fits the receive buffer. -/
theorem udp_received_iff {seq : UInt32} (reads : Reads serialize deserialize msg)
    (cipher : Opens encrypt decrypt psk (makeNonce connId seq) (serialize msg) ciphertext) :
    recvControlUdp decrypt deserialize psk
        ((replyHeader connId seq ciphertext).encode ++ ciphertext) = .ok (some msg) ↔
      (serialize msg).length ≤ maxPayload := by
  rw [recvControlUdp_packet]
  constructor
  · intro received
    have opened := Except.ok.inj received
    split at opened
    · cases opened
    · have enough := openControl_length reads cipher opened
      have cut := trim_length (replyHeader connId seq ciphertext)
        (ciphertext.take (maxPayload + 16))
      rw [List.length_take] at cut
      omega
  · intro small
    have length := cipher.length
    have whole : ciphertext.take (maxPayload + 16) = ciphertext :=
      List.take_of_length_le (by omega)
    have fits : ciphertext.length < 2 ^ 16 := by
      simp only [maxPayload] at small
      omega
    have filled : ciphertext.isEmpty = false := by
      cases ciphertext with
      | nil => simp at length
      | cons byte rest => rfl
    rw [whole, trim_whole fits, filled, openControl_whole reads cipher]
    rfl

theorem tcpReadFrame_send (data : Bytes) : tcpReadFrame (tcpSend data) =
    if ofBigEndian (bigEndian 4 data.length) = 0 ∨ maxFrame < ofBigEndian (bigEndian 4 data.length)
    then .ok none
    else if data.length < ofBigEndian (bigEndian 4 data.length) then .error "early eof"
    else .ok (some (data.take (ofBigEndian (bigEndian 4 data.length)))) := by
  have long : ¬(tcpSend data).length < 4 := by simp [tcpSend]
  have length : (tcpSend data).take 4 = bigEndian 4 data.length := by simp [tcpSend]
  have rest : (tcpSend data).drop 4 = data := by simp [tcpSend]
  simp only [tcpReadFrame, long, if_false, length, rest]

/-- What the client makes of the first `n` bytes of a packet. -/
theorem frame_received {seq : UInt32} (reads : Reads serialize deserialize msg)
    (cipher : Opens encrypt decrypt psk (makeNonce connId seq) (serialize msg) ciphertext)
    (decoded : PacketHeader.decode
      (((replyHeader connId seq ciphertext).encode ++ ciphertext).take n) = some (hdr, rest))
    (received : openControl decrypt deserialize psk hdr.nonce (trim hdr
      ((((replyHeader connId seq ciphertext).encode ++ ciphertext).take n).drop headerSize)) =
      some msg) : headerSize + (serialize msg).length + 16 ≤ n := by
  have enough := PacketHeader.decode_length decoded
  have reach : headerSize ≤ n := by
    rw [List.length_take] at enough
    omega
  obtain ⟨k, rfl⟩ := Nat.exists_eq_add_of_le reach
  rw [take_packet, PacketHeader.decode_encode] at decoded
  cases decoded
  rw [take_packet, drop_packet] at received
  have inside := openControl_length reads cipher received
  have cut := trim_length (replyHeader connId seq ciphertext) (ciphertext.take k)
  rw [List.length_take] at cut
  omega

/-- Over TCP a message arrives exactly when its frame is not refused. -/
theorem tcp_received_iff {seq : UInt32} (reads : Reads serialize deserialize msg)
    (cipher : Opens encrypt decrypt psk (makeNonce connId seq) (serialize msg) ciphertext) :
    recvControlTcp decrypt deserialize psk
        (tcpSend ((replyHeader connId seq ciphertext).encode ++ ciphertext)) = .ok (some msg) ↔
      headerSize + (serialize msg).length + 16 ≤ maxFrame := by
  have length := cipher.length
  have size : ((replyHeader connId seq ciphertext).encode ++ ciphertext).length =
      headerSize + ((serialize msg).length + 16) := by
    rw [List.length_append, PacketHeader.encode_length, length]
  simp only [recvControlTcp, tcpReadFrame_send]
  constructor
  · intro received
    split at received
    · cases received
    · rename_i accepted
      split at received
      · cases received
      · simp only [bind, Except.bind] at received
        split at received
        · rename_i hdr rest decoded
          split at received
          · cases received
          · have inside := frame_received reads cipher decoded (Except.ok.inj received)
            omega
        · cases received
  · intro small
    have announced : ofBigEndian (bigEndian 4
        ((replyHeader connId seq ciphertext).encode ++ ciphertext).length) =
        ((replyHeader connId seq ciphertext).encode ++ ciphertext).length := by
      apply ofBigEndian_bigEndian
      rw [size]
      simp only [maxFrame] at small
      omega
    have accepted : ¬(((replyHeader connId seq ciphertext).encode ++ ciphertext).length = 0 ∨
        maxFrame < ((replyHeader connId seq ciphertext).encode ++ ciphertext).length) := by
      rw [size]
      omega
    have fits : ciphertext.length < 2 ^ 16 := by
      simp only [maxFrame, headerSize] at small
      omega
    have kind : (replyHeader connId seq ciphertext).pktType = .data := rfl
    have nonce : (replyHeader connId seq ciphertext).nonce = makeNonce connId seq := rfl
    simp only [announced, accepted, if_false, Nat.lt_irrefl, List.take_length, bind, Except.bind,
      PacketHeader.decode_encode, kind, ne_eq, not_true_eq_false, drop_packet, trim_whole fits,
      nonce, openControl_whole reads cipher]
    rfl

end

/-- A control message of the daemon reaches the client unchanged exactly when
its serialized form leaves room for the tag in a maximal packet, over UDP, or
for header and tag in 64 KiB, over TCP. -/
theorem control_received_iff (serialize : ControlMsg → Bytes)
    (deserialize : Bytes → Option ControlMsg) (encrypt decrypt : Psk → Nonce → Bytes → Option Bytes)
    (psk : Psk) (connId seq : UInt64) (msg : ControlMsg) (ciphertext : Bytes)
    (reads : Reads serialize deserialize msg)
    (cipher : Opens encrypt decrypt psk (makeNonce connId seq.toUInt32) (serialize msg) ciphertext) :
    ((∃ packet, sendControl serialize encrypt connId psk seq msg = some packet ∧
        recvControlUdp decrypt deserialize psk packet = .ok (some msg)) ↔
      (serialize msg).length ≤ maxPayload) ∧
    (recvControlTcp decrypt deserialize psk
        (tcpSend (buildControlPacketTcp serialize encrypt connId psk seq msg)) = .ok (some msg) ↔
      headerSize + (serialize msg).length + 16 ≤ maxFrame) := by
  simp only [sendControl, buildControlPacketTcp, controlPacket_eq cipher, Option.some.injEq,
    exists_eq_left', Option.getD_some]
  exact ⟨udp_received_iff reads cipher, tcp_received_iff reads cipher⟩

/-- The announcement of command 7, and its packet as encrypted under the zero key. -/
def started : ControlMsg := .execStarted 7

def startedBytes : Bytes := [14, 0, 0, 0, 7, 0, 0, 0]

def startedSealed : Bytes :=
  [0x48, 0xf0, 0xf6, 0xef, 0xe9, 0x15, 0xc8, 0xf1, 0x24, 0x49, 0x2b, 0x11, 0xcf, 0x05, 0x27, 0x1f,
    0x9a, 0xaa, 0xc6, 0xc1, 0x50, 0x6e, 0x7e, 0x18]

def startedSerialize : ControlMsg → Bytes
  | .execStarted id => [14, 0, 0, 0] ++ littleEndian 4 id.toNat
  | _ => []

def startedDeserialize (bytes : Bytes) : Option ControlMsg :=
  if bytes.take 8 = startedBytes then some started else none

def startedEncrypt (psk : Psk) (nonce : Nonce) (plaintext : Bytes) : Option Bytes :=
  if psk = fill 32 [] ∧ nonce = makeNonce 1 0 ∧ plaintext = startedBytes then some startedSealed
  else none

def startedDecrypt (psk : Psk) (nonce : Nonce) (ciphertext : Bytes) : Option Bytes :=
  if psk = fill 32 [] ∧ nonce = makeNonce 1 0 ∧ ciphertext = startedSealed then some startedBytes
  else none

theorem control_received_iff_started :
    (∃ packet, sendControl startedSerialize startedEncrypt 1 (fill 32 []) 0 started = some packet ∧
      recvControlUdp startedDecrypt startedDeserialize (fill 32 []) packet = .ok (some started)) ∧
    recvControlTcp startedDecrypt startedDeserialize (fill 32 [])
      (tcpSend (buildControlPacketTcp startedSerialize startedEncrypt 1 (fill 32 []) 0 started)) =
      .ok (some started) := by
  have reads : Reads startedSerialize startedDeserialize started := by
    refine ⟨rfl, ?_⟩
    intro bytes parsed
    obtain ⟨front, -⟩ := Option.ite_none_right_eq_some.mp parsed
    exact ⟨bytes.drop 8, by
      rw [show startedSerialize started = bytes.take 8 from front.symm, List.take_append_drop]⟩
  have cipher : Opens startedEncrypt startedDecrypt (fill 32 []) (makeNonce 1 (UInt64.toUInt32 0))
      (startedSerialize started) startedSealed := by
    refine ⟨by decide, by decide, by decide, ?_⟩
    intro c p opened
    obtain ⟨⟨-, -, rfl⟩, ⟨⟩⟩ := Option.ite_none_right_eq_some.mp opened
    rfl
  have received := control_received_iff startedSerialize startedDeserialize startedEncrypt
    startedDecrypt (fill 32 []) 1 0 started startedSealed reads cipher
  exact ⟨received.1.mpr (by decide), received.2.mpr (by decide)⟩

/-- Command output of 1384 bytes: one byte more than a maximal packet carries. -/
def longOutput : ControlMsg := .execChunk 1 0 (List.replicate 1384 0)

def chunkSerialize : ControlMsg → Bytes
  | .execChunk id stream data =>
    [15, 0, 0, 0] ++ littleEndian 4 id.toNat ++ [stream] ++ littleEndian 8 data.length ++ data
  | _ => []

def chunkDeserialize (bytes : Bytes) : Option ControlMsg :=
  if chunkSerialize longOutput <+: bytes then some longOutput else none

/-- A cipher that does nothing but append and check a tag. -/
def tagEncrypt (_ : Psk) (_ : Nonce) (plaintext : Bytes) : Option Bytes :=
  some (plaintext ++ List.replicate 16 0)

def tagDecrypt (_ : Psk) (_ : Nonce) (ciphertext : Bytes) : Option Bytes :=
  if 16 ≤ ciphertext.length ∧ ciphertext.drop (ciphertext.length - 16) = List.replicate 16 0 then
    some (ciphertext.take (ciphertext.length - 16))
  else none

theorem chunkSerialize_length (id : UInt32) (stream : UInt8) (data : Bytes) :
    (chunkSerialize (.execChunk id stream data)).length = 17 + data.length := by
  simp [chunkSerialize]
  omega

theorem longOutput_reads : Reads chunkSerialize chunkDeserialize longOutput := by
  refine ⟨if_pos List.prefix_rfl, ?_⟩
  intro bytes parsed
  exact (Option.ite_none_right_eq_some.mp parsed).1

theorem tag_opens (psk : Psk) (nonce : Nonce) (plaintext : Bytes) :
    Opens tagEncrypt tagDecrypt psk nonce plaintext (plaintext ++ List.replicate 16 0) := by
  refine ⟨rfl, by simp [tagDecrypt], by simp, ?_⟩
  intro c p opened
  obtain ⟨⟨long, -⟩, ⟨⟩⟩ := Option.ite_none_right_eq_some.mp opened
  rw [List.length_take]
  omega

/-- The packet is built and sent, and the client does not get the message. -/
theorem long_output_lost :
    Reads chunkSerialize chunkDeserialize longOutput ∧
    Opens tagEncrypt tagDecrypt (fill 32 []) (makeNonce 1 (UInt64.toUInt32 0))
      (chunkSerialize longOutput) (chunkSerialize longOutput ++ List.replicate 16 0) ∧
    ∃ packet, sendControl chunkSerialize tagEncrypt 1 (fill 32 []) 0 longOutput = some packet ∧
      recvControlUdp tagDecrypt chunkDeserialize (fill 32 []) packet ≠ .ok (some longOutput) := by
  have cipher := tag_opens (fill 32 []) (makeNonce 1 (UInt64.toUInt32 0)) (chunkSerialize longOutput)
  refine ⟨longOutput_reads, cipher, _, controlPacket_eq cipher, ?_⟩
  intro received
  have small := (udp_received_iff longOutput_reads cipher).mp received
  rw [longOutput, chunkSerialize_length, List.length_replicate] at small
  exact absurd small (by decide)

end LanLink.Session
