import LanLink.Core.Words

/-! The 38-byte packet header and its little-endian wire format. Decoding
returns the header with the unread suffix; it inspects no payload byte. -/
namespace LanLink.Frame
open Words

def protocolVersion : UInt16 := 1
def headerSize : Nat := 38
def maxPayload : Nat := 1400
/-- Header, payload and the 16-byte authentication tag. -/
def maxPacket : Nat := headerSize + maxPayload + 16

inductive PacketType where
  | syn | synAck | ack | data | rst | heartbeat
  deriving DecidableEq, Repr

def PacketType.toU8 : PacketType → UInt8
  | .syn => 0
  | .synAck => 1
  | .ack => 2
  | .data => 3
  | .rst => 4
  | .heartbeat => 5

def PacketType.fromU8 (v : UInt8) : Option PacketType :=
  match v.toNat with
  | 0 => some .syn
  | 1 => some .synAck
  | 2 => some .ack
  | 3 => some .data
  | 4 => some .rst
  | 5 => some .heartbeat
  | _ => none

@[simp] theorem PacketType.fromU8_toU8 (kind : PacketType) : fromU8 kind.toU8 = some kind := by
  cases kind <;> rfl

inductive StreamId where
  | control | video | audioTx | audioRx | input | file
  deriving DecidableEq, Repr

def StreamId.toU16 : StreamId → UInt16
  | .control => 0
  | .video => 1
  | .audioTx => 2
  | .audioRx => 3
  | .input => 4
  | .file => 5

/-- The raw flag byte; `from_bits_retain` keeps bits without a name. -/
structure Flags where
  bits : UInt8
  deriving DecidableEq, Repr

def Flags.empty : Flags := ⟨0⟩
def Flags.reliable : Flags := ⟨1⟩

abbrev Nonce := List.Vector UInt8 12

structure PacketHeader where
  connId : UInt64
  pktType : PacketType
  flags : Flags
  streamId : UInt16
  seq : UInt32
  ackSeq : UInt32
  ackBitmap : UInt32
  payloadLen : UInt16
  nonce : Nonce
  deriving DecidableEq

def PacketHeader.encode (h : PacketHeader) : Bytes :=
  littleEndian 8 h.connId.toNat ++ littleEndian 1 h.pktType.toU8.toNat ++
  littleEndian 1 h.flags.bits.toNat ++ littleEndian 2 h.streamId.toNat ++
  littleEndian 4 h.seq.toNat ++ littleEndian 4 h.ackSeq.toNat ++
  littleEndian 4 h.ackBitmap.toNat ++ littleEndian 2 h.payloadLen.toNat ++ h.nonce.toList

/-- Read one little-endian field and advance the buffer past it. -/
def getLe (width : Nat) (buf : Bytes) : Nat × Bytes :=
  (ofLittleEndian (buf.take width), buf.drop width)

def PacketHeader.decode (buf : Bytes) : Option (PacketHeader × Bytes) :=
  if buf.length < headerSize then none
  else
    let connId := getLe 8 buf
    let kind := getLe 1 connId.2
    match PacketType.fromU8 kind.1.toUInt8 with
    | none => none
    | some pktType =>
      let flags := getLe 1 kind.2
      let streamId := getLe 2 flags.2
      let seq := getLe 4 streamId.2
      let ackSeq := getLe 4 seq.2
      let ackBitmap := getLe 4 ackSeq.2
      let payloadLen := getLe 2 ackBitmap.2
      some (⟨connId.1.toUInt64, pktType, ⟨flags.1.toUInt8⟩, streamId.1.toUInt16,
        seq.1.toUInt32, ackSeq.1.toUInt32, ackBitmap.1.toUInt32, payloadLen.1.toUInt16,
        fill 12 payloadLen.2⟩, payloadLen.2.drop 12)

@[simp] theorem PacketHeader.encode_length (h : PacketHeader) : h.encode.length = headerSize := by
  simp [encode, headerSize]

theorem getLe_append (fits : value < 256 ^ w) (rest : Bytes) :
    getLe w (littleEndian w value ++ rest) = (value, rest) := by
  simp [getLe, ofLittleEndian_littleEndian fits]

theorem fill_append (bytes : List.Vector UInt8 n) (rest : Bytes) :
    fill n (bytes.toList ++ rest) = bytes := by
  apply List.Vector.eq
  simp [fill]

/-- Whatever follows the header on the wire is handed back untouched. -/
theorem PacketHeader.decode_encode (h : PacketHeader) (rest : Bytes) :
    decode (h.encode ++ rest) = some (h, rest) := by
  have enough : ¬ (h.encode ++ rest).length < headerSize := by simp
  have connId := h.connId.toNat_lt
  have kind := h.pktType.toU8.toNat_lt
  have flags := h.flags.bits.toNat_lt
  have streamId := h.streamId.toNat_lt
  have seq := h.seq.toNat_lt
  have ackSeq := h.ackSeq.toNat_lt
  have ackBitmap := h.ackBitmap.toNat_lt
  have payloadLen := h.payloadLen.toNat_lt
  rw [decode, if_neg enough]
  simp only [encode, List.append_assoc, getLe_append (w := 8) connId,
    getLe_append (w := 1) kind, getLe_append (w := 1) flags,
    getLe_append (w := 2) streamId, getLe_append (w := 4) seq,
    getLe_append (w := 4) ackSeq, getLe_append (w := 4) ackBitmap,
    getLe_append (w := 2) payloadLen, fill_append]
  simp

theorem PacketHeader.decode_bare (h : PacketHeader) : decode h.encode = some (h, []) := by
  simpa using decode_encode h []

theorem PacketHeader.decode_length (decoded : decode buf = some (h, rest)) :
    headerSize ≤ buf.length := by
  rw [decode] at decoded
  split at decoded
  · contradiction
  · omega

/-- A field that was read can be written back in front of what is left. -/
theorem getLe_spec {buf : Bytes} (enough : w ≤ buf.length) :
    littleEndian w (getLe w buf).1 ++ (getLe w buf).2 = buf := by
  have width : (buf.take w).length = w := by simp [enough]
  have digits := littleEndian_ofLittleEndian (buf.take w)
  rw [width] at digits
  rw [getLe, digits, List.take_append_drop]

theorem getLe_lt (w : Nat) (buf : Bytes) : (getLe w buf).1 < 256 ^ w := by
  apply Nat.lt_of_lt_of_le (ofLittleEndian_lt (buf.take w))
  exact Nat.pow_le_pow_right (by decide) (by simp)

theorem getLe_length (w : Nat) (buf : Bytes) : (getLe w buf).2.length = buf.length - w := by
  simp [getLe]

theorem PacketType.toU8_of_fromU8 {v : UInt8} (known : fromU8 v = some kind) : kind.toU8 = v := by
  apply UInt8.toNat_inj.mp
  rw [fromU8] at known
  split at known <;> cases known <;> simp_all [toU8]

section
variable (buf : Bytes)

theorem getLe_toUInt64 : (getLe 8 buf).1.toUInt64.toNat = (getLe 8 buf).1 :=
  UInt64.toNat_ofNat_of_lt' (getLe_lt 8 buf)

theorem getLe_toUInt32 : (getLe 4 buf).1.toUInt32.toNat = (getLe 4 buf).1 :=
  UInt32.toNat_ofNat_of_lt' (getLe_lt 4 buf)

theorem getLe_toUInt16 : (getLe 2 buf).1.toUInt16.toNat = (getLe 2 buf).1 :=
  UInt16.toNat_ofNat_of_lt' (getLe_lt 2 buf)

theorem getLe_toUInt8 : (getLe 1 buf).1.toUInt8.toNat = (getLe 1 buf).1 :=
  UInt8.toNat_ofNat_of_lt' (getLe_lt 1 buf)

end

/-- What is accepted is well formed: the header read is the header on the wire. -/
theorem PacketHeader.encode_decode (decoded : decode buf = some (h, rest)) :
    h.encode ++ rest = buf := by
  have enough := decode_length decoded
  rw [decode] at decoded
  rw [if_neg (Nat.not_lt.mpr enough)] at decoded
  dsimp only at decoded
  split at decoded
  · cases decoded
  · rename_i kind known
    cases decoded
    simp only [headerSize] at enough
    -- every field is read from what the fields before it left over
    simp only [encode, PacketType.toU8_of_fromU8 known, getLe_toUInt64, getLe_toUInt32,
      getLe_toUInt16, getLe_toUInt8, List.append_assoc]
    rw [fill_of_enough (by simp only [getLe_length]; omega), List.take_append_drop]
    repeat rw [getLe_spec (by simp only [getLe_length]; omega)]
    exact getLe_spec (by omega)

theorem PacketType.fromU8_isSome (v : UInt8) : (fromU8 v).isSome ↔ v.toNat ≤ 5 := by
  rw [fromU8]
  split <;> simp_all
  omega

/-- The type byte stands behind the eight bytes of the connection identifier. -/
theorem getLe_kind {buf : Bytes} (kind : buf[8]? = some v) :
    (getLe 1 (getLe 8 buf).2).1.toUInt8 = v := by
  obtain ⟨bound, rfl⟩ := List.getElem?_eq_some_iff.mp kind
  simp only [getLe, List.drop_eq_getElem_cons bound, List.take_succ_cons, List.take_zero,
    ofLittleEndian, Nat.mul_zero, Nat.add_zero]
  exact UInt8.ofNat_toNat

/-- Decoding accepts every long enough buffer with a known type byte, and nothing else. -/
theorem PacketHeader.decode_isSome (buf : Bytes) :
    (decode buf).isSome ↔ headerSize ≤ buf.length ∧ ∃ v, buf[8]? = some v ∧ v.toNat ≤ 5 := by
  by_cases enough : buf.length < headerSize
  · simp only [decode, if_pos enough, Option.isSome_none, Bool.false_eq_true, false_iff]
    omega
  · have kind : buf[8]? = some (buf.get ⟨8, by simp only [headerSize] at enough; omega⟩) := by simp
    have known := PacketType.fromU8_isSome (getLe 1 (getLe 8 buf).2).1.toUInt8
    rw [getLe_kind kind] at known
    simp only [kind, Option.some.injEq, exists_eq_left', ← known, Nat.not_lt.mp enough, true_and]
    rw [decode, if_neg enough]
    dsimp only
    rw [getLe_kind kind]
    cases PacketType.fromU8 _ <;> rfl

/-- The header codec, both ways: decoding undoes encoding and leaves what
follows, and a buffer is accepted exactly when it is long enough and its type
byte is known, in which case encoding gives its first 38 bytes back. -/
theorem PacketHeader.codec :
    (∀ (h : PacketHeader) (suffix : Bytes), decode (h.encode ++ suffix) = some (h, suffix)) ∧
    ∀ buf : Bytes,
      ((decode buf).isSome ↔ headerSize ≤ buf.length ∧ ∃ v, buf[8]? = some v ∧ v.toNat ≤ 5) ∧
      ∀ parsed ∈ decode buf,
        parsed.1.encode = buf.take headerSize ∧ parsed.2 = buf.drop headerSize := by
  refine ⟨decode_encode, fun buf => ⟨decode_isSome buf, ?_⟩⟩
  rintro ⟨h, rest⟩ parsed
  have whole := encode_decode parsed
  subst whole
  exact ⟨by simp, by simp⟩

end LanLink.Frame
