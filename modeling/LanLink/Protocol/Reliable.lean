import LanLink.Protocol.Frame

/-! The selective-repeat sender and receiver of one stream. Sequence numbers
are machine words. Operators that abort on overflow in the source are checked
here; the source's `wrapping_add` and `wrapping_sub` are word arithmetic.
Clock readings are arguments, in milliseconds. -/
namespace LanLink.Reliable
open Words LanLink.Frame

def windowSize : UInt32 := 32
/-- Retransmission timeout in milliseconds. -/
def rto : Nat := 200
def maxRetries : UInt32 := 10

structure SendSlot where
  seq : UInt32
  data : Bytes
  sentAt : Nat
  retries : UInt32
  acked : Bool
  deriving DecidableEq

structure ReliableSender where
  connId : UInt64
  streamId : UInt16
  nextSeq : UInt32
  windowBase : UInt32
  slots : List SendSlot
  deriving DecidableEq

def ReliableSender.new (connId : UInt64) (streamId : UInt16) : ReliableSender :=
  ⟨connId, streamId, 0, 0, []⟩

def encodePacket (connId : UInt64) (streamId : UInt16) (seq : UInt32) (payload : Bytes) : Bytes :=
  PacketHeader.encode
    { connId, pktType := .data, flags := .reliable, streamId, seq, ackSeq := 0, ackBitmap := 0,
      payloadLen := payload.length.toUInt16, nonce := fill 12 [] } ++ payload

/-- The outer `none` is an arithmetic abort; the inner `none` is a full window. -/
def ReliableSender.send (s : ReliableSender) (payload : Bytes) (now : Nat) :
    Option (ReliableSender × Option Bytes) := do
  let outstanding ← checkedSub s.nextSeq.toNat s.windowBase.toNat
  if windowSize.toNat ≤ outstanding then return (s, none)
  let next ← checkedAdd 32 s.nextSeq.toNat 1
  let slot : SendSlot :=
    { seq := s.nextSeq, data := payload, sentAt := now, retries := 0, acked := false }
  return ({ s with nextSeq := next.toUInt32, slots := s.slots ++ [slot] },
    some (encodePacket s.connId s.streamId s.nextSeq payload))

/-- Whether an acknowledgement confirms a sequence number. -/
def confirms (ackSeq ackBitmap seq : UInt32) : Bool :=
  let dist := seq - ackSeq
  dist == 0 || (dist ≤ windowSize && (ackBitmap &&& (1 <<< (dist - 1))) != 0)

def SendSlot.onAck (ackSeq ackBitmap : UInt32) (slot : SendSlot) : SendSlot :=
  if !slot.acked && confirms ackSeq ackBitmap slot.seq then { slot with acked := true } else slot

/-- Pop acknowledged slots from the front, advancing the window base for each. -/
def slide (windowBase : UInt32) : List SendSlot → UInt32 × List SendSlot
  | [] => (windowBase, [])
  | slot :: rest => if slot.acked then slide (windowBase + 1) rest else (windowBase, slot :: rest)

/-- Returns the sender and the newly acknowledged sequence numbers. -/
def ReliableSender.onAck (s : ReliableSender) (ackSeq ackBitmap : UInt32) :
    ReliableSender × List UInt32 :=
  let acked := s.slots.filter (fun slot => !slot.acked && confirms ackSeq ackBitmap slot.seq)
  let window := slide s.windowBase (s.slots.map (SendSlot.onAck ackSeq ackBitmap))
  ({ s with windowBase := window.1, slots := window.2 }, acked.map SendSlot.seq)

def SendSlot.expired (now : Nat) (slot : SendSlot) : Bool :=
  !slot.acked && slot.retries < maxRetries && rto ≤ now - slot.sentAt

def SendSlot.retry (now : Nat) (slot : SendSlot) : SendSlot :=
  if slot.expired now then { slot with retries := slot.retries + 1, sentAt := now } else slot

def ReliableSender.pollRetransmit (s : ReliableSender) (now : Nat) :
    ReliableSender × List (UInt64 × UInt16 × UInt32 × Bytes) :=
  ({ s with slots := s.slots.map (SendSlot.retry now) },
    (s.slots.filter (SendSlot.expired now)).map
      (fun slot => (s.connId, s.streamId, slot.seq, slot.data)))

structure ReliableReceiver where
  nextExpected : UInt32
  /-- Out-of-order packets with their sequence numbers. -/
  oooBuffer : List (UInt32 × Bytes)
  lastAckBitmap : UInt32
  deriving DecidableEq

def ReliableReceiver.new : ReliableReceiver := ⟨0, [], 0⟩

/-- Drain the buffer while its front is the next expected packet. -/
def drain (nextExpected : UInt32) : List (UInt32 × Bytes) →
    UInt32 × List (UInt32 × Bytes) × List Bytes
  | [] => (nextExpected, [], [])
  | (seq, data) :: rest =>
    if seq = nextExpected then
      let drained := drain (nextExpected + 1) rest
      (drained.1, drained.2.1, data :: drained.2.2)
    else (nextExpected, (seq, data) :: rest, [])

/-- The position the source inserts at: the first entry whose distance back
from `seq` is below `dist`, the end if there is none. -/
def insertPos (seq dist : UInt32) (buffer : List (UInt32 × Bytes)) : Nat :=
  buffer.findIdx (fun entry => seq - entry.1 < dist)

def bufferPacket (seq dist : UInt32) (payload : Bytes) (buffer : List (UInt32 × Bytes)) :
    List (UInt32 × Bytes) :=
  let pos := insertPos seq dist buffer
  if (buffer[pos]?).map Prod.fst = some seq then buffer
  else buffer.insertIdx pos (seq, payload)

def ReliableReceiver.deliver (r : ReliableReceiver) (seq : UInt32) (payload : Bytes) :
    ReliableReceiver × List Bytes :=
  let dist := seq - r.nextExpected
  if dist = 0 then
    let drained := drain (r.nextExpected + 1) r.oooBuffer
    ({ r with nextExpected := drained.1, oooBuffer := drained.2.1 }, payload :: drained.2.2)
  else if dist ≤ windowSize then
    ({ r with oooBuffer := bufferPacket seq dist payload r.oooBuffer }, [])
  else (r, [])

def ReliableReceiver.ackInfo (r : ReliableReceiver) : UInt32 × UInt32 :=
  (r.nextExpected - 1, r.lastAckBitmap)

/-- What a receiver reads off an encoded packet: its number and its payload. -/
def wirePacket (bytes : Bytes) : Option (UInt32 × Bytes) :=
  (PacketHeader.decode bytes).map (fun decoded => (decoded.1.seq, decoded.2))

@[simp] theorem wirePacket_encodePacket (connId : UInt64) (streamId : UInt16) (seq : UInt32)
    (payload : Bytes) : wirePacket (encodePacket connId streamId seq payload) =
      some (seq, payload) := by
  simp [wirePacket, encodePacket, PacketHeader.decode_encode]

variable {s t : ReliableSender}

/-- Every outcome of a send: refused by the window, or queued under a fresh number. -/
theorem ReliableSender.send_cases (sent : s.send payload now = some (t, packet)) :
    s.windowBase ≤ s.nextSeq ∧
    ((32 ≤ s.nextSeq.toNat - s.windowBase.toNat ∧ t = s ∧ packet = none) ∨
    (s.nextSeq.toNat - s.windowBase.toNat < 32 ∧ s.nextSeq.toNat + 1 < 2 ^ 32 ∧
      t = { s with nextSeq := s.nextSeq + 1,
                   slots := s.slots ++ [⟨s.nextSeq, payload, now, 0, false⟩] } ∧
      packet = some (encodePacket s.connId s.streamId s.nextSeq payload))) := by
  have window : windowSize.toNat = 32 := rfl
  simp only [send, checkedSub, checkedAdd, bind, Option.bind_eq_some_iff,
    Option.ite_none_right_eq_some, window] at sent
  obtain ⟨outstanding, ⟨ordered, same⟩, sent⟩ := sent
  cases same
  refine ⟨UInt32.le_iff_toNat_le.mpr ordered, ?_⟩
  split at sent
  · cases sent
    exact Or.inl ⟨‹_›, rfl, rfl⟩
  · simp only [Option.bind_eq_some_iff, Option.ite_none_right_eq_some] at sent
    obtain ⟨next, ⟨fits, same⟩, queued⟩ := sent
    cases same
    have word : (s.nextSeq.toNat + 1).toUInt32 = s.nextSeq + 1 := by
      apply UInt32.toNat_inj.mp
      simp only [Nat.toUInt32_eq, UInt32.toNat_ofNat', UInt32.toNat_add, UInt32.reduceToNat]
    rw [word] at queued
    cases queued
    exact Or.inr ⟨by omega, fits, rfl, rfl⟩

theorem toNat_succ (bound : (x : UInt32).toNat + 1 < 2 ^ 32) : (x + 1).toNat = x.toNat + 1 := by
  rw [UInt32.toNat_add]
  simp only [UInt32.reduceToNat]
  omega

theorem sub_eq_zero_iff {a b : UInt32} : a - b = 0 ↔ a = b := by
  constructor
  · intro zero
    rw [← UInt32.sub_add_cancel a b, zero, UInt32.zero_add]
  · rintro rfl
    exact UInt32.sub_self _

theorem slide_sublist (windowBase : UInt32) (slots : List SendSlot) :
    (slide windowBase slots).2.Sublist slots := by
  induction slots generalizing windowBase with
  | nil => exact .slnil
  | cons slot rest ih =>
    simp only [slide]
    split
    · exact (ih _).trans (List.sublist_cons_self _ _)
    · exact .refl _

/-- A slot that survives an acknowledgement carries the number and payload it was sent with. -/
theorem ReliableSender.onAck_slots (s : ReliableSender) (ackSeq ackBitmap : UInt32)
    (present : slot ∈ (s.onAck ackSeq ackBitmap).1.slots) :
    ∃ before ∈ s.slots, slot.seq = before.seq ∧ slot.data = before.data := by
  obtain ⟨before, member, rfl⟩ := List.mem_map.mp ((slide_sublist _ _).subset present)
  refine ⟨before, member, ?_⟩
  rw [SendSlot.onAck]
  split <;> exact ⟨rfl, rfl⟩

theorem ReliableSender.pollRetransmit_slots (s : ReliableSender) (now : Nat)
    (present : slot ∈ (s.pollRetransmit now).1.slots) :
    ∃ before ∈ s.slots, slot.seq = before.seq ∧ slot.data = before.data := by
  obtain ⟨before, member, rfl⟩ := List.mem_map.mp present
  refine ⟨before, member, ?_⟩
  rw [SendSlot.retry]
  split <;> exact ⟨rfl, rfl⟩

end LanLink.Reliable
