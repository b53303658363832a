import LanLink.Core.Serial
import LanLink.Protocol.SendWindow

/-! Runs of any length over a link that keeps the order: packets and acknowledgements are
queues, and nothing is lost. Beside the words of both ends run the counters they stand
for: packets accepted, payloads returned, slots taken from the window. -/
namespace LanLink.Reliable
open Words Serial Runs

structure OrderedLink where
  sender : ReliableSender
  receiver : ReliableReceiver
  packets : List (UInt32 × Bytes)
  acks : List (UInt32 × UInt32)
  sent : Nat
  delivered : Nat
  slid : Nat

inductive OrderedEvent where
  | send (payload : Bytes) (now : Nat)
  | pollRetransmit (now : Nat)
  | deliver
  | ackInfo
  | onAck

namespace OrderedLink

def start (connId : UInt64) (streamId : UInt16) : OrderedLink :=
  ⟨.new connId streamId, .new, [], [], 0, 0, 0⟩

/-- Nothing happens where there is nothing to deliver. -/
def step (checks : Bool) (l : OrderedLink) : OrderedEvent → Option OrderedLink
  | .send payload now => do
    let (sender, packet) ← l.sender.sendIn checks payload now
    return { l with
      sender, packets := l.packets ++ (packet.bind wirePacket).toList
      sent := l.sent + packet.toList.length }
  | .pollRetransmit now =>
    let (sender, retrans) := l.sender.pollRetransmit now
    some { l with sender, packets := l.packets ++ retrans.filterMap fun p => wirePacket (reencode p) }
  | .deliver =>
    match l.packets with
    | [] => some l
    | (seq, payload) :: packets =>
      let (receiver, results) := l.receiver.deliver seq payload
      some { l with receiver, packets, delivered := l.delivered + results.length }
  | .ackInfo => some { l with acks := l.acks ++ [l.receiver.ackInfo] }
  | .onAck =>
    match l.acks with
    | [] => some l
    | (ackSeq, ackBitmap) :: acks =>
      let sender := (l.sender.onAck ackSeq ackBitmap).1
      some { l with
        sender, acks, slid := l.slid + (l.sender.slots.length - sender.slots.length) }

/-- The words are the counters modulo 2^32, and these follow each other in the window. -/
structure Advances (l : OrderedLink) : Prop where
  nextSeq : l.sender.nextSeq.toNat = l.sent % 2 ^ 32
  windowBase : l.sender.windowBase.toNat = l.slid % 2 ^ 32
  nextExpected : l.receiver.nextExpected.toNat = l.delivered % 2 ^ 32
  slid : l.slid ≤ l.delivered
  delivered : l.delivered ≤ l.sent
  outstanding : l.sent ≤ l.slid + windowSize.toNat

/-- A send ends, and it is refused exactly when 32 packets are outstanding. -/
def WindowExact (checks : Bool) (l : OrderedLink) : OrderedEvent → Prop
  | .send payload now => ∃ sender packet,
      l.sender.sendIn checks payload now = some (sender, packet) ∧
        (packet = none ↔ l.sent - l.slid = windowSize.toNat)
  | .pollRetransmit _ | .deliver | .ackInfo | .onAck => True

/-- In a build with overflow checks a packet is accepted only under a number before the last. -/
def Room (checks : Bool) (l : OrderedLink) : OrderedEvent → Prop
  | .send _ _ => checks = true → l.sent - l.slid < windowSize.toNat → l.sent + 1 < 2 ^ 32
  | .pollRetransmit _ | .deliver | .ackInfo | .onAck => True

end OrderedLink

/-- The slots carry the numbers of the counters from `base` up to `next`. -/
structure Placed (s : ReliableSender) (base next : Nat) : Prop where
  number : ∀ (i : Nat) (slot : SendSlot), s.slots[i]? = some slot → Counts slot.seq (base + i)
  whole : base + s.slots.length = next
  windowBase : Counts s.windowBase base
  nextSeq : Counts s.nextSeq next
  bounded : s.slots.length ≤ 32

section
variable {s : ReliableSender} {base next : Nat} {checks : Bool}

theorem Placed.outstanding (placed : Placed s base next) (fits : checks = true → next < 2 ^ 32) :
    subWord checks 32 s.nextSeq.toNat s.windowBase.toNat = some (next - base) := by
  have whole := placed.whole
  have few := placed.bounded
  have low : s.windowBase.toNat = base % 2 ^ 32 := placed.windowBase
  have high : s.nextSeq.toNat = next % 2 ^ 32 := placed.nextSeq
  by_cases ordered : s.windowBase.toNat ≤ s.nextSeq.toNat
  · rw [subWord_of_le ordered]
    congr 1
    omega
  · cases checks with
    | true =>
      have small := fits rfl
      omega
    | false =>
      rw [subWord, if_neg ordered, if_neg (by decide)]
      congr 1
      omega

theorem Placed.sendIn_full (placed : Placed s base next) (fits : checks = true → next < 2 ^ 32)
    (full : 32 ≤ next - base) (payload : Bytes) (now : Nat) :
    s.sendIn checks payload now = some (s, none) := by
  have outstanding : windowSize.toNat ≤ next - base := full
  rw [ReliableSender.sendIn, placed.outstanding fits, Option.bind_eq_bind, Option.bind_some,
    if_pos outstanding]
  rfl

theorem Placed.addWord (placed : Placed s base next) (fits : checks = true → next + 1 < 2 ^ 32) :
    ∃ sum, addWord checks 32 s.nextSeq.toNat 1 = some sum ∧ sum.toUInt32 = s.nextSeq + 1 := by
  have high : s.nextSeq.toNat = next % 2 ^ 32 := placed.nextSeq
  cases checks with
  | true =>
    have small : s.nextSeq.toNat + 1 < 2 ^ 32 := by
      have room := fits rfl
      omega
    refine ⟨_, addWord_of_lt small, UInt32.toNat_inj.mp ?_⟩
    rw [toUInt32_toNat small, toNat_succ small]
  | false =>
    refine ⟨_, addWord_unchecked 32 _ 1, UInt32.toNat_inj.mp ?_⟩
    rw [toUInt32_toNat (Nat.mod_lt _ (by decide)), UInt32.toNat_add]
    rfl

theorem Placed.sendIn_room (placed : Placed s base next)
    (fits : checks = true → next + 1 < 2 ^ 32) (room : next - base < 32) (payload : Bytes)
    (now : Nat) : s.sendIn checks payload now = some ({ s with
      nextSeq := s.nextSeq + 1, slots := s.slots ++ [⟨s.nextSeq, payload, now, 0, false⟩] },
      some (encodePacket s.connId s.streamId s.nextSeq payload)) := by
  have outstanding : ¬ windowSize.toNat ≤ next - base := Nat.not_le.mpr room
  obtain ⟨sum, added, word⟩ := placed.addWord fits
  rw [ReliableSender.sendIn, placed.outstanding (fun on => Nat.lt_of_succ_lt (fits on)),
    Option.bind_eq_bind, Option.bind_some, if_neg outstanding, added, Option.bind_some, word]
  rfl

/-- The addition to the last number aborts where it is checked. -/
theorem Placed.sendIn_last (placed : Placed s base next) (last : next + 1 = 2 ^ 32)
    (room : next - base < 32) (payload : Bytes) (now : Nat) :
    s.sendIn true payload now = none := by
  have outstanding : ¬ windowSize.toNat ≤ next - base := Nat.not_le.mpr room
  have high : s.nextSeq.toNat = next := placed.nextSeq.toNat_of_lt (by omega)
  have overflows : 2 ^ 32 ≤ s.nextSeq.toNat + 1 := by omega
  rw [ReliableSender.sendIn, placed.outstanding (fun _ => by omega), Option.bind_eq_bind,
    Option.bind_some, if_neg outstanding, addWord_checked overflows, Option.bind_none]

theorem Placed.queue (placed : Placed s base next) (room : next - base < 32) (payload : Bytes)
    (now : Nat) : Placed { s with
      nextSeq := s.nextSeq + 1, slots := s.slots ++ [⟨s.nextSeq, payload, now, 0, false⟩] }
      base (next + 1) := by
  have whole := placed.whole
  constructor
  case number =>
    intro i slot found
    rcases Nat.lt_or_ge i s.slots.length with earlier | last
    · rw [List.getElem?_append_left earlier] at found
      exact placed.number i slot found
    · rw [List.getElem?_append_right last, List.getElem?_singleton] at found
      split at found
      · cases found
        have same : base + i = next := by omega
        exact same ▸ placed.nextSeq
      · cases found
  case whole =>
    rw [List.length_append, List.length_singleton]
    omega
  case windowBase => exact placed.windowBase
  case nextSeq => exact placed.nextSeq.succ
  case bounded =>
    rw [List.length_append, List.length_singleton]
    omega

theorem Placed.map (placed : Placed s base next) (f : SendSlot → SendSlot)
    (same : ∀ slot, (f slot).seq = slot.seq) :
    Placed { s with slots := s.slots.map f } base next := by
  constructor
  case number =>
    intro i slot found
    simp only [List.getElem?_map, Option.map_eq_some_iff] at found
    obtain ⟨before, old, rfl⟩ := found
    rw [same]
    exact placed.number i before old
  case whole => simpa using placed.whole
  case windowBase => exact placed.windowBase
  case nextSeq => exact placed.nextSeq
  case bounded => simpa using placed.bounded

theorem Placed.drop (placed : Placed s base next) (bound : k ≤ s.slots.length) :
    Placed { s with windowBase := s.windowBase + k.toUInt32, slots := s.slots.drop k }
      (base + k) next := by
  have whole := placed.whole
  have few := placed.bounded
  constructor
  case number =>
    intro i slot found
    rw [List.getElem?_drop] at found
    rw [Nat.add_assoc]
    exact placed.number _ slot found
  case whole =>
    rw [List.length_drop]
    omega
  case windowBase => exact placed.windowBase.add k
  case nextSeq => exact placed.nextSeq
  case bounded =>
    rw [List.length_drop]
    omega

/-- The acknowledgement of the counter before `b`, where all that is acknowledged lies
before `low`: it slides the window and marks nothing from `b` on. -/
theorem Placed.onAck (placed : Placed s base next) (ack : Counts (ackSeq + 1) b)
    (acked : ∀ (i : Nat) (slot : SendSlot), s.slots[i]? = some slot → slot.acked → base + i < low)
    (start : base ≤ low) (later : low ≤ b) (within : b ≤ next) :
    ∃ k, (s.onAck ackSeq 0).1.slots.length + k = s.slots.length ∧
      Placed (s.onAck ackSeq 0).1 (base + k) next ∧ base + k ≤ b ∧
      ∀ (i : Nat) (slot : SendSlot), (s.onAck ackSeq 0).1.slots[i]? = some slot → slot.acked →
        base + k + i < b := by
  have marked : ∀ (i : Nat) (slot : SendSlot), s.slots[i]? = some slot →
      (slot.onAck ackSeq 0).acked → base + i < b := by
    intro i slot found marks
    rcases (onAck_acked slot ackSeq).mp marks with old | named
    · exact (acked i slot found old).trans_le later
    · have number := (placed.number i slot found).succ
      have bound := (List.getElem?_eq_some_iff.mp found).1
      have whole := placed.whole
      have few := placed.bounded
      rw [named] at number
      have same := number.inj ack (by omega) (by omega)
      omega
  obtain ⟨k, bound, slid, popped, -⟩ := slide_spec s.windowBase (s.slots.map (.onAck ackSeq 0))
  have moved := (placed.map (SendSlot.onAck ackSeq 0) (onAck_seq · ackSeq 0)).drop bound
  rw [List.length_map] at bound
  simp only [ReliableSender.onAck, slid]
  refine ⟨k, ?_, moved, ?_, ?_⟩
  · rw [List.length_drop, List.length_map]
    omega
  · cases k with
    | zero => exact start.trans later
    | succ last =>
      -- the last slot that was taken out is acknowledged
      obtain ⟨slot, found⟩ : ∃ slot, s.slots[last]? = some slot :=
        ⟨_, List.getElem?_eq_getElem bound⟩
      have taken : slot.onAck ackSeq 0 ∈ (s.slots.map (SendSlot.onAck ackSeq 0)).take (last + 1) := by
        apply List.mem_of_getElem? (i := last)
        rw [List.getElem?_take_of_lt (Nat.lt_succ_self last), List.getElem?_map, found]
        rfl
      exact marked last slot found (popped _ taken)
  · intro i slot found acknowledged
    rw [List.getElem?_drop, List.getElem?_map] at found
    obtain ⟨before, old, rfl⟩ := Option.map_eq_some_iff.mp found
    rw [Nat.add_assoc]
    exact marked (k + i) before old acknowledged

end

/-- The packets in the queue, from the next one to be returned up to the next one to be
sent; in between may come packets of the window that were returned before. -/
def InFlight : Nat → Nat → List (UInt32 × Bytes) → Prop
  | delivered, sent, [] => delivered = sent
  | delivered, sent, packet :: rest => ∃ n, Counts packet.1 n ∧
      (n = delivered ∧ InFlight (delivered + 1) sent rest ∨
        n < delivered ∧ delivered ≤ n + 32 ∧ InFlight delivered sent rest)

theorem InFlight.send {delivered sent : Nat} (inFlight : InFlight delivered sent packets)
    (number : Counts seq sent) (payload : Bytes) :
    InFlight delivered (sent + 1) (packets ++ [(seq, payload)]) := by
  induction packets generalizing delivered with
  | nil =>
    cases inFlight
    exact ⟨_, number, .inl ⟨rfl, rfl⟩⟩
  | cons packet rest ih =>
    obtain ⟨n, counts, ⟨next, tail⟩ | ⟨old, near, tail⟩⟩ := inFlight
    · exact ⟨n, counts, .inl ⟨next, ih tail⟩⟩
    · exact ⟨n, counts, .inr ⟨old, near, ih tail⟩⟩

theorem InFlight.repeat {delivered sent : Nat} (inFlight : InFlight delivered sent packets)
    (number : Counts seq n) (old : n < sent) (near : sent ≤ n + 32) (payload : Bytes) :
    InFlight delivered sent (packets ++ [(seq, payload)]) := by
  induction packets generalizing delivered with
  | nil =>
    cases inFlight
    exact ⟨n, number, .inr ⟨old, near, rfl⟩⟩
  | cons packet rest ih =>
    obtain ⟨m, counts, ⟨next, tail⟩ | ⟨before, close, tail⟩⟩ := inFlight
    · exact ⟨m, counts, .inl ⟨next, ih tail⟩⟩
    · exact ⟨m, counts, .inr ⟨before, close, ih tail⟩⟩

theorem InFlight.repeatAll {delivered sent : Nat} (inFlight : InFlight delivered sent packets)
    (again : ∀ packet ∈ more, ∃ n, Counts packet.1 n ∧ n < sent ∧ sent ≤ n + 32) :
    InFlight delivered sent (packets ++ more) := by
  induction more generalizing packets with
  | nil => rwa [List.append_nil]
  | cons packet rest ih =>
    obtain ⟨⟨n, number, old, near⟩, later⟩ := List.forall_mem_cons.mp again
    have longer := ih (inFlight.repeat number old near packet.2) later
    rwa [List.append_assoc] at longer

theorem InFlight.le {delivered sent : Nat} (inFlight : InFlight delivered sent packets) :
    delivered ≤ sent := by
  induction packets generalizing delivered with
  | nil => exact Nat.le_of_eq inFlight
  | cons packet rest ih =>
    obtain ⟨n, -, ⟨-, tail⟩ | ⟨-, -, tail⟩⟩ := inFlight
    · exact Nat.le_of_succ_le (ih tail)
    · exact ih tail

/-- The acknowledgements in the queue: each names the packet before a counter, and the
counters never go back. -/
def AcksInFlight : Nat → Nat → List (UInt32 × UInt32) → Prop
  | low, delivered, [] => low ≤ delivered
  | low, delivered, ack :: rest => ∃ b, low ≤ b ∧ Counts (ack.1 + 1) b ∧ ack.2 = 0 ∧
      AcksInFlight b delivered rest

theorem AcksInFlight.le (inFlight : AcksInFlight low delivered acks) : low ≤ delivered := by
  induction acks generalizing low with
  | nil => exact inFlight
  | cons ack rest ih =>
    obtain ⟨b, above, -, -, tail⟩ := inFlight
    exact above.trans (ih tail)

theorem AcksInFlight.mono (inFlight : AcksInFlight low delivered acks)
    (more : delivered ≤ later) :
    AcksInFlight low later acks := by
  induction acks generalizing low with
  | nil => exact Nat.le_trans inFlight more
  | cons ack rest ih =>
    obtain ⟨b, above, counts, empty, tail⟩ := inFlight
    exact ⟨b, above, counts, empty, ih tail⟩

theorem AcksInFlight.build {delivered : Nat} {ack : UInt32 × UInt32}
    (inFlight : AcksInFlight low delivered acks)
    (counts : Counts (ack.1 + 1) delivered) (empty : ack.2 = 0) :
    AcksInFlight low delivered (acks ++ [ack]) := by
  induction acks generalizing low with
  | nil => exact ⟨delivered, inFlight, counts, empty, Nat.le_refl _⟩
  | cons first rest ih =>
    obtain ⟨b, above, named, none, tail⟩ := inFlight
    exact ⟨b, above, named, none, ih tail⟩

/-- A receiver that nothing overtakes keeps its buffer empty. -/
structure Receives (r : ReliableReceiver) (delivered : Nat) : Prop where
  nextExpected : Counts r.nextExpected delivered
  buffer : r.oooBuffer = []
  bitmap : r.lastAckBitmap = 0

section
variable {r : ReliableReceiver} {delivered : Nat}

theorem Receives.next (receives : Receives r delivered) (number : Counts seq delivered)
    (payload : Bytes) : ∃ later, r.deliver seq payload = (later, [payload]) ∧
      Receives later (delivered + 1) := by
  have same : seq - r.nextExpected = 0 := sub_eq_zero_iff.mpr (number.unique receives.nextExpected)
  refine ⟨{ r with nextExpected := r.nextExpected + 1 }, ?_,
    ⟨receives.nextExpected.succ, receives.buffer, receives.bitmap⟩⟩
  simp only [ReliableReceiver.deliver, same, if_true, receives.buffer, drain]

theorem Receives.again (receives : Receives r delivered) (number : Counts seq n)
    (old : n < delivered) (near : delivered ≤ n + 32) (payload : Bytes) :
    r.deliver seq payload = (r, []) := by
  have far := number.sub_of_lt receives.nextExpected old (by omega)
  have other : seq - r.nextExpected ≠ 0 := by
    intro zero
    rw [zero] at far
    have nothing : (0 : UInt32).toNat = 0 := rfl
    omega
  have outside : ¬ seq - r.nextExpected ≤ windowSize := by
    rw [UInt32.le_iff_toNat_le, far]
    change ¬ _ ≤ 32
    omega
  simp only [ReliableReceiver.deliver, if_neg other, if_neg outside]

end

namespace OrderedLink
variable {l t : OrderedLink} {checks : Bool}

/-- The invariant of the link. What is acknowledged lies before every acknowledgement
that is still on its way. -/
structure Orderly (checks : Bool) (l : OrderedLink) : Prop where
  placed : Placed l.sender l.slid l.sent
  receives : Receives l.receiver l.delivered
  packets : InFlight l.delivered l.sent l.packets
  within : l.delivered ≤ l.sent
  acks : ∃ low, l.slid ≤ low ∧ AcksInFlight low l.delivered l.acks ∧
    ∀ (i : Nat) (slot : SendSlot), l.sender.slots[i]? = some slot → slot.acked → l.slid + i < low
  checked : checks = true → l.sent < 2 ^ 32

theorem Orderly.advances (orderly : Orderly checks l) : Advances l where
  nextSeq := orderly.placed.nextSeq
  windowBase := orderly.placed.windowBase
  nextExpected := orderly.receives.nextExpected
  slid := by
    obtain ⟨low, above, acks, -⟩ := orderly.acks
    exact above.trans acks.le
  delivered := orderly.within
  outstanding := by
    have whole := orderly.placed.whole
    have few := orderly.placed.bounded
    change _ ≤ _ + 32
    omega

theorem Orderly.send_full (orderly : Orderly checks l) (full : 32 ≤ l.sent - l.slid)
    (payload : Bytes) (now : Nat) : step checks l (.send payload now) = some l := by
  rw [step, orderly.placed.sendIn_full orderly.checked full]
  simp

theorem Orderly.send_room (orderly : Orderly checks l) (room : l.sent - l.slid < 32)
    (fits : checks = true → l.sent + 1 < 2 ^ 32) (payload : Bytes) (now : Nat) :
    ∃ t, step checks l (.send payload now) = some t ∧ Orderly checks t := by
  refine ⟨{ l with
    sender := { l.sender with
      nextSeq := l.sender.nextSeq + 1
      slots := l.sender.slots ++ [⟨l.sender.nextSeq, payload, now, 0, false⟩] }
    packets := l.packets ++ [(l.sender.nextSeq, payload)]
    sent := l.sent + 1 }, ?_, ?_⟩
  · rw [step, orderly.placed.sendIn_room fits room]
    simp
  · constructor
    case placed => exact orderly.placed.queue room payload now
    case receives => exact orderly.receives
    case packets => exact orderly.packets.send orderly.placed.nextSeq payload
    case within => exact Nat.le_succ_of_le orderly.within
    case acks =>
      obtain ⟨low, above, acks, acked⟩ := orderly.acks
      refine ⟨low, above, acks, fun i slot found acknowledged => ?_⟩
      rcases Nat.lt_or_ge i l.sender.slots.length with earlier | last
      · rw [List.getElem?_append_left earlier] at found
        exact acked i slot found acknowledged
      · rw [List.getElem?_append_right last, List.getElem?_singleton] at found
        split at found
        · cases found
          cases acknowledged
        · cases found
    case checked => exact fits

theorem Orderly.pollRetransmit (orderly : Orderly checks l) (now : Nat) :
    ∃ t, step checks l (.pollRetransmit now) = some t ∧ Orderly checks t := by
  have again : ∀ packet ∈ (l.sender.pollRetransmit now).2.filterMap fun p => wirePacket (reencode p),
      ∃ n, Counts packet.1 n ∧ n < l.sent ∧ l.sent ≤ n + 32 := by
    intro packet member
    obtain ⟨retrans, there, wire⟩ := List.mem_filterMap.mp member
    obtain ⟨slot, expired, rfl⟩ := List.mem_map.mp there
    rw [reencode, wirePacket_encodePacket, Option.some.injEq] at wire
    obtain ⟨i, found⟩ := List.mem_iff_getElem?.mp (List.mem_filter.mp expired).1
    have number := orderly.placed.number i slot found
    have bound := (List.getElem?_eq_some_iff.mp found).1
    have whole := orderly.placed.whole
    have few := orderly.placed.bounded
    subst wire
    exact ⟨l.slid + i, number, by omega, by omega⟩
  refine ⟨_, rfl, ?_⟩
  constructor
  case placed => exact orderly.placed.map _ (fun slot => (retry_kept now slot).1)
  case receives => exact orderly.receives
  case packets => exact orderly.packets.repeatAll again
  case within => exact orderly.within
  case acks =>
    obtain ⟨low, above, acks, acked⟩ := orderly.acks
    refine ⟨low, above, acks, fun i slot found acknowledged => ?_⟩
    obtain ⟨before, old, rfl⟩ := Option.map_eq_some_iff.mp (List.getElem?_map ▸ found)
    exact acked i before old ((retry_kept now before).2 ▸ acknowledged)
  case checked => exact orderly.checked

theorem Orderly.deliver (orderly : Orderly checks l) :
    ∃ t, step checks l .deliver = some t ∧ Orderly checks t := by
  cases queue : l.packets with
  | nil => exact ⟨l, by rw [step, queue], orderly⟩
  | cons packet rest =>
    have inFlight := orderly.packets
    rw [queue] at inFlight
    obtain ⟨n, number, ⟨rfl, tail⟩ | ⟨old, near, tail⟩⟩ := inFlight
    · obtain ⟨later, delivers, receives⟩ := orderly.receives.next number packet.2
      refine ⟨{ l with receiver := later, packets := rest, delivered := l.delivered + 1 }, ?_, ?_⟩
      · rw [step, queue]
        dsimp only
        rw [delivers]
        rfl
      · obtain ⟨low, above, acks, acked⟩ := orderly.acks
        exact ⟨orderly.placed, receives, tail, tail.le,
          ⟨low, above, acks.mono (Nat.le_succ _), acked⟩, orderly.checked⟩
    · have delivers := orderly.receives.again number old near packet.2
      refine ⟨{ l with packets := rest }, ?_, ?_⟩
      · rw [step, queue]
        dsimp only
        rw [delivers]
        rfl
      · exact ⟨orderly.placed, orderly.receives, tail, orderly.within, orderly.acks, orderly.checked⟩

theorem Orderly.ackInfo (orderly : Orderly checks l) :
    ∃ t, step checks l .ackInfo = some t ∧ Orderly checks t := by
  obtain ⟨low, above, acks, acked⟩ := orderly.acks
  have counts : Counts (l.receiver.ackInfo.1 + 1) l.delivered := by
    rw [ReliableReceiver.ackInfo, UInt32.sub_add_cancel]
    exact orderly.receives.nextExpected
  exact ⟨_, rfl, orderly.placed, orderly.receives, orderly.packets, orderly.within,
    ⟨low, above, acks.build counts orderly.receives.bitmap, acked⟩, orderly.checked⟩

theorem Orderly.onAck (orderly : Orderly checks l) :
    ∃ t, step checks l .onAck = some t ∧ Orderly checks t := by
  cases queue : l.acks with
  | nil => exact ⟨l, by rw [step, queue], orderly⟩
  | cons ack rest =>
    obtain ⟨ackSeq, ackBitmap⟩ := ack
    obtain ⟨low, above, acks, acked⟩ := orderly.acks
    rw [queue] at acks
    obtain ⟨b, later, counts, empty, tail⟩ := acks
    obtain rfl : ackBitmap = 0 := empty
    obtain ⟨k, taken, placed, start, marked⟩ :=
      orderly.placed.onAck counts acked above later (tail.le.trans orderly.within)
    have gone : l.sender.slots.length - (l.sender.onAck ackSeq 0).1.slots.length = k := by
      rw [← taken]
      exact Nat.add_sub_cancel_left _ _
    refine ⟨{ l with sender := (l.sender.onAck ackSeq 0).1, acks := rest, slid := l.slid + k },
      ?_, ?_⟩
    · rw [step, queue]
      dsimp only
      rw [gone]
    · exact ⟨placed, orderly.receives, orderly.packets, orderly.within,
        ⟨b, start, tail, marked⟩, orderly.checked⟩

/-- A step that has room keeps the invariant. -/
theorem Orderly.step (orderly : Orderly checks l) (room : Room checks l event) :
    ∃ t, step checks l event = some t ∧ Orderly checks t := by
  cases event with
  | send payload now =>
    rcases Nat.lt_or_ge (l.sent - l.slid) 32 with few | full
    · exact orderly.send_room few (fun on => room on few) payload now
    · exact ⟨l, orderly.send_full full payload now, orderly⟩
  | pollRetransmit now => exact orderly.pollRetransmit now
  | deliver => exact orderly.deliver
  | ackInfo => exact orderly.ackInfo
  | onAck => exact orderly.onAck

theorem Orderly.windowExact_iff (orderly : Orderly checks l) :
    WindowExact checks l event ↔ Room checks l event := by
  cases event with
  | send payload now =>
    have outstanding := orderly.advances.outstanding
    constructor
    · rintro ⟨sender, packet, sends, -⟩ on few
      have small := orderly.checked on
      by_contra last
      rw [on, orderly.placed.sendIn_last (by omega) few] at sends
      cases sends
    · intro room
      rcases Nat.lt_or_ge (l.sent - l.slid) 32 with few | full
      · refine ⟨_, _, orderly.placed.sendIn_room (fun on => room on few) few payload now, ?_⟩
        exact iff_of_false nofun few.ne
      · refine ⟨_, _, orderly.placed.sendIn_full orderly.checked full payload now, ?_⟩
        exact iff_of_true rfl (Nat.le_antisymm (Nat.sub_le_of_le_add (by omega)) full)
  | _ => exact Iff.rfl

theorem start_orderly (checks : Bool) (connId : UInt64) (streamId : UInt16) :
    Orderly checks (start connId streamId) where
  placed := by
    refine ⟨?_, rfl, rfl, rfl, Nat.zero_le _⟩
    intro i slot found
    simp [start, ReliableSender.new] at found
  receives := ⟨rfl, rfl, rfl⟩
  packets := rfl
  within := Nat.le_refl _
  acks := ⟨0, Nat.le_refl _, Nat.le_refl _, by simp [start, ReliableSender.new]⟩
  checked _ := Nat.two_pow_pos 32

/-- A run over an orderly link, of any length: it never aborts, the words advance modulo
2^32 and the window test stays exact, exactly if every packet has room for its number. -/
theorem wraps_iff (checks : Bool) (connId : UInt64) (streamId : UInt16)
    (events : List OrderedEvent) :
    (∃ l, exec (step checks) (start connId streamId) events = some l) ∧
      Always (step checks) Advances (start connId streamId) events ∧
      Meets (step checks) (WindowExact checks) (start connId streamId) events ↔
    Meets (step checks) (Room checks) (start connId streamId) events := by
  have initial := start_orderly checks connId streamId
  have keeps {l t : OrderedLink} {event : OrderedEvent} (orderly : Orderly checks l)
      (room : Room checks l event) (stepped : step checks l event = some t) :
      Orderly checks t := by
    obtain ⟨next, same, kept⟩ := orderly.step room
    exact Option.some.inj (same.symm.trans stepped) ▸ kept
  constructor
  · rintro ⟨-, -, meets⟩
    exact meets_guarded (fun orderly here stepped =>
      keeps orderly (orderly.windowExact_iff.mp here) stepped)
      (fun orderly => orderly.windowExact_iff.mp) meets initial
  · intro room
    refine ⟨?_, ?_, ?_⟩
    · obtain ⟨l, run, -⟩ := guarded_total (fun orderly room => orderly.step room) room initial
      exact ⟨l, run⟩
    · exact always_of_meets keeps (fun _ => Orderly.advances) room initial
    · exact meets_guarded keeps (fun orderly => orderly.windowExact_iff.mpr) room initial

/-- A packet is sent, returned and acknowledged before the next one. -/
def round : List OrderedEvent := [.send [] 0, .deliver, .ackInfo, .onAck]

def rounds : Nat → List OrderedEvent
  | 0 => []
  | n + 1 => rounds n ++ round

def idle (seq : UInt32) (n : Nat) : OrderedLink :=
  ⟨⟨7, 0, seq, seq, []⟩, ⟨seq, [], 0⟩, [], [], n, n, n⟩

theorem sendIn_idle (fits : seq.toNat + 1 < 2 ^ 32) :
    (idle seq n).sender.sendIn true [] 0 = some (⟨7, 0, seq + 1, seq, [⟨seq, [], 0, 0, false⟩]⟩,
      some (encodePacket 7 0 seq [])) := by
  have windowed : Windowed (idle seq n).sender := ⟨by simp [idle], rfl⟩
  exact windowed.sendIn_room (Nat.zero_lt_succ 31) fits true [] 0

theorem round_idle (fits : seq.toNat + 1 < 2 ^ 32) :
    exec (step true) (idle seq n) round = some (idle (seq + 1) (n + 1)) := by
  rw [round, exec, step, sendIn_idle fits]
  simp [idle, exec, step, ReliableReceiver.deliver, drain, ReliableReceiver.ackInfo,
    ReliableSender.onAck, SendSlot.onAck, confirms, slide]

theorem rounds_idle (small : n < 2 ^ 32) : ∃ seq : UInt32, seq.toNat = n ∧
    exec (step true) (start 7 0) (rounds n) = some (idle seq n) := by
  induction n with
  | zero => exact ⟨0, rfl, rfl⟩
  | succ n ih =>
    obtain ⟨seq, number, run⟩ := ih (by omega)
    have fits : seq.toNat + 1 < 2 ^ 32 := by omega
    exact ⟨seq + 1, by rw [toNat_succ fits, number], exec_append.mpr ⟨_, run, round_idle fits⟩⟩

/-- The send of packet number 2^32 - 1 aborts in a build with overflow checks, although
nothing is outstanding. -/
theorem last_number_aborts :
    (exec (step true) (start 7 0) (rounds (2 ^ 32 - 1))).isSome ∧
      exec (step true) (start 7 0) (rounds (2 ^ 32 - 1) ++ [.send [] 0]) = none := by
  obtain ⟨seq, number, run⟩ := rounds_idle (n := 2 ^ 32 - 1) (by omega)
  have overflows : 2 ^ 32 ≤ seq.toNat + 1 := by omega
  have aborts : (idle seq (2 ^ 32 - 1)).sender.sendIn true [] 0 = none := by
    simp only [idle, ReliableSender.sendIn]
    rw [subWord_of_le (Nat.le_refl _), Nat.sub_self, Option.bind_eq_bind, Option.bind_some,
      if_neg (by decide), addWord_checked overflows, Option.bind_none]
  refine ⟨by rw [run]; rfl, ?_⟩
  rw [Option.eq_none_iff_forall_ne_some]
  intro l ran
  obtain ⟨middle, before, after⟩ := exec_append.mp ran
  cases Option.some.inj (run.symm.trans before)
  obtain ⟨t, stepped, -⟩ := exec_cons.mp after
  rw [step, aborts] at stepped
  cases stepped

end OrderedLink
end LanLink.Reliable
