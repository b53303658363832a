import LanLink.Protocol.Acknowledgement

/-! The sender against any acknowledgements: values for `on_ack` come from the network
and need not be those of a receiver. Beside the sender run records of the payloads it
accepted, of the numbers it sent again and of the numbers that `on_ack` returned. -/
namespace LanLink.Reliable
open Words Runs

/-- `send` in a build with overflow checks, where it may abort, or in one without. -/
def ReliableSender.sendIn (checks : Bool) (s : ReliableSender) (payload : Bytes) (now : Nat) :
    Option (ReliableSender × Option Bytes) := do
  let outstanding ← subWord checks 32 s.nextSeq.toNat s.windowBase.toNat
  if windowSize.toNat ≤ outstanding then return (s, none)
  let next ← addWord checks 32 s.nextSeq.toNat 1
  let slot : SendSlot :=
    { seq := s.nextSeq, data := payload, sentAt := now, retries := 0, acked := false }
  return ({ s with nextSeq := next.toUInt32, slots := s.slots ++ [slot] },
    some (encodePacket s.connId s.streamId s.nextSeq payload))

theorem ReliableSender.sendIn_true (s : ReliableSender) : s.sendIn true = s.send := rfl

structure SendRun where
  sender : ReliableSender
  sent : List Bytes
  resent : List UInt32
  returned : List UInt32

inductive SendCall where
  | send (payload : Bytes) (now : Nat)
  | onAck (ackSeq ackBitmap : UInt32)
  | pollRetransmit (now : Nat)

def SendCall.isSend : SendCall → Bool
  | send _ _ => true
  | onAck _ _ | pollRetransmit _ => false

namespace SendRun

def start (connId : UInt64) (streamId : UInt16) : SendRun := ⟨.new connId streamId, [], [], []⟩

def step (checks : Bool) (r : SendRun) : SendCall → Option SendRun
  | .send payload now => do
    let (sender, packet) ← r.sender.sendIn checks payload now
    return { r with sender, sent := if packet.isSome then r.sent ++ [payload] else r.sent }
  | .onAck ackSeq ackBitmap =>
    let (sender, acked) := r.sender.onAck ackSeq ackBitmap
    some { r with sender, returned := r.returned ++ acked }
  | .pollRetransmit now =>
    let (sender, retrans) := r.sender.pollRetransmit now
    some { r with sender, resent := r.resent ++ retrans.map fun packet => packet.2.2.1 }

/-- What the sender keeps at any time. -/
structure WindowKept (r : SendRun) : Prop where
  numbers : r.sender.slots.map (fun slot => slot.seq.toNat) =
    List.range' r.sender.windowBase.toNat (r.sender.nextSeq.toNat - r.sender.windowBase.toNat)
  ordered : r.sender.windowBase ≤ r.sender.nextSeq
  front : ∀ slot ∈ r.sender.slots.head?, slot.acked = false
  bounded : r.sender.slots.length ≤ windowSize.toNat
  counted : r.sent.length = r.sender.nextSeq.toNat
  payload : ∀ slot ∈ r.sender.slots, r.sent[slot.seq.toNat]? = some slot.data
  retries : ∀ slot ∈ r.sender.slots, slot.retries.toNat = r.resent.count slot.seq
  retransmissions : ∀ seq, r.resent.count seq ≤ maxRetries.toNat
  once : r.returned.Nodup

/-- A send ends, and it is refused exactly when the window is full. -/
def SendExact (checks : Bool) (r : SendRun) : SendCall → Prop
  | .send payload now => ∃ sender packet, r.sender.sendIn checks payload now = some (sender, packet) ∧
      (packet = none ↔ r.sender.slots.length = windowSize.toNat)
  | .onAck _ _ | .pollRetransmit _ => True

/-- The inductive invariant: numbers that were sent again or returned belong to packets
that were sent, and a returned number never waits for an acknowledgement. -/
structure Kept (r : SendRun) : Prop where
  windowed : Windowed r.sender
  front : ∀ slot ∈ r.sender.slots.head?, slot.acked = false
  bounded : r.sender.slots.length ≤ 32
  counted : r.sent.length = r.sender.nextSeq.toNat
  payload : ∀ slot ∈ r.sender.slots, r.sent[slot.seq.toNat]? = some slot.data
  retries : ∀ slot ∈ r.sender.slots, slot.retries.toNat = r.resent.count slot.seq
  retransmissions : ∀ seq, r.resent.count seq ≤ 10
  resent : ∀ seq ∈ r.resent, seq < r.sender.nextSeq
  returned : ∀ seq ∈ r.returned, seq < r.sender.nextSeq ∧
    ∀ slot ∈ r.sender.slots, slot.seq = seq → slot.acked
  once : r.returned.Nodup

end SendRun

section
variable {s : ReliableSender}

theorem Windowed.numbers (windowed : Windowed s) :
    s.slots.map (fun slot => slot.seq.toNat) =
      List.range' s.windowBase.toNat (s.nextSeq.toNat - s.windowBase.toNat) := by
  have whole := windowed.whole
  apply List.ext_getElem
  · rw [List.length_map, List.length_range']
    omega
  · intro i here there
    rw [List.getElem_map, List.getElem_range', Nat.one_mul]
    exact windowed.number i _ (List.getElem?_eq_getElem _)

theorem Windowed.distinct (windowed : Windowed s) : (s.slots.map SendSlot.seq).Nodup := by
  have numbers : ((s.slots.map SendSlot.seq).map UInt32.toNat).Nodup := by
    rw [List.map_map]
    exact windowed.numbers ▸ List.nodup_range'
  exact numbers.of_map

theorem Windowed.unique (windowed : Windowed s) (here : a ∈ s.slots) (there : b ∈ s.slots)
    (same : a.seq = b.seq) : a = b :=
  List.inj_on_of_nodup_map windowed.distinct here there same

theorem Windowed.sendIn_full (windowed : Windowed s) (full : 32 ≤ s.slots.length)
    (checks : Bool) (payload : Bytes) (now : Nat) :
    s.sendIn checks payload now = some (s, none) := by
  have whole := windowed.whole
  have outstanding : windowSize.toNat ≤ s.nextSeq.toNat - s.windowBase.toNat := by
    change 32 ≤ _
    omega
  rw [ReliableSender.sendIn, subWord_of_le (by omega), Option.bind_eq_bind, Option.bind_some,
    if_pos outstanding]
  rfl

theorem Windowed.sendIn_room (windowed : Windowed s) (room : s.slots.length < 32)
    (fits : s.nextSeq.toNat + 1 < 2 ^ 32) (checks : Bool) (payload : Bytes) (now : Nat) :
    s.sendIn checks payload now = some ({ s with
      nextSeq := s.nextSeq + 1, slots := s.slots ++ [⟨s.nextSeq, payload, now, 0, false⟩] },
      some (encodePacket s.connId s.streamId s.nextSeq payload)) := by
  have whole := windowed.whole
  have outstanding : ¬ windowSize.toNat ≤ s.nextSeq.toNat - s.windowBase.toNat := by
    change ¬ 32 ≤ _
    omega
  have next : (s.nextSeq.toNat + 1).toUInt32 = s.nextSeq + 1 := by
    apply UInt32.toNat_inj.mp
    rw [toUInt32_toNat fits, toNat_succ fits]
  rw [ReliableSender.sendIn, subWord_of_le (by omega), Option.bind_eq_bind, Option.bind_some,
    if_neg outstanding, addWord_of_lt fits, Option.bind_some, next]
  rfl

/-- How often a slot is among those with a property, by its number. -/
theorem Windowed.count_filter {slot : SendSlot} (windowed : Windowed s)
    (present : slot ∈ s.slots) (p : SendSlot → Bool) :
    ((s.slots.filter p).map SendSlot.seq).count slot.seq = if p slot then 1 else 0 := by
  have distinct := windowed.distinct.sublist ((List.filter_sublist (p := p)).map SendSlot.seq)
  have member : slot.seq ∈ (s.slots.filter p).map SendSlot.seq ↔ p slot := by
    constructor
    · intro named
      obtain ⟨other, there, same⟩ := List.mem_map.mp named
      obtain ⟨there, holds⟩ := List.mem_filter.mp there
      rwa [windowed.unique present there same.symm]
    · intro holds
      exact List.mem_map_of_mem (List.mem_filter.mpr ⟨present, holds⟩)
  rw [distinct.count]
  exact if_congr member rfl rfl

end

theorem retry_data (now : Nat) (slot : SendSlot) : (slot.retry now).data = slot.data := by
  rw [SendSlot.retry]
  split <;> rfl

theorem retries_of_expired {slot : SendSlot} (expired : slot.expired now) :
    slot.retries.toNat < 10 := by
  simp only [SendSlot.expired, Bool.and_eq_true, decide_eq_true_eq] at expired
  exact UInt32.lt_iff_toNat_lt.mp expired.1.2

theorem retry_retries (now : Nat) (slot : SendSlot) :
    (slot.retry now).retries.toNat = slot.retries.toNat + if slot.expired now then 1 else 0 := by
  rw [SendSlot.retry]
  split
  · rename_i expired
    have few := retries_of_expired expired
    exact toNat_succ (by omega)
  · rfl

namespace SendRun
variable {r t : SendRun} {checks : Bool}

theorem Kept.send_full (kept : Kept r) (full : r.sender.slots.length = 32) (checks : Bool)
    (payload : Bytes) (now : Nat) : step checks r (.send payload now) = some r := by
  rw [step, kept.windowed.sendIn_full full.ge]
  rfl

theorem Kept.queue (kept : Kept r) (room : r.sender.slots.length < 32)
    (fits : r.sender.nextSeq.toNat + 1 < 2 ^ 32) (payload : Bytes) (now : Nat) :
    Kept { r with
      sender := { r.sender with
        nextSeq := r.sender.nextSeq + 1,
        slots := r.sender.slots ++ [⟨r.sender.nextSeq, payload, now, 0, false⟩] },
      sent := r.sent ++ [payload] } := by
  have next := toNat_succ fits
  have later {seq : UInt32} (before : seq < r.sender.nextSeq) : seq < r.sender.nextSeq + 1 := by
    rw [UInt32.lt_iff_toNat_lt] at before ⊢
    omega
  have new : r.sender.nextSeq ∉ r.resent := fun again => UInt32.lt_irrefl _ (kept.resent _ again)
  constructor
  case windowed => exact kept.windowed.queue fits payload now
  case front =>
    cases slots : r.sender.slots with
    | nil => simp
    | cons first rest => simpa [slots] using kept.front
  case bounded =>
    rw [List.length_append]
    exact room
  case counted => rw [List.length_append, kept.counted, next, List.length_singleton]
  case payload =>
    refine List.forall_mem_append.mpr ⟨fun slot present => ?_, ?_⟩
    · have known := kept.payload slot present
      rwa [List.getElem?_append_left (List.getElem?_eq_some_iff.mp known).1]
    · rw [List.forall_mem_singleton, ← kept.counted]
      exact List.getElem?_concat_length
  case retries =>
    refine List.forall_mem_append.mpr ⟨kept.retries, ?_⟩
    rw [List.forall_mem_singleton, List.count_eq_zero_of_not_mem new]
    rfl
  case retransmissions => exact kept.retransmissions
  case resent => exact fun seq again => later (kept.resent seq again)
  case returned =>
    intro seq known
    obtain ⟨before, acked⟩ := kept.returned seq known
    refine ⟨later before, List.forall_mem_append.mpr ⟨acked, ?_⟩⟩
    rw [List.forall_mem_singleton]
    intro same
    exact absurd (same ▸ before) (UInt32.lt_irrefl _)
  case once => exact kept.once

theorem Kept.pollRetransmit (kept : Kept r) (now : Nat) :
    Kept { r with
      sender := { r.sender with slots := r.sender.slots.map (.retry now) },
      resent := r.resent ++ (r.sender.slots.filter (SendSlot.expired now)).map SendSlot.seq } := by
  have counts {slot : SendSlot} (present : slot ∈ r.sender.slots) :=
    kept.windowed.count_filter present (SendSlot.expired now)
  constructor
  case windowed => exact kept.windowed.map _ (fun slot => (retry_kept now slot).1)
  case front =>
    rw [List.head?_map]
    intro slot first
    obtain ⟨before, there, rfl⟩ := Option.map_eq_some_iff.mp first
    rw [(retry_kept now before).2]
    exact kept.front before there
  case bounded =>
    rw [List.length_map]
    exact kept.bounded
  case counted => exact kept.counted
  case payload =>
    intro slot present
    obtain ⟨before, old, rfl⟩ := List.mem_map.mp present
    rw [(retry_kept now before).1, retry_data]
    exact kept.payload before old
  case retries =>
    intro slot present
    obtain ⟨before, old, rfl⟩ := List.mem_map.mp present
    rw [(retry_kept now before).1, List.count_append, counts old, retry_retries,
      kept.retries before old]
  case retransmissions =>
    intro seq
    rw [List.count_append]
    by_cases again : seq ∈ (r.sender.slots.filter (SendSlot.expired now)).map SendSlot.seq
    · obtain ⟨slot, there, rfl⟩ := List.mem_map.mp again
      obtain ⟨there, expired⟩ := List.mem_filter.mp there
      have few := retries_of_expired expired
      rw [kept.retries slot there] at few
      rw [counts there, if_pos expired]
      omega
    · rw [List.count_eq_zero_of_not_mem again]
      exact kept.retransmissions seq
  case resent =>
    refine List.forall_mem_append.mpr ⟨kept.resent, fun seq again => ?_⟩
    obtain ⟨slot, there, rfl⟩ := List.mem_map.mp again
    exact UInt32.lt_iff_toNat_lt.mpr (kept.windowed.member (List.mem_filter.mp there).1).2
  case returned =>
    intro seq known
    obtain ⟨before, acked⟩ := kept.returned seq known
    refine ⟨before, fun slot present same => ?_⟩
    obtain ⟨old, there, rfl⟩ := List.mem_map.mp present
    rw [(retry_kept now old).1] at same
    rw [(retry_kept now old).2]
    exact acked old there same
  case once => exact kept.once

theorem onAck_data (slot : SendSlot) (ackSeq ackBitmap : UInt32) :
    (slot.onAck ackSeq ackBitmap).data = slot.data ∧
      (slot.onAck ackSeq ackBitmap).retries = slot.retries := by
  rw [SendSlot.onAck]
  split <;> exact ⟨rfl, rfl⟩

theorem onAck_of_acked {slot : SendSlot} (acked : slot.acked) (ackSeq ackBitmap : UInt32) :
    (slot.onAck ackSeq ackBitmap).acked := by
  rw [SendSlot.onAck]
  split
  · rfl
  · exact acked

theorem mem_onAck {s : ReliableSender} (named : seq ∈ (s.onAck ackSeq ackBitmap).2) :
    ∃ slot ∈ s.slots, (!slot.acked && confirms ackSeq ackBitmap slot.seq) = true ∧ slot.seq = seq := by
  obtain ⟨slot, there, rfl⟩ := List.mem_map.mp named
  obtain ⟨there, marked⟩ := List.mem_filter.mp there
  exact ⟨slot, there, marked, rfl⟩

theorem Kept.onAck (kept : Kept r) (ackSeq ackBitmap : UInt32) :
    Kept { r with
      sender := (r.sender.onAck ackSeq ackBitmap).1,
      returned := r.returned ++ (r.sender.onAck ackSeq ackBitmap).2 } := by
  obtain ⟨windowed, grown, kept_slots, popped, front⟩ := kept.windowed.onAck ackSeq ackBitmap
  have same : (r.sender.onAck ackSeq ackBitmap).1.nextSeq = r.sender.nextSeq := rfl
  have whole := windowed.whole
  have before := kept.windowed.whole
  constructor
  case windowed => exact windowed
  case front =>
    intro slot first
    obtain ⟨old, there, rfl⟩ := kept_slots slot (List.mem_of_mem_head? first)
    have number := windowed.number 0 _ (by rwa [← List.head?_eq_getElem?])
    rw [onAck_seq] at number
    exact front old there number
  case bounded =>
    have few := kept.bounded
    rw [same] at whole
    dsimp only
    omega
  case counted => exact kept.counted
  case payload =>
    intro slot present
    obtain ⟨old, there, rfl⟩ := kept_slots slot present
    rw [onAck_seq, (onAck_data old ackSeq ackBitmap).1]
    exact kept.payload old there
  case retries =>
    intro slot present
    obtain ⟨old, there, rfl⟩ := kept_slots slot present
    rw [onAck_seq, (onAck_data old ackSeq ackBitmap).2]
    exact kept.retries old there
  case retransmissions => exact kept.retransmissions
  case resent => exact kept.resent
  case returned =>
    refine List.forall_mem_append.mpr ⟨fun seq known => ?_, fun seq named => ?_⟩
    · obtain ⟨sent, acked⟩ := kept.returned seq known
      refine ⟨sent, fun slot present number => ?_⟩
      obtain ⟨old, there, rfl⟩ := kept_slots slot present
      rw [onAck_seq] at number
      exact onAck_of_acked (acked old there number) ackSeq ackBitmap
    · obtain ⟨slot, there, marked, rfl⟩ := mem_onAck named
      refine ⟨UInt32.lt_iff_toNat_lt.mpr (kept.windowed.member there).2, fun later present number => ?_⟩
      obtain ⟨old, here, rfl⟩ := kept_slots later present
      rw [onAck_seq] at number
      rw [kept.windowed.unique here there number, SendSlot.onAck, if_pos marked]
  case once =>
    have distinct : (r.sender.onAck ackSeq ackBitmap).2.Nodup :=
      kept.windowed.distinct.sublist (List.filter_sublist.map SendSlot.seq)
    refine List.nodup_append.mpr ⟨kept.once, distinct, fun old known new named repeated => ?_⟩
    obtain ⟨slot, there, marked, rfl⟩ := mem_onAck named
    have acked := (kept.returned old known).2 slot there repeated.symm
    simp [acked] at marked

/-- What a call with room in the numbers does. -/
theorem Kept.step (kept : Kept r) (checks : Bool) {call : SendCall}
    (fits : call.isSend → r.sender.nextSeq.toNat + 1 < 2 ^ 32) :
    ∃ t, step checks r call = some t ∧ Kept t ∧
      t.sender.nextSeq.toNat ≤ r.sender.nextSeq.toNat + if call.isSend then 1 else 0 := by
  cases call with
  | send payload now =>
    rcases Nat.lt_or_ge r.sender.slots.length 32 with room | full
    · refine ⟨_, ?_, kept.queue room (fits rfl) payload now, (toNat_succ (fits rfl)).le⟩
      rw [SendRun.step, kept.windowed.sendIn_room room (fits rfl)]
      rfl
    · exact ⟨r, kept.send_full (Nat.le_antisymm kept.bounded full) checks payload now, kept,
        Nat.le_add_right _ _⟩
  | onAck ackSeq ackBitmap => exact ⟨_, rfl, kept.onAck ackSeq ackBitmap, Nat.le_refl _⟩
  | pollRetransmit now =>
    refine ⟨_, rfl, ?_, Nat.le_refl _⟩
    rw [List.map_map]
    exact kept.pollRetransmit now

theorem Kept.windowKept (kept : Kept r) : WindowKept r where
  numbers := kept.windowed.numbers
  ordered := by
    have whole := kept.windowed.whole
    rw [UInt32.le_iff_toNat_le]
    omega
  front := kept.front
  bounded := kept.bounded
  counted := kept.counted
  payload := kept.payload
  retries := kept.retries
  retransmissions := kept.retransmissions
  once := kept.once

theorem Kept.sendExact (kept : Kept r) {call : SendCall}
    (fits : call.isSend → r.sender.nextSeq.toNat + 1 < 2 ^ 32) : SendExact checks r call := by
  cases call with
  | send payload now =>
    rcases Nat.lt_or_ge r.sender.slots.length 32 with room | full
    · exact ⟨_, _, kept.windowed.sendIn_room room (fits rfl) checks payload now,
        iff_of_false nofun room.ne⟩
    · exact ⟨_, _, kept.windowed.sendIn_full full checks payload now,
        iff_of_true rfl (Nat.le_antisymm kept.bounded full)⟩
  | onAck ackSeq ackBitmap => trivial
  | pollRetransmit now => trivial

theorem start_kept (connId : UInt64) (streamId : UInt16) : Kept (start connId streamId) := by
  refine ⟨⟨?_, ?_⟩, ?_, ?_, ?_, ?_, ?_, ?_, ?_, ?_, ?_⟩ <;> simp [start, ReliableSender.new]

theorem Kept.run (kept : Kept r) (calls : List SendCall)
    (few : r.sender.nextSeq.toNat + calls.countP SendCall.isSend < 2 ^ 32) :
    (∃ t, exec (SendRun.step checks) r calls = some t) ∧
      Always (SendRun.step checks) WindowKept r calls ∧
      Meets (SendRun.step checks) (SendExact checks) r calls := by
  induction calls generalizing r with
  | nil => exact ⟨⟨r, rfl⟩, kept.windowKept, trivial⟩
  | cons call rest ih =>
    rw [List.countP_cons] at few
    have fits (sends : call.isSend) : r.sender.nextSeq.toNat + 1 < 2 ^ 32 := by
      rw [if_pos sends] at few
      omega
    obtain ⟨middle, stepped, later, grown⟩ := kept.step checks fits
    obtain ⟨⟨t, run⟩, always, meets⟩ := ih later (by omega)
    refine ⟨⟨t, exec_cons.mpr ⟨middle, stepped, run⟩⟩, ?_, ?_⟩
    · exact ⟨kept.windowKept, by simpa [stepped] using always⟩
    · exact ⟨kept.sendExact fits, by simpa [stepped] using meets⟩

/-- In every run with fewer than 2^32 sends no call overflows, the window is kept in every
state, and a send is refused exactly when the window is full. -/
theorem window_always_kept (checks : Bool) (connId : UInt64) (streamId : UInt16)
    (calls : List SendCall) (few : calls.countP SendCall.isSend < 2 ^ 32) :
    (∃ r, exec (step checks) (start connId streamId) calls = some r) ∧
      Always (step checks) WindowKept (start connId streamId) calls ∧
      Meets (step checks) (SendExact checks) (start connId streamId) calls := by
  refine (start_kept connId streamId).run calls ?_
  change 0 + _ < _
  omega

/-- An acknowledgement from nowhere marks a slot in the middle of the window. -/
def middleAcked : List SendCall :=
  [.send [1] 0, .send [2] 0, .send [3] 0, .onAck 4294967295 2, .pollRetransmit 300, .onAck 0 0]

theorem window_always_kept_middle :
    middleAcked.countP SendCall.isSend < 2 ^ 32 ∧
      Always (step true) WindowKept (start 7 0) middleAcked :=
  ⟨by decide, (window_always_kept true 7 0 middleAcked (by decide)).2.1⟩

end SendRun
end LanLink.Reliable
