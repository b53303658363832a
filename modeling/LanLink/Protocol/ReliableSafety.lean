import LanLink.Core.Runs
import LanLink.Protocol.Reliable

/-! A sender and a receiver joined by a network that may lose, repeat, reorder
and delay packets. Packets never leave the network: delivery of any packet
emitted so far, at any time and any number of times, is a step, and a packet
that is never delivered is lost. Acknowledgements are unrestricted, so stale
and forged ones are included. -/
namespace LanLink.Reliable
open Words

structure Link where
  sender : ReliableSender
  receiver : ReliableReceiver
  /-- Every packet emitted so far. -/
  network : List (UInt32 × Bytes)
  /-- Payloads accepted by `send`, in order. -/
  accepted : List Bytes
  /-- Everything `deliver` has returned, in order. -/
  returned : List Bytes
  deriving DecidableEq

inductive Event where
  | send (payload : Bytes) (now : Nat)
  | onAck (ackSeq ackBitmap : UInt32)
  | pollRetransmit (now : Nat)
  | deliver (seq : UInt32) (payload : Bytes)

def Link.start (connId : UInt64) (streamId : UInt16) : Link :=
  ⟨.new connId streamId, .new, [], [], []⟩

/-- A retransmission is encoded by the caller, as the source asks. -/
def reencode (packet : UInt64 × UInt16 × UInt32 × Bytes) : Bytes :=
  encodePacket packet.1 packet.2.1 packet.2.2.1 packet.2.2.2

def Link.step (l : Link) : Event → Option Link
  | .send payload now => do
    let (sender, packet) ← l.sender.send payload now
    match packet with
    | none => return { l with sender }
    | some bytes => return { l with sender, network := l.network ++ (wirePacket bytes).toList,
                                    accepted := l.accepted ++ [payload] }
  | .onAck ackSeq ackBitmap => some { l with sender := (l.sender.onAck ackSeq ackBitmap).1 }
  | .pollRetransmit now =>
    let polled := l.sender.pollRetransmit now
    some { l with sender := polled.1,
                  network := l.network ++ polled.2.filterMap (fun p => wirePacket (reencode p)) }
  | .deliver seq payload =>
    if (seq, payload) ∈ l.network then
      let delivered := l.receiver.deliver seq payload
      some { l with receiver := delivered.1, returned := l.returned ++ delivered.2 }
    else none

/-- Every numbered payload is the one at that position of the source list. -/
def Numbers (source : List Bytes) (packets : List (UInt32 × Bytes)) : Prop :=
  ∀ packet ∈ packets, source[packet.1.toNat]? = some packet.2

theorem Numbers.append (first : Numbers source a) (second : Numbers source b) :
    Numbers source (a ++ b) := by
  intro packet member
  rcases List.mem_append.mp member with left | right
  · exact first packet left
  · exact second packet right

theorem Numbers.grow (numbered : Numbers source packets) (extra : List Bytes) :
    Numbers (source ++ extra) packets := by
  intro packet member
  have present := numbered packet member
  rw [List.getElem?_append_left (List.getElem?_eq_some_iff.mp present).1]
  exact present

/-- Advancing past a position appends exactly the payload stored there. -/
theorem take_next {source : List Bytes} (small : source.length < 2 ^ 32)
    (found : source[(next : UInt32).toNat]? = some payload) :
    (next + 1).toNat = next.toNat + 1 ∧
      source.take (next + 1).toNat = source.take next.toNat ++ [payload] := by
  obtain ⟨bound, rfl⟩ := List.getElem?_eq_some_iff.mp found
  have advanced := toNat_succ (x := next) (by omega)
  exact ⟨advanced, by rw [advanced, List.take_succ_eq_append_getElem bound]⟩

theorem drain_extends {source : List Bytes} (small : source.length < 2 ^ 32)
    (numbered : Numbers source buffer) (within : n.toNat ≤ source.length) :
    Numbers source (drain n buffer).2.1 ∧ (drain n buffer).1.toNat ≤ source.length ∧
      source.take (drain n buffer).1.toNat =
        source.take n.toNat ++ (drain n buffer).2.2 := by
  induction buffer generalizing n with
  | nil => exact ⟨numbered, within, by simp [drain]⟩
  | cons entry rest ih =>
    obtain ⟨seq, data⟩ := entry
    simp only [drain]
    split
    · rename_i front
      subst front
      have found := numbered (seq, data) (by simp)
      obtain ⟨advanced, taken⟩ : (seq + 1).toNat = seq.toNat + 1 ∧ _ := take_next small found
      have bound : seq.toNat < source.length := (List.getElem?_eq_some_iff.mp found).1
      obtain ⟨kept, limit, extended⟩ := ih (n := seq + 1)
        (fun packet member => numbered packet (by simp [member])) (advanced ▸ bound)
      refine ⟨kept, limit, ?_⟩
      rw [extended, taken, List.append_assoc, List.singleton_append]
    · exact ⟨numbered, within, by simp⟩

theorem bufferPacket_mem {dist : UInt32} (member : entry ∈ bufferPacket seq dist payload buffer) :
    entry = (seq, payload) ∨ entry ∈ buffer := by
  simp only [bufferPacket] at member
  split at member
  · exact Or.inr member
  · exact (List.mem_insertIdx List.findIdx_le_length).mp member

/-- A delivery of a genuine packet returns the next payloads of the source
list and nothing else, whatever order the buffer is in. -/
theorem ReliableReceiver.deliver_extends {source : List Bytes} {r : ReliableReceiver}
    (small : source.length < 2 ^ 32) (genuine : source[(seq : UInt32).toNat]? = some payload)
    (numbered : Numbers source r.oooBuffer) (within : r.nextExpected.toNat ≤ source.length) :
    Numbers source (r.deliver seq payload).1.oooBuffer ∧
      (r.deliver seq payload).1.nextExpected.toNat ≤ source.length ∧
      source.take (r.deliver seq payload).1.nextExpected.toNat =
        source.take r.nextExpected.toNat ++ (r.deliver seq payload).2 := by
  simp only [deliver]
  split
  · rename_i inOrder
    have same := sub_eq_zero_iff.mp inOrder
    subst same
    obtain ⟨advanced, taken⟩ := take_next small genuine
    have bound := (List.getElem?_eq_some_iff.mp genuine).1
    obtain ⟨kept, limit, extended⟩ :=
      drain_extends (n := r.nextExpected + 1) small numbered (by omega)
    refine ⟨kept, limit, ?_⟩
    rw [extended, taken, List.append_assoc, List.singleton_append]
  · split
    · refine ⟨?_, within, by simp⟩
      intro entry member
      rcases bufferPacket_mem member with rfl | old
      · exact genuine
      · exact numbered entry old
    · exact ⟨numbered, within, by simp⟩

/-- The joint invariant of both ends and of every packet in flight. -/
structure Coherent (l : Link) : Prop where
  counted : l.sender.nextSeq.toNat = l.accepted.length
  slots : ∀ slot ∈ l.sender.slots, l.accepted[slot.seq.toNat]? = some slot.data
  network : Numbers l.accepted l.network
  buffer : Numbers l.accepted l.receiver.oooBuffer
  within : l.receiver.nextExpected.toNat ≤ l.accepted.length
  returned : l.returned = l.accepted.take l.receiver.nextExpected.toNat

theorem start_coherent (connId : UInt64) (streamId : UInt16) :
    Coherent (Link.start connId streamId) := by
  constructor <;> simp [Link.start, ReliableSender.new, ReliableReceiver.new, Numbers]

theorem send_coherent (coherent : Coherent l)
    (stepped : l.step (.send payload now) = some t) : Coherent t := by
  simp only [Link.step, bind, Option.bind_eq_some_iff] at stepped
  obtain ⟨⟨sender, packet⟩, sent, stepped⟩ := stepped
  rcases ReliableSender.send_cases sent with ⟨_, ⟨_, rfl, rfl⟩ | ⟨_, fits, rfl, rfl⟩⟩
  · cases stepped
    exact ⟨coherent.counted, coherent.slots, coherent.network, coherent.buffer,
      coherent.within, coherent.returned⟩
  · simp only [wirePacket_encodePacket, Option.toList_some] at stepped
    cases stepped
    have fresh : (l.accepted ++ [payload])[l.sender.nextSeq.toNat]? = some payload := by
      rw [coherent.counted]
      simp
    refine ⟨?_, ?_, ?_, coherent.buffer.grow _, ?_, ?_⟩
    · simp only [toNat_succ fits, coherent.counted, List.length_append, List.length_singleton]
    · intro slot member
      rcases List.mem_append.mp member with old | new
      · have present := coherent.slots slot old
        rw [List.getElem?_append_left (List.getElem?_eq_some_iff.mp present).1]
        exact present
      · cases List.mem_singleton.mp new
        exact fresh
    · apply (coherent.network.grow _).append
      intro p member
      cases List.mem_singleton.mp member
      exact fresh
    · have := coherent.within
      simp only [List.length_append]
      omega
    · rw [List.take_append_of_le_length coherent.within]
      exact coherent.returned

theorem poll_coherent (coherent : Coherent l)
    (stepped : l.step (.pollRetransmit now) = some t) : Coherent t := by
  cases Option.some.inj stepped
  refine ⟨coherent.counted, ?_, ?_, coherent.buffer, coherent.within, coherent.returned⟩
  · intro slot member
    obtain ⟨before, old, seq, data⟩ := ReliableSender.pollRetransmit_slots _ _ member
    rw [seq, data]
    exact coherent.slots before old
  · apply coherent.network.append
    intro packet member
    obtain ⟨retransmission, listed, sent⟩ := List.mem_filterMap.mp member
    obtain ⟨slot, pending, rfl⟩ := List.mem_map.mp listed
    simp only [reencode, wirePacket_encodePacket, Option.some.injEq] at sent
    subst sent
    exact coherent.slots slot (List.mem_filter.mp pending).1

theorem deliver_coherent (coherent : Coherent l)
    (stepped : l.step (.deliver seq payload) = some t) : Coherent t := by
  simp only [Link.step, Option.ite_none_right_eq_some, Option.some.injEq] at stepped
  obtain ⟨member, rfl⟩ := stepped
  have small : l.accepted.length < 2 ^ 32 := by
    rw [← coherent.counted]
    exact l.sender.nextSeq.toNat_lt
  obtain ⟨kept, limit, extended⟩ := ReliableReceiver.deliver_extends small
    (coherent.network _ member) coherent.buffer coherent.within
  exact ⟨coherent.counted, coherent.slots, coherent.network, kept, limit,
    by rw [extended, coherent.returned]⟩

theorem step_coherent (coherent : Coherent l) (stepped : l.step event = some t) : Coherent t := by
  cases event with
  | send payload now => exact send_coherent coherent stepped
  | pollRetransmit now => exact poll_coherent coherent stepped
  | deliver seq payload => exact deliver_coherent coherent stepped
  | onAck ackSeq ackBitmap =>
    cases Option.some.inj stepped
    refine ⟨coherent.counted, ?_, coherent.network, coherent.buffer, coherent.within,
      coherent.returned⟩
    intro slot member
    obtain ⟨before, old, seq, data⟩ := ReliableSender.onAck_slots _ _ _ member
    rw [seq, data]
    exact coherent.slots before old

theorem run_coherent (run : Runs.exec Link.step (Link.start connId streamId) events = some l) :
    Coherent l :=
  Runs.invariant step_coherent run (start_coherent connId streamId)

/-- Selective-repeat safety: at every moment the application has received a
prefix of what was accepted, without gap, repetition or reordering. The bound
of 2^32 accepted payloads is kept by `send` itself, which aborts before its
counter would wrap. -/
theorem delivery_in_order (connId : UInt64) (streamId : UInt16) (events : List Event) (l : Link)
    (run : Runs.exec Link.step (Link.start connId streamId) events = some l) :
    l.accepted.length < 2 ^ 32 ∧ l.returned <+: l.accepted := by
  have coherent := run_coherent run
  constructor
  · rw [← coherent.counted]
    exact l.sender.nextSeq.toNat_lt
  · rw [coherent.returned]
    exact List.take_prefix _ _

/-- Two packets arrive in the wrong order, one of them twice. -/
def swappedEvents : List Event :=
  [.send [1] 0, .send [2] 5, .deliver 1 [2], .deliver 0 [1], .onAck 1 0,
    .pollRetransmit 300, .deliver 0 [1]]

theorem delivery_in_order_swapped : ∃ l,
    Runs.exec Link.step (Link.start 7 0) swappedEvents = some l ∧
    l.returned = [[1], [2]] ∧ l.returned <+: l.accepted := by
  have outcome : (Runs.exec Link.step (Link.start 7 0) swappedEvents).map Link.returned =
      some [[1], [2]] := by decide
  obtain ⟨l, run, returned⟩ := Option.map_eq_some_iff.mp outcome
  exact ⟨l, run, returned, (delivery_in_order 7 0 swappedEvents l run).2⟩

end LanLink.Reliable
