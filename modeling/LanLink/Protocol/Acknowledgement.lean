import LanLink.Protocol.ReliableSafety

/-! Acknowledgements that come from the receiver. The link of the safety result
is extended by a record of every value `ackInfo` has returned; the sender is
given such values only, late, repeated and in any order. The receiver never
writes its bitmap, so an acknowledgement confirms one packet: the last one
returned when it was built. -/
namespace LanLink.Reliable
open Words

structure Feedback where
  link : Link
  /-- Every value `ackInfo` has returned. -/
  acks : List (UInt32 × UInt32)
  deriving DecidableEq

def Feedback.start (connId : UInt64) (streamId : UInt16) : Feedback :=
  ⟨.start connId streamId, []⟩

inductive Exchange where
  | link (event : Event)
  | ackInfo

/-- An acknowledgement that is processed was built by the receiver. -/
def Event.Genuine (acks : List (UInt32 × UInt32)) : Event → Prop
  | .onAck ackSeq ackBitmap => (ackSeq, ackBitmap) ∈ acks
  | _ => True

instance (acks : List (UInt32 × UInt32)) : (event : Event) → Decidable (event.Genuine acks)
  | .send _ _ | .pollRetransmit _ | .deliver _ _ => isTrue trivial
  | .onAck ackSeq ackBitmap => inferInstanceAs (Decidable ((ackSeq, ackBitmap) ∈ acks))

def Feedback.step (f : Feedback) : Exchange → Option Feedback
  | .link event =>
    if event.Genuine f.acks then (f.link.step event).map fun link => { f with link } else none
  | .ackInfo => some { f with acks := f.acks ++ [f.link.receiver.ackInfo] }

/-- The slots carry consecutive numbers from the window base up to the next one. -/
structure Windowed (s : ReliableSender) : Prop where
  number : ∀ (i : Nat) (slot : SendSlot), s.slots[i]? = some slot →
    slot.seq.toNat = s.windowBase.toNat + i
  whole : s.windowBase.toNat + s.slots.length = s.nextSeq.toNat

section
variable {s t : ReliableSender}

theorem Windowed.member (windowed : Windowed s) (present : slot ∈ s.slots) :
    s.windowBase.toNat ≤ slot.seq.toNat ∧ slot.seq.toNat < s.nextSeq.toNat := by
  obtain ⟨i, found⟩ := List.mem_iff_getElem?.mp present
  have number := windowed.number i slot found
  have bound := (List.getElem?_eq_some_iff.mp found).1
  have whole := windowed.whole
  omega

/-- Every number of the window has its slot. -/
theorem Windowed.slot (windowed : Windowed s) (low : s.windowBase.toNat ≤ n)
    (high : n < s.nextSeq.toNat) : ∃ slot ∈ s.slots, slot.seq.toNat = n := by
  have whole := windowed.whole
  obtain ⟨slot, found⟩ : ∃ slot, s.slots[n - s.windowBase.toNat]? = some slot :=
    ⟨_, List.getElem?_eq_getElem (by omega)⟩
  refine ⟨slot, List.mem_of_getElem? found, ?_⟩
  rw [windowed.number _ _ found]
  omega

/-- Changing other fields of the slots keeps the window. -/
theorem Windowed.map (windowed : Windowed s) (f : SendSlot → SendSlot)
    (same : ∀ slot, (f slot).seq = slot.seq) : Windowed { s with slots := s.slots.map f } := by
  refine ⟨?_, by simpa using windowed.whole⟩
  intro i slot found
  simp only [List.getElem?_map, Option.map_eq_some_iff] at found
  obtain ⟨before, old, rfl⟩ := found
  rw [same]
  exact windowed.number i before old

theorem Windowed.queue (windowed : Windowed s) (fits : s.nextSeq.toNat + 1 < 2 ^ 32)
    (payload : Bytes) (now : Nat) :
    Windowed { s with nextSeq := s.nextSeq + 1,
                      slots := s.slots ++ [⟨s.nextSeq, payload, now, 0, false⟩] } := by
  have whole := windowed.whole
  constructor
  · intro i slot found
    rcases Nat.lt_trichotomy i s.slots.length with earlier | last | beyond
    · rw [List.getElem?_append_left earlier] at found
      exact windowed.number i slot found
    · subst last
      simp only [List.getElem?_concat_length, Option.some.injEq] at found
      subst found
      exact whole.symm
    · rw [List.getElem?_eq_none (by simp; omega)] at found
      cases found
  · simp only [List.length_append, List.length_singleton, toNat_succ fits]
    omega

/-- Sliding pops the acknowledged slots in front and counts them. -/
theorem slide_spec (windowBase : UInt32) (slots : List SendSlot) :
    ∃ k ≤ slots.length, slide windowBase slots = (windowBase + k.toUInt32, slots.drop k) ∧
      (∀ slot ∈ slots.take k, slot.acked) ∧ ∀ slot, slots[k]? = some slot → slot.acked = false := by
  induction slots generalizing windowBase with
  | nil => exact ⟨0, by simp [slide]⟩
  | cons slot rest ih =>
    simp only [slide]
    split
    · rename_i acked
      obtain ⟨k, bound, slid, popped, front⟩ := ih (windowBase + 1)
      refine ⟨k + 1, by simpa using bound, ?_, by simpa [acked] using popped, by simpa using front⟩
      rw [slid, List.drop_succ_cons]
      congr 1
      rw [UInt32.add_assoc]
      congr 1
      apply UInt32.toNat_inj.mp
      simp [UInt32.toNat_add, Nat.add_comm]
    · rename_i pending
      exact ⟨0, Nat.zero_le _, by simp, by simp, by simpa using pending⟩

theorem onAck_seq (slot : SendSlot) (ackSeq ackBitmap : UInt32) :
    (slot.onAck ackSeq ackBitmap).seq = slot.seq := by
  rw [SendSlot.onAck]
  split <;> rfl

/-- What an acknowledgement leaves of the window: the slots behind the popped
ones, each of them marked by the acknowledgement or not. -/
theorem Windowed.onAck (windowed : Windowed s) (ackSeq ackBitmap : UInt32) :
    Windowed (s.onAck ackSeq ackBitmap).1 ∧
    s.windowBase.toNat ≤ (s.onAck ackSeq ackBitmap).1.windowBase.toNat ∧
    (∀ slot ∈ (s.onAck ackSeq ackBitmap).1.slots,
      ∃ before ∈ s.slots, slot = before.onAck ackSeq ackBitmap) ∧
    (∀ slot ∈ s.slots, slot.seq.toNat < (s.onAck ackSeq ackBitmap).1.windowBase.toNat →
      (slot.onAck ackSeq ackBitmap).acked) ∧
    ∀ slot ∈ s.slots, slot.seq.toNat = (s.onAck ackSeq ackBitmap).1.windowBase.toNat →
      (slot.onAck ackSeq ackBitmap).acked = false := by
  have marked := windowed.map (SendSlot.onAck ackSeq ackBitmap) (onAck_seq · ackSeq ackBitmap)
  obtain ⟨k, bound, slid, popped, front⟩ :=
    slide_spec s.windowBase (s.slots.map (SendSlot.onAck ackSeq ackBitmap))
  have whole := marked.whole
  have top := s.nextSeq.toNat_lt
  simp only [List.length_map] at bound whole
  have base : (s.windowBase + k.toUInt32).toNat = s.windowBase.toNat + k := by
    rw [UInt32.toNat_add, toUInt32_toNat (by omega)]
    exact Nat.mod_eq_of_lt (by omega)
  simp only [ReliableSender.onAck, slid, base]
  refine ⟨⟨?_, ?_⟩, Nat.le_add_right _ _, ?_, ?_, ?_⟩
  · intro i slot found
    rw [List.getElem?_drop] at found
    have number : slot.seq.toNat = s.windowBase.toNat + (k + i) := marked.number _ slot found
    rw [number, base]
    omega
  · simp only [base, List.length_drop, List.length_map]
    omega
  · intro slot member
    obtain ⟨before, present, rfl⟩ := List.mem_map.mp (List.mem_of_mem_drop member)
    exact ⟨before, present, rfl⟩
  · intro slot member below
    obtain ⟨i, found⟩ := List.mem_iff_getElem?.mp member
    have number := windowed.number i slot found
    refine popped _ (List.mem_iff_getElem?.mpr ⟨i, ?_⟩)
    rw [List.getElem?_take_of_lt (by omega), List.getElem?_map, found]
    rfl
  · intro slot member first
    obtain ⟨i, found⟩ := List.mem_iff_getElem?.mp member
    have number := windowed.number i slot found
    apply front
    rw [show k = i by omega, List.getElem?_map, found]
    rfl

end

/-- The joint invariant of both ends and of every acknowledgement built. -/
structure Confirmed (f : Feedback) : Prop where
  coherent : Coherent f.link
  windowed : Windowed f.link.sender
  base : f.link.sender.windowBase.toNat ≤ f.link.receiver.nextExpected.toNat
  acked : ∀ slot ∈ f.link.sender.slots, slot.acked →
    slot.seq.toNat < f.link.receiver.nextExpected.toNat
  bitmap : f.link.receiver.lastAckBitmap = 0
  acks : ∀ ack ∈ f.acks, ack.2 = 0 ∧
    (ack.1 + 1).toNat ≤ f.link.receiver.nextExpected.toNat

section
variable {f g : Feedback}

theorem start_confirmed (connId : UInt64) (streamId : UInt16) :
    Confirmed (Feedback.start connId streamId) := by
  refine ⟨start_coherent connId streamId, ⟨?_, ?_⟩, ?_, ?_, ?_, ?_⟩ <;>
    simp [Feedback.start, Link.start, ReliableSender.new, ReliableReceiver.new]

/-- With an empty bitmap an acknowledgement confirms the packet it names. -/
theorem confirms_empty (ackSeq seq : UInt32) : confirms ackSeq 0 seq = true ↔ seq = ackSeq := by
  simp [confirms, sub_eq_zero_iff]

theorem onAck_acked (slot : SendSlot) (ackSeq : UInt32) :
    (slot.onAck ackSeq 0).acked = true ↔ slot.acked = true ∨ slot.seq = ackSeq := by
  rw [← confirms_empty, SendSlot.onAck]
  cases acked : slot.acked <;> cases confirms ackSeq 0 slot.seq <;> simp [acked]

theorem retry_kept (now : Nat) (slot : SendSlot) :
    (slot.retry now).seq = slot.seq ∧ (slot.retry now).acked = slot.acked := by
  rw [SendSlot.retry]
  split <;> exact ⟨rfl, rfl⟩

/-- A packet that an acknowledgement confirms has been returned. -/
theorem Confirmed.marks (confirmed : Confirmed f) (built : number ∈ f.acks)
    (present : slot ∈ f.link.sender.slots) (marked : (slot.onAck number.1 number.2).acked) :
    slot.seq.toNat < f.link.receiver.nextExpected.toNat := by
  obtain ⟨empty, before⟩ := confirmed.acks number built
  rw [empty, onAck_acked] at marked
  rcases marked with old | named
  · exact confirmed.acked slot present old
  · have below := (confirmed.windowed.member present).2
    have top := f.link.sender.nextSeq.toNat_lt
    rw [← named, toNat_succ (by omega)] at before
    omega

/-- The window does not pass the next expected number: the slot in front of the new
base was popped, so its packet had been returned. -/
theorem Confirmed.onAck_base (confirmed : Confirmed f) (built : (ackSeq, ackBitmap) ∈ f.acks) :
    (f.link.sender.onAck ackSeq ackBitmap).1.windowBase.toNat ≤
      f.link.receiver.nextExpected.toNat := by
  obtain ⟨windowed, -, -, popped, -⟩ := confirmed.windowed.onAck ackSeq ackBitmap
  by_contra beyond
  have whole := windowed.whole
  have low := confirmed.base
  obtain ⟨slot, present, number⟩ := confirmed.windowed.slot
    (n := f.link.receiver.nextExpected.toNat) low (by
      simp only [ReliableSender.onAck] at whole beyond ⊢
      omega)
  have marked := popped slot present (by rw [number]; exact Nat.not_le.mp beyond)
  have returned := confirmed.marks built present marked
  omega

/-- The next expected number never goes back. -/
theorem Link.step_nextExpected (coherent : Coherent l) (stepped : l.step event = some t) :
    l.receiver.nextExpected.toNat ≤ t.receiver.nextExpected.toNat ∧
      t.receiver.lastAckBitmap = l.receiver.lastAckBitmap := by
  cases event with
  | send payload now =>
    simp only [Link.step, bind, Option.bind_eq_some_iff] at stepped
    obtain ⟨⟨sender, packet⟩, _, stepped⟩ := stepped
    cases packet <;> cases stepped <;> exact ⟨Nat.le_refl _, rfl⟩
  | onAck ackSeq ackBitmap =>
    cases Option.some.inj stepped
    exact ⟨Nat.le_refl _, rfl⟩
  | pollRetransmit now =>
    cases Option.some.inj stepped
    exact ⟨Nat.le_refl _, rfl⟩
  | deliver seq payload =>
    have after := deliver_coherent coherent stepped
    simp only [Link.step, Option.ite_none_right_eq_some, Option.some.injEq] at stepped
    obtain ⟨_, rfl⟩ := stepped
    constructor
    · -- both counters are the number of payloads returned so far
      have before := congrArg List.length coherent.returned
      have now := congrArg List.length after.returned
      rw [List.length_take_of_le coherent.within] at before
      rw [List.length_take_of_le after.within, List.length_append] at now
      omega
    · simp only [ReliableReceiver.deliver]
      split
      · rfl
      · split <;> rfl

theorem link_confirmed (confirmed : Confirmed f) (genuine : event.Genuine f.acks)
    (stepped : f.link.step event = some l) : Confirmed { f with link := l } := by
  obtain ⟨later, bitmap⟩ := Link.step_nextExpected confirmed.coherent stepped
  have coherent := step_coherent confirmed.coherent stepped
  have acks : ∀ ack ∈ f.acks, ack.2 = 0 ∧
      (ack.1 + 1).toNat ≤ l.receiver.nextExpected.toNat := fun ack built =>
    ⟨(confirmed.acks ack built).1, (confirmed.acks ack built).2.trans later⟩
  have empty := bitmap.trans confirmed.bitmap
  cases event with
  | send payload now =>
    simp only [Link.step, bind, Option.bind_eq_some_iff] at stepped
    obtain ⟨⟨sender, packet⟩, sent, stepped⟩ := stepped
    rcases ReliableSender.send_cases sent with ⟨_, ⟨_, rfl, rfl⟩ | ⟨_, fits, rfl, rfl⟩⟩
    · cases stepped
      exact ⟨coherent, confirmed.windowed, confirmed.base, confirmed.acked, empty, acks⟩
    · cases stepped
      refine ⟨coherent, confirmed.windowed.queue fits payload now, confirmed.base, ?_, empty, acks⟩
      intro slot member acked
      rcases List.mem_append.mp member with old | new
      · exact confirmed.acked slot old acked
      · cases List.mem_singleton.mp new
        cases acked
  | pollRetransmit now =>
    cases Option.some.inj stepped
    refine ⟨coherent, confirmed.windowed.map _ (fun slot => (retry_kept now slot).1),
      confirmed.base, ?_, empty, acks⟩
    intro slot member acked
    obtain ⟨before, present, rfl⟩ := List.mem_map.mp member
    obtain ⟨number, mark⟩ := retry_kept now before
    rw [number]
    rw [mark] at acked
    exact confirmed.acked before present acked
  | deliver seq payload =>
    simp only [Link.step, Option.ite_none_right_eq_some, Option.some.injEq] at stepped
    obtain ⟨_, rfl⟩ := stepped
    exact ⟨coherent, confirmed.windowed, confirmed.base.trans later,
      fun slot present acked => (confirmed.acked slot present acked).trans_le later, empty, acks⟩
  | onAck ackSeq ackBitmap =>
    cases Option.some.inj stepped
    obtain ⟨windowed, -, kept, -, -⟩ := confirmed.windowed.onAck ackSeq ackBitmap
    refine ⟨coherent, windowed, confirmed.onAck_base genuine, ?_, empty, acks⟩
    intro slot member acked
    obtain ⟨before, present, rfl⟩ := kept slot member
    rw [onAck_seq]
    exact confirmed.marks genuine present acked

theorem step_confirmed (confirmed : Confirmed f) (stepped : f.step exchange = some g) :
    Confirmed g := by
  cases exchange with
  | link event =>
    simp only [Feedback.step, Option.ite_none_right_eq_some, Option.map_eq_some_iff] at stepped
    obtain ⟨genuine, l, moved, rfl⟩ := stepped
    exact link_confirmed confirmed genuine moved
  | ackInfo =>
    cases Option.some.inj stepped
    refine ⟨confirmed.coherent, confirmed.windowed, confirmed.base, confirmed.acked,
      confirmed.bitmap, ?_⟩
    intro ack built
    rcases List.mem_append.mp built with old | new
    · exact confirmed.acks ack old
    · cases List.mem_singleton.mp new
      simp only [ReliableReceiver.ackInfo]
      exact ⟨confirmed.bitmap, by rw [UInt32.sub_add_cancel]⟩

theorem run_confirmed
    (run : Runs.exec Feedback.step (Feedback.start connId streamId) exchanges = some f) :
    Confirmed f :=
  Runs.invariant step_confirmed run (start_confirmed connId streamId)

/-- A packet before the next expected one is among the payloads returned. -/
theorem Confirmed.returned (confirmed : Confirmed f) (present : slot ∈ f.link.sender.slots)
    (below : slot.seq.toNat < f.link.receiver.nextExpected.toNat) :
    f.link.returned[slot.seq.toNat]? = some slot.data := by
  rw [confirmed.coherent.returned, List.getElem?_take_of_lt below]
  exact confirmed.coherent.slots slot present

end

/-- Acknowledgement soundness: no acknowledgement the receiver ever built, be
it late, repeated or overtaken, marks a slot whose payload has not been
returned, and the window never runs ahead of the receiver. -/
theorem acknowledgement_sound (connId : UInt64) (streamId : UInt16) (exchanges : List Exchange)
    (f : Feedback)
    (run : Runs.exec Feedback.step (Feedback.start connId streamId) exchanges = some f) :
    (∀ ack ∈ f.acks, ∀ slot ∈ f.link.sender.slots, (slot.onAck ack.1 ack.2).acked →
      f.link.returned[slot.seq.toNat]? = some slot.data) ∧
    f.link.sender.windowBase ≤ f.link.receiver.nextExpected := by
  have confirmed := run_confirmed run
  refine ⟨?_, UInt32.le_iff_toNat_le.mpr confirmed.base⟩
  intro ack built slot present marked
  exact confirmed.returned present (confirmed.marks built present marked)

/-- The first acknowledgement is built before anything is returned, and is
processed last. -/
def staleExchanges : List Exchange :=
  [.link (.send [1] 0), .link (.send [2] 0), .ackInfo, .link (.deliver 0 [1]), .ackInfo,
    .link (.onAck 0 0), .link (.onAck 4294967295 0)]

theorem acknowledgement_sound_stale : ∃ f,
    Runs.exec Feedback.step (Feedback.start 7 0) staleExchanges = some f ∧
    f.link.sender.windowBase = 1 ∧ f.link.sender.windowBase ≤ f.link.receiver.nextExpected := by
  have outcome : (Runs.exec Feedback.step (Feedback.start 7 0) staleExchanges).map
      (fun f => f.link.sender.windowBase) = some 1 := by decide
  obtain ⟨f, run, base⟩ := Option.map_eq_some_iff.mp outcome
  exact ⟨f, run, base, (acknowledgement_sound 7 0 staleExchanges f run).2⟩

/-- The receiver has the packet: it returned it or keeps it in its buffer. -/
def Received (l : Link) (slot : SendSlot) : Prop :=
  l.returned[slot.seq.toNat]? = some slot.data ∨ slot.seq ∈ l.receiver.oooBuffer.map Prod.fst

/-- The receiver's current acknowledgement confirms every pending packet the
receiver has, and moves the window up to the next expected packet. -/
structure Acknowledges (l : Link) : Prop where
  confirms : ∀ slot ∈ l.sender.slots, Received l slot →
    (slot.onAck l.receiver.ackInfo.1 l.receiver.ackInfo.2).acked
  slides : (l.sender.onAck l.receiver.ackInfo.1 l.receiver.ackInfo.2).1.windowBase =
    l.receiver.nextExpected

/-- Every packet before the last one returned is already confirmed, and no
packet waits in the buffer for a missing one. -/
structure InStep (l : Link) : Prop where
  confirmed : ∀ slot ∈ l.sender.slots,
    slot.seq.toNat + 1 < l.receiver.nextExpected.toNat → slot.acked
  nothingWaits : ∀ entry ∈ l.receiver.oooBuffer,
    entry.1.toNat < l.receiver.nextExpected.toNat

section
variable {f : Feedback}

/-- The current acknowledgement names the last packet returned and no other. -/
theorem Confirmed.current (confirmed : Confirmed f) (present : slot ∈ f.link.sender.slots) :
    (slot.onAck f.link.receiver.ackInfo.1 f.link.receiver.ackInfo.2).acked = true ↔
      slot.acked = true ∨ slot.seq.toNat + 1 = f.link.receiver.nextExpected.toNat := by
  have below := (confirmed.windowed.member present).2
  have top := f.link.sender.nextSeq.toNat_lt
  rw [ReliableReceiver.ackInfo, confirmed.bitmap, onAck_acked, ← toNat_succ (by omega),
    UInt32.toNat_inj]
  constructor
  · rintro (old | named)
    · exact Or.inl old
    · exact Or.inr (by rw [named, UInt32.sub_add_cancel])
  · rintro (old | next)
    · exact Or.inl old
    · exact Or.inr (by rw [← next, UInt32.add_sub_cancel])

theorem Confirmed.received_iff (confirmed : Confirmed f) (present : slot ∈ f.link.sender.slots) :
    Received f.link slot ↔ slot.seq.toNat < f.link.receiver.nextExpected.toNat ∨
      slot.seq ∈ f.link.receiver.oooBuffer.map Prod.fst := by
  refine or_congr_left ⟨?_, confirmed.returned present⟩
  intro found
  have bound := (List.getElem?_eq_some_iff.mp found).1
  rw [confirmed.coherent.returned, List.length_take] at bound
  omega

theorem Confirmed.inStep (confirmed : Confirmed f) (acknowledges : Acknowledges f.link) :
    InStep f.link := by
  constructor
  · intro slot present earlier
    have marked := acknowledges.confirms slot present
      ((confirmed.received_iff present).mpr (Or.inl (by omega)))
    rcases (confirmed.current present).mp marked with old | last
    · exact old
    · omega
  · intro entry waiting
    by_contra ahead
    -- a packet at or after the next expected one still has its slot, which is pending
    have accepted := (List.getElem?_eq_some_iff.mp (confirmed.coherent.buffer entry waiting)).1
    have base := confirmed.base
    obtain ⟨slot, present, number⟩ := confirmed.windowed.slot (n := entry.1.toNat) (by omega)
      (by rw [confirmed.coherent.counted]; exact accepted)
    have same : slot.seq = entry.1 := UInt32.toNat_inj.mp number
    have marked := acknowledges.confirms slot present ((confirmed.received_iff present).mpr
      (Or.inr (List.mem_map.mpr ⟨entry, waiting, same.symm⟩)))
    rcases (confirmed.current present).mp marked with old | last
    · have returned := confirmed.acked slot present old
      omega
    · omega

theorem Confirmed.acknowledges (confirmed : Confirmed f) (inStep : InStep f.link) :
    Acknowledges f.link := by
  have returned : ∀ slot ∈ f.link.sender.slots,
      slot.seq.toNat < f.link.receiver.nextExpected.toNat →
      (slot.onAck f.link.receiver.ackInfo.1 f.link.receiver.ackInfo.2).acked := by
    intro slot present below
    apply (confirmed.current present).mpr
    by_cases earlier : slot.seq.toNat + 1 < f.link.receiver.nextExpected.toNat
    · exact Or.inl (inStep.confirmed slot present earlier)
    · exact Or.inr (by omega)
  constructor
  · intro slot present received
    apply returned slot present
    rcases (confirmed.received_iff present).mp received with below | waiting
    · exact below
    · obtain ⟨entry, member, same⟩ := List.mem_map.mp waiting
      rw [← same]
      exact inStep.nothingWaits entry member
  · obtain ⟨windowed, grown, -, popped, front⟩ := confirmed.windowed.onAck
      f.link.receiver.ackInfo.1 f.link.receiver.ackInfo.2
    have within := confirmed.coherent.within
    have counted := confirmed.coherent.counted
    have base := confirmed.base
    have whole : _ = f.link.sender.nextSeq.toNat := windowed.whole
    apply UInt32.toNat_inj.mp
    rcases Nat.lt_trichotomy (f.link.sender.onAck f.link.receiver.ackInfo.1
      f.link.receiver.ackInfo.2).1.windowBase.toNat f.link.receiver.nextExpected.toNat with
      short | reached | beyond
    · -- the slot the window stopped at has been returned, so it is acknowledged
      obtain ⟨slot, present, number⟩ := confirmed.windowed.slot grown (by omega)
      have pending := front slot present number
      rw [returned slot present (by omega)] at pending
      cases pending
    · exact reached
    · obtain ⟨slot, present, number⟩ := confirmed.windowed.slot base (by omega)
      have marked := popped slot present (by omega)
      rcases (confirmed.current present).mp marked with old | last
      · have below := confirmed.acked slot present old
        omega
      · omega

end

/-- The current acknowledgement repairs every lost one exactly when nothing is
to be repaired: it confirms the last packet returned and no other. -/
theorem acknowledges_iff (connId : UInt64) (streamId : UInt16) (exchanges : List Exchange)
    (f : Feedback)
    (run : Runs.exec Feedback.step (Feedback.start connId streamId) exchanges = some f) :
    Acknowledges f.link ↔ InStep f.link :=
  ⟨(run_confirmed run).inStep, (run_confirmed run).acknowledges⟩

/-- One packet, returned and not acknowledged yet. -/
def singleExchanges : List Exchange := [.link (.send [1] 0), .link (.deliver 0 [1])]

theorem acknowledges_iff_single : ∃ f,
    Runs.exec Feedback.step (Feedback.start 7 0) singleExchanges = some f ∧
    Acknowledges f.link := by
  refine ⟨_, rfl, (acknowledges_iff 7 0 singleExchanges _ rfl).mpr ⟨?_, ?_⟩⟩ <;> decide

/-- Two packets are returned and the acknowledgement of the first is lost. -/
def lostExchanges : List Exchange :=
  [.link (.send [1] 0), .link (.send [2] 0), .link (.deliver 0 [1]), .ackInfo,
    .link (.deliver 1 [2])]

/-- The later acknowledgement confirms the second packet only, and the window
stays where it was. -/
theorem lost_acknowledgement_not_repaired : ∃ f,
    Runs.exec Feedback.step (Feedback.start 7 0) lostExchanges = some f ∧
    ¬ Acknowledges f.link := by
  refine ⟨_, rfl, fun acknowledges => ?_⟩
  exact absurd acknowledges.slides (by decide)

end LanLink.Reliable
