import LanLink.Core.Serial
import LanLink.Protocol.Reordering

/-! The size of the out-of-order buffer, over all orders in which packets arrive. As long
as nothing is overtaken the buffer is descending, so that the packet behind the one that
is returned stands at its end, and draining looks at its front. -/
namespace LanLink.Reliable
open Words Serial Runs

/-- A receiver with the number of payloads it returned. -/
structure Inbox where
  receiver : ReliableReceiver
  delivered : Nat

namespace Inbox

def start : Inbox := ⟨.new, 0⟩

def step (b : Inbox) (packet : UInt32 × Bytes) : Option Inbox :=
  let (receiver, results) := b.receiver.deliver packet.1 packet.2
  some ⟨receiver, b.delivered + results.length⟩

/-- The buffer holds different packets, all after those that were returned and within the
window. -/
structure Bounded (b : Inbox) : Prop where
  nextExpected : Counts b.receiver.nextExpected b.delivered
  distinct : (b.receiver.oooBuffer.map Prod.fst).Nodup
  ahead : ∀ entry ∈ b.receiver.oooBuffer, ∃ n, b.delivered < n ∧
    n ≤ b.delivered + windowSize.toNat ∧ Counts entry.1 n
  few : b.receiver.oooBuffer.length ≤ windowSize.toNat

/-- If the packet behind the one that is returned is waiting, nothing else is. -/
def Settles (b : Inbox) (packet : UInt32 × Bytes) : Prop :=
  packet.1 = b.receiver.nextExpected → ∀ entry ∈ b.receiver.oooBuffer,
    entry.1 = packet.1 + 1 → b.receiver.oooBuffer.length = 1

end Inbox

/-- The entries stand for falling numbers between two bounds, both excluded. -/
def Descending (low : Nat) : Nat → List (UInt32 × Bytes) → Prop
  | _, [] => True
  | high, entry :: rest => ∃ n, low < n ∧ n < high ∧ Counts entry.1 n ∧ Descending low n rest

section
variable {low high n : Nat} {buffer : List (UInt32 × Bytes)} {next seq : UInt32}

theorem Descending.mem (descending : Descending low high buffer) {entry : UInt32 × Bytes}
    (member : entry ∈ buffer) : ∃ n, low < n ∧ n < high ∧ Counts entry.1 n := by
  induction buffer generalizing high with
  | nil => cases member
  | cons first rest ih =>
    obtain ⟨n, above, below, counts, tail⟩ := descending
    rcases List.mem_cons.mp member with rfl | later
    · exact ⟨n, above, below, counts⟩
    · obtain ⟨m, beyond, under, number⟩ := ih tail later
      exact ⟨m, beyond, under.trans below, number⟩

theorem Descending.length_le (descending : Descending low high buffer) :
    buffer.length ≤ high - low - 1 := by
  induction buffer generalizing high with
  | nil => exact Nat.zero_le _
  | cons first rest ih =>
    obtain ⟨n, above, below, -, tail⟩ := descending
    have shorter := ih tail
    rw [List.length_cons]
    omega

theorem Descending.nodup (descending : Descending low high buffer) (close : high ≤ low + 33) :
    (buffer.map Prod.fst).Nodup := by
  induction buffer generalizing high with
  | nil => exact List.nodup_nil
  | cons first rest ih =>
    obtain ⟨n, above, below, counts, tail⟩ := descending
    rw [List.map_cons, List.nodup_cons]
    refine ⟨fun again => ?_, ih tail (by omega)⟩
    obtain ⟨entry, later, same⟩ := List.mem_map.mp again
    obtain ⟨m, beyond, under, number⟩ := tail.mem later
    rw [same] at number
    have equal := number.inj counts (by omega) (by omega)
    omega

/-- One step of the search for the place of a packet. -/
theorem bufferPacket_cons (seq dist : UInt32) (payload : Bytes) (first : UInt32 × Bytes) :
    bufferPacket seq dist payload (first :: buffer) =
      if seq - first.1 < dist then
        if first.1 = seq then first :: buffer else (seq, payload) :: first :: buffer
      else first :: bufferPacket seq dist payload buffer := by
  simp only [bufferPacket, insertPos, List.findIdx_cons]
  by_cases here : seq - first.1 < dist
  · simp [here]
  · simp only [here, decide_false, cond_false, List.getElem?_cons_succ, List.insertIdx_succ_cons,
      if_false]
    rw [← apply_ite (List.cons first)]
    rfl

/-- The packet lands in front of the first entry with a smaller number, or it is there. -/
theorem Descending.bufferPacket (descending : Descending low high buffer)
    (close : high ≤ low + 33) (expected : Counts next low) (number : Counts seq n)
    (above : low < n) (below : n < high) (payload : Bytes) :
    Descending low high (bufferPacket seq (seq - next) payload buffer) := by
  induction buffer generalizing high with
  | nil => exact ⟨n, above, below, number, trivial⟩
  | cons first rest ih =>
    obtain ⟨m, beyond, under, counts, tail⟩ := descending
    have dist := number.sub_of_le expected above.le (by omega)
    have search : seq - first.1 < seq - next ↔ (seq - first.1).toNat < n - low := by
      rw [UInt32.lt_iff_toNat_lt, dist]
    rw [bufferPacket_cons]
    rcases Nat.lt_trichotomy m n with smaller | rfl | larger
    · have back := number.sub_of_le counts smaller.le (by omega)
      have other : first.1 ≠ seq := by
        intro same
        have equal := (same ▸ counts).inj number (by omega) (by omega)
        omega
      rw [if_pos (search.mpr (by omega)), if_neg other]
      exact ⟨n, above, below, number, m, beyond, smaller, counts, tail⟩
    · have back := number.sub_of_le counts (Nat.le_refl _) (by omega)
      rw [if_pos (search.mpr (by omega)), if_pos (counts.unique number)]
      exact ⟨m, beyond, under, counts, tail⟩
    · have back := number.sub_of_lt counts larger (by omega)
      rw [if_neg (fun found => by have near := search.mp found; omega)]
      exact ⟨m, beyond, under, counts, ih tail (by omega) larger⟩

/-- Entries that are not the next one stay ahead of it when it is returned. -/
theorem Descending.advance (descending : Descending low high buffer) (expected : Counts next low)
    (other : ∀ entry ∈ buffer, entry.1 ≠ next + 1) : Descending (low + 1) high buffer := by
  induction buffer generalizing high with
  | nil => trivial
  | cons first rest ih =>
    obtain ⟨n, above, below, counts, tail⟩ := descending
    obtain ⟨here, later⟩ := List.forall_mem_cons.mp other
    have differs : n ≠ low + 1 := by
      rintro rfl
      exact here (counts.unique expected.succ)
    exact ⟨n, by omega, below, counts, ih tail later⟩

theorem Descending.mono (descending : Descending low high buffer) (more : high ≤ top) :
    Descending low top buffer := by
  cases buffer with
  | nil => trivial
  | cons first rest =>
    obtain ⟨n, above, below, counts, tail⟩ := descending
    exact ⟨n, above, below.trans_le more, counts, tail⟩

/-- Draining takes the next packet only if it waits alone. -/
theorem Descending.drain (descending : Descending low high buffer) (close : high ≤ low + 33)
    (expected : Counts next low) :
    (∃ data, buffer = [(next + 1, data)] ∧
      drain (next + 1) buffer = (next + 1 + 1, [], [data])) ∨
    drain (next + 1) buffer = (next + 1, buffer, []) ∧
      ¬ (buffer.length = 1 ∧ ∃ entry ∈ buffer, entry.1 = next + 1) := by
  match buffer, descending with
  | [], _ => exact .inr ⟨rfl, by simp⟩
  | [(front, data)], _ =>
    by_cases same : front = next + 1
    · subst same
      exact .inl ⟨data, rfl, by simp [Reliable.drain]⟩
    · exact .inr ⟨by simp [Reliable.drain, same], by simp [same]⟩
  | (front, data) :: second :: rest, ⟨n, above, below, counts, m, beyond, under, number, tail⟩ =>
    have other : front ≠ next + 1 := by
      rintro rfl
      have equal := counts.inj expected.succ (by omega) (by omega)
      omega
    exact .inr ⟨by simp [Reliable.drain, other], by simp⟩

end

namespace Inbox
variable {b t : Inbox}

/-- The invariant of a receiver whose buffer nothing has overtaken. -/
structure Ordered (b : Inbox) : Prop where
  nextExpected : Counts b.receiver.nextExpected b.delivered
  descending : Descending b.delivered (b.delivered + 33) b.receiver.oooBuffer

theorem Ordered.bounded (ordered : Ordered b) : Bounded b where
  nextExpected := ordered.nextExpected
  distinct := ordered.descending.nodup (Nat.le_refl _)
  ahead entry member := by
    obtain ⟨n, above, below, counts⟩ := ordered.descending.mem member
    exact ⟨n, above, Nat.le_of_lt_succ below, counts⟩
  few := by
    have length := ordered.descending.length_le
    change _ ≤ 32
    omega

/-- Only a packet that is not the next expected one can be counted ahead of it. -/
theorem Bounded.other (bounded : Bounded b) :
    ∀ entry ∈ b.receiver.oooBuffer, entry.1 ≠ b.receiver.nextExpected := by
  intro entry member same
  obtain ⟨n, above, below, counts⟩ := bounded.ahead entry member
  have window : windowSize.toNat = 32 := rfl
  have equal := (same ▸ counts).inj bounded.nextExpected (by omega) (by omega)
  omega

theorem step_inOrder (ordered : Ordered b)
    (stepped : b.step (b.receiver.nextExpected, payload) = some t) :
    (Bounded t ↔ Settles b (b.receiver.nextExpected, payload)) ∧ (Bounded t → Ordered t) := by
  have dist : b.receiver.nextExpected - b.receiver.nextExpected = 0 := sub_eq_zero_iff.mpr rfl
  simp only [step, ReliableReceiver.deliver, dist, if_true] at stepped
  rcases ordered.descending.drain (Nat.le_refl _) ordered.nextExpected with
    ⟨data, alone, drained⟩ | ⟨drained, single⟩
  · rw [drained] at stepped
    cases Option.some.inj stepped
    have after : Ordered ⟨{ b.receiver with
        nextExpected := b.receiver.nextExpected + 1 + 1, oooBuffer := [] }, b.delivered + 2⟩ :=
      ⟨ordered.nextExpected.succ.succ, trivial⟩
    have settles : Settles b (b.receiver.nextExpected, payload) := fun _ _ _ _ => by
      rw [alone]
      rfl
    exact ⟨iff_of_true after.bounded settles, fun _ => after⟩
  · rw [drained] at stepped
    cases Option.some.inj stepped
    have after (other : ∀ entry ∈ b.receiver.oooBuffer,
        entry.1 ≠ b.receiver.nextExpected + 1) : Ordered ⟨{ b.receiver with
          nextExpected := b.receiver.nextExpected + 1 }, b.delivered + 1⟩ := by
      have advanced := ordered.descending.advance ordered.nextExpected other
      have later : b.delivered + 33 ≤ b.delivered + 1 + 33 := by omega
      exact ⟨ordered.nextExpected.succ, advanced.mono later⟩
    refine ⟨⟨fun bounded _ entry member waits => ?_, fun settles => ?_⟩, fun bounded => ?_⟩
    · exact absurd waits (bounded.other entry member)
    · refine (after fun entry member waits => single ⟨?_, entry, member, waits⟩).bounded
      exact settles rfl entry member waits
    · exact after bounded.other

theorem step_early (ordered : Ordered b) (early : seq ≠ b.receiver.nextExpected)
    (stepped : b.step (seq, payload) = some t) : Ordered t := by
  have expected := ordered.nextExpected
  have apart : seq - b.receiver.nextExpected ≠ 0 := fun zero => early (sub_eq_zero_iff.mp zero)
  simp only [step, ReliableReceiver.deliver, if_neg apart] at stepped
  split at stepped
  · rename_i near
    cases Option.some.inj stepped
    have number : Counts seq (b.delivered + (seq - b.receiver.nextExpected).toNat) := by
      have moved := expected.add (seq - b.receiver.nextExpected).toNat
      rwa [Nat.toUInt32, UInt32.ofNat_toNat, UInt32.add_comm, UInt32.sub_add_cancel] at moved
    have far : (seq - b.receiver.nextExpected).toNat ≠ 0 := fun zero =>
      apart (UInt32.toNat_inj.mp zero)
    have close : (seq - b.receiver.nextExpected).toNat ≤ 32 := UInt32.le_iff_toNat_le.mp near
    exact ⟨expected, ordered.descending.bufferPacket (Nat.le_refl _) expected number (by omega)
      (by omega) payload⟩
  · cases Option.some.inj stepped
    exact ordered

theorem step_bounded_iff (ordered : Ordered b) (stepped : b.step packet = some t) :
    (Bounded t ↔ Settles b packet) ∧ (Bounded t → Ordered t) := by
  obtain ⟨seq, payload⟩ := packet
  by_cases same : seq = b.receiver.nextExpected
  · subst same
    exact step_inOrder ordered stepped
  · have after := step_early ordered same stepped
    exact ⟨iff_of_true after.bounded (fun next => absurd next same), fun _ => after⟩

theorem start_ordered : Ordered start := ⟨rfl, trivial⟩

/-- The buffer stays bounded in a run of deliveries, in any order, exactly if no packet is
returned before its successor that waits with others. -/
theorem bounded_iff (packets : List (UInt32 × Bytes)) :
    Always step Bounded start packets ↔ Meets step Settles start packets := by
  refine always_iff_of_aborts (I := fun b => Bounded b → Ordered b) ?_ ?_ ?_
    (fun _ => start_ordered) start_ordered.bounded
  · intro b packet t ordered bounded stepped
    exact (step_bounded_iff (ordered bounded) stepped).2
  · intro b packet _ _ aborted
    cases aborted
  · intro b packet t ordered bounded stepped
    exact (step_bounded_iff (ordered bounded) stepped).1

/-- Packets 1 and 2 wait when packet 0 is returned: packet 1 stays, although it is the next
one, and it is still there when its copy has been returned. -/
def overtaken : List (UInt32 × Bytes) := [(1, [1]), (2, [2]), (0, [0]), (1, [1])]

theorem returned_packet_stays :
    (∃ b, exec step start overtaken = some b ∧ b.delivered = 3 ∧ b.receiver.nextExpected = 3 ∧
      (1, [1]) ∈ b.receiver.oooBuffer) ∧
    ¬ Always step Bounded start overtaken := by
  refine ⟨⟨_, rfl, by decide, by decide, by decide⟩, fun always => ?_⟩
  have third := ((always.2 _ rfl).2 _ rfl).2 _ rfl
  exact third.1.other (1, [1]) (by decide) (by decide)

end Inbox
end LanLink.Reliable
