import Mathlib.Data.List.InsertIdx
import LanLink.Core.Runs
import LanLink.Protocol.Reliable

/-! Completeness of the out-of-order buffer. The source inserts an early packet
in front of the first smaller one, so the buffer is descending, and drains only
from its front. One waiting packet is therefore released in time, but of two
waiting packets the smaller one is behind the larger one and stays there. -/
namespace LanLink.Reliable
open Words

/-- A receiver with the packets passed to it and the payloads it returned. -/
structure Intake where
  receiver : ReliableReceiver
  seen : List UInt32
  returned : List Bytes

def Intake.start : Intake := ⟨.new, [], []⟩

variable {payload : UInt32 → Bytes} {s t : Intake}

def Intake.step (payload : UInt32 → Bytes) (s : Intake) (seq : UInt32) : Option Intake :=
  let delivered := s.receiver.deliver seq (payload seq)
  some ⟨delivered.1, s.seen ++ [seq], s.returned ++ delivered.2⟩

/-- A packet seen for the first time is at most a window ahead. -/
def FirstWithinWindow (s : Intake) (seq : UInt32) : Prop :=
  seq ∉ s.seen → seq - s.receiver.nextExpected ≤ windowSize

/-- A packet that goes to the buffer finds no other packet waiting there. -/
def Unobstructed (s : Intake) (seq : UInt32) : Prop :=
  seq ≠ s.receiver.nextExpected → seq - s.receiver.nextExpected ≤ windowSize →
    ∀ entry ∈ s.receiver.oooBuffer, entry.1 = seq

instance (s : Intake) (seq : UInt32) : Decidable (FirstWithinWindow s seq) :=
  inferInstanceAs (Decidable (_ → _))

instance (s : Intake) (seq : UInt32) : Decidable (Unobstructed s seq) :=
  inferInstanceAs (Decidable (_ → _))

/-- The arrivals are packets `0 .. n - 1`, each of them at least once. -/
structure Covers (n : Nat) (arrivals : List UInt32) : Prop where
  numbered : n ≤ 2 ^ 32
  range : ∀ seq ∈ arrivals, seq.toNat < n
  every : ∀ k < n, k.toUInt32 ∈ arrivals

def AllReturned (payload : UInt32 → Bytes) (n : Nat) (s : Intake) : Prop :=
  (List.range n).map (fun k => payload k.toUInt32) <+: s.returned

theorem toUInt32_succ (k : Nat) : k.toUInt32 + 1 = (k + 1).toUInt32 := by
  apply UInt32.toNat_inj.mp
  simp [UInt32.toNat_add]

theorem toUInt32_toNat_le (k : Nat) : k.toUInt32.toNat ≤ k := by
  simp only [Nat.toUInt32_eq, UInt32.toNat_ofNat']
  exact Nat.mod_le _ _

/-- Every outcome of a delivery to a receiver with at most one waiting packet,
when an early arrival meets no other packet. -/
theorem deliver_single {r : ReliableReceiver} (short : r.oooBuffer.length ≤ 1)
    (free : seq ≠ r.nextExpected → seq - r.nextExpected ≤ windowSize →
      ∀ entry ∈ r.oooBuffer, entry.1 = seq) :
    (∃ data, seq = r.nextExpected ∧ r.oooBuffer = [(seq + 1, data)] ∧
      r.deliver seq p = ({ r with nextExpected := seq + 1 + 1, oooBuffer := [] }, [p, data])) ∨
    (seq = r.nextExpected ∧ (∀ entry ∈ r.oooBuffer, entry.1 ≠ seq + 1) ∧
      r.deliver seq p = ({ r with nextExpected := seq + 1 }, [p])) ∨
    (seq ≠ r.nextExpected ∧ (∃ data, (seq, data) ∈ r.oooBuffer) ∧ r.deliver seq p = (r, [])) ∨
    (seq ≠ r.nextExpected ∧ r.oooBuffer = [] ∧
      r.deliver seq p = ({ r with oooBuffer := [(seq, p)] }, [])) ∨
    (¬ seq - r.nextExpected ≤ windowSize ∧ r.deliver seq p = (r, [])) := by
  obtain ⟨next, buffer, bitmap⟩ := r
  simp only [ReliableReceiver.deliver, sub_eq_zero_iff] at *
  by_cases inOrder : seq = next
  · subst inOrder
    match buffer, short with
    | [], _ => simp [drain]
    | [(front, data)], _ =>
      by_cases consecutive : front = seq + 1
      · subst consecutive
        exact Or.inl ⟨data, by simp [drain]⟩
      · exact Or.inr (Or.inl (by simp [drain, consecutive]))
  · by_cases inWindow : seq - next ≤ windowSize
    · have same := free inOrder inWindow
      have ahead : (0 : UInt32) < seq - next := by
        rw [UInt32.lt_iff_toNat_lt]
        have : seq - next ≠ 0 := fun zero => inOrder (sub_eq_zero_iff.mp zero)
        have : (seq - next).toNat ≠ 0 := fun zero => this (UInt32.toNat_inj.mp zero)
        simpa using Nat.pos_of_ne_zero this
      match buffer, short with
      | [], _ => simp [inOrder, inWindow, bufferPacket, insertPos]
      | [(front, data)], _ =>
        have duplicate : front = seq := same (front, data) (by simp)
        subst duplicate
        simp [inOrder, inWindow, bufferPacket, insertPos, ahead]
    · simp [inOrder, inWindow]

/-- With one waiting packet at most, everything seen is returned or waiting,
and the waiting packet is not the next one. -/
structure Prompt (payload : UInt32 → Bytes) (s : Intake) : Prop where
  short : s.receiver.oooBuffer.length ≤ 1
  next : s.receiver.nextExpected = s.returned.length.toUInt32
  waiting : ∀ entry ∈ s.receiver.oooBuffer,
    entry.1 ≠ s.receiver.nextExpected ∧ entry.2 = payload entry.1
  returned : s.returned = (List.range s.returned.length).map (fun k => payload k.toUInt32)
  seen : ∀ seq ∈ s.seen, seq.toNat < s.returned.length ∨
    seq ∈ s.receiver.oooBuffer.map Prod.fst

theorem start_prompt : Prompt payload Intake.start := by
  constructor <;> simp [Intake.start, ReliableReceiver.new]

/-- One more payload in sequence. -/
theorem returned_snoc {o : List Bytes}
    (returned : o = (List.range o.length).map (fun k => payload k.toUInt32)) :
    o ++ [payload o.length.toUInt32] =
      (List.range (o.length + 1)).map (fun k => payload k.toUInt32) := by
  rw [List.range_succ, List.map_append, ← returned, List.map_singleton]

/-- The next packet and the waiting one are returned together. -/
theorem Prompt.release_both (prompt : Prompt payload s) (same : seq = s.receiver.nextExpected)
    (buffer : s.receiver.oooBuffer = [(seq + 1, data)]) :
    Prompt payload ⟨{ s.receiver with nextExpected := seq + 1 + 1, oooBuffer := [] },
      s.seen ++ [seq], s.returned ++ [payload seq, data]⟩ := by
  have number : seq = s.returned.length.toUInt32 := same.trans prompt.next
  have content : data = payload (seq + 1) :=
    (prompt.waiting (seq + 1, data) (by simp [buffer])).2
  have twice : s.returned ++ [payload seq, data] =
      (List.range (s.returned.length + 2)).map (fun k => payload k.toUInt32) := by
    have one := returned_snoc prompt.returned
    have two := returned_snoc (o := s.returned ++ [payload seq]) (by
      rw [number, List.length_append, List.length_singleton]
      exact one)
    rw [content, number, toUInt32_succ]
    simpa [number] using two
  refine ⟨by simp, ?_, by simp, by simpa using twice, ?_⟩
  · simp only [List.length_append, List.length_cons, List.length_nil]
    rw [number, toUInt32_succ, toUInt32_succ]
  · intro packet member
    have below := toUInt32_toNat_le s.returned.length
    have above := toUInt32_toNat_le (s.returned.length + 1)
    rw [← toUInt32_succ, ← number] at above
    rw [← number] at below
    left
    simp only [List.length_append, List.length_cons, List.length_nil]
    rcases List.mem_append.mp member with old | new
    · rcases prompt.seen packet old with early | waiting
      · omega
      · simp only [buffer, List.map_cons, List.map_nil, List.mem_singleton] at waiting
        subst waiting
        omega
    · cases List.mem_singleton.mp new
      omega

/-- The next packet is returned alone; what waits is not its successor. -/
theorem Prompt.release (prompt : Prompt payload s) (same : seq = s.receiver.nextExpected)
    (apart : ∀ entry ∈ s.receiver.oooBuffer, entry.1 ≠ seq + 1) :
    Prompt payload ⟨{ s.receiver with nextExpected := seq + 1 },
      s.seen ++ [seq], s.returned ++ [payload seq]⟩ := by
  have number : seq = s.returned.length.toUInt32 := same.trans prompt.next
  have once := returned_snoc prompt.returned
  rw [← number] at once
  refine ⟨prompt.short, ?_, ?_, by simpa using once, ?_⟩
  · simp only [List.length_append, List.length_cons, List.length_nil]
    rw [number, toUInt32_succ]
  · exact fun entry member => ⟨apart entry member, (prompt.waiting entry member).2⟩
  · intro packet member
    have below := toUInt32_toNat_le s.returned.length
    rw [← number] at below
    simp only [List.length_append, List.length_cons, List.length_nil]
    rcases List.mem_append.mp member with old | new
    · exact (prompt.seen packet old).imp (fun early => by omega) id
    · cases List.mem_singleton.mp new
      exact Or.inl (by omega)

/-- A repeated packet changes nothing. -/
theorem Prompt.repeated (prompt : Prompt payload s)
    (known : seq.toNat < s.returned.length ∨ seq ∈ s.receiver.oooBuffer.map Prod.fst) :
    Prompt payload ⟨s.receiver, s.seen ++ [seq], s.returned⟩ := by
  refine ⟨prompt.short, prompt.next, prompt.waiting, prompt.returned, ?_⟩
  intro packet seen
  rcases List.mem_append.mp seen with old | new
  · exact prompt.seen packet old
  · cases List.mem_singleton.mp new
    exact known

/-- An early packet waits in the empty buffer. -/
theorem Prompt.hold (prompt : Prompt payload s) (early : seq ≠ s.receiver.nextExpected)
    (buffer : s.receiver.oooBuffer = []) :
    Prompt payload ⟨{ s.receiver with oooBuffer := [(seq, payload seq)] },
      s.seen ++ [seq], s.returned⟩ := by
  refine ⟨by simp, prompt.next, by simpa using early, prompt.returned, ?_⟩
  intro packet seen
  rcases List.mem_append.mp seen with old | new
  · rcases prompt.seen packet old with done | waiting
    · exact Or.inl done
    · simp [buffer] at waiting
  · exact Or.inr (by simpa using new)

theorem step_prompt (prompt : Prompt payload s) (first : FirstWithinWindow s seq)
    (free : Unobstructed s seq) (stepped : s.step payload seq = some t) : Prompt payload t := by
  cases Option.some.inj stepped
  obtain ⟨data, same, buffer, delivered⟩ | ⟨same, apart, delivered⟩ |
    ⟨early, ⟨data, member⟩, delivered⟩ | ⟨early, buffer, delivered⟩ | ⟨outside, delivered⟩ :=
    deliver_single (p := payload seq) prompt.short free
  · rw [delivered]
    exact prompt.release_both same buffer
  · rw [delivered]
    exact prompt.release same apart
  · rw [delivered, List.append_nil]
    exact prompt.repeated (.inr (List.mem_map.mpr ⟨_, member, rfl⟩))
  · rw [delivered, List.append_nil]
    exact prompt.hold early buffer
  · rw [delivered, List.append_nil]
    exact prompt.repeated (prompt.seen seq (by_contra fun fresh => outside (first fresh)))

/-- The receiver has caught up with every packet it has seen. -/
theorem prompt_complete (prompt : Prompt payload s) (covers : Covers n s.seen) :
    AllReturned payload n s := by
  have caughtUp : n ≤ s.returned.length := by
    by_contra short
    have member := covers.every s.returned.length (by omega)
    have small := covers.numbered
    have number := toUInt32_toNat (n := s.returned.length) (by omega)
    rcases prompt.seen _ member with below | waiting
    · omega
    · obtain ⟨entry, present, same⟩ := List.mem_map.mp waiting
      exact (prompt.waiting entry present).1 (same.trans prompt.next.symm)
  rw [AllReturned, prompt.returned]
  apply List.IsPrefix.map
  exact List.prefix_iff_eq_take.mpr (by simp [List.take_range, caughtUp])

/-- A larger packet stands between the front of the buffer and every copy of a
smaller one, and the smaller one has not been returned. -/
structure Jammed (s : Intake) (low high : UInt32) : Prop where
  blocked : high ∈ (s.receiver.oooBuffer.map Prod.fst).takeWhile (· != low)
  below : low.toNat < high.toNat
  behind : s.receiver.nextExpected.toNat ≤ low.toNat
  count : s.returned.length = s.receiver.nextExpected.toNat

theorem takeWhile_insertIdx {list : List α} {p : α → Bool} (member : x ∈ list.takeWhile p)
    (holds : p a = true) : x ∈ (list.insertIdx i a).takeWhile p := by
  induction list generalizing i with
  | nil => simp at member
  | cons head rest ih =>
    cases i with
    | zero =>
      rw [List.insertIdx_zero, List.takeWhile_cons_of_pos holds]
      exact List.mem_cons_of_mem _ member
    | succ i =>
      simp only [List.insertIdx_succ_cons, List.takeWhile_cons] at member ⊢
      split at member
      · rename_i kept
        rw [if_pos kept]
        rcases List.mem_cons.mp member with front | later
        · simp [front]
        · exact List.mem_cons_of_mem _ (ih later)
      · simp at member

/-- Draining stops in front of the blocking packet. -/
theorem drain_jammed {n low high : UInt32} (below : low.toNat < high.toNat)
    (blocked : high ∈ (buffer.map Prod.fst).takeWhile (· != low))
    (behind : n.toNat ≤ low.toNat) :
    high ∈ ((drain n buffer).2.1.map Prod.fst).takeWhile (· != low) ∧
      (drain n buffer).1.toNat ≤ low.toNat ∧
      (drain n buffer).1.toNat = n.toNat + (drain n buffer).2.2.length := by
  induction buffer generalizing n with
  | nil => simp at blocked
  | cons entry rest ih =>
    obtain ⟨front, data⟩ := entry
    simp only [drain]
    split
    · rename_i same
      subst same
      simp only [List.map_cons, List.takeWhile_cons] at blocked
      split at blocked
      · rename_i other
        have distinct : front ≠ low := by simpa using other
        have ahead : front.toNat ≠ low.toNat := fun same => distinct (UInt32.toNat_inj.mp same)
        have limit := low.toNat_lt
        have advanced := toNat_succ (x := front) (by omega)
        have later : high ∈ (rest.map Prod.fst).takeWhile (· != low) := by
          rcases List.mem_cons.mp blocked with first | later
          · subst first
            omega
          · exact later
        obtain ⟨kept, within, count⟩ := ih later (n := front + 1) (by omega)
        refine ⟨kept, within, ?_⟩
        simp only [List.length_cons]
        omega
      · simp at blocked
    · exact ⟨blocked, behind, by simp⟩

theorem step_jammed (jammed : Jammed s low high) (other : seq ≠ low)
    (stepped : s.step payload seq = some t) : Jammed t low high := by
  cases Option.some.inj stepped
  obtain ⟨blocked, below, behind, count⟩ := jammed
  simp only [ReliableReceiver.deliver]
  split
  · rename_i inOrder
    have same := sub_eq_zero_iff.mp inOrder
    have ahead : s.receiver.nextExpected.toNat ≠ low.toNat := fun equal =>
      other (same.trans (UInt32.toNat_inj.mp equal))
    have limit := low.toNat_lt
    have advanced := toNat_succ (x := s.receiver.nextExpected) (by omega)
    obtain ⟨kept, within, drained⟩ := drain_jammed (n := s.receiver.nextExpected + 1) below
      blocked (by omega)
    refine ⟨kept, below, within, ?_⟩
    simp only [List.length_append, List.length_cons]
    omega
  · split
    · refine ⟨?_, below, behind, by simpa using count⟩
      simp only [bufferPacket]
      split
      · exact blocked
      · rw [List.map_insertIdx]
        exact takeWhile_insertIdx blocked (by simpa using other)
    · exact ⟨blocked, below, behind, by simpa using count⟩

theorem run_jammed (jammed : Jammed s low high) (absent : low ∉ arrivals)
    (run : Runs.exec (Intake.step payload) s arrivals = some t) : Jammed t low high :=
  Runs.guarded_invariant (P := (Jammed · low high)) (g := fun _ seq => seq ≠ low) step_jammed
    (Runs.meets_of_forall fun _ member _ same => absent (same ▸ member)) run jammed

/-- A jam is never resolved by the packets that follow. -/
theorem jammed_incomplete (jammed : Jammed s low high) (within : low.toNat < n) :
    ¬ AllReturned payload n s := by
  intro complete
  have length := complete.length_le
  have count := jammed.count
  have behind := jammed.behind
  simp only [List.length_map, List.length_range] at length
  omega

/-- Without repeated packets, whatever is returned was seen, and what waits was
not returned yet. -/
structure Fresh (s : Intake) : Prop where
  returned : ∀ k < s.returned.length, k.toUInt32 ∈ s.seen
  waiting : ∀ entry ∈ s.receiver.oooBuffer,
    entry.1 ∈ s.seen ∧ s.returned.length ≤ entry.1.toNat

theorem start_fresh : Fresh Intake.start := by
  constructor <;> simp [Intake.start, ReliableReceiver.new]

/-- A packet not seen before lies at or after the next expected one. -/
theorem Fresh.unseen (fresh : Fresh s) (new : seq ∉ s.seen) : s.returned.length ≤ seq.toNat := by
  by_contra below
  have member := fresh.returned seq.toNat (by omega)
  simp only [Nat.toUInt32_eq, UInt32.ofNat_toNat] at member
  exact new member

theorem step_fresh (prompt : Prompt payload s) (fresh : Fresh s) (new : seq ∉ s.seen)
    (free : Unobstructed s seq) (stepped : s.step payload seq = some t) : Fresh t := by
  cases Option.some.inj stepped
  have next := prompt.next
  have position := fresh.unseen new
  have kept : ∀ entry ∈ s.receiver.oooBuffer, entry.1 ∈ s.seen ++ [seq] := fun entry member =>
    List.mem_append_left _ (fresh.waiting entry member).1
  have earlier : ∀ k < s.returned.length, k.toUInt32 ∈ s.seen ++ [seq] := fun k below =>
    List.mem_append_left _ (fresh.returned k below)
  rcases deliver_single (p := payload seq) prompt.short free with
    ⟨data, same, buffer, delivered⟩ | ⟨same, apart, delivered⟩ | ⟨early, _, delivered⟩ |
    ⟨early, buffer, delivered⟩ | ⟨outside, delivered⟩
  · have number : seq = s.returned.length.toUInt32 := same.trans next
    rw [delivered]
    refine ⟨?_, by simp⟩
    intro k below
    simp only [List.length_append, List.length_cons, List.length_nil] at below
    by_cases old : k < s.returned.length
    · exact earlier k old
    · obtain rfl | rfl : k = s.returned.length ∨ k = s.returned.length + 1 := by omega
      · exact List.mem_append_right _ (by simp [number])
      · rw [← toUInt32_succ, ← number]
        exact kept (seq + 1, data) (by simp [buffer])
  · have number : seq = s.returned.length.toUInt32 := same.trans next
    rw [delivered]
    constructor
    · intro k below
      simp only [List.length_append, List.length_cons, List.length_nil] at below
      by_cases old : k < s.returned.length
      · exact earlier k old
      · obtain rfl : k = s.returned.length := by omega
        exact List.mem_append_right _ (by simp [number])
    · intro entry member
      refine ⟨kept entry member, ?_⟩
      have above := (fresh.waiting entry member).2
      have distinct : entry.1.toNat ≠ s.returned.length := by
        intro equal
        apply (prompt.waiting entry member).1
        rw [next, ← equal]
        simp
      simp only [List.length_append, List.length_cons, List.length_nil]
      omega
  · rw [delivered, List.append_nil]
    exact ⟨earlier, fun entry member => ⟨kept entry member, (fresh.waiting entry member).2⟩⟩
  · rw [delivered, List.append_nil]
    exact ⟨earlier, by simpa using position⟩
  · rw [delivered, List.append_nil]
    exact ⟨earlier, fun entry member => ⟨kept entry member, (fresh.waiting entry member).2⟩⟩

/-- The defect: a second packet goes to the buffer, and the smaller of the two
ends up behind the larger one. -/
theorem obstructed_jams (prompt : Prompt payload s) (fresh : Fresh s) (new : seq ∉ s.seen)
    (obstructed : ¬ Unobstructed s seq) (stepped : s.step payload seq = some t) :
    ∃ low high, low ∈ s.seen ++ [seq] ∧ Jammed t low high := by
  cases Option.some.inj stepped
  simp only [Unobstructed, not_forall] at obstructed
  obtain ⟨early, inWindow, entry, member, other⟩ := obstructed
  have single : s.receiver.oooBuffer = [entry] := by
    match buffer : s.receiver.oooBuffer, prompt.short with
    | [], _ => simp [buffer] at member
    | [only], _ => simpa [buffer, eq_comm] using member
  obtain ⟨waiting, above⟩ := fresh.waiting entry member
  have position := fresh.unseen new
  have limit := seq.toNat_lt
  have next : s.receiver.nextExpected.toNat = s.returned.length := by
    rw [prompt.next]
    exact toUInt32_toNat (by omega)
  have ahead : seq.toNat ≠ s.receiver.nextExpected.toNat := fun equal =>
    early (UInt32.toNat_inj.mp equal)
  have distinct : entry.1.toNat ≠ seq.toNat := fun equal => other (UInt32.toNat_inj.mp equal)
  have later : entry.1.toNat ≠ s.receiver.nextExpected.toNat := fun equal =>
    (prompt.waiting entry member).1 (UInt32.toNat_inj.mp equal)
  have limitEntry := entry.1.toNat_lt
  have delivered : s.receiver.deliver seq (payload seq) =
      (⟨s.receiver.nextExpected, bufferPacket seq (seq - s.receiver.nextExpected) (payload seq)
        s.receiver.oooBuffer, s.receiver.lastAckBitmap⟩, []) := by
    simp [ReliableReceiver.deliver, sub_eq_zero_iff, early, inWindow]
  rw [delivered, List.append_nil, single]
  -- the insertion test compares distances back from the new packet
  have comparison : seq - entry.1 < seq - s.receiver.nextExpected ↔ entry.1.toNat < seq.toNat := by
    rw [UInt32.lt_iff_toNat_lt, UInt32.toNat_sub, UInt32.toNat_sub]
    omega
  rcases Nat.lt_or_gt_of_ne distinct with smaller | larger
  · have behind : s.receiver.nextExpected.toNat ≤ entry.1.toNat := by omega
    refine ⟨entry.1, seq, List.mem_append_left _ waiting, ?_, smaller, behind, next.symm⟩
    have front := comparison.mpr smaller
    simp [bufferPacket, insertPos, front, other, Ne.symm other]
  · have behind : s.receiver.nextExpected.toNat ≤ seq.toNat := by omega
    refine ⟨seq, entry.1, by simp, ?_, larger, behind, next.symm⟩
    have last : ¬ seq - entry.1 < seq - s.receiver.nextExpected := fun front =>
      absurd (comparison.mp front) (by omega)
    simp [bufferPacket, insertPos, last, other]

theorem nodup_complete_unobstructed (prompt : Prompt payload s) (fresh : Fresh s)
    (distinct : (s.seen ++ arrivals).Nodup) (range : ∀ seq ∈ s.seen ++ arrivals, seq.toNat < n)
    (window : Runs.Meets (Intake.step payload) FirstWithinWindow s arrivals)
    (run : Runs.exec (Intake.step payload) s arrivals = some t) (complete : AllReturned payload n t) :
    Runs.Meets (Intake.step payload) Unobstructed s arrivals := by
  induction arrivals generalizing s with
  | nil => trivial
  | cons seq rest ih =>
    obtain ⟨middle, stepped, run⟩ := Runs.exec_cons.mp run
    have new : seq ∉ s.seen := fun old =>
      (List.nodup_append.mp distinct).2.2 seq old seq (by simp) rfl
    have grown : middle.seen = s.seen ++ [seq] := by
      cases Option.some.inj stepped
      rfl
    by_cases free : Unobstructed s seq
    · refine ⟨free, fun u reached => ?_⟩
      cases Option.some.inj (stepped.symm.trans reached)
      exact ih (step_prompt prompt window.1 free stepped) (step_fresh prompt fresh new free stepped)
        (by simpa [grown] using distinct) (by simpa [grown] using range) (window.2 _ stepped) run
    · obtain ⟨low, high, present, jammed⟩ := obstructed_jams prompt fresh new free stepped
      have absent : low ∉ rest := fun later => by
        have split : ((s.seen ++ [seq]) ++ rest).Nodup := by simpa using distinct
        exact (List.nodup_append.mp split).2.2 low present low later rfl
      have within : low.toNat < n := range low (by
        rcases List.mem_append.mp present with old | same
        · exact List.mem_append_left _ old
        · exact List.mem_append_right _ (by simp [List.mem_singleton.mp same]))
      exact absurd complete (jammed_incomplete (run_jammed jammed absent run) within)

theorem run_prompt (window : Runs.Meets (Intake.step payload) FirstWithinWindow s arrivals)
    (free : Runs.Meets (Intake.step payload) Unobstructed s arrivals)
    (run : Runs.exec (Intake.step payload) s arrivals = some t) (prompt : Prompt payload s) :
    Prompt payload t := by
  induction arrivals generalizing s with
  | nil =>
    cases Option.some.inj run
    exact prompt
  | cons seq rest ih =>
    obtain ⟨middle, stepped, run⟩ := Runs.exec_cons.mp run
    exact ih (window.2 _ stepped) (free.2 _ stepped) run
      (step_prompt prompt window.1 free.1 stepped)

theorem run_seen (run : Runs.exec (Intake.step payload) s arrivals = some t) :
    t.seen = s.seen ++ arrivals := by
  induction arrivals generalizing s with
  | nil =>
    cases Option.some.inj run
    simp
  | cons seq rest ih =>
    obtain ⟨middle, stepped, run⟩ := Runs.exec_cons.mp run
    cases Option.some.inj stepped
    simp [ih run]

/-- Reordering completeness: every payload is returned when no packet goes to
the buffer while another one waits there. For arrivals without repetition this
is also necessary; a repeated packet can still rescue a stuck one. -/
theorem reordering_complete (n : Nat) (payload : UInt32 → Bytes) (arrivals : List UInt32)
    (s : Intake) (run : Runs.exec (Intake.step payload) Intake.start arrivals = some s)
    (covers : Covers n arrivals)
    (window : Runs.Meets (Intake.step payload) FirstWithinWindow Intake.start arrivals) :
    (Runs.Meets (Intake.step payload) Unobstructed Intake.start arrivals →
      AllReturned payload n s) ∧
    (arrivals.Nodup → AllReturned payload n s →
      Runs.Meets (Intake.step payload) Unobstructed Intake.start arrivals) := by
  have seen : s.seen = arrivals := by simpa [Intake.start] using run_seen run
  constructor
  · intro free
    exact prompt_complete (run_prompt window free run start_prompt) (by rwa [seen])
  · intro distinct complete
    exact nodup_complete_unobstructed start_prompt start_fresh
      (by simpa [Intake.start] using distinct) (by simpa [Intake.start] using covers.range)
      window run complete

/-- The payload of packet `k` is the byte `k`. -/
def bytePayload (seq : UInt32) : Bytes := [seq.toUInt8]

theorem reordering_complete_swapped : ∃ s,
    Runs.exec (Intake.step bytePayload) Intake.start [1, 0, 2] = some s ∧
    AllReturned bytePayload 3 s :=
  ⟨_, rfl, (reordering_complete 3 bytePayload [1, 0, 2] _ rfl
    ⟨by decide, by simp, by decide⟩ (by decide)).1 (by decide)⟩

/-- Packets 2, 1, 0 in this order: when 0 fills the gap, 1 waits behind 2. -/
theorem reordering_incomplete : ¬ ∀ (n : Nat) (payload : UInt32 → Bytes) (arrivals : List UInt32)
    (s : Intake), Runs.exec (Intake.step payload) Intake.start arrivals = some s →
    Covers n arrivals →
    Runs.Meets (Intake.step payload) FirstWithinWindow Intake.start arrivals →
    AllReturned payload n s := by
  intro complete
  have returned := complete 3 bytePayload [2, 1, 0] _ rfl ⟨by decide, by simp, by decide⟩
    (by decide)
  exact absurd returned.length_le (by decide)

end LanLink.Reliable
