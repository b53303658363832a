import LanLink.Storage.DownloadCompletion

/-! The reorder buffer of a download under every order of its calls. The blocks
come out in sequence, but a block that was taken out is no longer known to the
buffer: it is accepted again and counted as missing. -/
namespace LanLink.Download.Reorder
open LanLink.Chunk Maps Words Runs

/-- The blocks in sequence from the next expected one; `none` is an overflow of
the cursor in a build with checks. -/
def drainOrdered (checks : Bool) (buffer : ReorderBuffer) :
    Option (ReorderBuffer × List (UInt32 × Bytes)) :=
  match _ : buffer.blocks.lookup buffer.nextExpected with
  | none => some (buffer, [])
  | some data =>
    (addWord checks 32 buffer.nextExpected.toNat 1).bind fun next =>
      (drainOrdered checks
          ⟨buffer.blocks.erase buffer.nextExpected, buffer.expectedCount, next.toUInt32⟩).map
        fun drained => (drained.1, (buffer.nextExpected, data) :: drained.2)
  termination_by buffer.blocks.entries.length
  decreasing_by
    rename_i found
    have there : buffer.nextExpected ∈ buffer.blocks := Maps.mem_of_lookup found
    have less := length_erase there
    omega

def remaining (buffer : ReorderBuffer) : UInt32 :=
  let received := UInt32.ofNat buffer.blocks.entries.length
  if buffer.expectedCount < received then 0 else buffer.expectedCount - received

inductive Call where
  | push (index : UInt32) (data : Bytes)
  | drainOrdered

/-- What the calls did: a block was accepted, or it was returned by a drain. -/
inductive Event where
  | accepted (index : UInt32) (data : Bytes)
  | drained (index : UInt32) (data : Bytes)

def Event.output : Event → Option (UInt32 × Bytes)
  | .accepted .. => none
  | .drained index data => some (index, data)

def Event.received : Event → Option UInt32
  | .accepted index _ => some index
  | .drained .. => none

def Event.data (index : UInt32) : Event → Option Bytes
  | .accepted i data => if i = index then some data else none
  | .drained .. => none

/-- All blocks that the drains returned, one after the other. -/
def output (events : List Event) : List (UInt32 × Bytes) := events.filterMap Event.output

/-- The different indices received so far. -/
def received (events : List Event) : Finset UInt32 := (events.filterMap Event.received).toFinset

/-- The data of the last push of an index that was accepted. -/
def lastAccepted (index : UInt32) (events : List Event) : Option Bytes :=
  (events.filterMap (Event.data index)).getLast?

structure Session where
  buffer : ReorderBuffer
  events : List Event

def Session.start (expectedCount : UInt32) : Session := ⟨.new expectedCount, []⟩

def step (checks : Bool) (s : Session) : Call → Option Session
  | .push index data =>
    match s.buffer.push index data with
    | .error _ => some s
    | .ok buffer => some ⟨buffer, s.events ++ [.accepted index data]⟩
  | .drainOrdered =>
    (drainOrdered checks s.buffer).map fun drained =>
      ⟨drained.1, s.events ++ drained.2.map fun block => .drained block.1 block.2⟩

section
variable {events : List Event} {i j : UInt32} {d e : Bytes}

@[simp] theorem output_accepted : output (events ++ [.accepted i d]) = output events := by
  simp [output, Event.output]

@[simp] theorem output_drained : output (events ++ [.drained i d]) = output events ++ [(i, d)] := by
  simp [output, Event.output]

@[simp] theorem received_accepted :
    received (events ++ [.accepted i d]) = insert i (received events) := by
  ext k
  simp [received, Event.received]

@[simp] theorem received_drained : received (events ++ [.drained i d]) = received events := by
  ext k
  simp [received, Event.received]

@[simp] theorem lastAccepted_accepted :
    lastAccepted j (events ++ [.accepted i d]) = if i = j then some d else lastAccepted j events := by
  by_cases same : i = j <;> simp [lastAccepted, Event.data, same]

@[simp] theorem lastAccepted_drained :
    lastAccepted j (events ++ [.drained i d]) = lastAccepted j events := by
  simp [lastAccepted, Event.data]

end

/-- The state of a session: what came out is a prefix of the sequence, and what
was received came out or is held. -/
structure Ordered (expectedCount : UInt32) (s : Session) : Prop where
  size : s.buffer.expectedCount = expectedCount
  bounded : ∀ i ∈ s.buffer.blocks, i < expectedCount
  next : s.buffer.nextExpected.toNat = (output s.events).length
  below : s.buffer.nextExpected ≤ expectedCount
  numbered : (output s.events).map Prod.fst =
    (List.range (output s.events).length).map Nat.toUInt32
  held : ∀ i d, s.buffer.blocks.lookup i = some d → lastAccepted i s.events = some d
  known : ∀ i, i ∈ received s.events ↔ i < s.buffer.nextExpected ∨ i ∈ s.buffer.blocks
  sourced : ∀ before i d after, s.events = before ++ .drained i d :: after →
    lastAccepted i before = some d

theorem start_ordered (expectedCount : UInt32) : Ordered expectedCount (.start expectedCount) where
  size := rfl
  bounded := by simp [Session.start, ReorderBuffer.new]
  next := rfl
  below := UInt32.le_iff_toNat_le.mpr (Nat.zero_le _)
  numbered := rfl
  held := by simp [Session.start, ReorderBuffer.new]
  known := by simp [Session.start, ReorderBuffer.new, received]
  sourced := by simp [Session.start]

/-- A split of a longer log is a split of the log, or the last event. -/
theorem split_last {events : List Event} {last e : Event}
    (split : events ++ [last] = before ++ e :: after) :
    (∃ rest, after = rest ++ [last] ∧ events = before ++ e :: rest) ∨
      (after = [] ∧ last = e ∧ events = before) := by
  rcases List.eq_nil_or_concat after with rfl | ⟨rest, final, rfl⟩
  · have parts := List.append_inj' split rfl
    exact Or.inr ⟨rfl, by simpa using parts.2, parts.1⟩
  · rw [List.concat_eq_append, ← List.cons_append, ← List.append_assoc] at split
    have parts := List.append_inj' split rfl
    have same : last = final := by simpa using parts.2
    exact Or.inl ⟨rest, by simp [same], parts.1⟩

section
variable {expectedCount : UInt32}

theorem Ordered.accept (ordered : Ordered expectedCount s) (room : index < s.buffer.expectedCount)
    (new : index ∉ s.buffer.blocks) :
    Ordered expectedCount ⟨{ s.buffer with blocks := s.buffer.blocks.insert index data },
      s.events ++ [.accepted index data]⟩ where
  size := ordered.size
  bounded := by
    intro i member
    rcases (AList.mem_insert s.buffer.blocks).mp member with rfl | old
    · exact ordered.size ▸ room
    · exact ordered.bounded i old
  next := by simpa using ordered.next
  below := ordered.below
  numbered := by simpa using ordered.numbered
  held := by
    intro i d found
    rw [lastAccepted_accepted]
    by_cases same : index = i
    · subst same
      simpa using found
    · rw [if_neg same]
      exact ordered.held i d ((AList.lookup_insert_ne (Ne.symm same)).symm.trans found)
  known := by
    intro i
    rw [received_accepted, Finset.mem_insert, ordered.known, AList.mem_insert]
    exact or_left_comm
  sourced := by
    intro before i d after split
    rcases split_last split with ⟨rest, -, old⟩ | ⟨-, event, -⟩
    · exact ordered.sourced before i d rest old
    · cases event

/-- One pass of the drain's loop. -/
theorem Ordered.release (ordered : Ordered expectedCount s)
    (found : s.buffer.blocks.lookup s.buffer.nextExpected = some data) :
    s.buffer.nextExpected.toNat + 1 < 2 ^ 32 ∧
      Ordered expectedCount ⟨⟨s.buffer.blocks.erase s.buffer.nextExpected, s.buffer.expectedCount,
        (s.buffer.nextExpected.toNat + 1).toUInt32⟩,
        s.events ++ [.drained s.buffer.nextExpected data]⟩ := by
  have there : s.buffer.nextExpected ∈ s.buffer.blocks := Maps.mem_of_lookup found
  have room := UInt32.lt_iff_toNat_lt.mp (ordered.bounded _ there)
  have small := expectedCount.toNat_lt
  have fits : s.buffer.nextExpected.toNat + 1 < 2 ^ 32 := by omega
  have value := toUInt32_toNat fits
  have number : s.buffer.nextExpected = (output s.events).length.toUInt32 := by
    rw [← ordered.next]
    simp
  refine ⟨fits, ordered.size, ?_, ?_, ?_, ?_, ?_, ?_, ?_⟩
  · intro i member
    exact ordered.bounded i (AList.mem_erase.mp member).2
  · simp only [output_drained, List.length_append, List.length_singleton]
    rw [value, ordered.next]
  · rw [UInt32.le_iff_toNat_le, value]
    exact room
  · rw [output_drained, List.map_append, ordered.numbered, List.length_append,
      List.length_singleton, List.range_succ, List.map_append, List.map_singleton,
      List.map_singleton, ← number]
  · intro i d found
    have member : i ∈ s.buffer.blocks.erase s.buffer.nextExpected :=
      Maps.mem_of_lookup found
    rw [AList.lookup_erase_ne (AList.mem_erase.mp member).1] at found
    rw [lastAccepted_drained]
    exact ordered.held i d found
  · intro i
    rw [received_drained, ordered.known, AList.mem_erase, UInt32.lt_iff_toNat_lt,
      UInt32.lt_iff_toNat_lt, value, Nat.lt_succ_iff_lt_or_eq, UInt32.toNat_inj]
    by_cases same : i = s.buffer.nextExpected
    · simp [same, there]
    · simp [same]
  · intro before i d after split
    rcases split_last split with ⟨rest, -, old⟩ | ⟨-, event, rfl⟩
    · exact ordered.sourced before i d rest old
    · cases event
      exact ordered.held _ data found

/-- A drain returns what it releases, and stops at a block that is not held. -/
theorem Ordered.drain (ordered : Ordered expectedCount s) (checks : Bool) :
    ∃ buffer blocks, drainOrdered checks s.buffer = some (buffer, blocks) ∧
      Ordered expectedCount ⟨buffer, s.events ++ blocks.map fun block => .drained block.1 block.2⟩ ∧
      buffer.nextExpected ∉ buffer.blocks ∧ s.buffer.nextExpected ≤ buffer.nextExpected ∧
      ∀ i ∈ buffer.blocks, i ∈ s.buffer.blocks := by
  generalize size : s.buffer.blocks.entries.length = n
  induction n using Nat.strong_induction_on generalizing s with
  | _ n ih =>
    rw [drainOrdered]
    split
    · rename_i missing
      exact ⟨s.buffer, [], rfl, by simpa using ordered, AList.lookup_eq_none.mp missing,
        UInt32.le_refl _, fun _ member => member⟩
    · rename_i data found
      obtain ⟨fits, released⟩ := ordered.release found
      have there : s.buffer.nextExpected ∈ s.buffer.blocks := Maps.mem_of_lookup found
      have less := length_erase there
      obtain ⟨buffer, blocks, run, ends, stopped, later, kept⟩ :=
        ih (s.buffer.blocks.erase s.buffer.nextExpected).entries.length (by omega) released rfl
      rw [addWord_of_lt fits, Option.bind_some, run]
      refine ⟨buffer, _, rfl, ?_, stopped, ?_, fun i member => ?_⟩
      · simpa [List.append_assoc] using ends
      · rw [UInt32.le_iff_toNat_le, toUInt32_toNat fits] at later
        rw [UInt32.le_iff_toNat_le]
        omega
      · exact (AList.mem_erase.mp (kept i member)).2

theorem push_cases (buffer : ReorderBuffer) (index : UInt32) (data : Bytes) :
    (index < buffer.expectedCount ∧ index ∉ buffer.blocks ∧
      buffer.push index data = .ok { buffer with blocks := buffer.blocks.insert index data }) ∨
    ((buffer.expectedCount ≤ index ∨ index ∈ buffer.blocks) ∧
      ∃ message, buffer.push index data = .error message) := by
  rw [ReorderBuffer.push]
  by_cases outside : buffer.expectedCount ≤ index
  · rw [if_pos outside]
    exact Or.inr ⟨Or.inl outside, _, rfl⟩
  · rw [if_neg outside]
    by_cases there : index ∈ buffer.blocks
    · rw [if_pos there]
      exact Or.inr ⟨Or.inr there, _, rfl⟩
    · rw [if_neg there]
      exact Or.inl ⟨UInt32.not_le.mp outside, there, rfl⟩

/-- Every call can be made, and keeps the blocks in order. -/
theorem Ordered.step (ordered : Ordered expectedCount s) (checks : Bool) (call : Call) :
    ∃ t, step checks s call = some t ∧ Ordered expectedCount t := by
  cases call with
  | push index data =>
    rw [Reorder.step]
    rcases push_cases s.buffer index data with ⟨room, new, pushed⟩ | ⟨-, message, pushed⟩
    · rw [pushed]
      exact ⟨_, rfl, ordered.accept room new⟩
    · rw [pushed]
      exact ⟨s, rfl, ordered⟩
  | drainOrdered =>
    obtain ⟨buffer, blocks, run, ends, -⟩ := ordered.drain checks
    exact ⟨_, by rw [Reorder.step, run, Option.map_some], ends⟩

theorem step_ordered (ordered : Ordered expectedCount s) (stepped : step checks s call = some t) :
    Ordered expectedCount t := by
  obtain ⟨t', run, next⟩ := ordered.step checks call
  cases stepped.symm.trans run
  exact next

/-- Where a drain stops, the next block is not there. -/
theorem step_drain_stops (ordered : Ordered expectedCount s)
    (stepped : step checks s .drainOrdered = some t) : t.buffer.nextExpected ∉ t.buffer.blocks := by
  obtain ⟨buffer, blocks, run, -, stopped, -⟩ := ordered.drain checks
  rw [step, run, Option.map_some] at stepped
  cases stepped
  exact stopped

/-- The data of a block by its place in the output. -/
def dataAt (events : List Event) (i : Nat) : Bytes := ((output events)[i]?.map Prod.snd).getD []

theorem Ordered.output_eq (ordered : Ordered expectedCount s) :
    output s.events = (List.range (output s.events).length).map fun i =>
      (i.toUInt32, dataAt s.events i) := by
  apply List.ext_getElem (by simp)
  intro i first second
  rw [List.getElem_map, List.getElem_range]
  apply Prod.ext
  · have place := congrArg (fun indices => indices[i]?) ordered.numbered
    simpa [first] using place
  · simp [dataAt, first]

theorem Ordered.source (ordered : Ordered expectedCount s) (early : i < (output s.events).length) :
    ∃ before after, s.events = before ++ .drained i.toUInt32 (dataAt s.events i) :: after ∧
      lastAccepted i.toUInt32 before = some (dataAt s.events i) := by
  have member : (i.toUInt32, dataAt s.events i) ∈ output s.events := by
    rw [ordered.output_eq]
    exact List.mem_map.mpr ⟨i, List.mem_range.mpr early, rfl⟩
  obtain ⟨event, logged, same⟩ := List.mem_filterMap.mp member
  cases event with
  | accepted index data => cases same
  | drained index data =>
    rw [Event.output, Option.some.injEq, Prod.mk.injEq] at same
    rw [← same.1, ← same.2]
    obtain ⟨before, after, split⟩ := List.append_of_mem logged
    exact ⟨before, after, split, ordered.sourced before index data after split⟩

/-- Where the buffer has a gap at the cursor, that block was never received. -/
theorem Ordered.gap (ordered : Ordered expectedCount s)
    (missing : s.buffer.nextExpected ∉ s.buffer.blocks) :
    (output s.events).length.toUInt32 ∉ received s.events := by
  have number : (output s.events).length.toUInt32 = s.buffer.nextExpected := by
    rw [← ordered.next]
    simp
  rw [number, ordered.known]
  simp [missing]

theorem Ordered.nodup (ordered : Ordered expectedCount s) :
    ((output s.events).map Prod.fst).Nodup := by
  have small := expectedCount.toNat_lt
  have below := UInt32.le_iff_toNat_le.mp ordered.below
  have next := ordered.next
  rw [ordered.numbered]
  refine List.Nodup.map_on ?_ List.nodup_range
  intro i first j second same
  have first := List.mem_range.mp first
  have second := List.mem_range.mp second
  rw [← toUInt32_toNat (n := i) (by omega), same, toUInt32_toNat (by omega)]

end

theorem run_ordered (checks : Bool) (expectedCount : UInt32) (calls : List Call) :
    ∃ t, exec (step checks) (.start expectedCount) calls = some t ∧ Ordered expectedCount t :=
  total_invariant (fun ordered => ordered.step checks) calls (start_ordered expectedCount)

theorem run_drain_stops (run : exec (step checks) (.start expectedCount) calls = some t)
    (last : calls.getLast? = some .drainOrdered) : t.buffer.nextExpected ∉ t.buffer.blocks := by
  obtain ⟨earlier, rfl⟩ := List.getLast?_eq_some_iff.mp last
  obtain ⟨s, before, after⟩ := exec_append.mp run
  obtain ⟨s', run', ordered⟩ := run_ordered checks expectedCount earlier
  cases before.symm.trans run'
  obtain ⟨t', stepped, ends⟩ := exec_cons.mp after
  cases Option.some.inj ends
  exact step_drain_stops ordered stepped

/-- Whatever the order of the calls, the blocks come out in sequence, each once
and with the data last accepted for it, and a drain takes all that can come out. -/
theorem drains_in_order (checks : Bool) (expectedCount : UInt32) (calls : List Call) :
    ∃ t, exec (step checks) (.start expectedCount) calls = some t ∧
      ∃ k ≤ expectedCount.toNat, ∃ data : Nat → Bytes,
        output t.events = (List.range k).map (fun i => (i.toUInt32, data i)) ∧
        ((output t.events).map Prod.fst).Nodup ∧
        (∀ i < k, ∃ before after, t.events = before ++ .drained i.toUInt32 (data i) :: after ∧
          lastAccepted i.toUInt32 before = some (data i)) ∧
        (calls.getLast? = some .drainOrdered → k.toUInt32 ∉ received t.events) := by
  obtain ⟨t, run, ordered⟩ := run_ordered checks expectedCount calls
  refine ⟨t, run, (output t.events).length, ?_, dataAt t.events, ordered.output_eq, ordered.nodup,
    fun i early => ordered.source early, fun last => ordered.gap (run_drain_stops run last)⟩
  rw [← ordered.next]
  exact UInt32.le_iff_toNat_le.mp ordered.below

/-- The buffer refuses what is out of range or was received before, and counts
what was received. -/
def Accounting (s : Session) : Prop :=
  (∀ index data, (∃ message, s.buffer.push index data = .error message) ↔
    s.buffer.expectedCount ≤ index ∨ index ∈ received s.events) ∧
  (remaining s.buffer).toNat = s.buffer.expectedCount.toNat - (received s.events).card ∧
  (s.buffer.isComplete ↔ ∀ index < s.buffer.expectedCount, index ∈ received s.events)

/-- A drain finds nothing that it could take out. -/
def DrainsNothing (s : Session) : Call → Prop
  | .push .. => True
  | .drainOrdered => s.buffer.nextExpected ∉ s.buffer.blocks

section
variable {expectedCount : UInt32}

theorem push_error {buffer : ReorderBuffer} {index : UInt32} {data : Bytes} :
    (∃ message, buffer.push index data = .error message) ↔
      buffer.expectedCount ≤ index ∨ index ∈ buffer.blocks := by
  rcases push_cases buffer index data with ⟨room, new, pushed⟩ | ⟨refused, failed⟩
  · rw [pushed]
    have inside : ¬ buffer.expectedCount ≤ index := UInt32.not_le.mpr room
    simp [inside, new]
  · exact ⟨fun _ => refused, fun _ => failed⟩

/-- The buffer is right about what was received when it holds again all that it
gave away. -/
theorem Ordered.received_eq (ordered : Ordered expectedCount s)
    (again : ∀ i < s.buffer.nextExpected, i ∈ s.buffer.blocks) :
    received s.events = s.buffer.blocks.keys.toFinset := by
  ext i
  rw [ordered.known, List.mem_toFinset, AList.mem_keys]
  exact ⟨fun known => known.elim (again i) id, Or.inr⟩

/-- A list with every index below a bound has at least as many entries. -/
theorem le_length_of_all {keys : List UInt32} (small : n < 2 ^ 32)
    (all : ∀ index : UInt32, index.toNat < n → index ∈ keys) : n ≤ keys.length := by
  have covered : Finset.range n ⊆ (keys.map UInt32.toNat).toFinset := by
    intro i member
    have early := Finset.mem_range.mp member
    have value : i.toUInt32.toNat = i := toUInt32_toNat (by omega)
    rw [List.mem_toFinset, List.mem_map]
    exact ⟨i.toUInt32, all i.toUInt32 (by rwa [value]), value⟩
  have count := Finset.card_le_card covered
  rw [Finset.card_range] at count
  have most := List.toFinset_card_le (keys.map UInt32.toNat)
  rw [List.length_map] at most
  exact count.trans most

theorem remaining_toNat {buffer : ReorderBuffer}
    (fits : buffer.blocks.entries.length ≤ buffer.expectedCount.toNat) :
    (remaining buffer).toNat = buffer.expectedCount.toNat - buffer.blocks.entries.length := by
  have small := buffer.expectedCount.toNat_lt
  have value : (UInt32.ofNat buffer.blocks.entries.length).toNat = buffer.blocks.entries.length :=
    toUInt32_toNat (by omega)
  have order : UInt32.ofNat buffer.blocks.entries.length ≤ buffer.expectedCount := by
    rw [UInt32.le_iff_toNat_le, value]
    exact fits
  rw [remaining, if_neg (UInt32.not_lt.mpr order), UInt32.toNat_sub_of_le _ _ order, value]

theorem Ordered.accounting (ordered : Ordered expectedCount s)
    (again : ∀ i < s.buffer.nextExpected, i ∈ s.buffer.blocks) : Accounting s := by
  have same := ordered.received_eq again
  have bounded (i : UInt32) (member : i ∈ s.buffer.blocks.keys) : i.toNat < expectedCount.toNat :=
    UInt32.lt_iff_toNat_lt.mp (ordered.bounded i (AList.mem_keys.mpr member))
  obtain ⟨most, full⟩ := Completion.fits (AList.keys_nodup s.buffer.blocks) bounded
  have count := List.toFinset_card_of_nodup (AList.keys_nodup s.buffer.blocks)
  rw [Completion.length_keys] at most full count
  rw [Accounting, same, ordered.size]
  refine ⟨fun index data => ?_, ?_, ?_⟩
  · rw [push_error, ordered.size, List.mem_toFinset, AList.mem_keys]
  · rw [remaining_toNat (by rwa [ordered.size]), count, ordered.size]
  · simp only [ReorderBuffer.isComplete, ReorderBuffer.canAssemble, ordered.size, decide_eq_true_eq,
      List.mem_toFinset]
    constructor
    · intro complete index early
      obtain ⟨k, member, value⟩ := full complete index.toNat (UInt32.lt_iff_toNat_lt.mp early)
      rwa [← UInt32.toNat_inj.mp value]
    · intro all
      have least := le_length_of_all expectedCount.toNat_lt fun index early =>
        all index (UInt32.lt_iff_toNat_lt.mpr early)
      rw [Completion.length_keys] at least
      omega

/-- An index that was given away and is not held is accepted a second time. -/
theorem Ordered.accounting_iff (ordered : Ordered expectedCount s) :
    Accounting s ↔ ∀ i < s.buffer.nextExpected, i ∈ s.buffer.blocks := by
  refine ⟨fun right i early => ?_, ordered.accounting⟩
  have refused := (right.1 i []).mpr (Or.inr ((ordered.known i).mpr (Or.inl early)))
  rcases push_error.mp refused with outside | there
  · rw [ordered.size] at outside
    exact absurd early (UInt32.not_lt.mpr (UInt32.le_trans ordered.below outside))
  · exact there

theorem drainOrdered_gap {buffer : ReorderBuffer} (missing : buffer.nextExpected ∉ buffer.blocks) :
    drainOrdered checks buffer = some (buffer, []) := by
  rw [drainOrdered]
  split
  · rfl
  · rename_i found
    rw [AList.lookup_eq_none.mpr missing] at found
    cases found

/-- A drain that finds the next block gives it away. -/
theorem Ordered.gives_away (ordered : Ordered expectedCount s)
    (there : s.buffer.nextExpected ∈ s.buffer.blocks)
    (run : drainOrdered checks s.buffer = some (buffer, blocks)) :
    s.buffer.nextExpected < buffer.nextExpected ∧ s.buffer.nextExpected ∉ buffer.blocks := by
  rw [drainOrdered] at run
  split at run
  · rename_i missing
    exact absurd there (AList.lookup_eq_none.mp missing)
  · rename_i data found
    obtain ⟨fits, released⟩ := ordered.release found
    obtain ⟨rest, others, continued, -, -, later, kept⟩ := released.drain checks
    rw [addWord_of_lt fits, Option.bind_some, continued, Option.map_some] at run
    cases run
    constructor
    · rw [UInt32.le_iff_toNat_le, toUInt32_toNat fits] at later
      exact UInt32.lt_iff_toNat_lt.mpr later
    · intro member
      exact (AList.mem_erase.mp (kept _ member)).1 rfl

/-- A push keeps the account, and so does a drain exactly when it finds nothing. -/
theorem step_accounting (ordered : Ordered expectedCount s) (right : Accounting s)
    (stepped : step checks s call = some t) : Accounting t ↔ DrainsNothing s call := by
  have after := step_ordered ordered stepped
  have again := ordered.accounting_iff.mp right
  rw [after.accounting_iff]
  cases call with
  | push index data =>
    refine iff_of_true (fun i early => ?_) trivial
    rw [step] at stepped
    rcases push_cases s.buffer index data with ⟨-, -, pushed⟩ | ⟨-, message, pushed⟩
    · rw [pushed] at stepped
      cases stepped
      exact (AList.mem_insert _).mpr (Or.inr (again i early))
    · rw [pushed] at stepped
      cases stepped
      exact again i early
  | drainOrdered =>
    rw [DrainsNothing]
    obtain ⟨drained, run, rfl⟩ := Option.map_eq_some_iff.mp stepped
    by_cases there : s.buffer.nextExpected ∈ s.buffer.blocks
    · obtain ⟨later, missing⟩ := ordered.gives_away there run
      exact iff_of_false (fun held => missing (held _ later)) (fun absent => absent there)
    · cases (drainOrdered_gap there).symm.trans run
      exact iff_of_true again there

end

theorem start_accounting (expectedCount : UInt32) : Accounting (.start expectedCount) := by
  apply (start_ordered expectedCount).accounting
  intro i early
  exact absurd (UInt32.lt_iff_toNat_lt.mp early) (Nat.not_lt_zero _)

/-- The account is right in every state of a session exactly when no drain of it
takes a block out. -/
theorem accounting_always_iff (checks : Bool) (expectedCount : UInt32) (calls : List Call) :
    Always (step checks) Accounting (.start expectedCount) calls ↔
      Meets (step checks) DrainsNothing (.start expectedCount) calls := by
  obtain ⟨t, run, -⟩ := run_ordered checks expectedCount calls
  exact always_iff step_ordered step_accounting run (start_ordered expectedCount)
    (start_accounting expectedCount)

theorem drain_only_block :
    drainOrdered true ⟨(∅ : Map UInt32 Bytes).insert 0 [7], 1, 0⟩ = some (⟨∅, 1, 1⟩, [(0, [7])]) := by
  rw [drainOrdered]
  have rest : drainOrdered true ⟨∅, 1, 1⟩ = some (⟨∅, 1, 1⟩, []) :=
    drainOrdered_gap (AList.notMem_empty 1)
  exact congrArg (Option.map fun drained => (drained.1, ((0, [7]) : UInt32 × Bytes) :: drained.2)) rest

/-- After a drain the only block of a file is accepted again and counted as
missing. -/
theorem drained_block_forgotten :
    ∃ t, exec (step true) (.start 1) [.push 0 [7], .drainOrdered] = some t ∧
      0 ∈ received t.events ∧ (∃ buffer, t.buffer.push 0 [8] = .ok buffer) ∧
      remaining t.buffer = 1 ∧ t.buffer.isComplete = false ∧ ¬ Accounting t := by
  refine ⟨⟨⟨∅, 1, 1⟩, [.accepted 0 [7], .drained 0 [7]]⟩, ?_, by decide, ⟨_, rfl⟩, by decide,
    by decide, ?_⟩
  · have pushed : step true (.start 1) (.push 0 [7]) =
        some ⟨⟨(∅ : Map UInt32 Bytes).insert 0 [7], 1, 0⟩, [.accepted 0 [7]]⟩ := rfl
    have drained : step true ⟨⟨(∅ : Map UInt32 Bytes).insert 0 [7], 1, 0⟩, [.accepted 0 [7]]⟩
        .drainOrdered = some ⟨⟨∅, 1, 1⟩, [.accepted 0 [7], .drained 0 [7]]⟩ := by
      rw [step, drain_only_block]
      rfl
    exact exec_cons.mpr ⟨_, pushed, exec_cons.mpr ⟨_, drained, rfl⟩⟩
  · intro right
    have refused := (right.1 0 [8]).mpr (Or.inr (by decide))
    rcases push_error.mp refused with outside | there
    · exact absurd outside (by decide)
    · exact AList.notMem_empty _ there

end LanLink.Download.Reorder
