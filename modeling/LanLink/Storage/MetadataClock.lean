import LanLink.Storage.MetadataBlocks

/-! The sums of a synchronization. The time of a remote entry is anything its
sender wrote; a stored time is a clock reading of this store. Both sums with the
conflict window are checked here, and so is the count of merged entries. -/
namespace LanLink.Metadata.Clock
open LanLink.Chunk Maps Words Runs

/-- A vector of entries, as the language guarantees it. -/
structure Entries where
  list : List MetadataEntry
  bound : list.length ≤ isizeMax

/-- Which of two times is later by more than the window; the second sum is taken
only if the remote time is not. -/
def winsChecked (localTime remoteTime : Nat) (localHash remoteHash : UInt64) : Option Bool := do
  let localEnd ← checkedAdd 64 localTime conflictWindowSecs
  if localEnd < remoteTime then return true
  else
    let remoteEnd ← checkedAdd 64 remoteTime conflictWindowSecs
    if remoteEnd < localTime then return false else return localHash < remoteHash

section
variable (hasher : String → Hash → UInt64)

def mergesChecked (store : MetadataStore) (remote : MetadataEntry) : Option Bool :=
  match store.entries[remote.info.name]? with
  | some here =>
    winsChecked here.info.updatedAt remote.info.updatedAt (hashEntry hasher here)
      (hashEntry hasher remote)
  | none => some true

def mergeEntryChecked (now : Nat) (acc : MetadataStore × Nat) (remote : MetadataEntry) :
    Option (MetadataStore × Nat) := do
  if ← mergesChecked hasher acc.1 remote then
    let merged ← checkedAdd 64 acc.2 1
    return (⟨acc.1.entries.insert remote.info.name (restamp remote now)⟩, merged)
  else return acc

def syncFromChecked (store : MetadataStore) (remote : Entries) (now : Nat) :
    Option (MetadataStore × Nat) :=
  remote.list.foldlM (mergeEntryChecked hasher now) (store, 0)

inductive Call where
  | register (name : String) (fileHash : Hash) (fileSize : UInt64) (manifest : Option FileManifest)
      (blocks : List BlockLocation) (sourceNode : String)
  | upsert (name : String) (fileHash : Hash) (fileSize : UInt64) (manifest : Option FileManifest)
      (blocks : List BlockLocation) (sourceNode : String)
  | addBlockNode (name : String) (blockIndex : UInt32) (node : String)
  | addBlockNodes (name : String) (nodesByIndex : Map UInt32 (List String))
  | markEncrypted (name : String)
  | removeFile (name : String)
  | syncFrom (remote : Entries)

/-- The store after a call that read the clock at `now`; `none` is an overflow. -/
def call (store : MetadataStore) (now : Nat) : Call → Option MetadataStore
  | .register name fileHash fileSize manifest blocks sourceNode =>
    some (Blocks.orElse store (store.register name fileHash fileSize manifest blocks sourceNode now))
  | .upsert name fileHash fileSize manifest blocks sourceNode =>
    some (store.upsert name fileHash fileSize manifest blocks sourceNode now)
  | .addBlockNode name blockIndex node =>
    some (Blocks.orElse store (store.addBlockNode name blockIndex node now))
  | .addBlockNodes name nodesByIndex =>
    some (Blocks.orElse store (Blocks.addBlockNodes store name nodesByIndex now))
  | .markEncrypted name => some (Blocks.orElse store (Blocks.markEncrypted store name now))
  | .removeFile name => some (Blocks.orElse store (store.removeFile name))
  | .syncFrom remote => (syncFromChecked hasher store remote now).map Prod.fst

/-- A store and the clock of its machine. -/
structure Timed where
  store : MetadataStore
  clock : Nat

def Timed.start (clock : Nat) : Timed := ⟨.new, clock⟩

inductive Event where
  | tick (clock : Nat)
  | call (now : Nat) (called : Call)

def step (s : Timed) : Event → Option Timed
  | .tick clock => some { s with clock }
  | .call now called => (call hasher s.store now called).map fun store => { s with store }

/-- The clock does not go back and stays below 2^63. A call works with a reading
from before it took the lock. -/
def Clocked (s : Timed) : Event → Prop
  | .tick clock => s.clock ≤ clock ∧ clock < 2 ^ 63
  | .call now _ => now ≤ s.clock

end

/-- No stored time lies ahead of the clock. -/
def Stamped (clock : Nat) (store : MetadataStore) : Prop :=
  ∀ (name : String) (entry : MetadataEntry), store.entries[name]? = some entry →
    entry.info.updatedAt ≤ clock

section
variable (hasher : String → Hash → UInt64) {store : MetadataStore}

/-- With the local time below 2^63 no sum overflows: the remote time is added to
only if it is at most five seconds later. -/
theorem winsChecked_eq (small : localTime < 2 ^ 63) (remoteTime : Nat)
    (localHash remoteHash : UInt64) :
    winsChecked localTime remoteTime localHash remoteHash =
      some (wins localTime remoteTime localHash remoteHash) := by
  have localFits : localTime + conflictWindowSecs < 2 ^ 64 := by
    rw [conflictWindowSecs]
    omega
  rw [winsChecked, wins, checkedAdd_of_lt localFits]
  simp only [Option.bind_eq_bind, Option.bind_some]
  by_cases later : localTime + conflictWindowSecs < remoteTime
  · rw [if_pos later, if_pos later]
    rfl
  · have remoteFits : remoteTime + conflictWindowSecs < 2 ^ 64 := by
      rw [conflictWindowSecs] at *
      omega
    rw [if_neg later, if_neg later, checkedAdd_of_lt remoteFits]
    simp only [Option.bind_some]
    split <;> rfl

theorem mergesChecked_eq (stamped : Stamped clock store) (small : clock < 2 ^ 63)
    (remote : MetadataEntry) : mergesChecked hasher store remote = some (merges hasher store remote) := by
  rw [mergesChecked, merges]
  cases found : store.entries[remote.info.name]? with
  | none => rfl
  | some here =>
    have behind := stamped _ here found
    exact winsChecked_eq (by omega) ..

theorem stamped_insert (stamped : Stamped clock store) (behind : entry.info.updatedAt ≤ clock)
    (name : String) : Stamped clock ⟨store.entries.insert name entry⟩ := by
  intro other found stored
  rw [Std.ExtHashMap.getElem?_insert] at stored
  split at stored
  · cases stored
    exact behind
  · exact stamped other found stored

theorem mergeEntry_stamped {acc : MetadataStore × Nat} (stamped : Stamped clock acc.1)
    (reading : now ≤ clock) (remote : MetadataEntry) :
    Stamped clock (mergeEntry hasher now acc remote).1 := by
  have restamped : (restamp remote now).info.updatedAt ≤ clock := reading
  rw [mergeEntry]
  split
  · exact stamped_insert stamped restamped _
  · exact stamped

theorem mergeEntryChecked_eq {acc : MetadataStore × Nat} (stamped : Stamped clock acc.1)
    (small : clock < 2 ^ 63) (counted : acc.2 < isizeMax) (now : Nat) (remote : MetadataEntry) :
    mergeEntryChecked hasher now acc remote = some (mergeEntry hasher now acc remote) ∧
      (mergeEntry hasher now acc remote).2 ≤ acc.2 + 1 := by
  have fits : acc.2 + 1 < 2 ^ 64 := by
    rw [isizeMax] at counted
    omega
  rw [mergeEntryChecked, mergesChecked_eq hasher stamped small, mergeEntry, checkedAdd_of_lt fits]
  simp only [Option.bind_eq_bind, Option.bind_some]
  split
  · exact ⟨rfl, Nat.le_refl _⟩
  · exact ⟨rfl, Nat.le_succ _⟩

/-- The merging loop never overflows; the induction is on the entries that are
left, of which the counter has room for as many. -/
theorem mergeEntries_eq (remote : List MetadataEntry) (acc : MetadataStore × Nat)
    (stamped : Stamped clock acc.1) (small : clock < 2 ^ 63) (reading : now ≤ clock)
    (counted : acc.2 + remote.length ≤ isizeMax) :
    remote.foldlM (mergeEntryChecked hasher now) acc =
        some (remote.foldl (mergeEntry hasher now) acc) ∧
      Stamped clock (remote.foldl (mergeEntry hasher now) acc).1 := by
  induction remote generalizing acc with
  | nil => exact ⟨rfl, stamped⟩
  | cons e rest ih =>
    rw [List.length_cons] at counted
    obtain ⟨merged, count⟩ := mergeEntryChecked_eq hasher stamped small (by omega) now e
    rw [List.foldlM_cons, merged, List.foldl_cons]
    exact ih _ (mergeEntry_stamped hasher stamped reading e) (by omega)

theorem syncFromChecked_eq (stamped : Stamped clock store) (small : clock < 2 ^ 63)
    (reading : now ≤ clock) (remote : Entries) :
    syncFromChecked hasher store remote now = some (store.syncFrom hasher remote.list now) ∧
      Stamped clock (store.syncFrom hasher remote.list now).1 := by
  apply mergeEntries_eq hasher remote.list (store, 0) stamped small reading
  rw [Nat.zero_add]
  exact remote.bound

theorem stamped_orElse {result : Except MetadataError MetadataStore} (stamped : Stamped clock store)
    (accepted : ∀ after, result = .ok after → Stamped clock after) :
    Stamped clock (Blocks.orElse store result) := by
  cases result with
  | error => exact stamped
  | ok after => exact accepted after rfl

/-- Every call stamps what it writes with its reading of the clock. -/
theorem call_stamped (stamped : Stamped clock store) (small : clock < 2 ^ 63)
    (reading : now ≤ clock) (called : Call) :
    ∃ after, call hasher store now called = some after ∧ Stamped clock after := by
  cases called with
  | register =>
    refine ⟨_, rfl, stamped_orElse stamped fun after accepted => ?_⟩
    rw [MetadataStore.register] at accepted
    split at accepted
    · cases accepted
    · cases accepted
      exact stamped_insert stamped reading _
  | upsert => exact ⟨_, rfl, stamped_insert stamped reading _⟩
  | addBlockNode =>
    refine ⟨_, rfl, stamped_orElse stamped fun after accepted => ?_⟩
    rw [MetadataStore.addBlockNode] at accepted
    split at accepted
    · cases accepted
    · cases accepted
      exact stamped_insert stamped reading _
  | addBlockNodes =>
    refine ⟨_, rfl, stamped_orElse stamped fun after accepted => ?_⟩
    rw [Blocks.addBlockNodes] at accepted
    split at accepted
    · cases accepted
    · cases accepted
      exact stamped_insert stamped reading _
  | markEncrypted =>
    refine ⟨_, rfl, stamped_orElse stamped fun after accepted => ?_⟩
    rw [Blocks.markEncrypted] at accepted
    split at accepted
    · cases accepted
    · cases accepted
      exact stamped_insert stamped reading _
  | removeFile =>
    refine ⟨_, rfl, stamped_orElse stamped fun after accepted => ?_⟩
    rw [MetadataStore.removeFile] at accepted
    split at accepted
    · cases accepted
      intro other entry stored
      rw [Std.ExtHashMap.getElem?_erase] at stored
      split at stored
      · cases stored
      · exact stamped other entry stored
    · cases accepted
  | syncFrom remote =>
    obtain ⟨merged, behind⟩ := syncFromChecked_eq hasher stamped small reading remote
    exact ⟨_, by rw [call, merged]; rfl, behind⟩

/-- What a run keeps. -/
def Invariant (s : Timed) : Prop := s.clock < 2 ^ 63 ∧ Stamped s.clock s.store

theorem step_invariant (inv : Invariant s) (clocked : Clocked s event) :
    ∃ t, step hasher s event = some t ∧ Invariant t := by
  obtain ⟨small, stamped⟩ := inv
  cases event with
  | tick clock =>
    refine ⟨_, rfl, clocked.2, ?_⟩
    intro name entry stored
    exact (stamped name entry stored).trans clocked.1
  | call now called =>
    obtain ⟨after, returned, behind⟩ := call_stamped hasher stamped small clocked called
    refine ⟨{ s with store := after }, ?_, small, behind⟩
    rw [step, returned]
    rfl

end

/-- Under a clock that does not go back no run overflows, whatever times the remote
entries have; no stored time is ahead of the clock, and the next synchronization
takes its sums without overflow, too. -/
theorem syncFrom_arithmetic (hasher : String → Hash → UInt64) {events : List Event}
    (initial : clock < 2 ^ 63) (meets : Meets (step hasher) Clocked (.start clock) events) :
    ∃ t, exec (step hasher) (.start clock) events = some t ∧ Stamped t.clock t.store ∧
      ∀ remote now, now ≤ t.clock → syncFromChecked hasher t.store remote now =
        some (t.store.syncFrom hasher remote.list now) := by
  have empty : Invariant (.start clock) := by
    refine ⟨initial, fun name entry stored => ?_⟩
    rw [Timed.start, MetadataStore.new, Std.ExtHashMap.getElem?_empty] at stored
    cases stored
  obtain ⟨t, run, small, stamped⟩ := guarded_total (step_invariant hasher) meets empty
  exact ⟨t, run, stamped, fun remote now reading =>
    (syncFromChecked_eq hasher stamped small reading remote).1⟩

/-- A version of a file with the latest time there is. -/
def forged : MetadataEntry :=
  newEntry "a" (.replicate 32 1) 0 none [] "remote" (2 ^ 64 - 1)

def forgedEvents : List Event :=
  [.tick 10, .call 10 (.upsert "a" (.replicate 32 0) 0 none [] "here"),
    .call 10 (.syncFrom ⟨[forged], by decide⟩)]

theorem syncFrom_arithmetic_forged :
    ∃ t, exec (step fun _ _ => 0) (.start 0) forgedEvents = some t ∧ Stamped t.clock t.store ∧
      ∀ remote now, now ≤ t.clock → syncFromChecked (fun _ _ => 0) t.store remote now =
        some (t.store.syncFrom (fun _ _ => 0) remote.list now) := by
  apply syncFrom_arithmetic (fun _ _ => 0) (by decide)
  refine ⟨⟨Nat.zero_le 10, by decide⟩, fun t ticked => ?_⟩
  cases Option.some.inj ticked
  refine ⟨Nat.le_refl 10, fun t written => ?_⟩
  cases Option.some.inj written
  exact ⟨Nat.le_refl 10, fun _ _ => trivial⟩

end LanLink.Metadata.Clock
