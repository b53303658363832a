import Std.Data.ExtHashMap
import Mathlib.Logic.Function.Basic
import LanLink.Core.Runs
import LanLink.Storage.Chunk

/-! The metadata store and its synchronization. Stores are maps from names to
entries; persistence is left out, and no lock is poisoned. Times are seconds of
the system clock, below the point where the conflict window would overflow.
The tiebreaker hashes the name and the file hash with the standard library's
hasher, whose algorithm is not specified; it is a parameter. -/
namespace LanLink.Metadata
open LanLink.Chunk

/-- In seconds. -/
def conflictWindowSecs : Nat := 5

structure BlockLocation where
  hash : Hash
  index : UInt32
  nodes : List String
  lastSynced : Nat
  deriving DecidableEq

structure FileMetadata where
  name : String
  fileHash : Hash
  fileSize : UInt64
  blocks : List BlockLocation
  createdAt : Nat
  updatedAt : Nat
  sourceNode : String
  encrypted : Bool
  deriving DecidableEq

/-- `info` is the source's `meta`, which is a reserved word here. -/
structure MetadataEntry where
  info : FileMetadata
  manifest : Option FileManifest
  deriving DecidableEq

-- The laws a map needs of its keys, under one name for all modules.
instance instEquivBEqString : EquivBEq String := inferInstance
instance instLawfulHashableString : LawfulHashable String := inferInstance

structure MetadataStore where
  entries : Std.ExtHashMap String MetadataEntry

def MetadataStore.new : MetadataStore := ⟨∅⟩

/-- The entry `register` and `upsert` create. -/
def newEntry (name : String) (fileHash : Hash) (fileSize : UInt64)
    (manifest : Option FileManifest) (blocks : List BlockLocation) (sourceNode : String)
    (now : Nat) : MetadataEntry where
  info := { name, fileHash, fileSize, blocks, createdAt := now, updatedAt := now, sourceNode,
            encrypted := false }
  manifest := manifest

def MetadataStore.upsert (store : MetadataStore) (name : String) (fileHash : Hash)
    (fileSize : UInt64) (manifest : Option FileManifest) (blocks : List BlockLocation)
    (sourceNode : String) (now : Nat) : MetadataStore :=
  ⟨store.entries.insert name (newEntry name fileHash fileSize manifest blocks sourceNode now)⟩

/-- The errors of the operations on one file; a failed save is ignored. -/
inductive MetadataError where
  | alreadyExists (name : String)
  | notFound (name : String)
  deriving DecidableEq

def MetadataStore.register (store : MetadataStore) (name : String) (fileHash : Hash)
    (fileSize : UInt64) (manifest : Option FileManifest) (blocks : List BlockLocation)
    (sourceNode : String) (now : Nat) : Except MetadataError MetadataStore :=
  if store.entries.contains name then .error (.alreadyExists name)
  else .ok ⟨store.entries.insert name
    (newEntry name fileHash fileSize manifest blocks sourceNode now)⟩

def MetadataStore.query (store : MetadataStore) (name : String) : Option MetadataEntry :=
  store.entries[name]?

/-- The node of a block is recorded in the first block with its index. A block
that is not listed gets an unknown hash, which is all zeros. -/
def addNode (blockIndex : UInt32) (node : String) (now : Nat) :
    List BlockLocation → List BlockLocation
  | [] => [⟨List.Vector.replicate 32 0, blockIndex, [node], now⟩]
  | b :: rest =>
    if b.index = blockIndex then
      { b with nodes := if node ∈ b.nodes then b.nodes else b.nodes ++ [node],
               lastSynced := now } :: rest
    else b :: addNode blockIndex node now rest

def MetadataStore.addBlockNode (store : MetadataStore) (name : String) (blockIndex : UInt32)
    (node : String) (now : Nat) : Except MetadataError MetadataStore :=
  match store.entries[name]? with
  | none => .error (.notFound name)
  | some entry =>
    .ok ⟨store.entries.insert name
      { entry with info.blocks := addNode blockIndex node now entry.info.blocks,
                   info.updatedAt := now }⟩

def MetadataStore.removeFile (store : MetadataStore) (name : String) :
    Except MetadataError MetadataStore :=
  if store.entries.contains name then .ok ⟨store.entries.erase name⟩ else .error (.notFound name)

/-- The names `listFiles` returns, in the order of its hash table. -/
structure MetadataStore.ListFiles (store : MetadataStore) (names : List String) : Prop where
  distinct : names.Nodup
  present : ∀ name, name ∈ names ↔ store.entries.contains name

/-- The list `allEntries` returns, in the order of its hash table. -/
structure AllEntries (store : MetadataStore) (listed : List MetadataEntry) : Prop where
  distinct : (listed.map fun e => e.info.name).Nodup
  present : ∀ e ∈ listed, store.entries[e.info.name]? = some e
  whole : listed.length = store.entries.size

instance (store : MetadataStore) (listed : List MetadataEntry) :
    Decidable (AllEntries store listed) :=
  decidable_of_iff ((listed.map fun e => e.info.name).Nodup ∧
      (∀ e ∈ listed, store.entries[e.info.name]? = some e) ∧
      listed.length = store.entries.size)
    ⟨fun ⟨distinct, present, whole⟩ => ⟨distinct, present, whole⟩,
      fun all => ⟨all.distinct, all.present, all.whole⟩⟩

/-- Whether a remote version wins, by its time and, within the conflict window,
by its hash. -/
def wins (localTime remoteTime : Nat) (localHash remoteHash : UInt64) : Bool :=
  if localTime + conflictWindowSecs < remoteTime then true
  else if remoteTime + conflictWindowSecs < localTime then false
  else localHash < remoteHash

section
variable (hasher : String → Hash → UInt64)

def hashEntry (entry : MetadataEntry) : UInt64 := hasher entry.info.name entry.info.fileHash

def shouldMerge (here remote : MetadataEntry) : Bool :=
  wins here.info.updatedAt remote.info.updatedAt (hashEntry hasher here) (hashEntry hasher remote)

/-- A merged entry keeps its content and takes the time of the merge. -/
def restamp (entry : MetadataEntry) (now : Nat) : MetadataEntry :=
  { entry with info.updatedAt := now }

def merges (store : MetadataStore) (remote : MetadataEntry) : Bool :=
  match store.entries[remote.info.name]? with
  | some here => shouldMerge hasher here remote
  | none => true

/-- One round of the merging loop: the store and the number of merged entries. -/
def mergeEntry (now : Nat) (acc : MetadataStore × Nat) (remote : MetadataEntry) :
    MetadataStore × Nat :=
  if merges hasher acc.1 remote then
    (⟨acc.1.entries.insert remote.info.name (restamp remote now)⟩, acc.2 + 1)
  else acc

def MetadataStore.syncFrom (store : MetadataStore) (remote : List MetadataEntry) (now : Nat) :
    MetadataStore × Nat :=
  remote.foldl (mergeEntry hasher now) (store, 0)

/-- Any number of stores under one clock, with the entries created so far. -/
structure Fleet (ι : Type) where
  stores : ι → MetadataStore
  clock : Nat
  created : List MetadataEntry

def Fleet.start (ι : Type) (now : Nat) : Fleet ι := ⟨fun _ => .new, now, []⟩

inductive Action (ι : Type) where
  | upsert (store : ι) (name : String) (fileHash : Hash) (fileSize : UInt64)
      (manifest : Option FileManifest) (blocks : List BlockLocation) (sourceNode : String)
      (now : Nat)
  | sync (store other : ι) (listed : List MetadataEntry) (now : Nat)

variable {ι : Type} [DecidableEq ι]

def Fleet.step (s : Fleet ι) : Action ι → Option (Fleet ι)
  | .upsert i name fileHash fileSize manifest blocks sourceNode now =>
    if s.clock ≤ now then
      let store := (s.stores i).upsert name fileHash fileSize manifest blocks sourceNode now
      some { stores := Function.update s.stores i store, clock := now,
             created := s.created ++
               [newEntry name fileHash fileSize manifest blocks sourceNode now] }
    else none
  | .sync i j listed now =>
    if s.clock ≤ now ∧ AllEntries (s.stores j) listed then
      some { s with stores := Function.update s.stores i
                      ((s.stores i).syncFrom hasher listed now).1, clock := now }
    else none

end

/-- The content of an entry, as it was created. -/
def MetadataEntry.content (e : MetadataEntry) : Hash × List BlockLocation × Option FileManifest :=
  (e.info.fileHash, e.info.blocks, e.manifest)

theorem mergeEntry_other {hasher : String → Hash → UInt64} {acc : MetadataStore × Nat}
    {remote : MetadataEntry} {name : String} (other : name ≠ remote.info.name) :
    (mergeEntry hasher now acc remote).1.entries[name]? = acc.1.entries[name]? := by
  have apart : ¬ remote.info.name = name := fun same => other same.symm
  rw [mergeEntry]
  split
  · simp [Std.ExtHashMap.getElem?_insert, apart]
  · rfl

theorem mergeEntry_own (hasher : String → Hash → UInt64) (now : Nat) (acc : MetadataStore × Nat)
    (remote : MetadataEntry) :
    (mergeEntry hasher now acc remote).1.entries[remote.info.name]? =
        acc.1.entries[remote.info.name]? ∨
      (mergeEntry hasher now acc remote).1.entries[remote.info.name]? =
        some (restamp remote now) ∧
      ∀ here, acc.1.entries[remote.info.name]? = some here → shouldMerge hasher here remote := by
  rw [mergeEntry]
  split
  · rename_i merged
    refine Or.inr ⟨by simp, ?_⟩
    intro here found
    simpa only [merges, found] using merged
  · exact Or.inl rfl

/-- A synchronization leaves an entry as it was or replaces it by an offered
one that won the comparison with it. -/
theorem mergeEntries_entry (hasher : String → Hash → UInt64) (now : Nat)
    (acc : MetadataStore × Nat) {listed : List MetadataEntry}
    (distinct : (listed.map fun e => e.info.name).Nodup) (name : String) :
    (listed.foldl (mergeEntry hasher now) acc).1.entries[name]? = acc.1.entries[name]? ∨
      ∃ remote ∈ listed, remote.info.name = name ∧
        (listed.foldl (mergeEntry hasher now) acc).1.entries[name]? = some (restamp remote now) ∧
        ∀ here, acc.1.entries[name]? = some here → shouldMerge hasher here remote := by
  induction listed generalizing acc with
  | nil => exact Or.inl rfl
  | cons remote rest ih =>
    simp only [List.map_cons, List.nodup_cons] at distinct
    have tail := ih (mergeEntry hasher now acc remote) distinct.2
    rw [List.foldl_cons]
    by_cases own : name = remote.info.name
    · subst own
      -- the names behind the first entry are different ones
      have kept : (rest.foldl (mergeEntry hasher now)
          (mergeEntry hasher now acc remote)).1.entries[remote.info.name]? =
          (mergeEntry hasher now acc remote).1.entries[remote.info.name]? := by
        rcases tail with same | ⟨later, member, same, _⟩
        · exact same
        · exact absurd (List.mem_map.mpr ⟨later, member, same⟩) distinct.1
      rw [kept]
      rcases mergeEntry_own hasher now acc remote with same | ⟨merged, better⟩
      · exact Or.inl same
      · exact Or.inr ⟨remote, by simp, rfl, merged, better⟩
    · rw [mergeEntry_other own] at tail
      exact tail.imp_right fun ⟨later, member, rest⟩ => ⟨later, by simp [member], rest⟩

/-- A version that wins is at most the conflict window older than the other. -/
theorem wins_recent (won : wins localTime remoteTime localHash remoteHash) :
    localTime ≤ remoteTime + conflictWindowSecs := by
  rw [wins] at won
  split at won
  · omega
  · split at won
    · cases won
    · omega

section
variable {ι : Type} [DecidableEq ι] (hasher : String → Hash → UInt64)

/-- Content is replaced through a synchronization only by content that was
created at most the conflict window before it. -/
def KeepsRecent (s : Fleet ι) : Action ι → Prop
  | .sync i j listed now => ∀ t, s.step hasher (.sync i j listed now) = some t →
      ∀ (name : String) (old new : MetadataEntry), (s.stores i).entries[name]? = some old →
        (t.stores i).entries[name]? = some new → new.content ≠ old.content →
        old.info.createdAt ≤ new.info.createdAt + conflictWindowSecs
  | .upsert _ _ _ _ _ _ _ _ => True

/-- An offered entry that wins by its last update, which is the time of its
last synchronization, also wins by the time it was created. -/
def Undistorted (s : Fleet ι) : Action ι → Prop
  | .sync i _ listed _ => ∀ remote ∈ listed, ∀ here : MetadataEntry,
      (s.stores i).entries[remote.info.name]? = some here → shouldMerge hasher here remote →
      wins here.info.updatedAt remote.info.createdAt (hashEntry hasher here)
        (hashEntry hasher remote)
  | .upsert _ _ _ _ _ _ _ _ => True

/-- Every entry is one that was created, with a later time of update. -/
def Created (s : Fleet ι) : Prop :=
  ∀ (i : ι) (name : String) (e : MetadataEntry), (s.stores i).entries[name]? = some e →
    e.info.createdAt ≤ e.info.updatedAt ∧
    e.info.updatedAt ≤ s.clock ∧
    ∃ first ∈ s.created, first.info.updatedAt = first.info.createdAt ∧
      e = restamp first e.info.updatedAt

variable {hasher} {s t : Fleet ι} {action : Action ι}

theorem step_created (created : Created s) (stepped : s.step hasher action = some t) :
    Created t := by
  cases action with
  | upsert i name fileHash fileSize manifest blocks sourceNode now =>
    simp only [Fleet.step, Option.ite_none_right_eq_some, Option.some.injEq] at stepped
    obtain ⟨later, rfl⟩ := stepped
    have grown : Created (ι := ι) { s with clock := now, created := s.created ++
        [newEntry name fileHash fileSize manifest blocks sourceNode now] } := by
      intro j other e found
      obtain ⟨order, past, first, member, rest⟩ := created j other e found
      exact ⟨order, past.trans later, first, List.mem_append_left _ member, rest⟩
    intro j other e found
    by_cases own : j = i
    · subst own
      simp only [Function.update_self, MetadataStore.upsert,
        Std.ExtHashMap.getElem?_insert] at found
      split at found
      · cases found
        exact ⟨Nat.le_refl _, Nat.le_refl _, _,
          List.mem_append_right _ (List.mem_singleton.mpr rfl), rfl, rfl⟩
      · exact grown j other e found
    · simp only [Function.update_of_ne own] at found
      exact grown j other e found
  | sync i j listed now =>
    simp only [Fleet.step, Option.ite_none_right_eq_some, Option.some.injEq] at stepped
    obtain ⟨⟨later, all⟩, rfl⟩ := stepped
    have grown : Created (ι := ι) { s with clock := now } := by
      intro k name e found
      obtain ⟨order, past, rest⟩ := created k name e found
      exact ⟨order, past.trans later, rest⟩
    intro k name e found
    by_cases own : k = i
    · subst own
      simp only [Function.update_self, MetadataStore.syncFrom] at found
      rcases mergeEntries_entry hasher now (s.stores k, 0) all.distinct name with
        same | ⟨remote, member, _, merged, _⟩
      · rw [same] at found
        exact grown k name e found
      · rw [merged] at found
        cases found
        obtain ⟨order, past, first, known, fresh, same⟩ :=
          created j _ remote (all.present remote member)
        refine ⟨order.trans (past.trans later), Nat.le_refl _, first, known, fresh, ?_⟩
        rw [same]
        rfl
    · simp only [Function.update_of_ne own] at found
      exact grown k name e found

/-- A replaced entry was not created long after the one that replaces it. -/
theorem step_keepsRecent (created : Created s) (undistorted : Undistorted hasher s action) :
    KeepsRecent hasher s action := by
  cases action with
  | upsert => trivial
  | sync i j listed now =>
    intro t stepped name old new before after changed
    simp only [Fleet.step, Option.ite_none_right_eq_some, Option.some.injEq] at stepped
    obtain ⟨⟨_, all⟩, rfl⟩ := stepped
    simp only [Function.update_self, MetadataStore.syncFrom] at after
    rcases mergeEntries_entry hasher now (s.stores i, 0) all.distinct name with
      same | ⟨remote, member, rfl, merged, better⟩
    · rw [same, before] at after
      cases after
      exact absurd rfl changed
    · rw [merged] at after
      cases after
      have won := undistorted remote member old before (better old before)
      exact ((created i _ old before).1).trans (wins_recent won)

end

theorem start_created (ι : Type) (now : Nat) : Created (Fleet.start ι now) := by
  intro i name e found
  simp [Fleet.start, MetadataStore.new] at found

/-- No update is lost through synchronization in a run where re-stamping never
decides: every content goes back to the upsert that created it, and is only
replaced by content created at most five seconds earlier. -/
theorem sync_keeps_recent {ι : Type} [DecidableEq ι] (hasher : String → Hash → UInt64) (now : Nat)
    (actions : List (Action ι)) (s : Fleet ι)
    (run : Runs.exec (Fleet.step hasher) (Fleet.start ι now) actions = some s)
    (undistorted : Runs.Meets (Fleet.step hasher) (Undistorted hasher) (Fleet.start ι now)
      actions) :
    Created s ∧
      Runs.Meets (Fleet.step hasher) (KeepsRecent hasher) (Fleet.start ι now) actions :=
  ⟨Runs.invariant step_created run (start_created ι now),
    Runs.meets_mono step_created step_keepsRecent undistorted (start_created ι now)⟩

def single (e : MetadataEntry) : MetadataStore := ⟨(∅ : Std.ExtHashMap _ _).insert e.info.name e⟩

theorem single_entry (e : MetadataEntry) : (single e).entries[e.info.name]? = some e := by
  simp [single]

theorem single_allEntries (e : MetadataEntry) : AllEntries (single e) [e] := by
  constructor <;> simp [single, Std.ExtHashMap.size_insert]

theorem Fleet.step_sync {ι : Type} [DecidableEq ι] (hasher : String → Hash → UInt64) (s : Fleet ι)
    (i j : ι) (listed : List MetadataEntry) (later : s.clock ≤ now)
    (all : AllEntries (s.stores j) listed) :
    s.step hasher (.sync i j listed now) =
      some { s with stores := Function.update s.stores i
                      ((s.stores i).syncFrom hasher listed now).1, clock := now } :=
  if_pos ⟨later, all⟩

theorem syncFrom_new (hasher : String → Hash → UInt64) (e : MetadataEntry) (now : Nat) :
    (MetadataStore.new.syncFrom hasher [e] now).1 = single (restamp e now) := by
  simp [MetadataStore.syncFrom, MetadataStore.new, mergeEntry, merges, single, restamp]

theorem syncFrom_single (hasher : String → Hash → UInt64) (here remote : MetadataEntry)
    (same : remote.info.name = here.info.name)
    (better : shouldMerge hasher here remote) (now : Nat) :
    ((single here).syncFrom hasher [remote] now).1.entries[here.info.name]? =
      some (restamp remote now) := by
  simp [MetadataStore.syncFrom, mergeEntry, merges, single, same, better]

def olderEntry : MetadataEntry := newEntry "report" (List.Vector.replicate 32 1) 10 none [] "a" 0
def newerEntry : MetadataEntry := newEntry "report" (List.Vector.replicate 32 2) 12 none [] "b" 10

/-- Two stores create the same name, ten seconds apart. -/
def twoUpserts : List (Action (Fin 3)) :=
  [.upsert 0 "report" (List.Vector.replicate 32 1) 10 none [] "a" 0,
    .upsert 1 "report" (List.Vector.replicate 32 2) 12 none [] "b" 10]

theorem twoUpserts_run (hasher : String → Hash → UInt64) : ∃ s,
    Runs.exec (Fleet.step hasher) (Fleet.start (Fin 3) 0) twoUpserts = some s ∧ s.clock = 10 ∧
    s.stores 0 = single olderEntry ∧ s.stores 1 = single newerEntry ∧ s.stores 2 = .new :=
  ⟨_, rfl, rfl, rfl, rfl, rfl⟩

/-- The store with the older content takes the newer one. -/
def directSync : List (Action (Fin 3)) := twoUpserts ++ [.sync 0 1 [newerEntry] 12]

theorem sync_keeps_recent_direct :
    Runs.Meets (Fleet.step fun _ _ => 0) (KeepsRecent fun _ _ => 0) (Fleet.start (Fin 3) 0)
      directSync := by
  obtain ⟨s, run, clock, older, newer, -⟩ := twoUpserts_run fun _ _ => 0
  have synced := Fleet.step_sync (fun _ _ => 0) s 0 1 _ (show s.clock ≤ 12 by rw [clock]; decide)
    (newer ▸ single_allEntries newerEntry)
  refine (sync_keeps_recent (fun _ _ => 0) 0 directSync _ (Runs.exec_append.mpr
    ⟨s, run, Runs.exec_cons.mpr ⟨_, synced, rfl⟩⟩) ?_).2
  refine (Runs.meets_append run).mpr ⟨⟨trivial, fun _ _ => ⟨trivial, fun _ _ => trivial⟩⟩, ?_,
    fun _ _ => trivial⟩
  intro remote member here found _
  cases List.mem_singleton.mp member
  rw [older] at found
  cases Option.some.inj ((single_entry olderEntry).symm.trans found)
  decide

/-- The older content reaches a third store, which offers it under a new time. -/
def relayedSync : List (Action (Fin 3)) :=
  twoUpserts ++ [.sync 2 0 [olderEntry] 20, .sync 1 2 [restamp olderEntry 20] 21]

theorem newer_content_lost : ∃ s,
    Runs.exec (Fleet.step fun _ _ => 0) (Fleet.start (Fin 3) 0) relayedSync = some s ∧
    ¬ Runs.Meets (Fleet.step fun _ _ => 0) (KeepsRecent fun _ _ => 0) (Fleet.start (Fin 3) 0)
      relayedSync := by
  obtain ⟨s, run, clock, older, newer, empty⟩ := twoUpserts_run fun _ _ => 0
  have first := Fleet.step_sync (fun _ _ => 0) s 2 0 _ (show s.clock ≤ 20 by rw [clock]; decide)
    (older ▸ single_allEntries olderEntry)
  rw [empty, syncFrom_new] at first
  have second := Fleet.step_sync (fun _ _ => 0)
    { s with stores := Function.update s.stores 2 (single (restamp olderEntry 20)), clock := 20 }
    1 2 [restamp olderEntry 20] (show 20 ≤ 21 by decide)
    (by simpa using single_allEntries (restamp olderEntry 20))
  refine ⟨_, Runs.exec_append.mpr ⟨s, run, Runs.exec_cons.mpr ⟨_, first, Runs.exec_cons.mpr
    ⟨_, second, rfl⟩⟩⟩, fun meets => ?_⟩
  have last := (((Runs.meets_append run).mp meets).2.2 _ first).1 _ second "report" newerEntry
    (restamp (restamp olderEntry 20) 21)
  simp only [Function.update_self, Function.update_of_ne (show (1 : Fin 3) ≠ 2 by decide),
    newer] at last
  have lost := last (single_entry newerEntry) (syncFrom_single (fun _ _ => 0) newerEntry
    (restamp olderEntry 20) rfl (by decide) 21) (by decide)
  exact absurd lost (by decide)

end LanLink.Metadata
