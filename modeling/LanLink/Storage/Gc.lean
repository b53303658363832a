import Mathlib.Data.Finset.Card
import LanLink.Storage.Metadata
import LanLink.Storage.Version

/-! Garbage collection: the blocks the metadata store knows and no version
refers to. A hash set is the list of its elements; the sizes wrap, as in a
release build, and only the estimates depend on them. -/
namespace LanLink.Gc
open LanLink.Chunk LanLink.Metadata LanLink.Version

/-- What a loop adds to a set that it passes on. -/
theorem mem_foldl_set {α β : Type} {f : List α → β → List α} {added : β → α → Prop}
    (adds : ∀ set b x, x ∈ f set b ↔ x ∈ set ∨ added b x) (items : List β) (set : List α) (x : α) :
    x ∈ items.foldl f set ↔ x ∈ set ∨ ∃ b ∈ items, added b x := by
  induction items generalizing set with
  | nil => simp
  | cons b rest ih =>
    rw [List.foldl_cons, ih, adds]
    simp only [List.mem_cons, exists_eq_or_imp, or_assoc]

theorem nodup_foldl_set {α β : Type} {f : List α → β → List α}
    (keeps : ∀ set b, set.Nodup → (f set b).Nodup) (items : List β) {set : List α}
    (distinct : set.Nodup) : (items.foldl f set).Nodup := by
  induction items generalizing set with
  | nil => exact distinct
  | cons b rest ih => exact ih (keeps set b distinct)

structure CollectResult where
  unreferencedCount : Nat
  reclaimableBytes : UInt64
  unreferencedHashes : List Hash
  deriving DecidableEq

def referVersion (referenced : List Hash) (version : VersionEntry) : List Hash :=
  version.manifest.chunks.foldl (fun set chunk => set.insert chunk.hash) referenced

def referFile (m : VersionManager) (referenced : List Hash) (fileName : String) : List Hash :=
  (m.listVersions fileName).foldl referVersion referenced

def collectReferencedBlocks (m : VersionManager) : List Hash :=
  m.listFiles.foldl (referFile m) []

def recordFile (store : MetadataStore) (blocks : List Hash) (name : String) : List Hash :=
  match store.query name with
  | some entry => entry.info.blocks.foldl (fun set block => set.insert block.hash) blocks
  | none => blocks

/-- `names` is what the store lists. -/
def collectAllMetadataBlocks (store : MetadataStore) (names : List String) : List Hash :=
  names.foldl (recordFile store) []

/-- The total size and the number of blocks of the files that have blocks. -/
def addSizes (store : MetadataStore) (total : UInt64 × UInt64) (name : String) : UInt64 × UInt64 :=
  match store.query name with
  | some entry =>
    let blockCount := UInt64.ofNat entry.info.blocks.length
    if 0 < blockCount then (total.1 + entry.info.fileSize, total.2 + blockCount) else total
  | none => total

def estimateAverageBlockSize (store : MetadataStore) (names : List String) : UInt64 :=
  let (totalSize, totalBlocks) := names.foldl (addSizes store) (0, 0)
  if totalBlocks = 0 then 4 * 1024 * 1024 else totalSize / totalBlocks

def collect (m : VersionManager) (store : MetadataStore) (names : List String) : CollectResult :=
  let referenced := collectReferencedBlocks m
  let allBlocks := collectAllMetadataBlocks store names
  let unreferenced := allBlocks.filter (· ∉ referenced)
  let avgBlockSize :=
    if allBlocks.isEmpty then 4 * 1024 * 1024 else estimateAverageBlockSize store names
  { unreferencedCount := unreferenced.length
    reclaimableBytes := UInt64.ofNat unreferenced.length * avgBlockSize
    unreferencedHashes := unreferenced }

structure StorageStats where
  totalFiles : Nat
  totalBlocks : Nat
  totalBytes : UInt64
  versionedFiles : Nat
  totalVersions : Nat
  referencedBlocks : Nat
  unreferencedBlocks : Nat
  reclaimableBytes : UInt64
  deriving DecidableEq

/-- The number of blocks and bytes of the files. -/
def addUsage (store : MetadataStore) (total : Nat × UInt64) (name : String) : Nat × UInt64 :=
  match store.query name with
  | some entry => (total.1 + entry.info.blocks.length, total.2 + entry.info.fileSize)
  | none => total

/-- The unreferenced blocks are counted as the difference of two sizes. -/
def storageStats (m : VersionManager) (store : MetadataStore) (names : List String) :
    StorageStats :=
  let usage := names.foldl (addUsage store) (0, 0)
  let referenced := collectReferencedBlocks m
  let allBlocks := collectAllMetadataBlocks store names
  let unreferencedBlocks := allBlocks.length - referenced.length
  let avgBlockSize := if allBlocks.isEmpty then 0 else estimateAverageBlockSize store names
  { totalFiles := names.length
    totalBlocks := usage.1
    totalBytes := usage.2
    versionedFiles := m.listFiles.length
    totalVersions := m.store.totalVersions
    referencedBlocks := referenced.length
    unreferencedBlocks := unreferencedBlocks
    reclaimableBytes := UInt64.ofNat unreferencedBlocks * avgBlockSize }

/-- The hash of a block the store has recorded for some file. -/
def Recorded (store : MetadataStore) (hash : Hash) : Prop :=
  ∃ name entry, store.query name = some entry ∧ ∃ block ∈ entry.info.blocks, block.hash = hash

/-- The hash of a chunk of a retained version. -/
def Retained (m : VersionManager) (hash : Hash) : Prop :=
  ∃ fileName, ∃ version ∈ m.listVersions fileName, ∃ chunk ∈ version.manifest.chunks,
    chunk.hash = hash

/-- The two stores of a node. -/
structure Stores where
  versions : System
  metadata : MetadataStore

def Stores.start (now : Nat) : Stores := ⟨.start now, .new⟩

inductive Action where
  | createSnapshot (fileName : String) (manifest : FileManifest) ( annotation : String) (now : Nat)
      (written : Bool)
  | pruneVersions (fileName : String) (maxVersions : Nat)
  | pruneAllVersions (maxVersions : Nat)
  | removeVersions (fileName : String) (written : Bool)
  | register (name : String) (fileHash : Hash) (fileSize : UInt64)
      (manifest : Option FileManifest) (blocks : List BlockLocation) (sourceNode : String)
      (now : Nat)
  | upsert (name : String) (fileHash : Hash) (fileSize : UInt64)
      (manifest : Option FileManifest) (blocks : List BlockLocation) (sourceNode : String)
      (now : Nat)
  | addBlockNode (name : String) (blockIndex : UInt32) (node : String) (now : Nat)
  | removeFile (name : String)

def Stores.version (s : Stores) (action : Version.Action) : Option Stores :=
  (s.versions.step action).map fun versions => { s with versions }

/-- A failed operation leaves the store as it was. -/
def Stores.update (s : Stores) (result : Except MetadataError MetadataStore) : Option Stores :=
  match result with
  | .ok metadata => some { s with metadata }
  | .error _ => some s

def Stores.step (s : Stores) : Action → Option Stores
  | .createSnapshot fileName manifest annotation now written =>
    s.version (.createSnapshot fileName manifest annotation now written)
  | .pruneVersions fileName maxVersions => s.version (.pruneVersions fileName maxVersions)
  | .pruneAllVersions maxVersions => s.version (.pruneAllVersions maxVersions)
  | .removeVersions fileName written => s.version (.removeFile fileName written)
  | .register name fileHash fileSize manifest blocks sourceNode now =>
    s.update (s.metadata.register name fileHash fileSize manifest blocks sourceNode now)
  | .upsert name fileHash fileSize manifest blocks sourceNode now =>
    s.update (.ok (s.metadata.upsert name fileHash fileSize manifest blocks sourceNode now))
  | .addBlockNode name blockIndex node now =>
    s.update (s.metadata.addBlockNode name blockIndex node now)
  | .removeFile name => s.update (s.metadata.removeFile name)

/-- What a collection is to return: once each, the recorded hashes that no
retained version needs. -/
structure Exact (s : Stores) (result : CollectResult) : Prop where
  distinct : result.unreferencedHashes.Nodup
  listed : ∀ hash, hash ∈ result.unreferencedHashes ↔
    Recorded s.metadata hash ∧ ¬ Retained s.versions.manager hash
  counted : result.unreferencedCount = result.unreferencedHashes.length
  restored : ∀ fileName versionId manifest,
    s.versions.manager.restoreVersion fileName versionId = .ok manifest →
    ∀ chunk ∈ manifest.chunks, chunk.hash ∉ result.unreferencedHashes
  kept : ∀ k ∈ s.versions.kept, ∀ chunk ∈ k.2.manifest.chunks,
    chunk.hash ∉ result.unreferencedHashes

theorem mem_referVersion (referenced : List Hash) (version : VersionEntry) (hash : Hash) :
    hash ∈ referVersion referenced version ↔
      hash ∈ referenced ∨ ∃ chunk ∈ version.manifest.chunks, chunk.hash = hash := by
  have adds (set : List Hash) (chunk : ChunkMeta) (hash : Hash) :
      hash ∈ set.insert chunk.hash ↔ hash ∈ set ∨ chunk.hash = hash := by
    rw [List.mem_insert_iff, or_comm, eq_comm]
  exact mem_foldl_set adds _ _ _

theorem mem_referFile (m : VersionManager) (referenced : List Hash) (fileName : String)
    (hash : Hash) :
    hash ∈ referFile m referenced fileName ↔ hash ∈ referenced ∨
      ∃ version ∈ m.listVersions fileName, ∃ chunk ∈ version.manifest.chunks, chunk.hash = hash :=
  mem_foldl_set mem_referVersion _ _ _

/-- A file with a version is one of the listed files. -/
theorem mem_listFiles {m : VersionManager} (member : version ∈ m.listVersions fileName) :
    fileName ∈ m.listFiles := by
  by_contra missing
  have absent : m.store.get fileName = none := by
    refine List.find?_eq_none.mpr fun fv known => ?_
    simp only [decide_eq_true_eq]
    rintro rfl
    exact missing (List.mem_map_of_mem known)
  simp [VersionManager.listVersions, VersionStore.versions, absent] at member

theorem mem_collectReferencedBlocks (m : VersionManager) (hash : Hash) :
    hash ∈ collectReferencedBlocks m ↔ Retained m hash := by
  rw [collectReferencedBlocks, Retained]
  rw [mem_foldl_set (mem_referFile m)]
  constructor
  · rintro (none | ⟨fileName, _, found⟩)
    · simp at none
    · exact ⟨fileName, found⟩
  · rintro ⟨fileName, version, member, found⟩
    exact Or.inr ⟨fileName, mem_listFiles member, version, member, found⟩

theorem mem_recordFile (store : MetadataStore) (blocks : List Hash) (name : String) (hash : Hash) :
    hash ∈ recordFile store blocks name ↔ hash ∈ blocks ∨
      ∃ entry, store.query name = some entry ∧ ∃ block ∈ entry.info.blocks, block.hash = hash := by
  rw [recordFile]
  split
  · rename_i entry known
    simp only [known, Option.some.injEq, exists_eq_left']
    have adds (set : List Hash) (block : BlockLocation) (hash : Hash) :
        hash ∈ set.insert block.hash ↔ hash ∈ set ∨ block.hash = hash := by
      rw [List.mem_insert_iff, or_comm, eq_comm]
    exact mem_foldl_set adds _ _ _
  · rename_i missing
    simp [missing]

theorem mem_collectAllMetadataBlocks {store : MetadataStore} (listed : store.ListFiles names)
    (hash : Hash) : hash ∈ collectAllMetadataBlocks store names ↔ Recorded store hash := by
  rw [collectAllMetadataBlocks, Recorded]
  rw [mem_foldl_set (mem_recordFile store)]
  constructor
  · rintro (none | ⟨name, _, found⟩)
    · simp at none
    · exact ⟨name, found⟩
  · rintro ⟨name, entry, known, found⟩
    refine Or.inr ⟨name, (listed.present name).mpr ?_, entry, known, found⟩
    rw [MetadataStore.query] at known
    rw [Std.ExtHashMap.contains_eq_isSome_getElem?, known, Option.isSome_some]

theorem nodup_collectAllMetadataBlocks (store : MetadataStore) (names : List String) :
    (collectAllMetadataBlocks store names).Nodup := by
  refine nodup_foldl_set ?_ names List.nodup_nil
  intro set name distinct
  rw [recordFile]
  split
  · exact nodup_foldl_set (fun set block => List.Nodup.insert) _ distinct
  · exact distinct

theorem mem_collect (m : VersionManager) {store : MetadataStore} (listed : store.ListFiles names)
    (hash : Hash) : hash ∈ (collect m store names).unreferencedHashes ↔
      Recorded store hash ∧ ¬ Retained m hash := by
  simp only [collect, List.mem_filter, decide_eq_true_eq, mem_collectReferencedBlocks,
    mem_collectAllMetadataBlocks listed]

/-- Restoring a version reads it from the retained ones. -/
theorem retained_of_restore {m : VersionManager} {fileName id : String} {manifest : FileManifest}
    (restored : m.restoreVersion fileName id = .ok manifest) (member : chunk ∈ manifest.chunks) :
    Retained m chunk.hash := by
  rw [VersionManager.restoreVersion] at restored
  split at restored
  · rename_i version found
    cases restored
    rw [VersionManager.getVersion_eq] at found
    exact ⟨fileName, version, List.mem_of_find?_eq_some found, chunk, member, rfl⟩
  · cases restored

theorem save_present {s : System} (present : Present s.manager s.kept) (written : Bool) :
    Present (s.save written).manager (s.save written).kept := by
  rw [System.save]
  split
  · exact present
  · exact present

theorem pruned_present {s : System} {manager : VersionManager} (present : Present manager kept)
    (count : Nat) :
    Present (s.pruned manager count kept).manager (s.pruned manager count kept).kept := by
  rw [System.pruned]
  split
  · exact present
  · exact present

/-- Within the life of a process no returned snapshot is lost. -/
theorem step_present {s t : System} (present : Present s.manager s.kept)
    (running : action ≠ .loadFromFile) (stepped : s.step action = some t) :
    Present t.manager t.kept := by
  cases action with
  | createSnapshot fileName manifest annotation now written =>
    simp only [System.step, Option.ite_none_right_eq_some] at stepped
    obtain ⟨-, stepped⟩ := stepped
    have inserted := present.inserted fileName (s.manager.entry manifest annotation now)
    split at stepped
    · cases stepped
      exact inserted
    · cases stepped
      refine save_present (inserted.returned ?_) written
      rw [VersionManager.listVersions_insert, if_pos rfl]
      exact List.mem_cons_self
  | pruneVersions fileName maxVersions =>
    simp only [System.step] at stepped
    split at stepped
    · rename_i pruned
      cases stepped
      refine pruned_present (present.pruned ?_) _
      intro other
      simp [VersionManager.listVersions_prune pruned]
    · cases stepped
      exact present
  | pruneAllVersions maxVersions =>
    cases stepped
    refine pruned_present (present.pruned ?_) _
    intro other
    exact VersionStore.versions_pruneAll s.manager.store maxVersions other
  | removeFile fileName written =>
    simp only [System.step] at stepped
    split at stepped
    · split at stepped
      · cases stepped
        exact present.removed fileName
      · cases stepped
        exact save_present (present.removed fileName) written
    · cases stepped
      exact present
  | save written =>
    cases stepped
    exact save_present present written
  | loadFromFile => exact absurd rfl running

def KeptPresent (s : Stores) : Prop := Present s.versions.manager s.versions.kept

theorem version_keptPresent {s t : Stores} (present : KeptPresent s) (running : action ≠ .loadFromFile)
    (stepped : s.version action = some t) : KeptPresent t := by
  obtain ⟨versions, moved, rfl⟩ := Option.map_eq_some_iff.mp stepped
  exact step_present present running moved

theorem update_keptPresent {s t : Stores} (present : KeptPresent s)
    (stepped : s.update result = some t) : KeptPresent t := by
  unfold Stores.update at stepped
  split at stepped
  · cases stepped
    exact present
  · cases stepped
    exact present

theorem step_keptPresent {s t : Stores} (present : KeptPresent s)
    (stepped : s.step action = some t) : KeptPresent t := by
  cases action with
  | createSnapshot | pruneVersions | pruneAllVersions | removeVersions =>
    simp only [Stores.step] at stepped
    exact version_keptPresent present (by simp) stepped
  | register | upsert | addBlockNode | removeFile =>
    simp only [Stores.step] at stepped
    exact update_keptPresent present stepped

/-- In every state that a run of the two stores reaches, a collection returns
the recorded hashes of no retained version. -/
theorem collect_exact (now : Nat) (actions : List Action) (s : Stores)
    (run : Runs.exec Stores.step (Stores.start now) actions = some s) (names : List String)
    (listed : s.metadata.ListFiles names) :
    Exact s (collect s.versions.manager s.metadata names) where
  distinct := (nodup_collectAllMetadataBlocks _ _).filter _
  listed := mem_collect _ listed
  counted := rfl
  restored := by
    intro fileName id manifest restored chunk member unreferenced
    exact ((mem_collect _ listed _).mp unreferenced).2 (retained_of_restore restored member)
  kept := by
    intro k returned chunk member unreferenced
    have present : KeptPresent s :=
      Runs.invariant step_keptPresent run (fun _ none => nomatch none)
    exact ((mem_collect _ listed _).mp unreferenced).2
      ⟨k.1, k.2, present k returned, chunk, member, rfl⟩

def blockOf (byte : UInt8) : BlockLocation := ⟨List.Vector.replicate 32 byte, 0, ["local"], 0⟩

/-- A file of two blocks, one of which a snapshot keeps. -/
def oneKept : List Action :=
  [.register "report" (List.Vector.replicate 32 0) 2 none [blockOf 1, blockOf 2] "local" 0,
    .createSnapshot "report"
      { emptyManifest 1 with chunks := [⟨List.Vector.replicate 32 1, 0, 0, 1⟩] } "backup" 0 true]

/-- The stores after a file was registered and a snapshot of it taken. -/
theorem run_registered (blocks : List BlockLocation) (manifest : FileManifest) :
    ∃ s, Runs.exec Stores.step (Stores.start 0)
        [.register "report" (List.Vector.replicate 32 0) 2 none blocks "local" 0,
          .createSnapshot "report" manifest "backup" 0 true] = some s ∧
      s.metadata.ListFiles ["report"] ∧
      s.metadata.query "report" =
        some (newEntry "report" (List.Vector.replicate 32 0) 2 none blocks "local" 0) ∧
      s.versions.manager = VersionManager.new.insert "report"
        (VersionManager.new.entry manifest "backup" 0) := by
  simp only [Runs.exec, Stores.step, MetadataStore.register, Stores.start,
    MetadataStore.new, Std.ExtHashMap.contains_empty, Bool.false_eq_true, if_false, Stores.update,
    Option.bind_some]
  refine ⟨_, rfl, ⟨by decide, fun name => ?_⟩, Std.ExtHashMap.getElem?_insert_self, rfl⟩
  show _ ↔ (Std.ExtHashMap.insert ∅ "report" _).contains name = true
  rw [Std.ExtHashMap.contains_insert, Std.ExtHashMap.contains_empty]
  simp only [List.mem_singleton, Bool.or_false, beq_iff_eq]
  exact eq_comm

theorem collect_exact_oneKept : ∃ s, Runs.exec Stores.step (Stores.start 0) oneKept = some s ∧
    s.metadata.ListFiles ["report"] ∧
    Exact s (collect s.versions.manager s.metadata ["report"]) := by
  obtain ⟨s, run, listed, -⟩ := run_registered [blockOf 1, blockOf 2]
    { emptyManifest 1 with chunks := [⟨List.Vector.replicate 32 1, 0, 0, 1⟩] }
  exact ⟨s, run, listed, collect_exact 0 oneKept s run ["report"] listed⟩

theorem nodup_collectReferencedBlocks (m : VersionManager) : (collectReferencedBlocks m).Nodup := by
  refine nodup_foldl_set (fun set fileName distinct => ?_) m.listFiles List.nodup_nil
  refine nodup_foldl_set (fun set version distinct => ?_) (m.listVersions fileName) distinct
  exact nodup_foldl_set (fun set chunk => List.Nodup.insert) version.manifest.chunks distinct

/-- The sizes of two sets tell the size of their difference exactly when one
contains the other. -/
theorem card_sdiff_eq_sub_iff {α : Type} [DecidableEq α] (all referenced : Finset α) :
    (all \ referenced).card = all.card - referenced.card ↔
      referenced ⊆ all ∨ all ⊆ referenced := by
  have shared := Finset.card_inter_add_card_sdiff all referenced
  have most : (all ∩ referenced).card ≤ referenced.card :=
    Finset.card_le_card Finset.inter_subset_right
  constructor
  · intro same
    rcases Nat.lt_or_ge all.card referenced.card with fewer | more
    · right
      have none : all \ referenced = ∅ := Finset.card_eq_zero.mp (by omega)
      exact Finset.sdiff_eq_empty_iff_subset.mp none
    · left
      have whole : all ∩ referenced = referenced :=
        Finset.eq_of_subset_of_card_le Finset.inter_subset_right (by omega)
      exact Finset.inter_eq_right.mp whole
  · rintro (inside | inside)
    · exact Finset.card_sdiff_of_subset inside
    · have none : all \ referenced = ∅ := Finset.sdiff_eq_empty_iff_subset.mpr inside
      rw [none, Finset.card_empty, Nat.sub_eq_zero_of_le (Finset.card_le_card inside)]

theorem unreferenced_count_iff (m : VersionManager) {store : MetadataStore}
    (listed : store.ListFiles names) :
    (storageStats m store names).unreferencedBlocks = (collect m store names).unreferencedCount ↔
      (∀ hash, Retained m hash → Recorded store hash) ∨
        (∀ hash, Recorded store hash → Retained m hash) := by
  have all := List.toFinset_card_of_nodup (nodup_collectAllMetadataBlocks store names)
  have referenced := List.toFinset_card_of_nodup (nodup_collectReferencedBlocks m)
  have sets := card_sdiff_eq_sub_iff (collectAllMetadataBlocks store names).toFinset
    (collectReferencedBlocks m).toFinset
  have unreferenced : ((collectAllMetadataBlocks store names).toFinset \
      (collectReferencedBlocks m).toFinset).card =
      (collect m store names).unreferencedCount := by
    have distinct := (nodup_collectAllMetadataBlocks store names).filter
      (· ∉ collectReferencedBlocks m)
    refine Eq.trans (congrArg Finset.card ?_) (List.toFinset_card_of_nodup distinct)
    ext hash
    simp
  rw [all, referenced, unreferenced] at sets
  simp only [Finset.subset_iff, List.mem_toFinset, mem_collectReferencedBlocks,
    mem_collectAllMetadataBlocks listed] at sets
  rw [← sets]
  exact eq_comm

/-- The statistics agree with a collection exactly when every block of a retained
version is recorded, or every recorded block is needed by one. -/
theorem storageStats_agrees_iff (m : VersionManager) (store : MetadataStore) (names : List String)
    (listed : store.ListFiles names) :
    ((storageStats m store names).unreferencedBlocks = (collect m store names).unreferencedCount ∧
      (storageStats m store names).reclaimableBytes = (collect m store names).reclaimableBytes) ↔
      (∀ hash, Retained m hash → Recorded store hash) ∨
        (∀ hash, Recorded store hash → Retained m hash) := by
  rw [← unreferenced_count_iff m listed]
  refine ⟨And.left, fun same => ⟨same, ?_⟩⟩
  have counts : (collectAllMetadataBlocks store names).length - (collectReferencedBlocks m).length =
      ((collectAllMetadataBlocks store names).filter (· ∉ collectReferencedBlocks m)).length := same
  simp only [storageStats, collect, counts]
  cases blocks : collectAllMetadataBlocks store names with
  | nil => simp
  | cons hash rest => simp

theorem storageStats_agrees_oneKept : ∃ s, Runs.exec Stores.step (Stores.start 0) oneKept = some s ∧
    s.metadata.ListFiles ["report"] ∧
    (((storageStats s.versions.manager s.metadata ["report"]).unreferencedBlocks =
        (collect s.versions.manager s.metadata ["report"]).unreferencedCount ∧
      (storageStats s.versions.manager s.metadata ["report"]).reclaimableBytes =
        (collect s.versions.manager s.metadata ["report"]).reclaimableBytes) ↔
      (∀ hash, Retained s.versions.manager hash → Recorded s.metadata hash) ∨
        (∀ hash, Recorded s.metadata hash → Retained s.versions.manager hash)) := by
  obtain ⟨s, run, listed, -⟩ := run_registered [blockOf 1, blockOf 2]
    { emptyManifest 1 with chunks := [⟨List.Vector.replicate 32 1, 0, 0, 1⟩] }
  exact ⟨s, run, listed, storageStats_agrees_iff s.versions.manager s.metadata ["report"] listed⟩

/-- A file whose recorded block is in no snapshot, while the snapshot has a block
that is not recorded. -/
def versionOnly : List Action :=
  [.register "report" (List.Vector.replicate 32 0) 2 none [blockOf 1] "local" 0,
    .createSnapshot "report"
      { emptyManifest 1 with chunks := [⟨List.Vector.replicate 32 2, 0, 0, 1⟩] } "backup" 0 true]

theorem storageStats_differs : ∃ s,
    Runs.exec Stores.step (Stores.start 0) versionOnly = some s ∧
    s.metadata.ListFiles ["report"] ∧
    (storageStats s.versions.manager s.metadata ["report"]).unreferencedBlocks = 0 ∧
    (storageStats s.versions.manager s.metadata ["report"]).reclaimableBytes = 0 ∧
    (collect s.versions.manager s.metadata ["report"]).unreferencedCount = 1 ∧
    (collect s.versions.manager s.metadata ["report"]).reclaimableBytes = 2 := by
  obtain ⟨s, run, listed, recorded, retained⟩ := run_registered [blockOf 1]
    { emptyManifest 1 with chunks := [⟨List.Vector.replicate 32 2, 0, 0, 1⟩] }
  have all : collectAllMetadataBlocks s.metadata ["report"] = [List.Vector.replicate 32 1] := by
    simp [collectAllMetadataBlocks, recordFile, recorded, newEntry, blockOf]
  have referenced : collectReferencedBlocks s.versions.manager = [List.Vector.replicate 32 2] := by
    rw [retained]
    rfl
  have average : estimateAverageBlockSize s.metadata ["report"] = 2 := by
    simp [estimateAverageBlockSize, addSizes, recorded, newEntry]
  have apart : (List.Vector.replicate 32 1 : Hash) ≠ List.Vector.replicate 32 2 := by decide
  generalize (List.Vector.replicate 32 1 : Hash) = first at all apart
  generalize (List.Vector.replicate 32 2 : Hash) = second at referenced apart
  refine ⟨s, run, listed, ?_, ?_, ?_, ?_⟩
  · simp [storageStats, all, referenced]
  · simp [storageStats, all, referenced]
  · simp [collect, all, referenced, apart]
  · simp [collect, all, referenced, apart, average]

end LanLink.Gc
