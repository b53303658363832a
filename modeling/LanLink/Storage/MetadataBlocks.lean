import LanLink.Core.Maps
import LanLink.Storage.MetadataMerge

/-! The list of blocks of a file. It is documented as sorted by index; callers
hand in sorted lists, and every operation that touches a list has to keep it so.
A node is listed once for a block. -/
namespace LanLink.Metadata.Blocks
open LanLink.Chunk Maps

def Increasing (blocks : List BlockLocation) : Prop :=
  blocks.Pairwise fun a b => a.index < b.index

def DistinctNodes (blocks : List BlockLocation) : Prop := ∀ b ∈ blocks, b.nodes.Nodup

/-- Blocks as callers hand them in. -/
structure SortedBlocks where
  blocks : List BlockLocation
  sorted : Increasing blocks

/-- A remote entry as a store exports it. -/
structure SortedEntry where
  entry : MetadataEntry
  sorted : Increasing entry.info.blocks

/-- Nodes that are not listed yet go to the back. -/
def addNodes (nodes added : List String) : List String :=
  added.foldl (fun nodes n => if n ∈ nodes then nodes else nodes ++ [n]) nodes

/-- The nodes of a block are recorded in the first block with its index; without
one nothing happens. -/
def addNodesTo (blockIndex : UInt32) (added : List String) (now : Nat) :
    List BlockLocation → List BlockLocation
  | [] => []
  | b :: rest =>
    if b.index = blockIndex then { b with nodes := addNodes b.nodes added, lastSynced := now } :: rest
    else b :: addNodesTo blockIndex added now rest

/-- The blocks of the map come in the order of its table. -/
def addBlockNodes (store : MetadataStore) (name : String)
    (nodesByIndex : Map UInt32 (List String)) (now : Nat) : Except MetadataError MetadataStore :=
  match store.entries[name]? with
  | none => .error (.notFound name)
  | some entry =>
    let blocks := (pairs nodesByIndex).foldl (fun blocks p => addNodesTo p.1 p.2 now blocks)
      entry.info.blocks
    .ok ⟨store.entries.insert name
      { entry with info.blocks := blocks, info.updatedAt := now }⟩

def markEncrypted (store : MetadataStore) (name : String) (now : Nat) :
    Except MetadataError MetadataStore :=
  match store.entries[name]? with
  | none => .error (.notFound name)
  | some entry =>
    .ok ⟨store.entries.insert name
      { entry with info.encrypted := true, info.updatedAt := now }⟩

inductive Action where
  | register (name : String) (fileHash : Hash) (fileSize : UInt64) (manifest : Option FileManifest)
      (blocks : SortedBlocks) (sourceNode : String) (now : Nat)
  | upsert (name : String) (fileHash : Hash) (fileSize : UInt64) (manifest : Option FileManifest)
      (blocks : SortedBlocks) (sourceNode : String) (now : Nat)
  | addBlockNode (name : String) (blockIndex : UInt32) (node : String) (now : Nat)
  | addBlockNodes (name : String) (nodesByIndex : Map UInt32 (List String)) (now : Nat)
  | markEncrypted (name : String) (now : Nat)
  | syncFrom (remote : List SortedEntry) (now : Nat)

/-- A refused operation leaves the store as it is. -/
def orElse (store : MetadataStore) : Except MetadataError MetadataStore → MetadataStore
  | .ok after => after
  | .error _ => store

def step (hasher : String → Hash → UInt64) (store : MetadataStore) : Action → Option MetadataStore
  | .register name fileHash fileSize manifest blocks sourceNode now =>
    some (orElse store
      (store.register name fileHash fileSize manifest blocks.blocks sourceNode now))
  | .upsert name fileHash fileSize manifest blocks sourceNode now =>
    some (store.upsert name fileHash fileSize manifest blocks.blocks sourceNode now)
  | .addBlockNode name blockIndex node now =>
    some (orElse store (store.addBlockNode name blockIndex node now))
  | .addBlockNodes name nodesByIndex now =>
    some (orElse store (addBlockNodes store name nodesByIndex now))
  | .markEncrypted name now => some (orElse store (markEncrypted store name now))
  | .syncFrom remote now =>
    some (Merge.syncFrom hasher store (remote.map SortedEntry.entry) now).1

def WellListed (entry : MetadataEntry) : Prop :=
  Increasing entry.info.blocks ∧ DistinctNodes entry.info.blocks

/-- Every stored list is sorted and names a node once for a block. -/
def Represented (store : MetadataStore) : Prop :=
  ∀ (name : String) (entry : MetadataEntry), store.entries[name]? = some entry → WellListed entry

/-- What an action hands in names a node once for a block. -/
def Action.Distinct : Action → Prop
  | .register _ _ _ _ blocks _ _ | .upsert _ _ _ _ blocks _ _ => DistinctNodes blocks.blocks
  | .syncFrom remote _ => ∀ e ∈ remote, DistinctNodes e.entry.info.blocks
  | .addBlockNode .. | .addBlockNodes .. | .markEncrypted .. => True

/-- A block that is not listed is added only behind all listed ones. -/
def AddsBehind (store : MetadataStore) : Action → Prop
  | .addBlockNode name blockIndex _ _ => ∀ entry : MetadataEntry, store.entries[name]? = some entry →
      blockIndex ∈ entry.info.blocks.map BlockLocation.index ∨
        ∀ b ∈ entry.info.blocks, b.index < blockIndex
  | _ => True

section
variable {blocks : List BlockLocation} {store : MetadataStore} {entry : MetadataEntry}

theorem increasing_iff : Increasing blocks ↔ (blocks.map BlockLocation.index).Pairwise (· < ·) :=
  List.pairwise_map.symm

theorem addNode_indices (blockIndex : UInt32) (node : String) (now : Nat) :
    (addNode blockIndex node now blocks).map BlockLocation.index =
      blocks.map BlockLocation.index ++
        if blockIndex ∈ blocks.map BlockLocation.index then [] else [blockIndex] := by
  induction blocks with
  | nil => simp [addNode]
  | cons b rest ih =>
    rw [addNode]
    split
    · rename_i same
      simp [same]
    · rename_i other
      have apart : blockIndex ≠ b.index := fun same => other same.symm
      simp [ih, apart]

theorem nodup_added {nodes : List String} (distinct : nodes.Nodup) (n : String) :
    (if n ∈ nodes then nodes else nodes ++ [n]).Nodup := by
  split
  · exact distinct
  · rename_i new
    rw [← List.concat_eq_append]
    exact distinct.concat new

theorem addNode_distinct (distinct : DistinctNodes blocks) (blockIndex : UInt32) (node : String)
    (now : Nat) : DistinctNodes (addNode blockIndex node now blocks) := by
  induction blocks with
  | nil => simp [addNode, DistinctNodes]
  | cons b rest ih =>
    obtain ⟨first, others⟩ := List.forall_mem_cons.mp distinct
    rw [addNode]
    split
    · exact List.forall_mem_cons.mpr ⟨nodup_added first node, others⟩
    · exact List.forall_mem_cons.mpr ⟨first, ih others⟩

/-- A block that is not listed goes to the back, wherever it belongs. -/
theorem addNode_increasing (increasing : Increasing blocks) (blockIndex : UInt32) (node : String)
    (now : Nat) : Increasing (addNode blockIndex node now blocks) ↔
      blockIndex ∈ blocks.map BlockLocation.index ∨ ∀ b ∈ blocks, b.index < blockIndex := by
  rw [increasing_iff, addNode_indices]
  by_cases listed : blockIndex ∈ blocks.map BlockLocation.index
  · rw [if_pos listed, List.append_nil]
    exact iff_of_true (increasing_iff.mp increasing) (.inl listed)
  · rw [if_neg listed, or_iff_right listed, List.pairwise_append]
    simp [increasing_iff.mp increasing]

theorem addNodes_nodup {nodes : List String} (distinct : nodes.Nodup) (added : List String) :
    (addNodes nodes added).Nodup := by
  rw [addNodes]
  induction added generalizing nodes with
  | nil => exact distinct
  | cons n rest ih => exact ih (nodup_added distinct n)

theorem addNodesTo_indices (blockIndex : UInt32) (added : List String) (now : Nat) :
    (addNodesTo blockIndex added now blocks).map BlockLocation.index =
      blocks.map BlockLocation.index := by
  induction blocks with
  | nil => rfl
  | cons b rest ih =>
    rw [addNodesTo]
    split
    · rfl
    · rw [List.map_cons, ih, List.map_cons]

theorem addNodesTo_distinct (distinct : DistinctNodes blocks) (blockIndex : UInt32)
    (added : List String) (now : Nat) : DistinctNodes (addNodesTo blockIndex added now blocks) := by
  induction blocks with
  | nil => exact distinct
  | cons b rest ih =>
    obtain ⟨first, others⟩ := List.forall_mem_cons.mp distinct
    rw [addNodesTo]
    split
    · exact List.forall_mem_cons.mpr ⟨addNodes_nodup first added, others⟩
    · exact List.forall_mem_cons.mpr ⟨first, ih others⟩

/-- The blocks of a map are worked off one after the other. -/
theorem foldl_addNodesTo (changes : List (UInt32 × List String)) (now : Nat)
    (increasing : Increasing blocks) (distinct : DistinctNodes blocks) :
    Increasing (changes.foldl (fun blocks p => addNodesTo p.1 p.2 now blocks) blocks) ∧
      DistinctNodes (changes.foldl (fun blocks p => addNodesTo p.1 p.2 now blocks) blocks) := by
  induction changes generalizing blocks with
  | nil => exact ⟨increasing, distinct⟩
  | cons p rest ih =>
    apply ih
    · rw [increasing_iff, addNodesTo_indices]
      exact increasing_iff.mp increasing
    · exact addNodesTo_distinct distinct p.1 p.2 now

/-- A store takes an entry without harm exactly when the entry is well listed. -/
theorem insert_represented (represented : Represented store) (name : String) :
    Represented ⟨store.entries.insert name entry⟩ ↔ WellListed entry := by
  constructor
  · intro after
    exact after name entry (by simp)
  · intro listed other found there
    rw [Std.ExtHashMap.getElem?_insert] at there
    split at there
    · cases there
      exact listed
    · exact represented other found there

theorem addBlockNode_represented (represented : Represented store) (name : String)
    (blockIndex : UInt32) (node : String) (now : Nat) :
    Represented (orElse store (store.addBlockNode name blockIndex node now)) ↔
      AddsBehind store (.addBlockNode name blockIndex node now) := by
  rw [MetadataStore.addBlockNode]
  cases found : store.entries[name]? with
  | none => exact iff_of_true represented (by simp [AddsBehind, found])
  | some entry =>
    obtain ⟨increasing, nodes⟩ := represented name entry found
    have behind : AddsBehind store (.addBlockNode name blockIndex node now) ↔
        blockIndex ∈ entry.info.blocks.map BlockLocation.index ∨
          ∀ b ∈ entry.info.blocks, b.index < blockIndex := by
      simp [AddsBehind, found]
    rw [behind, ← addNode_increasing increasing blockIndex node now]
    apply (insert_represented represented name).trans
    exact and_iff_left (addNode_distinct nodes blockIndex node now)

theorem addBlockNodes_represented (represented : Represented store) (name : String)
    (nodesByIndex : Map UInt32 (List String)) (now : Nat) :
    Represented (orElse store (addBlockNodes store name nodesByIndex now)) := by
  rw [addBlockNodes]
  cases found : store.entries[name]? with
  | none => exact represented
  | some entry =>
    obtain ⟨increasing, nodes⟩ := represented name entry found
    exact (insert_represented represented name).mpr
      (foldl_addNodesTo (pairs nodesByIndex) now increasing nodes)

theorem mergeEntry_represented {hasher : String → Hash → UInt64} {acc : MetadataStore × Nat}
    (represented : Represented acc.1) (listed : WellListed entry) (now : Nat) :
    Represented (Merge.mergeEntry hasher now acc entry).1 := by
  rw [Merge.mergeEntry]
  split
  · exact (insert_represented represented entry.info.name).mpr listed
  · exact represented

theorem syncFrom_represented (hasher : String → Hash → UInt64) (represented : Represented store)
    (remote : List MetadataEntry) (listed : ∀ e ∈ remote, WellListed e) (now : Nat) :
    Represented (Merge.syncFrom hasher store remote now).1 := by
  have fold (acc : MetadataStore × Nat) (represented : Represented acc.1) :
      Represented (remote.foldl (Merge.mergeEntry hasher now) acc).1 := by
    induction remote generalizing acc with
    | nil => exact represented
    | cons e rest ih =>
      obtain ⟨first, others⟩ := List.forall_mem_cons.mp listed
      exact ih others _ (mergeEntry_represented represented first now)
  exact fold (store, 0) represented

end

section
variable {hasher : String → Hash → UInt64} {store after : MetadataStore} {action : Action}

/-- A step keeps the representation exactly when it adds no block before others. -/
theorem step_represented (represented : Represented store) (distinct : action.Distinct)
    (stepped : step hasher store action = some after) :
    Represented after ↔ AddsBehind store action := by
  cases action with
  | register name fileHash fileSize manifest blocks sourceNode now =>
    cases stepped
    refine iff_of_true ?_ trivial
    rw [MetadataStore.register]
    split
    · exact represented
    · exact (insert_represented represented name).mpr ⟨blocks.sorted, distinct⟩
  | upsert name fileHash fileSize manifest blocks sourceNode now =>
    cases stepped
    exact iff_of_true ((insert_represented represented name).mpr ⟨blocks.sorted, distinct⟩) trivial
  | addBlockNode name blockIndex node now =>
    cases stepped
    exact addBlockNode_represented represented name blockIndex node now
  | addBlockNodes name nodesByIndex now =>
    cases stepped
    exact iff_of_true (addBlockNodes_represented represented name nodesByIndex now) trivial
  | markEncrypted name now =>
    cases stepped
    refine iff_of_true ?_ trivial
    rw [markEncrypted]
    cases found : store.entries[name]? with
    | none => exact represented
    | some entry => exact (insert_represented represented name).mpr (represented name entry found)
  | syncFrom remote now =>
    cases stepped
    refine iff_of_true (syncFrom_represented hasher represented _ ?_ now) trivial
    intro e member
    obtain ⟨offered, given, rfl⟩ := List.mem_map.mp member
    exact ⟨offered.sorted, distinct offered given⟩

end

theorem step_total (hasher : String → Hash → UInt64) (store : MetadataStore) (action : Action) :
    ∃ after, step hasher store action = some after := by
  cases action with
  | register | upsert | addBlockNode | addBlockNodes | markEncrypted | syncFrom => exact ⟨_, rfl⟩

/-- Along every run whose callers name a node once for a block, all lists are
sorted and without repetition exactly when no block is added before listed ones. -/
theorem represented_iff (hasher : String → Hash → UInt64) (actions : List Action)
    (distinct : ∀ action ∈ actions, action.Distinct) :
    Runs.Always (step hasher) Represented .new actions ↔
      Runs.Meets (step hasher) AddsBehind .new actions := by
  have initial : Represented .new := by
    intro name entry found
    simp [MetadataStore.new] at found
  obtain ⟨last, run⟩ := Runs.exec_total (step_total hasher) .new actions
  exact Runs.always_iff_of_meets (I := fun _ => True) (fun _ _ => trivial)
    (fun _ represented handed stepped => step_represented represented handed stepped)
    (Runs.meets_of_forall fun action member _ => distinct action member) run trivial initial

/-- The second block of a file, which one node has. -/
def lastBlock : SortedBlocks := ⟨[⟨List.Vector.replicate 32 1, 1, ["a"], 0⟩], by simp [Increasing]⟩

def lastBlockEntry : MetadataEntry :=
  newEntry "report" (List.Vector.replicate 32 0) 2 none lastBlock.blocks "a" 0

def registered : Action :=
  .register "report" (List.Vector.replicate 32 0) 2 none lastBlock "a" 0

theorem registered_step (hasher : String → Hash → UInt64) :
    step hasher .new registered = some (single lastBlockEntry) := by
  simp [step, registered, orElse, MetadataStore.register, MetadataStore.new, single, lastBlockEntry,
    newEntry]

theorem addsBehind_single (blockIndex : UInt32) (node : String) (now : Nat) :
    AddsBehind (single lastBlockEntry) (.addBlockNode "report" blockIndex node now) ↔
      blockIndex = 1 ∨ 1 < blockIndex := by
  have found : (single lastBlockEntry).entries["report"]? = some lastBlockEntry :=
    single_entry lastBlockEntry
  have blocks : lastBlockEntry.info.blocks = lastBlock.blocks := rfl
  have indices : lastBlock.blocks.map BlockLocation.index = [1] := rfl
  have behind : (∀ b ∈ lastBlock.blocks, b.index < blockIndex) ↔ 1 < blockIndex :=
    List.forall_mem_singleton
  simp only [AddsBehind, found, Option.some.injEq, forall_eq', blocks, indices,
    List.mem_singleton, behind]

/-- A third block is added behind the second. -/
theorem represented_appended :
    (∀ action ∈ [registered, .addBlockNode "report" 2 "b" 1], action.Distinct) ∧
      Runs.Always (step fun _ _ => 0) Represented .new
        [registered, .addBlockNode "report" 2 "b" 1] := by
  have distinct : ∀ action ∈ [registered, .addBlockNode "report" 2 "b" 1], action.Distinct := by
    simp [registered, Action.Distinct, DistinctNodes, lastBlock]
  refine ⟨distinct, (represented_iff _ _ distinct).mpr ⟨trivial, ?_⟩⟩
  intro store stepped
  cases (registered_step _).symm.trans stepped
  exact ⟨(addsBehind_single 2 "b" 1).mpr (.inr (by decide)), fun _ _ => trivial⟩

/-- The first block is added behind the second. -/
theorem blocks_out_of_order : ¬ Runs.Always (step fun _ _ => 0) Represented .new
    [registered, .addBlockNode "report" 0 "b" 1] := by
  rintro ⟨-, always⟩
  obtain ⟨represented, always⟩ := always _ (registered_step _)
  have distinct : (Action.addBlockNode "report" 0 "b" 1).Distinct := trivial
  obtain ⟨after, stepped⟩ := step_total (fun _ _ => 0) (single lastBlockEntry)
    (.addBlockNode "report" 0 "b" 1)
  have behind := (step_represented represented distinct stepped).mp (always after stepped)
  rcases (addsBehind_single 0 "b" 1).mp behind with same | later
  · exact absurd same (by decide)
  · exact absurd later (by decide)

end LanLink.Metadata.Blocks
