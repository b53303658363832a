import LanLink.Storage.Download

/-! The load of a node against the blocks that are assigned to it. -/
namespace LanLink.Download
open LanLink.Chunk Maps Words

/-- The blocks of a task that are assigned to a node. -/
def InternalTask.assigned (t : InternalTask) (node : String) : Nat :=
  total (fun _ source => if source = node then 1 else 0) t.nodeAssignments

/-- The pairs of a task and a block that are assigned to a node. -/
def DownloadManager.assigned (m : DownloadManager) (node : String) : Nat :=
  total (fun _ task => task.assigned node) m.tasks

/-- What load balancing rests on. -/
structure Balanced (m : DownloadManager) : Prop where
  load : ∀ node, (m.load node).toNat = m.assigned node
  selects : ∀ availableNodes node, m.selectSource availableNodes = some node →
    node ∈ availableNodes ∧ ∀ other ∈ availableNodes, m.assigned node ≤ m.assigned other

/-- No block of the task is assigned when the task is dropped. -/
def Unassigned (m : DownloadManager) (fileName : String) : Prop :=
  ∀ task, m.tasks.lookup fileName = some task → task.nodeAssignments.entries = []

/-- A task is dropped, by a cancellation or by a new task of its name, only
without assigned blocks. A block is assigned only in a known task and when it is
not assigned already, and the counter has room; a completed block is refused. -/
def Accounted (m : DownloadManager) : Action → Prop
  | .createTask fileName _ _ _ | .cancel fileName => m.poisoned ∨ Unassigned m fileName
  | .assignBlock fileName blockIndex node =>
    m.poisoned ∨ ∃ task, m.tasks.lookup fileName = some task ∧
      (blockIndex ∈ task.completedBlocks ∨
        blockIndex ∉ task.nodeAssignments ∧ (m.load node).toNat + 1 < 2 ^ 32)
  | .completeBlock .. | .failBlock .. => True

theorem selects_of_load {m : DownloadManager}
    (load : ∀ node, (m.load node).toNat = m.assigned node)
    (selected : m.selectSource availableNodes = some node) :
    node ∈ availableNodes ∧ ∀ other ∈ availableNodes, m.assigned node ≤ m.assigned other := by
  rw [DownloadManager.selectSource] at selected
  refine ⟨List.argmin_mem selected, fun other member => ?_⟩
  have least := List.le_of_mem_argmin member selected
  rwa [load, load] at least

theorem balanced_iff (m : DownloadManager) :
    Balanced m ↔ ∀ node, (m.load node).toNat = m.assigned node :=
  ⟨Balanced.load, fun load => ⟨load, fun _ _ => selects_of_load load⟩⟩

/-- The assignments that are left without one task. -/
def DownloadManager.others (m : DownloadManager) (fileName node : String) : Nat :=
  total (fun _ task => task.assigned node) (m.tasks.erase fileName)

theorem assigned_eq (m : DownloadManager) (fileName node : String) :
    m.assigned node =
      (m.tasks.lookup fileName).elim 0 (·.assigned node) + m.others fileName node := by
  rw [DownloadManager.assigned, DownloadManager.others]
  rw [← total_erase _ m.tasks fileName]

theorem assigned_insert (m : DownloadManager) (fileName : String) (task : InternalTask)
    (nodeLoad : Map String UInt32) (poisoned : Bool) (node : String) :
    DownloadManager.assigned ⟨m.tasks.insert fileName task, nodeLoad, poisoned⟩ node =
      task.assigned node + m.others fileName node :=
  total_insert _ _ _ _

/-- Whether a block's source is the node. -/
def weight (source : Option String) (node : String) : Nat := if source = some node then 1 else 0

theorem InternalTask.assigned_eq (t : InternalTask) (blockIndex : UInt32) (node : String) :
    t.assigned node = weight (t.nodeAssignments.lookup blockIndex) node +
      total (fun _ source => if source = node then 1 else 0)
        (t.nodeAssignments.erase blockIndex) := by
  rw [assigned, weight]
  rw [← total_erase _ _ blockIndex]
  cases t.nodeAssignments.lookup blockIndex with
  | none => simp
  | some source => simp

/-- A task without assignments counts for no node. -/
theorem unassigned_iff (t : InternalTask) :
    t.nodeAssignments.entries = [] ↔ ∀ node, t.assigned node = 0 := by
  constructor
  · intro none node
    simp [InternalTask.assigned, total, none]
  · intro zero
    cases entries : t.nodeAssignments.entries with
    | nil => rfl
    | cons entry rest =>
      have own := zero entry.2
      simp [InternalTask.assigned, total, entries] at own

/-- Without a task the loads are right exactly when it had no assignments. -/
theorem dropped_balanced {m next : DownloadManager} (balanced : Balanced m)
    (loads : ∀ node, next.load node = m.load node)
    (left : ∀ node, next.assigned node = m.others fileName node) :
    Balanced next ↔ Unassigned m fileName := by
  have split := fun node => assigned_eq m fileName node
  rw [balanced_iff]
  simp only [loads, left, balanced.load, split, Unassigned]
  cases m.tasks.lookup fileName with
  | none => simp
  | some task => simp [unassigned_iff]

theorem release_load (nodeLoad : Map String UInt32) (source : Option String) (node : String) :
    (((release nodeLoad source).lookup node).getD 0).toNat =
      ((nodeLoad.lookup node).getD 0).toNat - weight source node := by
  cases source with
  | none => simp [release, weight]
  | some other =>
    simp only [release, weight, Option.some.injEq]
    cases found : nodeLoad.lookup other with
    | none =>
      by_cases same : other = node
      · subst same
        simp [found]
      · simp [same]
    | some count =>
      by_cases same : other = node
      · subst same
        simp only [found, Option.getD_some, if_true]
        split
        · rename_i small
          have bound : count.toNat ≤ 1 := UInt32.le_iff_toNat_le.mp small
          simp only [AList.lookup_erase, Option.getD_none, UInt32.toNat_zero]
          omega
        · rename_i large
          have bound : ¬ count.toNat ≤ 1 := fun small => large (UInt32.le_iff_toNat_le.mpr small)
          rw [AList.lookup_insert, Option.getD_some, UInt32.toNat_sub_of_le _ _ (by
            rw [UInt32.le_iff_toNat_le]; simp; omega)]
          simp
      · have apart : node ≠ other := fun equal => same equal.symm
        simp only [same, if_false, Nat.sub_zero]
        split
        · rw [AList.lookup_erase_ne apart]
        · rw [AList.lookup_insert_ne apart]

/-- Giving a block back keeps the balance. -/
theorem released_balanced {m next : DownloadManager} (balanced : Balanced m)
    (source : Option String) (loads : next.nodeLoad = release m.nodeLoad source)
    (counts : ∀ node, m.assigned node = weight source node + next.assigned node) :
    Balanced next := by
  rw [balanced_iff]
  intro node
  have before := balanced.load node
  have after := release_load m.nodeLoad source node
  simp only [DownloadManager.load] at before ⊢
  rw [loads, after, before, counts]
  omega

theorem InternalTask.complete_assignments (t : InternalTask) (blockIndex : UInt32) (data : Bytes)
    (now : UInt64) :
    (t.complete blockIndex data now).1.nodeAssignments = t.nodeAssignments.erase blockIndex := by
  rw [complete]
  cases t.buffer.push blockIndex data with
  | error message => rfl
  | ok buffer =>
    simp only [updateStatus]
    split
    · rfl
    · rfl

/-- A task that gives a block back keeps its other assignments. -/
theorem assigned_erased {m : DownloadManager} (found : m.tasks.lookup fileName = some task)
    {after : InternalTask} (erased : after.nodeAssignments = task.nodeAssignments.erase blockIndex)
    (nodeLoad : Map String UInt32) (poisoned : Bool) (node : String) :
    m.assigned node = weight (m.assignedNode fileName blockIndex) node +
      DownloadManager.assigned ⟨m.tasks.insert fileName after, nodeLoad, poisoned⟩ node := by
  have own := task.assigned_eq blockIndex node
  simp only [assigned_insert, assigned_eq m fileName, DownloadManager.assignedNode, found,
    Option.elim_some, Option.bind_some, own]
  simp only [InternalTask.assigned, erased]
  omega

theorem completeBlock_balanced {m : DownloadManager} (balanced : Balanced m) (fileName : String)
    (blockIndex : UInt32) (data : Bytes) (now : UInt64) :
    Balanced (m.completeBlock fileName blockIndex data now).1 := by
  rw [DownloadManager.completeBlock]
  split
  · exact balanced
  · refine released_balanced balanced (m.assignedNode fileName blockIndex) ?_ ?_
    · cases m.tasks.lookup fileName with
      | none => rfl
      | some task => rfl
    · intro node
      cases found : m.tasks.lookup fileName with
      | none => simp [DownloadManager.assignedNode, found, weight, DownloadManager.assigned]
      | some task => exact assigned_erased found (task.complete_assignments _ _ _) _ _ node

theorem failBlock_balanced {m : DownloadManager} (balanced : Balanced m) (fileName : String)
    (blockIndex : UInt32) (now : UInt64) :
    Balanced (m.failBlock fileName blockIndex now).1 := by
  rw [DownloadManager.failBlock]
  split
  · exact balanced
  · refine released_balanced balanced (m.assignedNode fileName blockIndex) ?_ ?_
    · cases m.tasks.lookup fileName with
      | none => rfl
      | some task =>
        dsimp only
        split <;> rfl
    · intro node
      cases found : m.tasks.lookup fileName with
      | none => simp [DownloadManager.assignedNode, found, weight, DownloadManager.assigned]
      | some task =>
        -- the assignment is gone before the call can panic
        dsimp only
        split
        · exact assigned_erased found rfl _ _ node
        · exact assigned_erased found rfl _ _ node

theorem createTask_balanced {m : DownloadManager} (balanced : Balanced m) (fileName : String)
    (manifest : FileManifest) (blockSources : Map UInt32 (List String)) (now : UInt64) :
    Balanced (m.createTask fileName manifest blockSources now).1 ↔
      m.poisoned ∨ Unassigned m fileName := by
  rw [DownloadManager.createTask]
  cases m.poisoned with
  | true => simp [balanced]
  | false =>
    simp only [Bool.false_eq_true, if_false, false_or]
    refine dropped_balanced balanced (fun _ => rfl) fun node => ?_
    simp [assigned_insert, InternalTask.assigned, InternalTask.new, total]

theorem cancel_balanced {m : DownloadManager} (balanced : Balanced m) (fileName : String) :
    Balanced (m.cancel fileName).1 ↔ m.poisoned ∨ Unassigned m fileName := by
  rw [DownloadManager.cancel]
  cases m.poisoned with
  | true => simp [balanced]
  | false =>
    simp only [Bool.false_eq_true, if_false, false_or]
    split
    · exact dropped_balanced balanced (fun _ => rfl) fun node => rfl
    · rename_i missing
      have absent : m.tasks.lookup fileName = none := AList.lookup_eq_none.mpr missing
      simp [balanced, Unassigned, absent]

theorem load_insert (m : DownloadManager) (tasks : Map String InternalTask) (node other : String)
    (count : UInt32) :
    DownloadManager.load ⟨tasks, m.nodeLoad.insert node count, m.poisoned⟩ other =
      if other = node then count else m.load other := by
  unfold DownloadManager.load
  by_cases same : other = node
  · subst same
    simp
  · simp [same, AList.lookup_insert_ne same]

theorem grown_ne (count : UInt32) : (count + 1).toNat ≠ count.toNat := by
  intro same
  have equal : count + 1 = count := UInt32.toNat_inj.mp same
  simp at equal

/-- A new assignment of a block takes the place of the old one. -/
theorem assigned_recorded {m : DownloadManager} (found : m.tasks.lookup fileName = some task)
    (blockIndex : UInt32) (node : String) (nodeLoad : Map String UInt32) (poisoned : Bool)
    (other : String) :
    DownloadManager.assigned ⟨m.tasks.insert fileName { task with
        nodeAssignments := task.nodeAssignments.insert blockIndex node }, nodeLoad, poisoned⟩
        other + weight (task.nodeAssignments.lookup blockIndex) other =
      m.assigned other + weight (some node) other := by
  have own := task.assigned_eq blockIndex other
  simp only [assigned_insert, assigned_eq m fileName, found, Option.elim_some, own]
  simp only [InternalTask.assigned, total_insert, weight, Option.some.injEq]
  omega

/-- Recording a block keeps the balance exactly when the block was free and the
counter has room. -/
theorem recorded_balanced {m : DownloadManager} (balanced : Balanced m)
    (found : m.tasks.lookup fileName = some task) (blockIndex : UInt32) (node : String) :
    Balanced ⟨m.tasks.insert fileName { task with
        nodeAssignments := task.nodeAssignments.insert blockIndex node },
        m.nodeLoad.insert node (m.load node + 1), m.poisoned⟩ ↔
      blockIndex ∉ task.nodeAssignments ∧ (m.load node).toNat + 1 < 2 ^ 32 := by
  have counts := assigned_recorded found blockIndex node (m.nodeLoad.insert node (m.load node + 1))
    m.poisoned
  have grown := grown_ne (m.load node)
  rw [balanced_iff]
  simp only [load_insert]
  cases old : task.nodeAssignments.lookup blockIndex with
  | none =>
    have free : blockIndex ∉ task.nodeAssignments := AList.lookup_eq_none.mp old
    simp only [old, weight, reduceCtorEq, if_false, Nat.add_zero, Option.some.injEq] at counts
    constructor
    · intro after
      have own := after node
      rw [if_pos rfl, counts, if_pos rfl, ← balanced.load] at own
      have word := (m.load node + 1).toNat_lt
      exact ⟨free, by omega⟩
    · rintro ⟨-, room⟩ other
      rw [counts, ← balanced.load]
      by_cases same : other = node
      · rw [if_pos same, same, if_pos rfl, UInt32.toNat_add, UInt32.toNat_one, Nat.mod_eq_of_lt room]
      · have apart : ¬ node = other := fun equal => same equal.symm
        rw [if_neg same, if_neg apart, Nat.add_zero]
  | some source =>
    -- the old source keeps its load, or the new one is counted twice
    have taken : blockIndex ∈ task.nodeAssignments := Maps.mem_of_lookup old
    refine ⟨fun after => ?_, fun free => absurd taken free.1⟩
    have own := after source
    have count := counts source
    simp only [old, weight, Option.some.injEq, if_true] at count
    rw [← own, ← balanced.load] at count
    by_cases same : source = node
    · subst same
      simp only [if_true] at count
      omega
    · have apart : ¬ node = source := fun equal => same equal.symm
      simp only [same, apart, if_false] at count
      omega

theorem assignBlock_balanced {m : DownloadManager} (balanced : Balanced m) (fileName : String)
    (blockIndex : UInt32) (node : String) :
    Balanced (m.assignBlock fileName blockIndex node).1 ↔
      Accounted m (.assignBlock fileName blockIndex node) := by
  rw [DownloadManager.assignBlock, Accounted]
  cases poisoned : m.poisoned with
  | true => simp [balanced]
  | false =>
    simp only [Bool.false_eq_true, if_false, false_or]
    cases found : m.tasks.lookup fileName with
    | none =>
      simp only [reduceCtorEq, false_and, exists_false, iff_false]
      intro after
      have own := after.load node
      have unknown := load_insert m m.tasks node node (m.load node + 1)
      rw [poisoned, if_pos rfl] at unknown
      rw [unknown] at own
      exact grown_ne (m.load node) (own.trans (balanced.load node).symm)
    | some task =>
      simp only [Option.some.injEq, exists_eq_left']
      split
      · rename_i completed
        simp [balanced, completed]
      · rename_i open_
        have recorded := recorded_balanced balanced found blockIndex node
        simp only [poisoned] at recorded
        simp [open_, recorded]

theorem step_balanced {m next : DownloadManager} {action : Action} (balanced : Balanced m)
    (stepped : m.step action = some next) : Balanced next ↔ Accounted m action := by
  cases action with
  | createTask fileName manifest blockSources now =>
    cases stepped
    exact createTask_balanced balanced fileName manifest blockSources now
  | assignBlock fileName blockIndex node =>
    cases stepped
    exact assignBlock_balanced balanced fileName blockIndex node
  | completeBlock fileName blockIndex data now =>
    cases stepped
    exact iff_of_true (completeBlock_balanced balanced fileName blockIndex data now) trivial
  | failBlock fileName blockIndex error now =>
    cases stepped
    exact iff_of_true (failBlock_balanced balanced fileName blockIndex now) trivial
  | cancel fileName =>
    cases stepped
    exact cancel_balanced balanced fileName

theorem new_balanced : Balanced .new := (balanced_iff _).mpr fun _ => rfl

theorem step_total (m : DownloadManager) (action : Action) : ∃ next, m.step action = some next := by
  cases action with
  | createTask | assignBlock | completeBlock | failBlock | cancel => exact ⟨_, rfl⟩

/-- In every state of a sequence of calls the loads are the numbers of assigned
blocks exactly when every call is accounted for. -/
theorem loads_balanced_iff (actions : List Action) :
    Runs.Always DownloadManager.step Balanced .new actions ↔
      Runs.Meets DownloadManager.step Accounted .new actions := by
  obtain ⟨last, run⟩ := Runs.exec_total step_total DownloadManager.new actions
  exact Runs.always_iff (I := fun _ => True) (fun _ _ => trivial)
    (fun _ balanced stepped => step_balanced balanced stepped) run trivial new_balanced

/-- A task with an assigned block is cancelled. -/
def cancelled : List Action :=
  [.createTask "report" ⟨List.Vector.replicate 32 0, 1, [], 1⟩ ∅ 0,
    .assignBlock "report" 0 "node", .cancel "report"]

/-- The node keeps the load of a block that no task has. -/
theorem load_outlives_task : ¬ Runs.Always DownloadManager.step Balanced .new cancelled := by
  intro always
  obtain ⟨-, always⟩ := always
  obtain ⟨-, always⟩ := always _ rfl
  obtain ⟨-, always⟩ := always _ rfl
  have load := (always _ rfl).load "node"
  revert load
  decide

end LanLink.Download
