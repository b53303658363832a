import LanLink.Storage.DownloadReorder

/-! What a refused completion leaves behind. A block is marked as completed and
its source is released before the buffer is asked to take it; a block that is
marked without being taken makes a task without sources divide by their number. -/
namespace LanLink.Download.Atomicity
open LanLink.Chunk Maps Words Runs

/-- The tasks and the loads are as before, name by name. -/
structure Unchanged (m after : DownloadManager) : Prop where
  tasks : ∀ name, after.tasks.lookup name = m.tasks.lookup name
  nodeLoad : ∀ node, after.nodeLoad.lookup node = m.nodeLoad.lookup node

/-- A completion that is refused changes nothing. -/
def Atomic (m : DownloadManager) (fileName : String) (blockIndex : UInt32) (data : Bytes)
    (now : UInt64) : Prop :=
  ∀ message, (m.completeBlock fileName blockIndex data now).2 = .error message →
    Unchanged m (m.completeBlock fileName blockIndex data now).1

/-- A task that takes the block, or that has completed it and waits for nobody. -/
def Ready (task : InternalTask) (blockIndex : UInt32) : Prop :=
  blockIndex < task.buffer.expectedCount ∧ blockIndex ∉ task.buffer.blocks ∨
    blockIndex ∈ task.completedBlocks ∧ blockIndex ∉ task.nodeAssignments

/-- The completion finds a broken lock, no task, or a task that is ready. -/
def Prepared (m : DownloadManager) (fileName : String) (blockIndex : UInt32) : Prop :=
  m.poisoned = true ∨ ∀ task, m.tasks.lookup fileName = some task → Ready task blockIndex

/-- The mean block size is computed for every completed block. -/
def DividesByZero (m : DownloadManager) : Action → Prop
  | .completeBlock fileName blockIndex _ _ =>
    m.poisoned = false ∧ ∃ task, m.tasks.lookup fileName = some task ∧
      blockIndex < task.buffer.expectedCount ∧ blockIndex ∉ task.buffer.blocks ∧
      task.task.blockSources.entries = []
  | .failBlock fileName _ _ _ =>
    m.poisoned = false ∧ ∃ task, m.tasks.lookup fileName = some task ∧
      task.completedBlocks ≠ ∅ ∧ task.task.blockSources.entries = []
  | _ => False

/-- Every completion finds what it needs. -/
def Completes (m : DownloadManager) : Action → Prop
  | .completeBlock fileName blockIndex _ _ => Prepared m fileName blockIndex
  | _ => True

section
variable {m : DownloadManager} {task : InternalTask} {blockIndex : UInt32}

/-- A task that refuses a block is marked all the same. -/
theorem refused_complete (refused : task.buffer.push blockIndex data = .error message)
    (now : UInt64) : task.complete blockIndex data now =
      ({ task with completedBlocks := insert blockIndex task.completedBlocks,
                   nodeAssignments := task.nodeAssignments.erase blockIndex },
        .error ("reorder buffer push failed: " ++ message)) := by
  rw [InternalTask.complete, refused]

theorem refused_same_iff (refused : task.buffer.push blockIndex data = .error message)
    (now : UInt64) : (task.complete blockIndex data now).1 = task ↔
      blockIndex ∈ task.completedBlocks ∧ blockIndex ∉ task.nodeAssignments := by
  rw [refused_complete refused]
  constructor
  · intro same
    have marks := congrArg InternalTask.completedBlocks same
    have assignments := congrArg InternalTask.nodeAssignments same
    simp only at marks assignments
    refine ⟨Finset.insert_eq_self.mp marks, fun assigned => ?_⟩
    rw [← assignments, AList.mem_erase] at assigned
    exact assigned.1 rfl
  · rintro ⟨completed, free⟩
    rw [Finset.insert_eq_self.mpr completed, erase_of_not_mem free]

theorem completeBlock_some (sound : m.poisoned = false)
    (found : m.tasks.lookup fileName = some task) (data : Bytes) (now : UInt64) :
    m.completeBlock fileName blockIndex data now =
      ({ m with nodeLoad := release m.nodeLoad (task.nodeAssignments.lookup blockIndex),
                tasks := m.tasks.insert fileName (task.complete blockIndex data now).1 },
        (task.complete blockIndex data now).2) := by
  simp [DownloadManager.completeBlock, sound, found, DownloadManager.assignedNode]

theorem completeBlock_none (sound : m.poisoned = false)
    (missing : m.tasks.lookup fileName = none) (data : Bytes) (now : UInt64) :
    (m.completeBlock fileName blockIndex data now).1 = m := by
  have open_lock : ¬ m.poisoned = true := by simp [sound]
  simp only [DownloadManager.completeBlock, DownloadManager.assignedNode, if_neg open_lock, missing,
    Option.bind_none, release]

/-- A completion that found its task leaves everything as it was when it leaves
the task as it was. -/
theorem unchanged_iff (sound : m.poisoned = false)
    (found : m.tasks.lookup fileName = some task)
    (refused : task.buffer.push blockIndex data = .error message) (now : UInt64) :
    Unchanged m (m.completeBlock fileName blockIndex data now).1 ↔
      blockIndex ∈ task.completedBlocks ∧ blockIndex ∉ task.nodeAssignments := by
  rw [completeBlock_some sound found, ← refused_same_iff refused now]
  constructor
  · intro unchanged
    have here := unchanged.tasks fileName
    rw [AList.lookup_insert, found] at here
    exact Option.some.inj here
  · intro same
    have free : blockIndex ∉ task.nodeAssignments := ((refused_same_iff refused now).mp same).2
    constructor
    · intro name
      rw [same]
      by_cases here : name = fileName
      · rw [here, AList.lookup_insert, found]
      · rw [AList.lookup_insert_ne here]
    · intro node
      rw [AList.lookup_eq_none.mpr free, release]

/-- A completion is atomic exactly when it finds what it needs. -/
theorem atomic_iff (m : DownloadManager) (fileName : String) (blockIndex : UInt32) (data : Bytes)
    (now : UInt64) : Atomic m fileName blockIndex data now ↔ Prepared m fileName blockIndex := by
  cases sound : m.poisoned with
  | true =>
    refine iff_of_true (fun message _ => ?_) (.inl sound)
    simp only [DownloadManager.completeBlock, sound, if_true]
    exact ⟨fun _ => rfl, fun _ => rfl⟩
  | false =>
    cases found : m.tasks.lookup fileName with
    | none =>
      refine iff_of_true (fun message _ => ?_) (.inr fun task there => ?_)
      · rw [completeBlock_none sound found]
        exact ⟨fun _ => rfl, fun _ => rfl⟩
      · cases found.symm.trans there
    | some task =>
      have prepared : Prepared m fileName blockIndex ↔ Ready task blockIndex := by
        simp [Prepared, sound, found]
      rw [prepared]
      rcases Reorder.push_cases task.buffer blockIndex data with
        ⟨room, new, accepted⟩ | ⟨out, message, refused⟩
      · refine iff_of_true (fun message failed => ?_) (.inl ⟨room, new⟩)
        rw [completeBlock_some sound found] at failed
        simp [InternalTask.complete, accepted] at failed
      · have closed : ¬ (blockIndex < task.buffer.expectedCount ∧ blockIndex ∉ task.buffer.blocks) := by
          rintro ⟨room, new⟩
          exact out.elim (UInt32.not_le.mpr room) new
        rw [Ready, or_iff_right closed, ← unchanged_iff sound found refused now]
        constructor
        · intro atomic
          apply atomic
          rw [completeBlock_some sound found, refused_complete refused]
        · exact fun unchanged _ _ => unchanged

end

/-- A task expects as many blocks as it has sources, and without sources it has
completed none. -/
structure Sourced (task : InternalTask) : Prop where
  expected : task.buffer.expectedCount = totalBlocks task.task.blockSources
  completed : task.task.blockSources.entries = [] → task.completedBlocks = ∅

def AllSourced (m : DownloadManager) : Prop :=
  ∀ name task, m.tasks.lookup name = some task → Sourced task

section
variable {m next : DownloadManager} {task : InternalTask} {blockIndex : UInt32}

theorem AllSourced.insert (sourced : AllSourced m) (added : Sourced task)
    (nodeLoad : Map String UInt32) (poisoned : Bool) :
    AllSourced ⟨m.tasks.insert fileName task, nodeLoad, poisoned⟩ := by
  intro name other found
  by_cases here : name = fileName
  · rw [here, AList.lookup_insert] at found
    cases found
    exact added
  · rw [AList.lookup_insert_ne here] at found
    exact sourced name other found

/-- A task that takes a block has sources. -/
theorem Sourced.room (sourced : Sourced task) (room : blockIndex < task.buffer.expectedCount) :
    task.task.blockSources.entries ≠ [] := by
  intro empty
  rw [sourced.expected, totalBlocks, empty] at room
  exact absurd room (UInt32.not_lt_zero)

theorem updateStatus_kept (t : InternalTask) :
    t.updateStatus.task = t.task ∧ t.updateStatus.buffer = t.buffer := by
  rw [InternalTask.updateStatus]
  split <;> exact ⟨rfl, rfl⟩

theorem Sourced.complete (sourced : Sourced task) (ready : Ready task blockIndex) (data : Bytes)
    (now : UInt64) : Sourced (task.complete blockIndex data now).1 := by
  rcases Reorder.push_cases task.buffer blockIndex data with
    ⟨room, new, accepted⟩ | ⟨out, message, refused⟩
  · have kept : (task.complete blockIndex data now).1.task = task.task ∧
        (task.complete blockIndex data now).1.buffer.expectedCount = task.buffer.expectedCount := by
      simp only [InternalTask.complete, accepted]
      rw [(updateStatus_kept _).1, (updateStatus_kept _).2]
      exact ⟨rfl, rfl⟩
    constructor
    · rw [kept.1, kept.2]
      exact sourced.expected
    · rw [kept.1]
      exact fun empty => absurd empty (sourced.room room)
  · rcases ready with ⟨room, new⟩ | ⟨completed, free⟩
    · exact absurd new (by simpa [UInt32.not_le.mpr room] using out)
    · rw [(refused_same_iff refused now).mpr ⟨completed, free⟩]
      exact sourced

theorem Sourced.updateProgress (sourced : Sourced task) (now : UInt64) :
    Sourced (task.updateProgress now) := ⟨sourced.expected, sourced.completed⟩

theorem Sourced.fail (sourced : Sourced task) (blockIndex : UInt32) :
    Sourced (task.fail blockIndex) := ⟨sourced.expected, sourced.completed⟩

theorem AllSourced.erase (sourced : AllSourced m) (fileName : String)
    (nodeLoad : Map String UInt32) (poisoned : Bool) :
    AllSourced ⟨m.tasks.erase fileName, nodeLoad, poisoned⟩ := by
  intro name task found
  exact sourced name task (Maps.lookup_of_lookup_erase found).2

theorem AllSourced.completeBlock (sourced : AllSourced m) {fileName : String}
    (prepared : Prepared m fileName blockIndex) (data : Bytes) (now : UInt64) :
    AllSourced (m.completeBlock fileName blockIndex data now).1 := by
  cases sound : m.poisoned with
  | true =>
    simp only [DownloadManager.completeBlock, sound, if_true]
    exact sourced
  | false =>
    cases found : m.tasks.lookup fileName with
    | none =>
      rw [completeBlock_none sound found]
      exact sourced
    | some task =>
      rw [completeBlock_some sound found]
      have ready : Ready task blockIndex := by
        rcases prepared with broken | ready
        · cases sound.symm.trans broken
        · exact ready task found
      exact sourced.insert ((sourced fileName task found).complete ready data now) _ _

theorem step_sourced (sourced : AllSourced m) (completes : Completes m action)
    (stepped : m.step action = some next) : AllSourced next := by
  cases action with
  | createTask fileName manifest blockSources now =>
    cases stepped
    simp only [DownloadManager.createTask]
    split
    · exact sourced
    · exact sourced.insert ⟨rfl, fun _ => rfl⟩ _ _
  | assignBlock fileName blockIndex node =>
    cases stepped
    simp only [DownloadManager.assignBlock]
    split
    · exact sourced
    · split
      · exact sourced
      · rename_i task found
        split
        · exact sourced
        · have known := sourced fileName task found
          apply sourced.insert
          exact ⟨known.expected, known.completed⟩
  | completeBlock fileName blockIndex data now =>
    cases stepped
    exact sourced.completeBlock completes data now
  | failBlock fileName blockIndex error now =>
    cases stepped
    simp only [DownloadManager.failBlock]
    split
    · exact sourced
    · split
      · exact sourced
      · rename_i task found
        have failed := (sourced fileName task found).fail blockIndex
        split
        · exact sourced.insert failed _ _
        · exact sourced.insert (failed.updateProgress now) _ _
  | cancel fileName =>
    cases stepped
    simp only [DownloadManager.cancel]
    split
    · exact sourced
    · split
      · exact sourced.erase fileName _ _
      · exact sourced

/-- A manager whose tasks are all sourced never divides by zero. -/
theorem AllSourced.divides (sourced : AllSourced m) (action : Action) :
    ¬ DividesByZero m action := by
  cases action with
  | createTask | assignBlock | cancel => exact id
  | completeBlock fileName blockIndex data now =>
    rintro ⟨-, task, found, room, -, empty⟩
    exact (sourced fileName task found).room room empty
  | failBlock fileName blockIndex error now =>
    rintro ⟨-, task, found, some_block, empty⟩
    exact some_block ((sourced fileName task found).completed empty)

end

/-- A refused completion changes nothing exactly when the completion finds what
it needs; a run in which all completions do never divides by zero. -/
theorem completion_atomic_iff (m : DownloadManager) (fileName : String) (blockIndex : UInt32)
    (data : Bytes) (now : UInt64) (actions : List Action) :
    (Atomic m fileName blockIndex data now ↔ Prepared m fileName blockIndex) ∧
      (Meets DownloadManager.step Completes .new actions →
        Meets DownloadManager.step (fun m action => ¬ DividesByZero m action) .new actions) := by
  refine ⟨atomic_iff m fileName blockIndex data now, fun completes => ?_⟩
  have initial : AllSourced .new := by
    intro name task found
    simp [DownloadManager.new] at found
  exact meets_guarded (fun sourced guard stepped => step_sourced sourced guard stepped)
    (fun sourced _ => sourced.divides _) completes initial

def manifest : FileManifest := ⟨List.Vector.replicate 32 0, 1, [], 1⟩

def oneSource : Map UInt32 (List String) := AList.insert 0 ["node"] ∅

/-- The only block of a file comes, and one more is reported as failed. -/
def taken : List Action :=
  [.createTask "report" manifest oneSource 0, .completeBlock "report" 0 [7] 0,
    .failBlock "report" 1 "timeout" 0]

theorem completion_atomic_taken :
    Meets DownloadManager.step Completes .new taken ∧
      Meets DownloadManager.step (fun m action => ¬ DividesByZero m action) .new taken ∧
      Atomic .new "report" 0 [7] 0 := by
  have completes : Meets DownloadManager.step Completes .new taken := by
    refine ⟨trivial, ?_⟩
    rintro created ⟨⟩
    refine ⟨.inr ?_, fun _ _ => ⟨trivial, fun _ _ => trivial⟩⟩
    rintro task ⟨⟩
    exact .inl ⟨by decide, by decide⟩
  have both := completion_atomic_iff .new "report" 0 [7] 0 taken
  refine ⟨completes, both.2 completes, both.1.mpr (.inr ?_)⟩
  intro task found
  cases found

/-- A task without sources refuses its block and counts it as completed; the next
failure divides by zero. -/
theorem refused_block_completed :
    ∃ m n, exec DownloadManager.step .new [.createTask "report" manifest ∅ 0] = some m ∧
      exec DownloadManager.step m [.completeBlock "report" 0 [7] 0] = some n ∧
      ¬ Atomic m "report" 0 [7] 0 ∧ DividesByZero n (.failBlock "report" 0 "timeout" 0) := by
  refine ⟨_, _, rfl, rfl, ?_, ?_⟩
  · rw [atomic_iff]
    rintro (broken | ready)
    · cases broken
    · rcases ready _ rfl with ⟨room, -⟩ | ⟨completed, -⟩
      · exact absurd room (by decide)
      · exact absurd completed (by decide)
  · exact ⟨rfl, _, rfl, by decide, rfl⟩

end LanLink.Download.Atomicity
