import Mathlib.Data.Rat.Cast.Order
import LanLink.Storage.Download

/-! When a download is reported complete. The buffer expects as many blocks as
there are sources, and the file has as many as its manifest lists. -/
namespace LanLink.Download.Completion
open LanLink.Chunk Maps Words

/-- The calls of a task, with the indices for which a completion was called and
for which it succeeded. -/
structure Session where
  manager : DownloadManager
  attempted : List UInt32
  succeeded : List UInt32

inductive Call where
  | assignBlock (blockIndex : UInt32) (node : String)
  | completeBlock (blockIndex : UInt32) (data : Bytes) (now : UInt64)
  | failBlock (blockIndex : UInt32) (error : String) (now : UInt64)

def Session.start (m : DownloadManager) (fileName : String) (manifest : FileManifest)
    (blockSources : Map UInt32 (List String)) (now : UInt64) : Session :=
  ⟨(m.createTask fileName manifest blockSources now).1, [], []⟩

def step (fileName : String) (s : Session) : Call → Option Session
  | .assignBlock blockIndex node =>
    some { s with manager := (s.manager.assignBlock fileName blockIndex node).1 }
  | .completeBlock blockIndex data now =>
    let (manager, result) := s.manager.completeBlock fileName blockIndex data now
    some { manager
           attempted := blockIndex :: s.attempted
           succeeded := if result.isOk then blockIndex :: s.succeeded else s.succeeded }
  | .failBlock blockIndex _ now =>
    some { s with manager := (s.manager.failBlock fileName blockIndex now).1 }

/-- The buffer or the status says that everything is there. -/
def Reported (fileName : String) (s : Session) : Prop :=
  ∃ task, s.manager.tasks.lookup fileName = some task ∧
    (task.buffer.isComplete ∨ ∃ downloaded total, task.status = .downloading 1 downloaded total)

/-- A download of `n` blocks is reported complete only with all of them. -/
def Complete (fileName : String) (n : Nat) (s : Session) : Prop :=
  Reported fileName s → ∀ i < n, ∃ blockIndex ∈ s.succeeded, blockIndex.toNat = i

/-- A block of the file is accepted when it comes for the first time. -/
def Accepts (fileName : String) (n : Nat) (s : Session) : Call → Prop
  | .completeBlock blockIndex data now => blockIndex.toNat < n → blockIndex ∉ s.attempted →
      (s.manager.completeBlock fileName blockIndex data now).2 = .ok ()
  | .assignBlock .. | .failBlock .. => True

/-- A completed block is one of the file, or one for which the buffer has room. -/
def InRange (n expected : Nat) : Call → Prop
  | .completeBlock blockIndex _ _ => blockIndex.toNat < n ∨ blockIndex.toNat < expected
  | .assignBlock .. | .failBlock .. => True

/-- A task whose completed blocks are the ones in its buffer. -/
structure Tracked (expected : UInt32) (task : InternalTask) (succeeded : List UInt32) : Prop where
  size : task.buffer.expectedCount = expected
  counted : task.progress.totalBlocks = expected
  sources : totalBlocks task.task.blockSources = expected
  received : ∀ i, i ∈ task.buffer.blocks ↔ i ∈ succeeded
  completed : ∀ i, i ∈ task.completedBlocks ↔ i ∈ task.buffer.blocks
  bounded : ∀ i ∈ task.buffer.blocks, i < expected
  reported : ∀ downloaded total, task.status = .downloading 1 downloaded total →
    task.buffer.isComplete

/-- Different indices below a bound are at most as many, and then all of them. -/
theorem fits {keys : List UInt32} (distinct : keys.Nodup) (bounded : ∀ i ∈ keys, i.toNat < n) :
    keys.length ≤ n ∧ (keys.length = n → ∀ i < n, ∃ k ∈ keys, k.toNat = i) := by
  have numbers : (keys.map UInt32.toNat).Nodup :=
    distinct.map fun _ _ same => UInt32.toNat_inj.mp same
  have size := List.toFinset_card_of_nodup numbers
  rw [List.length_map] at size
  have below : (keys.map UInt32.toNat).toFinset ⊆ Finset.range n := by
    intro i member
    obtain ⟨k, known, rfl⟩ := List.mem_map.mp (List.mem_toFinset.mp member)
    exact Finset.mem_range.mpr (bounded k known)
  have most := Finset.card_le_card below
  rw [size, Finset.card_range] at most
  refine ⟨most, fun full i small => ?_⟩
  have all := Finset.eq_of_subset_of_card_le below (by rw [size, Finset.card_range, full])
  have member : i ∈ (keys.map UInt32.toNat).toFinset := by
    rw [all]
    exact Finset.mem_range.mpr small
  exact List.mem_map.mp (List.mem_toFinset.mp member)

theorem length_keys (blocks : Map UInt32 Bytes) : blocks.keys.length = blocks.entries.length := by
  simp [AList.keys, List.keys]

section
variable {expected : UInt32} {task : InternalTask} {succeeded : List UInt32}

theorem Tracked.card (tracked : Tracked expected task succeeded) :
    task.completedBlocks.card = task.buffer.blocks.entries.length := by
  have same : task.completedBlocks = task.buffer.blocks.keys.toFinset := by
    ext i
    rw [tracked.completed, List.mem_toFinset, AList.mem_keys]
  rw [same, List.toFinset_card_of_nodup (AList.keys_nodup _), length_keys]

theorem Tracked.fits (tracked : Tracked expected task succeeded) :
    task.buffer.blocks.entries.length ≤ expected.toNat ∧
      (task.buffer.blocks.entries.length = expected.toNat →
        ∀ i < expected.toNat, ∃ k ∈ task.buffer.blocks.keys, k.toNat = i) := by
  rw [← length_keys]
  apply Completion.fits (AList.keys_nodup _)
  intro i member
  exact UInt32.lt_iff_toNat_lt.mp (tracked.bounded i (AList.mem_keys.mpr member))

/-- A full buffer has every block. -/
theorem Tracked.all (tracked : Tracked expected task succeeded) (complete : task.buffer.isComplete)
    (small : i < expected.toNat) : ∃ blockIndex ∈ succeeded, blockIndex.toNat = i := by
  simp only [ReorderBuffer.isComplete, ReorderBuffer.canAssemble, tracked.size,
    decide_eq_true_eq] at complete
  obtain ⟨k, known, same⟩ := tracked.fits.2 complete i small
  exact ⟨k, (tracked.received k).mp (AList.mem_keys.mpr known), same⟩

end

theorem new_tracked (task : DownloadTask) (now : UInt64) :
    Tracked (totalBlocks task.blockSources) (.new task now) [] where
  size := rfl
  counted := rfl
  sources := rfl
  received := by simp [InternalTask.new, ReorderBuffer.new]
  completed := by simp [InternalTask.new, ReorderBuffer.new]
  bounded := by simp [InternalTask.new, ReorderBuffer.new]
  reported := by simp [InternalTask.new]

theorem updateEta_counts (p : DownloadProgress) (now : UInt64) :
    (p.updateEta now).totalBlocks = p.totalBlocks ∧
      (p.updateEta now).completedBlocks = p.completedBlocks := by
  rw [DownloadProgress.updateEta]
  dsimp only
  split
  · exact ⟨rfl, rfl⟩
  · split
    · exact ⟨rfl, rfl⟩
    · split
      · exact ⟨rfl, rfl⟩
      · exact ⟨rfl, rfl⟩

/-- A task whose progress counts the blocks of a buffer that is not full does not
report the fraction one. -/
theorem fraction_ne_one {p : DownloadProgress} (less : p.completedBlocks.toNat < p.totalBlocks.toNat) :
    p.progressFraction ≠ 1 := by
  rw [DownloadProgress.progressFraction]
  split
  · rename_i zero
    simp [zero] at less
  · intro one
    have positive : (p.totalBlocks.toNat : ℚ) ≠ 0 := by
      exact_mod_cast (Nat.zero_lt_of_lt less).ne'
    rw [div_eq_one_iff_eq positive] at one
    have equal : p.completedBlocks.toNat = p.totalBlocks.toNat := by exact_mod_cast one
    omega

section
variable {expected : UInt32} {task : InternalTask} {succeeded : List UInt32}

theorem Tracked.assign (tracked : Tracked expected task succeeded)
    (nodeAssignments : Map UInt32 String) :
    Tracked expected { task with nodeAssignments } succeeded :=
  ⟨tracked.size, tracked.counted, tracked.sources, tracked.received, tracked.completed,
    tracked.bounded, tracked.reported⟩

theorem Tracked.updateProgress (tracked : Tracked expected task succeeded) (now : UInt64) :
    Tracked expected (task.updateProgress now) succeeded where
  size := tracked.size
  counted := (updateEta_counts _ now).1.trans tracked.counted
  sources := tracked.sources
  received := tracked.received
  completed := tracked.completed
  bounded := tracked.bounded
  reported := tracked.reported

theorem Tracked.fail (tracked : Tracked expected task succeeded) (blockIndex : UInt32) :
    Tracked expected (task.fail blockIndex) succeeded where
  size := tracked.size
  counted := tracked.counted
  sources := tracked.sources
  received := tracked.received
  completed := tracked.completed
  bounded := tracked.bounded
  reported := by
    intro downloaded total status
    simp only [InternalTask.fail] at status
    split at status
    · cases status
    · exact tracked.reported downloaded total status

/-- A second completion of a block is refused and changes nothing. -/
theorem Tracked.repeat (tracked : Tracked expected task succeeded) (small : blockIndex < expected)
    (known : blockIndex ∈ task.buffer.blocks) (data : Bytes) (now : UInt64) :
    ∃ message, (task.complete blockIndex data now).2 = .error message ∧
      Tracked expected (task.complete blockIndex data now).1 succeeded := by
  have refused : task.buffer.push blockIndex data =
      .error ("block index " ++ toString blockIndex ++ " already received") := by
    have room : ¬ expected ≤ blockIndex := UInt32.not_le.mpr small
    simp [ReorderBuffer.push, tracked.size, room, known]
  refine ⟨"reorder buffer push failed: " ++ ("block index " ++ toString blockIndex ++
    " already received"), by simp only [InternalTask.complete, refused], ?_⟩
  have same : insert blockIndex task.completedBlocks = task.completedBlocks :=
    Finset.insert_eq_self.mpr ((tracked.completed blockIndex).mpr known)
  simp only [InternalTask.complete, refused, same]
  exact tracked.assign _

/-- A status that is set from the progress reports one only with a full buffer. -/
theorem Tracked.updateStatus (tracked : Tracked expected { task with status := .pending } succeeded)
    (progressed : task.progress.completedBlocks = UInt32.ofNat task.completedBlocks.card) :
    Tracked expected task.updateStatus succeeded := by
  rw [InternalTask.updateStatus]
  split
  · rename_i complete
    exact ⟨tracked.size, tracked.counted, tracked.sources, tracked.received, tracked.completed,
      tracked.bounded, fun _ _ _ => complete⟩
  · rename_i incomplete
    refine ⟨tracked.size, tracked.counted, tracked.sources, tracked.received, tracked.completed,
      tracked.bounded, fun downloaded total status => ?_⟩
    have less : task.progress.completedBlocks.toNat < task.progress.totalBlocks.toNat := by
      have card := tracked.card
      have most := tracked.fits.1
      have size := tracked.size
      have counted := tracked.counted
      simp only at card most size counted
      simp only [ReorderBuffer.isComplete, ReorderBuffer.canAssemble, size,
        decide_eq_true_eq] at incomplete
      have word := expected.toNat_lt
      rw [progressed, counted, card, UInt32.toNat_ofNat', Nat.mod_eq_of_lt (by omega)]
      omega
    simp only [DownloadStatus.downloading.injEq] at status
    exact absurd status.1 (fraction_ne_one less)

/-- The buffer takes a block below its size the first time. -/
theorem Tracked.first (tracked : Tracked expected task succeeded) (small : blockIndex < expected)
    (new : blockIndex ∉ task.buffer.blocks) (data : Bytes) (now : UInt64) :
    (task.complete blockIndex data now).2 = .ok () ∧
      Tracked expected (task.complete blockIndex data now).1 (blockIndex :: succeeded) := by
  have taken : task.buffer.push blockIndex data =
      .ok { task.buffer with blocks := task.buffer.blocks.insert blockIndex data } := by
    have room : ¬ expected ≤ blockIndex := UInt32.not_le.mpr small
    simp [ReorderBuffer.push, tracked.size, room, new]
  have stored : Tracked expected
      { task with status := .pending
                  completedBlocks := insert blockIndex task.completedBlocks
                  nodeAssignments := task.nodeAssignments.erase blockIndex
                  buffer.blocks := task.buffer.blocks.insert blockIndex data }
      (blockIndex :: succeeded) :=
    { size := tracked.size
      counted := tracked.counted
      sources := tracked.sources
      received := by simp [AList.mem_insert, tracked.received]
      completed := by simp [AList.mem_insert, tracked.completed]
      bounded := by
        intro i member
        rcases (AList.mem_insert _).mp member with rfl | member
        · exact small
        · exact tracked.bounded i member
      reported := by simp }
  refine ⟨by simp only [InternalTask.complete, taken], ?_⟩
  simp only [InternalTask.complete, taken]
  exact Tracked.updateStatus (stored.updateProgress now) (updateEta_counts _ now).2

end

/-- The task is there, the lock is not poisoned, and a block that was completed
is in the buffer. -/
structure Running (fileName : String) (expected : UInt32) (s : Session) : Prop where
  sane : s.manager.poisoned = false
  task : ∃ task, s.manager.tasks.lookup fileName = some task ∧ Tracked expected task s.succeeded
  attempted : ∀ i, i ∈ s.attempted ↔ i ∈ s.succeeded

theorem Running.complete (running : Running fileName expected s) (enough : n ≤ expected.toNat) :
    Complete fileName n s := by
  rintro ⟨task, found, reported⟩ i small
  obtain ⟨known, same, tracked⟩ := running.task
  have task_eq : task = known := Option.some.inj (found.symm.trans same)
  subst task_eq
  refine tracked.all ?_ (small.trans_le enough)
  rcases reported with complete | ⟨downloaded, total, status⟩
  · exact complete
  · exact tracked.reported downloaded total status

theorem start_running {m : DownloadManager} (sane : m.poisoned = false) (fileName : String)
    (manifest : FileManifest) (blockSources : Map UInt32 (List String)) (now : UInt64) :
    Running fileName (totalBlocks blockSources)
      (.start m fileName manifest blockSources now) := by
  simp only [Session.start, DownloadManager.createTask, sane, Bool.false_eq_true, if_false]
  refine ⟨rfl, ⟨_, AList.lookup_insert _, ?_⟩, by simp⟩
  exact new_tracked ⟨fileName, _, _, _, blockSources⟩ now

section
variable {fileName : String} {expected : UInt32} {s t : Session}

theorem completeBlock_running (running : Running fileName expected s)
    (small : blockIndex < expected) (data : Bytes) (now : UInt64)
    (stepped : step fileName s (.completeBlock blockIndex data now) = some t) :
    Running fileName expected t ∧ (blockIndex ∉ s.attempted →
      (s.manager.completeBlock fileName blockIndex data now).2 = .ok ()) := by
  obtain ⟨task, found, tracked⟩ := running.task
  simp only [step, Option.some.injEq] at stepped
  subst stepped
  simp only [DownloadManager.completeBlock, running.sane, found, Bool.false_eq_true, if_false]
  by_cases known : blockIndex ∈ task.buffer.blocks
  · obtain ⟨message, refused, after⟩ := tracked.repeat small known data now
    have before : blockIndex ∈ s.succeeded := (tracked.received blockIndex).mp known
    refine ⟨⟨rfl, ⟨_, AList.lookup_insert _, ?_⟩, ?_⟩, fun new => ?_⟩
    · simpa [refused, Except.isOk, Except.toBool] using after
    · intro i
      simp only [refused, Except.isOk, Except.toBool, Bool.false_eq_true, if_false, List.mem_cons,
        running.attempted]
      exact ⟨fun found => found.elim (fun same => same ▸ before) id, Or.inr⟩
    · exact absurd ((running.attempted blockIndex).mpr before) new
  · obtain ⟨taken, after⟩ := tracked.first small known data now
    refine ⟨⟨rfl, ⟨_, AList.lookup_insert _, ?_⟩, ?_⟩, fun _ => taken⟩
    · simpa [taken, Except.isOk, Except.toBool] using after
    · simp [taken, Except.isOk, Except.toBool, running.attempted]

theorem failBlock_running (running : Running fileName expected s)
    (stepped : step fileName s (.failBlock blockIndex error now) = some t) :
    Running fileName expected t := by
  cases stepped
  obtain ⟨task, found, tracked⟩ := running.task
  -- without sources the buffer has room for nothing
  have safe : ¬ ((task.fail blockIndex).completedBlocks ≠ ∅ ∧
      (task.fail blockIndex).task.blockSources.entries = []) := by
    rintro ⟨some, none⟩
    obtain ⟨i, member⟩ := Finset.nonempty_iff_ne_empty.mpr some
    have small := tracked.bounded i ((tracked.completed i).mp member)
    have zero : expected = 0 := by
      rw [← tracked.sources, totalBlocks]
      exact congrArg (fun l => UInt32.ofNat (List.length l)) none
    simp [zero] at small
  simp only [DownloadManager.failBlock, running.sane, found, Bool.false_eq_true, if_false, safe]
  exact ⟨rfl, ⟨_, AList.lookup_insert _, (tracked.fail blockIndex).updateProgress now⟩,
    running.attempted⟩

theorem assignBlock_running (running : Running fileName expected s)
    (stepped : step fileName s (.assignBlock blockIndex node) = some t) :
    Running fileName expected t := by
  cases stepped
  obtain ⟨task, found, tracked⟩ := running.task
  simp only [DownloadManager.assignBlock, running.sane, found, Bool.false_eq_true, if_false]
  split
  · exact running
  · exact ⟨rfl, ⟨_, AList.lookup_insert _, tracked.assign _⟩, running.attempted⟩

/-- A step within the range of the buffer keeps the task running, and a block is
accepted the first time. -/
theorem step_running (running : Running fileName expected s) (enough : n ≤ expected.toNat)
    (ranged : InRange n expected.toNat call) (stepped : step fileName s call = some t) :
    Running fileName expected t ∧ Accepts fileName n s call := by
  cases call with
  | assignBlock blockIndex node => exact ⟨assignBlock_running running stepped, trivial⟩
  | failBlock blockIndex error now => exact ⟨failBlock_running running stepped, trivial⟩
  | completeBlock blockIndex data now =>
    have small : blockIndex < expected :=
      UInt32.lt_iff_toNat_lt.mpr (ranged.elim (fun below => below.trans_le enough) id)
    obtain ⟨after, accepted⟩ := completeBlock_running running small data now stepped
    exact ⟨after, fun _ new => accepted new⟩

theorem run_running (running : Running fileName expected s) (enough : n ≤ expected.toNat)
    (ranged : ∀ call ∈ calls, InRange n expected.toNat call) :
    Runs.Always (step fileName) (Complete fileName n) s calls ∧
      Runs.Meets (step fileName) (Accepts fileName n) s calls := by
  induction calls generalizing s with
  | nil => exact ⟨running.complete enough, trivial⟩
  | cons call rest ih =>
    have first := ranged call List.mem_cons_self
    have later := fun t stepped => ih (s := t) (step_running running enough first stepped).1
      fun call member => ranged call (List.mem_cons_of_mem _ member)
    obtain ⟨t, stepped⟩ : ∃ t, step fileName s call = some t := by
      cases call with
      | assignBlock | completeBlock | failBlock => exact ⟨_, rfl⟩
    exact ⟨⟨running.complete enough, fun t stepped => (later t stepped).1⟩,
      (step_running running enough first stepped).2, fun t stepped => (later t stepped).2⟩

end

/-- The buffer refuses the first index it does not expect. -/
theorem beyond_refused (running : Running fileName expected s) (data : Bytes) (now : UInt64) :
    (s.manager.completeBlock fileName expected data now).2 ≠ .ok () := by
  obtain ⟨task, found, tracked⟩ := running.task
  simp [DownloadManager.completeBlock, running.sane, found, InternalTask.complete,
    ReorderBuffer.push, tracked.size]

/-- Downloads of a file are reported complete only with all its blocks, and
every block is accepted the first time, exactly when the file has at most as
many blocks as there are sources. -/
theorem complete_iff_enough_sources (m : DownloadManager) (sane : m.poisoned = false)
    (fileName : String) (manifest : FileManifest) (blockSources : Map UInt32 (List String))
    (now : UInt64) :
    (∀ calls : List Call,
      (∀ call ∈ calls, InRange manifest.chunks.length (totalBlocks blockSources).toNat call) →
      Runs.Always (step fileName) (Complete fileName manifest.chunks.length)
          (.start m fileName manifest blockSources now) calls ∧
        Runs.Meets (step fileName) (Accepts fileName manifest.chunks.length)
          (.start m fileName manifest blockSources now) calls) ↔
      manifest.chunks.length ≤ (totalBlocks blockSources).toNat := by
  have running := start_running sane fileName manifest blockSources now
  constructor
  · intro always
    by_contra more
    have beyond : (totalBlocks blockSources).toNat < manifest.chunks.length := Nat.lt_of_not_le more
    obtain ⟨-, accepts, -⟩ := always [.completeBlock (totalBlocks blockSources) [] now]
      (by simpa [InRange] using beyond)
    exact beyond_refused running [] now (accepts beyond (by simp [Session.start]))
  · intro enough calls ranged
    exact run_running running enough ranged

def chunksOf (count : Nat) : FileManifest where
  fileHash := List.Vector.replicate 32 0
  fileSize := 1
  chunks := List.replicate count ⟨List.Vector.replicate 32 0, 0, 0, 1⟩
  chunkSize := 1

def oneSource : Map UInt32 (List String) := AList.singleton 0 ["node"]

theorem complete_with_one_source :
    Runs.Always (step "report") (Complete "report" 1)
        (.start .new "report" (chunksOf 1) oneSource 0)
        [.assignBlock 0 "node", .completeBlock 0 [7] 0] ∧
      Runs.Meets (step "report") (Accepts "report" 1)
        (.start .new "report" (chunksOf 1) oneSource 0)
        [.assignBlock 0 "node", .completeBlock 0 [7] 0] := by
  refine (complete_iff_enough_sources .new rfl "report" (chunksOf 1) oneSource 0).mpr (by decide)
    _ ?_
  simp [InRange, chunksOf]

/-- A file of two blocks, of which one has a source, is complete with one. -/
theorem complete_without_block :
    ¬ (Runs.Always (step "report") (Complete "report" 2)
        (.start .new "report" (chunksOf 2) oneSource 0) [.completeBlock 0 [] 0] ∧
      Runs.Meets (step "report") (Accepts "report" 2)
        (.start .new "report" (chunksOf 2) oneSource 0) [.completeBlock 0 [] 0]) := by
  rintro ⟨⟨-, always⟩, -⟩
  obtain ⟨t, stepped, succeeded, reported⟩ : ∃ t, step "report"
      (.start .new "report" (chunksOf 2) oneSource 0) (.completeBlock 0 [] 0) = some t ∧
      t.succeeded = [0] ∧ Reported "report" t := ⟨_, rfl, rfl, _, rfl, Or.inl rfl⟩
  obtain ⟨blockIndex, member, second⟩ := always t stepped reported 1 (by decide)
  rw [succeeded, List.mem_singleton] at member
  simp [member] at second

end LanLink.Download.Completion
