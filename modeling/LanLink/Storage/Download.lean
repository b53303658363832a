import Mathlib.Data.Finset.Card
import Mathlib.Data.List.MinMax
import Mathlib.Data.Rat.Defs
import LanLink.Core.Maps
import LanLink.Core.Runs
import LanLink.Storage.Chunk

/-! The download manager: tasks, their reorder buffers and progress, and the load
of the source nodes. Sums wrap, as in a release build. A fraction of progress is
the quotient of two 32-bit numbers, which a double is 1 exactly when they are
equal, so it is a rational here. -/
namespace LanLink.Download
open LanLink.Chunk Maps Words

def maxFailedBlocks : UInt32 := 3

inductive DownloadStatus where
  | pending
  | downloading (progress : ℚ) (downloadedBytes totalBytes : UInt64)
  | completed (data : Bytes)
  | failed (reason : String)
  deriving DecidableEq

structure DownloadTask where
  fileName : String
  fileHash : Hash
  totalSize : UInt64
  manifest : Option FileManifest
  blockSources : Map UInt32 (List String)

structure ReorderBuffer where
  blocks : Map UInt32 Bytes
  expectedCount : UInt32
  nextExpected : UInt32

def ReorderBuffer.new (expectedCount : UInt32) : ReorderBuffer := ⟨∅, expectedCount, 0⟩

def ReorderBuffer.push (buffer : ReorderBuffer) (index : UInt32) (data : Bytes) :
    Except String ReorderBuffer :=
  if buffer.expectedCount ≤ index then
    .error ("block index " ++ toString index ++ " out of range [0, " ++
      toString buffer.expectedCount ++ ")")
  else if index ∈ buffer.blocks then
    .error ("block index " ++ toString index ++ " already received")
  else .ok { buffer with blocks := buffer.blocks.insert index data }

def ReorderBuffer.canAssemble (buffer : ReorderBuffer) : Bool :=
  buffer.blocks.entries.length = buffer.expectedCount.toNat

def ReorderBuffer.isComplete (buffer : ReorderBuffer) : Bool := buffer.canAssemble

structure DownloadProgress where
  fileName : String
  totalBlocks : UInt32
  completedBlocks : UInt32
  failedBlocks : UInt32
  totalBytes : UInt64
  downloadedBytes : UInt64
  startedAt : UInt64
  estimatedRemainingSecs : Option UInt64
  deriving DecidableEq

def DownloadProgress.new (fileName : String) (totalBlocks : UInt32) (totalBytes now : UInt64) :
    DownloadProgress :=
  ⟨fileName, totalBlocks, 0, 0, totalBytes, 0, now, none⟩

def saturatingSub (a b : UInt64) : UInt64 := if a < b then 0 else a - b

def DownloadProgress.updateEta (p : DownloadProgress) (now : UInt64) : DownloadProgress :=
  if p.completedBlocks = 0 ∨ p.totalBlocks = 0 then { p with estimatedRemainingSecs := none }
  else
    let elapsed := saturatingSub now p.startedAt
    if elapsed = 0 then { p with estimatedRemainingSecs := none }
    else
      let bytesPerSec := p.downloadedBytes / elapsed
      if bytesPerSec = 0 then { p with estimatedRemainingSecs := none }
      else
        let remainingBytes := saturatingSub p.totalBytes p.downloadedBytes
        { p with estimatedRemainingSecs := some (remainingBytes / bytesPerSec) }

def DownloadProgress.update (p : DownloadProgress) (completedBlocks failedBlocks : UInt32)
    (downloadedBytes now : UInt64) : DownloadProgress :=
  { p with completedBlocks, failedBlocks, downloadedBytes }.updateEta now

def DownloadProgress.progressFraction (p : DownloadProgress) : ℚ :=
  if p.totalBlocks = 0 then 1 else p.completedBlocks.toNat / p.totalBlocks.toNat

structure InternalTask where
  task : DownloadTask
  status : DownloadStatus
  progress : DownloadProgress
  buffer : ReorderBuffer
  completedBlocks : Finset UInt32
  failedBlocks : Map UInt32 (List String)
  nodeAssignments : Map UInt32 String

/-- The number of sources as the source counts it. -/
def totalBlocks (blockSources : Map UInt32 (List String)) : UInt32 :=
  UInt32.ofNat blockSources.entries.length

def InternalTask.new (task : DownloadTask) (now : UInt64) : InternalTask where
  task := task
  status := .pending
  progress := .new task.fileName (totalBlocks task.blockSources) task.totalSize now
  buffer := .new (totalBlocks task.blockSources)
  completedBlocks := ∅
  failedBlocks := ∅
  nodeAssignments := ∅

/-- `poisoned` says that a call panicked while it held the lock of the tasks. -/
structure DownloadManager where
  tasks : Map String InternalTask
  nodeLoad : Map String UInt32
  poisoned : Bool

def DownloadManager.new : DownloadManager := ⟨∅, ∅, false⟩

/-- A node without an entry has no load. -/
def DownloadManager.load (m : DownloadManager) (node : String) : UInt32 :=
  (m.nodeLoad.lookup node).getD 0

def DownloadManager.createTask (m : DownloadManager) (fileName : String) (manifest : FileManifest)
    (blockSources : Map UInt32 (List String)) (now : UInt64) : DownloadManager × DownloadTask :=
  let task := { fileName, fileHash := manifest.fileHash, totalSize := manifest.fileSize,
                manifest := some manifest, blockSources }
  if m.poisoned then (m, task)
  else ({ m with tasks := m.tasks.insert fileName (.new task now) }, task)

def DownloadManager.getStatus (m : DownloadManager) (fileName : String) : Option DownloadStatus :=
  if m.poisoned then none else (m.tasks.lookup fileName).map InternalTask.status

/-- The first of the nodes with the smallest load. -/
def DownloadManager.selectSource (m : DownloadManager) (availableNodes : List String) :
    Option String :=
  availableNodes.argmin fun node => (m.load node).toNat

def DownloadManager.cancel (m : DownloadManager) (fileName : String) :
    DownloadManager × Except String Unit :=
  if m.poisoned then (m, .error "lock poisoned")
  else if fileName ∈ m.tasks then ({ m with tasks := m.tasks.erase fileName }, .ok ())
  else (m, .error ("download task '" ++ fileName ++ "' not found"))

/-- The load grows before the assignment is recorded, also for an unknown task. -/
def DownloadManager.assignBlock (m : DownloadManager) (fileName : String) (blockIndex : UInt32)
    (node : String) : DownloadManager × Except String Unit :=
  if m.poisoned then (m, .error "lock poisoned")
  else
    let loaded := { m with nodeLoad := m.nodeLoad.insert node (m.load node + 1) }
    match m.tasks.lookup fileName with
    | none => (loaded, .ok ())
    | some task =>
      if blockIndex ∈ task.completedBlocks then
        (m, .error ("block " ++ toString blockIndex ++ " already completed"))
      else
        let assigned :=
          { task with nodeAssignments := task.nodeAssignments.insert blockIndex node }
        ({ loaded with tasks := m.tasks.insert fileName assigned }, .ok ())

def DownloadManager.assignedNode (m : DownloadManager) (fileName : String) (blockIndex : UInt32) :
    Option String :=
  (m.tasks.lookup fileName).bind fun task => task.nodeAssignments.lookup blockIndex

/-- A load that gets to zero is removed. -/
def release (nodeLoad : Map String UInt32) : Option String → Map String UInt32
  | none => nodeLoad
  | some node =>
    match nodeLoad.lookup node with
    | none => nodeLoad
    | some count =>
      if count ≤ 1 then nodeLoad.erase node else nodeLoad.insert node (count - 1)

/-- The size of the completed blocks, each estimated by the mean block size. -/
def InternalTask.downloaded (t : InternalTask) : UInt64 :=
  UInt64.ofNat t.completedBlocks.card *
    (t.task.totalSize / UInt64.ofNat t.task.blockSources.entries.length)

def InternalTask.updateProgress (t : InternalTask) (now : UInt64) : InternalTask :=
  let completed := UInt32.ofNat t.completedBlocks.card
  let failed := UInt32.ofNat t.failedBlocks.entries.length
  { t with progress := t.progress.update completed failed t.downloaded now }

def InternalTask.updateStatus (t : InternalTask) : InternalTask :=
  if t.buffer.isComplete then
    { t with status := .downloading 1 t.task.totalSize t.task.totalSize }
  else
    { t with status := .downloading t.progress.progressFraction t.downloaded t.task.totalSize }

/-- The block is completed before the buffer is asked to take it. -/
def InternalTask.complete (t : InternalTask) (blockIndex : UInt32) (data : Bytes) (now : UInt64) :
    InternalTask × Except String Unit :=
  let marked := { t with completedBlocks := insert blockIndex t.completedBlocks,
                         nodeAssignments := t.nodeAssignments.erase blockIndex }
  match t.buffer.push blockIndex data with
  | .error message => (marked, .error ("reorder buffer push failed: " ++ message))
  | .ok buffer => (({ marked with buffer }.updateProgress now).updateStatus, .ok ())

def DownloadManager.completeBlock (m : DownloadManager) (fileName : String) (blockIndex : UInt32)
    (data : Bytes) (now : UInt64) : DownloadManager × Except String Unit :=
  if m.poisoned then (m, .error "lock poisoned")
  else
    let nodeLoad := release m.nodeLoad (m.assignedNode fileName blockIndex)
    match m.tasks.lookup fileName with
    | none => ({ m with nodeLoad }, .error ("download task '" ++ fileName ++ "' not found"))
    | some task =>
      let (task, result) := task.complete blockIndex data now
      ({ m with nodeLoad, tasks := m.tasks.insert fileName task }, result)

/-- The failure of a block up to the update of the progress. -/
def InternalTask.fail (t : InternalTask) (blockIndex : UInt32) : InternalTask :=
  let failedNodes := (t.failedBlocks.lookup blockIndex).getD [] ++
    (t.nodeAssignments.lookup blockIndex).toList
  let failedBlocks := t.failedBlocks.insert blockIndex failedNodes
  let totalFailed := UInt32.ofNat failedBlocks.entries.length
  { t with
    nodeAssignments := t.nodeAssignments.erase blockIndex
    failedBlocks := failedBlocks
    status :=
      if maxFailedBlocks ≤ totalFailed then
        .failed ("too many failed blocks: " ++ toString totalFailed ++ " (max " ++
          toString maxFailedBlocks ++ ")")
      else t.status }

/-- With a completed block and no sources the mean block size is a division by
zero, which panics: the call does not return. -/
def DownloadManager.failBlock (m : DownloadManager) (fileName : String) (blockIndex : UInt32)
    (now : UInt64) : DownloadManager × Option (Except String Unit) :=
  if m.poisoned then (m, some (.error "lock poisoned"))
  else
    let nodeLoad := release m.nodeLoad (m.assignedNode fileName blockIndex)
    match m.tasks.lookup fileName with
    | none => ({ m with nodeLoad }, some (.error ("download task '" ++ fileName ++ "' not found")))
    | some task =>
      let task := task.fail blockIndex
      if task.completedBlocks ≠ ∅ ∧ task.task.blockSources.entries = [] then
        ({ tasks := m.tasks.insert fileName task, nodeLoad, poisoned := true }, none)
      else
        ({ m with nodeLoad, tasks := m.tasks.insert fileName (task.updateProgress now) },
          some (.ok ()))

/-- The reason of a failure is not used. -/
inductive Action where
  | createTask (fileName : String) (manifest : FileManifest)
      (blockSources : Map UInt32 (List String)) (now : UInt64)
  | assignBlock (fileName : String) (blockIndex : UInt32) (node : String)
  | completeBlock (fileName : String) (blockIndex : UInt32) (data : Bytes) (now : UInt64)
  | failBlock (fileName : String) (blockIndex : UInt32) (error : String) (now : UInt64)
  | cancel (fileName : String)

def DownloadManager.step (m : DownloadManager) : Action → Option DownloadManager
  | .createTask fileName manifest blockSources now =>
    some (m.createTask fileName manifest blockSources now).1
  | .assignBlock fileName blockIndex node => some (m.assignBlock fileName blockIndex node).1
  | .completeBlock fileName blockIndex data now =>
    some (m.completeBlock fileName blockIndex data now).1
  | .failBlock fileName blockIndex _ now => some (m.failBlock fileName blockIndex now).1
  | .cancel fileName => some (m.cancel fileName).1

end LanLink.Download
