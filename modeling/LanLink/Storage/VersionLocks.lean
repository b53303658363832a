import LanLink.Core.Guards
import LanLink.Storage.Version

/-! The locks of the version manager. Each operation takes the lock of the store
and the lock of the flag as the source scopes their guards; the operations of one
thread follow each other. -/
namespace LanLink.Version.Locks
open LanLink.Chunk Guards

inductive Lock where
  | store | dirty
  deriving DecidableEq, Repr

structure Data where
  manager : VersionManager
  db : Option VersionStore
  deriving DecidableEq

/-- `written` is the outcome of turning the store into text and writing the
file, with the message of the error. -/
def save (written : Except String Unit) : Call Lock Data (Except String Unit) := do
  lock .store .read
  let saved ← data
  unlock .store
  match written with
  | .error message => return .error message
  | .ok () =>
    modifyData ({ · with db := some saved.manager.store })
    lock .dirty .write
    modifyData ({ · with manager.dirty := false })
    unlock .dirty
    return .ok ()

def saveIfDirty (written : Except String Unit) : Call Lock Data Unit := do
  lock .dirty .read
  let d ← data
  if d.manager.dirty then
    unlock .dirty
    let _ ← save written
  else unlock .dirty

def createSnapshot (fileName : String) (manifest : FileManifest) ( annotation : String) (now : Nat)
    (written : Except String Unit) : Call Lock Data (Except String String) := do
  let entry := (← data).manager.entry manifest annotation now
  lock .store .write
  modifyData fun d => { d with manager := d.manager.insert fileName entry }
  unlock .store
  lock .dirty .write
  modifyData ({ · with manager.dirty := true })
  unlock .dirty
  saveIfDirty written
  return .ok entry.versionId

/-- The guard of the flag lives to the end of the block, past the save. -/
def savePruned (pruned : Nat) (written : Except String Unit) :
    Call Lock Data (Except String Nat) := do
  if 0 < pruned then
    lock .dirty .write
    modifyData ({ · with manager.dirty := true })
    saveIfDirty written
    unlock .dirty
  return .ok pruned

def pruneVersions (fileName : String) (maxVersions : Nat) (written : Except String Unit) :
    Call Lock Data (Except String Nat) := do
  lock .store .write
  match (← data).manager.prune fileName maxVersions with
  | .error message =>
    unlock .store
    return .error message
  | .ok (manager, pruned) =>
    modifyData ({ · with manager := manager })
    unlock .store
    savePruned pruned written

def pruneAllVersions (maxVersions : Nat) (written : Except String Unit) :
    Call Lock Data (Except String Nat) := do
  lock .store .write
  let (store, pruned) := (← data).manager.store.pruneAll maxVersions
  modifyData ({ · with manager.store := store })
  unlock .store
  savePruned pruned written

def removeFile (fileName : String) (written : Except String Unit) :
    Call Lock Data (Except String Unit) := do
  lock .store .write
  match (← data).manager.store.get fileName with
  | none =>
    unlock .store
    return .error ("no versions found for '" ++ fileName ++ "'")
  | some _ =>
    modifyData fun d => { d with manager.store := d.manager.store.remove fileName }
    unlock .store
    lock .dirty .write
    modifyData ({ · with manager.dirty := true })
    unlock .dirty
    saveIfDirty written
    return .ok ()

def flush (written : Except String Unit) : Call Lock Data (Except String Unit) := save written

inductive Operation where
  | createSnapshot (fileName : String) (manifest : FileManifest) ( annotation : String) (now : Nat)
      (written : Except String Unit)
  | pruneVersions (fileName : String) (maxVersions : Nat) (written : Except String Unit)
  | pruneAllVersions (maxVersions : Nat) (written : Except String Unit)
  | removeFile (fileName : String) (written : Except String Unit)
  | save (written : Except String Unit)
  | flush (written : Except String Unit)

/-- The call of a caller that ignores its result. -/
def Operation.call : Operation → Call Lock Data Unit
  | .createSnapshot fileName manifest annotation now written =>
    (fun _ => ()) <$> Locks.createSnapshot fileName manifest annotation now written
  | .pruneVersions fileName maxVersions written =>
    (fun _ => ()) <$> Locks.pruneVersions fileName maxVersions written
  | .pruneAllVersions maxVersions written => (fun _ => ()) <$> Locks.pruneAllVersions maxVersions written
  | .removeFile fileName written => (fun _ => ()) <$> Locks.removeFile fileName written
  | .save written => (fun _ => ()) <$> Locks.save written
  | .flush written => (fun _ => ()) <$> Locks.flush written

/-- A thread whose call waits for itself takes no further step. -/
def step (s : State Lock Data) (operation : Operation) : Option (State Lock Data) :=
  match operation.call s with
  | .ok ((), t) => some t
  | .error _ => none

/-- What the claimed discipline asks of a call. -/
structure Disciplined (s : State Lock Data) (operation : Operation) : Prop where
  free : ∀ wait, operation.call s = .error wait → wait.held ≠ .write
  returns : ∃ t, operation.call s = .ok ((), t)

/-- A call that prunes finds nothing to prune. -/
def Quiet (s : State Lock Data) : Operation → Prop
  | .pruneVersions fileName maxVersions _ =>
    (s.data.manager.listVersions fileName).length ≤ maxVersions
  | .pruneAllVersions maxVersions _ =>
    ∀ fv ∈ s.data.manager.store.files, fv.versions.length ≤ maxVersions
  | .createSnapshot .. | .removeFile .. | .save _ | .flush _ => True

instance (s : State Lock Data) : (operation : Operation) → Decidable (Quiet s operation)
  | .pruneVersions fileName maxVersions _ => inferInstanceAs (Decidable
      ((s.data.manager.listVersions fileName).length ≤ maxVersions))
  | .pruneAllVersions maxVersions _ => inferInstanceAs (Decidable
      (∀ fv ∈ s.data.manager.store.files, fv.versions.length ≤ maxVersions))
  | .createSnapshot .. | .removeFile .. | .save _ | .flush _ => isTrue trivial

def Operation.action : Operation → Action
  | .createSnapshot fileName manifest annotation now written =>
    .createSnapshot fileName manifest annotation now written.isOk
  | .pruneVersions fileName maxVersions _ => .pruneVersions fileName maxVersions
  | .pruneAllVersions maxVersions _ => .pruneAllVersions maxVersions
  | .removeFile fileName written => .removeFile fileName written.isOk
  | .save written | .flush written => .save written.isOk

def dataOf (s : System) : Data := ⟨s.manager, s.db⟩

@[simp] theorem save_blocked (s : System) (written : Bool) :
    (s.save written).blocked = s.blocked := by
  rw [System.save]
  split <;> rfl

@[simp] theorem saveIfDirty_blocked (s : System) (written : Bool) :
    (s.saveIfDirty written).blocked = s.blocked := save_blocked _ written

theorem save_idle (s : System) (free : s.blocked = false) (written : Except String Unit) :
    ∃ result, save written (idle (dataOf s)) =
      .ok (result, idle (dataOf (s.save written.isOk))) := by
  cases written with
  | error message => exact ⟨.error message, by simp [save, System.save, Except.isOk, Except.toBool]⟩
  | ok done => exact ⟨.ok (), by simp [save, System.save, Except.isOk, Except.toBool, free, dataOf]⟩

theorem saveIfDirty_idle (s : System) (free : s.blocked = false) (written : Except String Unit) :
    saveIfDirty written (idle { dataOf s with manager.dirty := true }) =
      .ok ((), idle (dataOf (s.saveIfDirty written.isOk))) := by
  obtain ⟨result, saved⟩ := save_idle { s with manager.dirty := true } free written
  simp only [dataOf] at saved
  simp [saveIfDirty, System.saveIfDirty, dataOf, saved]

/-- The save of a call that pruned a version waits for the guard the call holds. -/
theorem savePruned_idle (d : Data) (pruned : Nat) (written : Except String Unit) :
    savePruned pruned written (idle d) =
      if 0 < pruned then .error ⟨.dirty, .write⟩ else .ok (.ok pruned, idle d) := by
  rw [savePruned, saveIfDirty]
  split <;> simp

theorem prune_excess {m pruned : VersionManager}
    (found : m.prune fileName maxVersions = .ok (pruned, count)) :
    0 < count ↔ ¬ (m.listVersions fileName).length ≤ maxVersions := by
  rw [VersionManager.prune] at found
  split at found
  · rename_i fv known
    cases found
    simp only [FileVersions.prune, VersionManager.listVersions, VersionStore.versions, known,
      Option.elim_some]
    split
    · omega
    · dsimp only
      omega
  · cases found

theorem prune_missing {m : VersionManager} (failed : m.prune fileName maxVersions = .error message) :
    m.listVersions fileName = [] := by
  rw [VersionManager.prune] at failed
  split at failed
  · cases failed
  · rename_i missing
    simp [VersionManager.listVersions, VersionStore.versions, missing]

theorem pruneAll_excess (store : VersionStore) (maxVersions : Nat) :
    0 < (store.pruneAll maxVersions).2 ↔ ¬ ∀ fv ∈ store.files, fv.versions.length ≤ maxVersions := by
  simp only [VersionStore.pruneAll, FileVersions.prune, Nat.pos_iff_ne_zero, ne_eq,
    List.sum_eq_zero_iff_forall_eq_nat, List.forall_mem_map, not_iff_not]
  apply forall₂_congr
  intro fv _
  split <;> simp <;> omega

/-- A call does what the transition of the store does, and waits for itself
exactly when the transition leaves the lock of the flag blocked. -/
theorem call_idle {s t : System} (free : s.blocked = false) {operation : Operation}
    (stepped : s.step operation.action = some t) :
    operation.call (idle (dataOf s)) =
      if t.blocked then .error ⟨.dirty, .write⟩ else .ok ((), idle (dataOf t)) := by
  cases operation with
  | createSnapshot fileName manifest annotation now written =>
    simp only [Operation.action, System.step, free, Option.ite_none_right_eq_some] at stepped
    obtain ⟨-, stepped⟩ := stepped
    cases stepped
    have saved := saveIfDirty_idle
      { s with manager := s.manager.insert fileName (s.manager.entry manifest annotation now),
               clock := now, kept := (fileName, s.manager.entry manifest annotation now) :: s.kept }
      free written
    simp only [dataOf] at saved
    simp [Operation.call, createSnapshot, dataOf, saved, free]
  | pruneVersions fileName maxVersions written =>
    simp only [Operation.action, System.step] at stepped
    cases pruned : s.manager.prune fileName maxVersions with
    | error message =>
      simp only [pruned, Option.some.injEq] at stepped
      simp [Operation.call, pruneVersions, dataOf, pruned, ← stepped, free]
    | ok result =>
      obtain ⟨manager, count⟩ := result
      simp only [pruned, Option.some.injEq, System.pruned, free] at stepped
      rw [← stepped]
      by_cases excess : 0 < count
      · simp [Operation.call, pruneVersions, dataOf, pruned, savePruned_idle, excess]
      · simp [Operation.call, pruneVersions, dataOf, pruned, savePruned_idle, excess]
  | pruneAllVersions maxVersions written =>
    simp only [Operation.action, System.step, Option.some.injEq, System.pruned, free] at stepped
    rw [← stepped]
    by_cases excess : 0 < (s.manager.store.pruneAll maxVersions).2
    · simp [Operation.call, pruneAllVersions, dataOf, savePruned_idle, excess]
    · simp [Operation.call, pruneAllVersions, dataOf, savePruned_idle, excess]
  | removeFile fileName written =>
    simp only [Operation.action, System.step] at stepped
    cases found : s.manager.store.get fileName with
    | none =>
      simp only [found, Option.some.injEq] at stepped
      simp [Operation.call, removeFile, dataOf, found, ← stepped, free]
    | some fv =>
      simp only [found, free, Bool.false_eq_true, if_false, Option.some.injEq] at stepped
      have saved := saveIfDirty_idle
        { s with manager.store := s.manager.store.remove fileName,
                 kept := s.kept.filter fun k => k.1 ≠ fileName } free written
      simp only [dataOf] at saved
      simp [Operation.call, removeFile, dataOf, found, saved, ← stepped, free]
  | save written =>
    cases stepped
    obtain ⟨result, saved⟩ := save_idle s free written
    simp [Operation.call, saved, free]
  | flush written =>
    cases stepped
    obtain ⟨result, saved⟩ := save_idle s free written
    simp [Operation.call, flush, saved, free]

theorem blocked_iff {s t : System} (free : s.blocked = false) {operation : Operation}
    (stepped : s.step operation.action = some t) :
    t.blocked = true ↔ ¬ Quiet (idle (dataOf s)) operation := by
  cases operation with
  | createSnapshot fileName manifest annotation now written =>
    simp only [Operation.action, System.step, free, Option.ite_none_right_eq_some] at stepped
    obtain ⟨-, stepped⟩ := stepped
    cases stepped
    simp [Quiet]
  | pruneVersions fileName maxVersions written =>
    simp only [Operation.action, System.step] at stepped
    cases pruned : s.manager.prune fileName maxVersions with
    | error message =>
      simp only [pruned, Option.some.injEq] at stepped
      simp [Quiet, dataOf, prune_missing pruned, ← stepped, free]
    | ok result =>
      simp only [pruned, Option.some.injEq, System.pruned, free] at stepped
      have excess := prune_excess pruned
      simp only [← stepped, Quiet, idle_data, dataOf, ← excess]
      split <;> simp_all
  | pruneAllVersions maxVersions written =>
    simp only [Operation.action, System.step, Option.some.injEq, System.pruned, free] at stepped
    have excess := pruneAll_excess s.manager.store maxVersions
    simp only [← stepped, Quiet, idle_data, dataOf, ← excess]
    split <;> simp_all
  | removeFile fileName written =>
    simp only [Operation.action, System.step] at stepped
    cases found : s.manager.store.get fileName with
    | none =>
      simp only [found, Option.some.injEq] at stepped
      simp [Quiet, ← stepped, free]
    | some fv =>
      simp only [found, free, Bool.false_eq_true, if_false, Option.some.injEq] at stepped
      simp [Quiet, ← stepped]
  | save written | flush written =>
    cases stepped
    simp [Quiet, free]

/-- The store of the process just before a call, at a time when the clock does
not hold the call back. -/
def systemOf (d : Data) : System := ⟨d.manager, false, d.db, 0, []⟩

theorem systemOf_step (d : Data) (operation : Operation) :
    ∃ t, (systemOf d).step operation.action = some t := by
  cases operation with
  | createSnapshot fileName manifest annotation now written =>
    simp only [Operation.action, System.step, systemOf, Nat.zero_le, if_true]
    exact ⟨_, rfl⟩
  | pruneVersions fileName maxVersions written =>
    simp only [Operation.action, System.step]
    split <;> exact ⟨_, rfl⟩
  | removeFile fileName written =>
    simp only [Operation.action, System.step]
    split
    · exact ⟨_, rfl⟩
    · exact ⟨_, rfl⟩
  | pruneAllVersions maxVersions written => exact ⟨_, rfl⟩
  | save written | flush written => exact ⟨_, rfl⟩

theorem call_of_quiet (d : Data) (quiet : Quiet (idle d) operation) :
    ∃ next, operation.call (idle d) = .ok ((), idle next) := by
  obtain ⟨t, stepped⟩ := systemOf_step d operation
  have free : t.blocked = false := by
    rw [← Bool.not_eq_true, blocked_iff rfl stepped, not_not]
    exact quiet
  exact ⟨dataOf t, by simpa [free, dataOf, systemOf] using call_idle rfl stepped⟩

theorem call_of_not_quiet (d : Data) (excess : ¬ Quiet (idle d) operation) :
    operation.call (idle d) = .error ⟨.dirty, .write⟩ := by
  obtain ⟨t, stepped⟩ := systemOf_step d operation
  have blocked : t.blocked = true := (blocked_iff rfl stepped).mpr excess
  simpa [blocked, dataOf, systemOf] using call_idle rfl stepped

def NoGuard (s : State Lock Data) : Prop := ∃ d, s = idle d

theorem step_noGuard (before : NoGuard s) (stepped : step s operation = some t) : NoGuard t := by
  obtain ⟨d, rfl⟩ := before
  rw [step] at stepped
  by_cases quiet : Quiet (idle d) operation
  · obtain ⟨next, returned⟩ := call_of_quiet d quiet
    simp only [returned, Option.some.injEq] at stepped
    exact ⟨next, stepped.symm⟩
  · simp [call_of_not_quiet d quiet] at stepped

theorem disciplined_iff_quiet (before : NoGuard s) :
    Disciplined s operation ↔ Quiet s operation := by
  obtain ⟨d, rfl⟩ := before
  constructor
  · intro disciplined
    by_contra excess
    exact disciplined.free _ (call_of_not_quiet d excess) rfl
  · intro quiet
    obtain ⟨next, returned⟩ := call_of_quiet d quiet
    refine ⟨fun wait failed => ?_, _, returned⟩
    simp [returned] at failed

/-- The calls of a thread keep the lock discipline exactly when none of them
prunes a version. -/
theorem disciplined_iff_nothing_pruned (d : Data) (operations : List Operation) :
    Runs.Meets step Disciplined (idle d) operations ↔
      Runs.Meets step Quiet (idle d) operations := by
  constructor
  · intro disciplined
    exact Runs.meets_mono step_noGuard (fun before => (disciplined_iff_quiet before).mp)
      disciplined ⟨d, rfl⟩
  · intro quiet
    exact Runs.meets_mono step_noGuard (fun before => (disciplined_iff_quiet before).mpr)
      quiet ⟨d, rfl⟩

/-- Two snapshots of a file, of which one is to be kept. -/
def keepOne : List Operation :=
  [.createSnapshot "report" (emptyManifest 1) "backup" 0 (.ok ()),
    .createSnapshot "report" (emptyManifest 2) "backup" 1 (.ok ()),
    .pruneVersions "report" 1 (.ok ())]

/-- The call that prunes asks for the lock of the flag while it holds it. -/
theorem prune_waits_for_itself :
    ¬ Runs.Meets step Disciplined (idle ⟨.new, none⟩) keepOne := by
  intro disciplined
  have quiet : ¬ Runs.Meets step Quiet (idle ⟨.new, none⟩) keepOne := by decide
  exact quiet (Runs.meets_mono step_noGuard (fun before => (disciplined_iff_quiet before).mp)
    disciplined ⟨_, rfl⟩)

end LanLink.Version.Locks
