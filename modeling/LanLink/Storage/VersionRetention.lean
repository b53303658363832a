import Mathlib.Data.List.Induction
import LanLink.Storage.Version

/-! Which versions are left after any sequence of snapshots and prunings. A
history is a prefix of the snapshots of its file, the latest first, so what a
pruning keeps is told by the calls alone. -/
namespace LanLink.Version.Retention

/-- A snapshot goes into the store as `createSnapshot` puts it there. -/
inductive Call where
  | push (fileName : String) (entry : VersionEntry)
  | prune (fileName : String) (maxVersions : Nat)
  | pruneAll (maxVersions : Nat)

/-- Pruning a file that has no history is an error and changes nothing. -/
def step (m : VersionManager) : Call → VersionManager
  | .push fileName entry => m.insert fileName entry
  | .prune fileName maxVersions =>
    match m.prune fileName maxVersions with
    | .ok pruned => pruned.1
    | .error _ => m
  | .pruneAll maxVersions => { m with store := (m.store.pruneAll maxVersions).1 }

/-- The store after some calls. -/
def after (calls : List Call) : VersionStore := (calls.foldl step .new).store

def Call.entry (fileName : String) : Call → Option VersionEntry
  | .push name entry => if name = fileName then some entry else none
  | .prune .. | .pruneAll _ => none

/-- The snapshots of a file in the order of the calls. -/
def snapshots (fileName : String) (calls : List Call) : List VersionEntry :=
  calls.filterMap (Call.entry fileName)

/-- The `n` snapshots of a file that were taken last, the latest first. -/
def latest (n : Nat) (fileName : String) (calls : List Call) : List VersionEntry :=
  (snapshots fileName calls).reverse.take n

/-- The time of the snapshots of one file never goes back. -/
def Chronological (calls : List Call) : Prop :=
  ∀ fileName, ((snapshots fileName calls).map VersionEntry.unixSecs).Pairwise (· ≤ ·)

/-- One call puts its snapshot in front of a history or shortens it at the end. -/
theorem step_versions (m : VersionManager) (call : Call) (fileName : String) :
    (step m call).listVersions fileName <+:
      (call.entry fileName).toList ++ m.listVersions fileName := by
  cases call with
  | push name entry =>
    rw [step, VersionManager.listVersions_insert, Call.entry]
    by_cases same : fileName = name
    · simp [same]
    · simp [same, Ne.symm same]
  | prune name maxVersions =>
    rw [step, Call.entry, Option.toList_none, List.nil_append]
    cases found : m.prune name maxVersions with
    | error message => exact List.prefix_refl _
    | ok pruned =>
      rw [VersionManager.listVersions_prune found]
      split
      · exact List.take_prefix _ _
      · exact List.prefix_refl _
  | pruneAll maxVersions =>
    rw [step, Call.entry, Option.toList_none, List.nil_append]
    simp only [VersionManager.listVersions]
    rw [VersionStore.versions_pruneAll]
    exact List.take_prefix _ _

/-- A history is a prefix of the snapshots of its file, the latest first. -/
theorem after_versions (calls : List Call) (fileName : String) :
    (after calls).versions fileName <+: (snapshots fileName calls).reverse := by
  induction calls using List.reverseRecOn with
  | nil => exact List.prefix_refl _
  | append_singleton calls call ih =>
    have moved := step_versions (calls.foldl step .new) call fileName
    have longer := List.prefix_append_right_inj (call.entry fileName).toList |>.mpr ih
    have shown : (snapshots fileName (calls ++ [call])).reverse =
        (call.entry fileName).toList ++ (snapshots fileName calls).reverse := by
      cases made : call.entry fileName with
      | none => simp [snapshots, made]
      | some entry => simp [snapshots, made]
    rw [shown, after, List.foldl_append]
    exact moved.trans longer

theorem newest_first (chronological : Chronological calls) (fileName : String) :
    ((after calls).versions fileName).Pairwise fun newer older => older.unixSecs ≤ newer.unixSecs := by
  have times := List.pairwise_map.mp (chronological fileName)
  exact (List.pairwise_reverse.mpr times).sublist (after_versions calls fileName).sublist

theorem versions_of_mem {store : VersionStore} (member : fv ∈ store.files) :
    store.versions fv.fileName = fv.versions := by
  cases found : store.get fv.fileName with
  | none => exact absurd (List.mem_map_of_mem member) (VersionStore.absent found)
  | some other =>
    have same : other = fv :=
      List.inj_on_of_nodup_map store.distinct (List.mem_of_find?_eq_some found) member
        (VersionStore.get_name found)
    rw [VersionStore.versions, found, same, Option.elim_some]

theorem prune_eq (fv : FileVersions) (n : Nat) :
    fv.prune n = (⟨fv.fileName, fv.versions.take n⟩, fv.versions.length - n) := by
  rw [FileVersions.prune]
  split
  · rename_i short
    rw [List.take_of_length_le short, Nat.sub_eq_zero_of_le short]
  · rfl

/-- What a pruning keeps of a history are the latest snapshots of the file. -/
theorem kept_latest (member : fv ∈ (after calls).files) (n : Nat) :
    fv.versions.take n = latest (min n fv.versions.length) fv.fileName calls := by
  have shown := after_versions calls fv.fileName
  rw [versions_of_mem member] at shown
  have whole := List.prefix_iff_eq_take.mp shown
  rw [latest]
  conv_lhs => rw [whole]
  rw [List.take_take]

theorem totalVersions_pruneAll (store : VersionStore) (n : Nat) :
    (store.pruneAll n).1.totalVersions + (store.pruneAll n).2 = store.totalVersions := by
  simp only [VersionStore.totalVersions, VersionStore.pruneAll, VersionStore.change, List.map_map]
  induction store.files with
  | nil => rfl
  | cons fv rest ih =>
    simp only [List.map_cons, List.sum_cons, Function.comp_apply, prune_eq, List.length_take] at ih ⊢
    omega

/-- A snapshot goes in front of the history of its file. -/
theorem after_push (calls : List Call) (fileName : String) (entry : VersionEntry) (other : String) :
    (after (calls ++ [.push fileName entry])).versions other =
      if other = fileName then entry :: (after calls).versions fileName
      else (after calls).versions other := by
  rw [after, List.foldl_append]
  exact VersionManager.listVersions_insert _ fileName entry other

/-- After any sequence of snapshots and prunings every history is newest first;
another snapshot goes in front of the history of its file, and a pruning keeps the
latest snapshots and returns how many it removed, for one file and for all of them. -/
theorem versions_retained (calls : List Call) (chronological : Chronological calls) :
    (∀ fileName, ((after calls).versions fileName).Pairwise
      fun newer older => older.unixSecs ≤ newer.unixSecs) ∧
    (∀ fileName entry other, (after (calls ++ [.push fileName entry])).versions other =
      if other = fileName then entry :: (after calls).versions fileName
      else (after calls).versions other) ∧
    (∀ fv ∈ (after calls).files, ∀ n,
      fv.prune n = (⟨fv.fileName, latest (min n fv.versions.length) fv.fileName calls⟩,
        fv.versions.length - min n fv.versions.length) ∧
      (fv.prune n).1.versions.length = min n fv.versions.length) ∧
    (∀ n, ((after calls).pruneAll n).1.files = (after calls).files.map (fun fv =>
        ⟨fv.fileName, latest (min n fv.versions.length) fv.fileName calls⟩) ∧
      ((after calls).pruneAll n).2 =
        ((after calls).files.map fun fv => fv.versions.length - min n fv.versions.length).sum ∧
      ((after calls).pruneAll n).1.totalVersions + ((after calls).pruneAll n).2 =
        (after calls).totalVersions) := by
  have removed (length n : Nat) : length - n = length - min n length := by omega
  refine ⟨newest_first chronological, after_push calls, fun fv member n => ⟨?_, ?_⟩,
    fun n => ⟨?_, ?_, ?_⟩⟩
  · rw [prune_eq, kept_latest member, removed]
  · rw [prune_eq, List.length_take]
  · simp only [VersionStore.pruneAll, VersionStore.change]
    apply List.map_congr_left
    intro fv member
    rw [prune_eq, kept_latest member]
  · simp only [VersionStore.pruneAll, prune_eq, removed _ n]
  · exact totalVersions_pruneAll (after calls) n

def snapshot (fileSize : UInt64) (now : Nat) : VersionEntry :=
  VersionManager.new.entry (emptyManifest fileSize) "backup" now

/-- Two snapshots of a file, one second apart, with a pruning after them. -/
def prunedOnce : List Call :=
  [.push "report" (snapshot 1 1), .push "report" (snapshot 2 2), .prune "report" 1]

/-- The newer snapshot is left, and the next one goes in front of it. -/
theorem versions_retained_prunedOnce : Chronological prunedOnce ∧
    (after prunedOnce).versions "report" = [snapshot 2 2] ∧
    (after (prunedOnce ++ [.push "report" (snapshot 3 3)])).versions "report" =
      [snapshot 3 3, snapshot 2 2] ∧
    ((after prunedOnce).pruneAll 0).1.totalVersions + ((after prunedOnce).pruneAll 0).2 =
      (after prunedOnce).totalVersions := by
  have chronological : Chronological prunedOnce := by
    intro fileName
    by_cases same : "report" = fileName
    · simp [prunedOnce, snapshots, List.filterMap_cons, Call.entry, same, snapshot,
        VersionManager.entry]
    · simp [prunedOnce, snapshots, List.filterMap_cons, Call.entry, same]
  obtain ⟨-, pushed, -, all⟩ := versions_retained prunedOnce chronological
  have left : (after prunedOnce).versions "report" = [snapshot 2 2] := by decide +kernel
  refine ⟨chronological, left, ?_, (all 0).2.2⟩
  rw [pushed, if_pos rfl, left]

end LanLink.Version.Retention
