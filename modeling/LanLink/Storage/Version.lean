import LanLink.Core.Runs
import LanLink.Storage.Chunk
import LanLink.Storage.Timestamp

/-! The version store: snapshots of file manifests in memory, their identifiers,
and the database file that outlives the process. A file is read back as it was
written. Times are seconds of the system clock. -/
namespace LanLink.Version
open LanLink.Chunk Decimal

structure VersionEntry where
  versionId : String
  timestamp : String
  unixSecs : Nat
  seq : UInt32
  manifest : FileManifest
  annotation : String
  deriving DecidableEq

/-- The versions are in the order of their insertion, the newest first. -/
structure FileVersions where
  fileName : String
  versions : List VersionEntry
  deriving DecidableEq

def FileVersions.new (fileName : String) : FileVersions := ⟨fileName, []⟩

def FileVersions.push (fv : FileVersions) (entry : VersionEntry) : FileVersions :=
  { fv with versions := entry :: fv.versions }

def FileVersions.get (fv : FileVersions) (versionId : String) : Option VersionEntry :=
  fv.versions.find? fun v => v.versionId = versionId

/-- The remaining versions and the number of pruned ones. -/
def FileVersions.prune (fv : FileVersions) (maxVersions : Nat) : FileVersions × Nat :=
  if fv.versions.length ≤ maxVersions then (fv, 0)
  else ({ fv with versions := fv.versions.take maxVersions }, fv.versions.length - maxVersions)

/-- The values of the source's map; each carries the name it is found under. -/
structure VersionStore where
  files : List FileVersions
  distinct : (files.map FileVersions.fileName).Nodup
  deriving DecidableEq

def VersionStore.new : VersionStore := ⟨[], List.nodup_nil⟩

def VersionStore.get (store : VersionStore) (fileName : String) : Option FileVersions :=
  store.files.find? fun fv => fv.fileName = fileName

def VersionStore.versions (store : VersionStore) (fileName : String) : List VersionEntry :=
  (store.get fileName).elim [] FileVersions.versions

/-- A change to some of the histories that keeps their names. -/
def VersionStore.change (store : VersionStore) (f : FileVersions → FileVersions)
    (named : ∀ fv, (f fv).fileName = fv.fileName) : VersionStore where
  files := store.files.map f
  distinct := by
    have names : FileVersions.fileName ∘ f = FileVersions.fileName := funext named
    rw [List.map_map, names]
    exact store.distinct

theorem VersionStore.absent {store : VersionStore} (missing : store.get fileName = none) :
    fileName ∉ store.files.map FileVersions.fileName := by
  intro member
  obtain ⟨fv, known, named⟩ := List.mem_map.mp member
  simpa [named] using List.find?_eq_none.mp missing fv known

/-- The store in which `getOrCreateMut` finds the history it returns. -/
def VersionStore.getOrCreateMut (store : VersionStore) (fileName : String) : VersionStore :=
  match found : store.get fileName with
  | some _ => store
  | none =>
    { files := store.files ++ [.new fileName]
      distinct := by
        rw [List.map_append]
        refine List.nodup_append.mpr ⟨store.distinct, List.nodup_singleton _, ?_⟩
        intro name known other new same
        rw [same, List.mem_singleton.mp new] at known
        exact VersionStore.absent found known }

/-- A change to the history of one file. -/
def VersionStore.changeFile (store : VersionStore) (fileName : String)
    (f : FileVersions → FileVersions) (named : ∀ fv, (f fv).fileName = fv.fileName) :
    VersionStore :=
  store.change (fun fv => if fv.fileName = fileName then f fv else fv)
    (fun fv => by split <;> simp [named])

theorem FileVersions.prune_fileName (fv : FileVersions) (maxVersions : Nat) :
    (fv.prune maxVersions).1.fileName = fv.fileName := by
  rw [prune]
  split <;> rfl

theorem FileVersions.push_fileName (fv : FileVersions) (entry : VersionEntry) :
    (fv.push entry).fileName = fv.fileName := rfl

/-- The number of versions of all files. -/
def VersionStore.totalVersions (store : VersionStore) : Nat :=
  (store.files.map fun fv => fv.versions.length).sum

def VersionStore.pruneAll (store : VersionStore) (maxVersions : Nat) : VersionStore × Nat :=
  (store.change (fun fv => (fv.prune maxVersions).1) (fun fv => fv.prune_fileName maxVersions),
    (store.files.map fun fv => (fv.prune maxVersions).2).sum)

def VersionStore.remove (store : VersionStore) (fileName : String) : VersionStore where
  files := store.files.filter fun fv => fv.fileName ≠ fileName
  distinct := store.distinct.sublist ((List.filter_sublist).map _)

structure VersionManager where
  store : VersionStore
  seqCounter : UInt64
  dirty : Bool
  deriving DecidableEq

def VersionManager.new : VersionManager := ⟨.new, 0, false⟩

/-- A file that does not exist gives an empty store. -/
def VersionManager.loadFromFile (db : Option VersionStore) : VersionManager :=
  ⟨db.getD .new, 0, false⟩

def versionId (unixSecs : Nat) (seq : UInt32) : String :=
  formatTimestamp unixSecs ++ "-" ++ String.ofList (padded 4 seq.toNat)

/-- The entry of a snapshot taken now. -/
def VersionManager.entry (m : VersionManager) (manifest : FileManifest) ( annotation : String)
    (now : Nat) : VersionEntry where
  versionId := versionId now m.seqCounter.toUInt32
  timestamp := formatTimestamp now
  unixSecs := now
  seq := m.seqCounter.toUInt32
  manifest := manifest
  annotation := annotation

/-- The part of `createSnapshot` before the store is marked as changed. -/
def VersionManager.insert (m : VersionManager) (fileName : String) (entry : VersionEntry) :
    VersionManager where
  store := (m.store.getOrCreateMut fileName).changeFile fileName (·.push entry)
    (fun fv => fv.push_fileName entry)
  seqCounter := m.seqCounter + 1
  dirty := m.dirty

def VersionManager.listVersions (m : VersionManager) (fileName : String) : List VersionEntry :=
  m.store.versions fileName

def VersionManager.listFiles (m : VersionManager) : List String :=
  m.store.files.map FileVersions.fileName

def VersionManager.getVersion (m : VersionManager) (fileName versionId : String) :
    Option VersionEntry :=
  (m.store.get fileName).bind (·.get versionId)

def VersionManager.restoreVersion (m : VersionManager) (fileName versionId : String) :
    Except String FileManifest :=
  match m.getVersion fileName versionId with
  | some v => .ok v.manifest
  | none => .error ("version '" ++ versionId ++ "' not found for file '" ++ fileName ++ "'")

/-- The part of `pruneVersions` before the store is marked as changed. -/
def VersionManager.prune (m : VersionManager) (fileName : String) (maxVersions : Nat) :
    Except String (VersionManager × Nat) :=
  match m.store.get fileName with
  | some fv =>
    let store := m.store.changeFile fileName (fun fv => (fv.prune maxVersions).1)
      (fun fv => fv.prune_fileName maxVersions)
    .ok ({ m with store := store }, (fv.prune maxVersions).2)
  | none => .error ("no versions found for '" ++ fileName ++ "'")

/-- The manager of the running process, the database file and the clock. `kept`
has the snapshots whose identifiers were returned and that no call has pruned or
removed since. -/
structure System where
  manager : VersionManager
  blocked : Bool
  db : Option VersionStore
  clock : Nat
  kept : List (String × VersionEntry)

def System.start (now : Nat) : System := ⟨.new, false, none, now, []⟩

/-- `written` says whether the database file could be written. -/
inductive Action where
  | createSnapshot (fileName : String) (manifest : FileManifest) ( annotation : String) (now : Nat)
      (written : Bool)
  | pruneVersions (fileName : String) (maxVersions : Nat)
  | pruneAllVersions (maxVersions : Nat)
  | removeFile (fileName : String) (written : Bool)
  | save (written : Bool)
  | loadFromFile

/-- The flag is cleared only after the file is written; its lock may be blocked. -/
def System.save (s : System) (written : Bool) : System :=
  if written then
    { s with db := some s.manager.store, manager.dirty := s.manager.dirty && s.blocked }
  else s

/-- Marking the store as changed and saving it. A call that finds the lock of
the flag blocked does not get here. -/
def System.saveIfDirty (s : System) (written : Bool) : System :=
  { s with manager.dirty := true }.save written

/-- The snapshots that pruning leaves. -/
def System.keptAfter (s : System) (pruned : String → Bool) (maxVersions : Nat) :
    List (String × VersionEntry) :=
  s.kept.filter fun k => ¬ (pruned k.1 ∧ k.2 ∈ (s.manager.listVersions k.1).drop maxVersions)

/-- A call that pruned a version takes the lock of the flag and then waits for
the same lock when it saves. -/
def System.pruned (s : System) (manager : VersionManager) (count : Nat)
    (kept : List (String × VersionEntry)) : System :=
  if 0 < count ∧ !s.blocked then
    { s with manager := { manager with dirty := true }, blocked := true, kept := kept }
  else { s with manager := manager, kept := kept }

def System.step (s : System) : Action → Option System
  | .createSnapshot fileName manifest annotation now written =>
    if s.clock ≤ now then
      let entry := s.manager.entry manifest annotation now
      let stored := { s with manager := s.manager.insert fileName entry, clock := now }
      if s.blocked then some stored
      else some ({ stored with kept := (fileName, entry) :: s.kept }.saveIfDirty written)
    else none
  | .pruneVersions fileName maxVersions =>
    match s.manager.prune fileName maxVersions with
    | .ok (manager, count) =>
      some (s.pruned manager count (s.keptAfter (· = fileName) maxVersions))
    | .error _ => some s
  | .pruneAllVersions maxVersions =>
    let (store, count) := s.manager.store.pruneAll maxVersions
    some (s.pruned { s.manager with store } count (s.keptAfter (fun _ => true) maxVersions))
  | .removeFile fileName written =>
    match s.manager.store.get fileName with
    | some _ =>
      let removed := { s with manager.store := s.manager.store.remove fileName,
                              kept := s.kept.filter fun k => k.1 ≠ fileName }
      if s.blocked then some removed else some (removed.saveIfDirty written)
    | none => some s
  | .save written => some (s.save written)
  | .loadFromFile => some { s with manager := .loadFromFile s.db, blocked := false }

/-- Every returned identifier restores its manifest, and the identifiers of a
file's versions differ. -/
structure System.Restores (s : System) : Prop where
  manifest : ∀ k ∈ s.kept, s.manager.restoreVersion k.1 k.2.versionId = .ok k.2.manifest
  distinct : ∀ fileName, ((s.manager.listVersions fileName).map VersionEntry.versionId).Nodup

/-- No version of the file has the second and the sequence number a new snapshot
gets, and the process restarts only when the database file has every snapshot
whose identifier was returned. -/
def Fresh (s : System) : Action → Prop
  | .createSnapshot fileName _ _ now _ =>
    ∀ e ∈ s.manager.listVersions fileName,
      ¬ (e.unixSecs = now ∧ e.seq = s.manager.seqCounter.toUInt32)
  | .loadFromFile => ∀ k ∈ s.kept, k.2 ∈ (VersionManager.loadFromFile s.db).listVersions k.1
  | _ => True

instance (s : System) : (action : Action) → Decidable (Fresh s action)
  | .createSnapshot fileName _ _ now _ => inferInstanceAs (Decidable
      (∀ e ∈ s.manager.listVersions fileName,
        ¬ (e.unixSecs = now ∧ e.seq = s.manager.seqCounter.toUInt32)))
  | .loadFromFile => inferInstanceAs (Decidable
      (∀ k ∈ s.kept, k.2 ∈ (VersionManager.loadFromFile s.db).listVersions k.1))
  | .pruneVersions _ _ | .pruneAllVersions _ | .removeFile _ _ | .save _ => isTrue trivial

theorem VersionStore.get_change (store : VersionStore) (f : FileVersions → FileVersions)
    (named : ∀ fv, (f fv).fileName = fv.fileName) (fileName : String) :
    (store.change f named).get fileName = (store.get fileName).map f := by
  simp only [get, change, List.find?_map]
  congr 2
  funext fv
  simp [named]

theorem VersionStore.get_name {store : VersionStore} (found : store.get fileName = some fv) :
    fv.fileName = fileName := by
  simpa using List.find?_some found

theorem FileVersions.prune_versions (fv : FileVersions) (maxVersions : Nat) :
    (fv.prune maxVersions).1.versions = fv.versions.take maxVersions := by
  rw [prune]
  split
  · rename_i short
    rw [List.take_of_length_le short]
  · rfl

/-- How a change to one history shows in the versions of every file. -/
theorem VersionStore.versions_changeFile (store : VersionStore) (fileName : String)
    (f : FileVersions → FileVersions) (named : ∀ fv, (f fv).fileName = fv.fileName)
    (known : store.get fileName = some fv) (other : String) :
    (store.changeFile fileName f named).versions other =
      if other = fileName then (f fv).versions else store.versions other := by
  simp only [versions, changeFile, get_change]
  split
  · rename_i same
    subst same
    simp [known, get_name known]
  · rename_i different
    cases found : store.get other with
    | none => rfl
    | some fv => simp [get_name found, different]

theorem VersionStore.get_getOrCreateMut (store : VersionStore) (fileName other : String) :
    (store.getOrCreateMut fileName).get other =
      if other = fileName then some ((store.get fileName).getD (.new fileName))
      else store.get other := by
  rw [getOrCreateMut]
  split
  · rename_i fv found
    split
    · rename_i same
      simp [same, found]
    · rfl
  · rename_i missing
    simp only [get, List.find?_append] at missing ⊢
    split
    · rename_i same
      simp [same, missing, FileVersions.new]
    · rename_i different
      have apart : ¬ fileName = other := fun same => different same.symm
      simp [FileVersions.new, apart]

theorem VersionManager.listVersions_insert (m : VersionManager) (fileName : String)
    (entry : VersionEntry) (other : String) :
    (m.insert fileName entry).listVersions other =
      if other = fileName then entry :: m.listVersions fileName else m.listVersions other := by
  have created := m.store.get_getOrCreateMut fileName
  have known := created fileName
  rw [if_pos rfl] at known
  simp only [listVersions, insert, VersionStore.versions_changeFile _ _ _ _ known]
  split
  · simp only [FileVersions.push, VersionStore.versions]
    cases m.store.get fileName with
    | none => rfl
    | some fv => rfl
  · rename_i different
    simp [VersionStore.versions, created other, different]

theorem VersionManager.getVersion_eq (m : VersionManager) (fileName versionId : String) :
    m.getVersion fileName versionId =
      (m.listVersions fileName).find? (fun v => v.versionId = versionId) := by
  rw [getVersion, listVersions, VersionStore.versions]
  cases m.store.get fileName with
  | none => rfl
  | some fv => rfl

/-- The last snapshot is found before any other with its identifier. -/
theorem VersionManager.restoreVersion_insert (m : VersionManager) (fileName : String)
    (entry : VersionEntry) :
    (m.insert fileName entry).restoreVersion fileName entry.versionId = .ok entry.manifest := by
  simp [restoreVersion, getVersion_eq, listVersions_insert]

theorem VersionManager.listVersions_prune {m pruned : VersionManager}
    (found : m.prune fileName maxVersions = .ok (pruned, count)) (other : String) :
    pruned.listVersions other =
      if other = fileName then (m.listVersions other).take maxVersions
      else m.listVersions other := by
  rw [prune] at found
  split at found
  · rename_i fv known
    cases found
    simp only [listVersions, VersionStore.versions_changeFile _ _ _ _ known,
      FileVersions.prune_versions]
    split
    · rename_i same
      simp [VersionStore.versions, same, known]
    · rfl
  · cases found

theorem VersionStore.versions_pruneAll (store : VersionStore) (maxVersions : Nat)
    (fileName : String) :
    (store.pruneAll maxVersions).1.versions fileName =
      (store.versions fileName).take maxVersions := by
  simp only [versions, pruneAll, get_change]
  cases store.get fileName with
  | none => simp
  | some fv => simp [FileVersions.prune_versions]

theorem VersionStore.versions_remove (store : VersionStore) (fileName other : String) :
    (store.remove fileName).versions other =
      if other = fileName then [] else store.versions other := by
  simp only [versions, get, remove, List.find?_filter]
  split
  · rename_i same
    have none : store.files.find? (fun _ => false) = none := List.find?_eq_none.mpr (by simp)
    simp [same, none]
  · rename_i different
    congr 2
    funext fv
    by_cases same : fv.fileName = other
    · simp [same, different]
    · simp [same]

theorem versionId_injective (same : versionId a x = versionId b y) : a = b ∧ x = y := by
  have texts := congrArg String.toList same
  have dash : "-".toList = ['-'] := rfl
  simp only [versionId, formatTimestamp, String.toList_append, String.toList_ofList,
    List.append_assoc, dash, List.singleton_append] at texts
  obtain ⟨times, -, numbers⟩ := (List.append_cons_inj_of_notMem (dash_notMem_timestampDigits a)
    (dash_notMem_padded 4 x.toNat)).mp texts
  exact ⟨timestampDigits_injective times, UInt32.toNat_inj.mp (padded_injective numbers)⟩

/-- Identifiers that differ and are made of their own entry's fields. -/
structure Numbered (versions : List VersionEntry) : Prop where
  distinct : (versions.map VersionEntry.versionId).Nodup
  composed : ∀ e ∈ versions, e.versionId = versionId e.unixSecs e.seq

theorem Numbered.nil : Numbered [] := ⟨List.nodup_nil, by simp⟩

theorem Numbered.take (numbered : Numbered versions) (n : Nat) : Numbered (versions.take n) where
  distinct := numbered.distinct.sublist ((List.take_sublist n versions).map _)
  composed := fun e member => numbered.composed e (List.mem_of_mem_take member)

theorem Numbered.push (numbered : Numbered versions) (m : VersionManager)
    (fresh : ∀ e ∈ versions, ¬ (e.unixSecs = now ∧ e.seq = m.seqCounter.toUInt32)) :
    Numbered (m.entry manifest annotation now :: versions) where
  distinct := by
    refine List.nodup_cons.mpr ⟨?_, numbered.distinct⟩
    intro member
    obtain ⟨e, known, same⟩ := List.mem_map.mp member
    rw [numbered.composed e known] at same
    exact fresh e known (versionId_injective same)
  composed := by
    intro e member
    rcases List.mem_cons.mp member with rfl | member
    · rfl
    · exact numbered.composed e member

/-- With different identifiers the first match is the only one. -/
theorem Numbered.find (numbered : Numbered versions) (member : e ∈ versions) :
    versions.find? (fun v => v.versionId = e.versionId) = some e := by
  obtain ⟨found, known⟩ :
      ∃ found, versions.find? (fun v => v.versionId = e.versionId) = some found :=
    Option.isSome_iff_exists.mp (List.find?_isSome.mpr ⟨e, member, by simp⟩)
  have same := List.inj_on_of_nodup_map numbered.distinct (List.mem_of_find?_eq_some known) member
    (by simpa using List.find?_some known)
  rw [known, same]

structure Sound (s : System) : Prop where
  memory : ∀ fileName, Numbered (s.manager.listVersions fileName)
  database : ∀ db, s.db = some db → ∀ fileName, Numbered (db.versions fileName)
  present : ∀ k ∈ s.kept, k.2 ∈ s.manager.listVersions k.1

theorem Sound.restores (sound : Sound s) : s.Restores where
  manifest := by
    intro k kept
    have found := (sound.memory k.1).find (sound.present k kept)
    simp [VersionManager.restoreVersion, VersionManager.getVersion_eq, found]
  distinct := fun fileName => (sound.memory fileName).distinct

/-- Only the store, the file and the snapshots returned so far matter. -/
theorem Sound.of_same {s t : System} (sound : Sound s)
    (stores : t.manager.store = s.manager.store) (files : t.db = s.db) (kepts : t.kept = s.kept) :
    Sound t where
  memory := by simpa only [VersionManager.listVersions, stores] using sound.memory
  database := by simpa only [files] using sound.database
  present := by simpa only [VersionManager.listVersions, stores, kepts] using sound.present

theorem Sound.save (sound : Sound s) (written : Bool) : Sound (s.save written) := by
  rw [System.save]
  split
  · refine ⟨sound.memory, ?_, sound.present⟩
    intro db saved
    cases saved
    exact sound.memory
  · exact sound

theorem Sound.saveIfDirty (sound : Sound s) (written : Bool) : Sound (s.saveIfDirty written) :=
  Sound.save (s := { s with manager.dirty := true }) (sound.of_same rfl rfl rfl) written

theorem mem_keptAfter : k ∈ System.keptAfter s pruned maxVersions ↔
    k ∈ s.kept ∧ (pruned k.1 → k.2 ∉ (s.manager.listVersions k.1).drop maxVersions) := by
  simp only [System.keptAfter, List.mem_filter, decide_eq_true_eq, not_and]

theorem mem_take_of_notMem_drop {l : List VersionEntry} (member : e ∈ l) (kept : e ∉ l.drop n) :
    e ∈ l.take n := by
  rw [← List.take_append_drop n l] at member
  exact (List.mem_append.mp member).resolve_right kept

/-- Every returned snapshot that was not pruned or removed is still a version of
its file. -/
def Present (manager : VersionManager) (kept : List (String × VersionEntry)) : Prop :=
  ∀ k ∈ kept, k.2 ∈ manager.listVersions k.1

theorem Present.inserted (present : Present m kept) (fileName : String) (entry : VersionEntry) :
    Present (m.insert fileName entry) kept := by
  intro k returned
  rw [VersionManager.listVersions_insert]
  split
  · rename_i same
    exact List.mem_cons_of_mem _ (same ▸ present k returned)
  · exact present k returned

theorem Present.returned (present : Present m kept) (member : entry ∈ m.listVersions fileName) :
    Present m ((fileName, entry) :: kept) := by
  intro k returned
  rcases List.mem_cons.mp returned with rfl | returned
  · exact member
  · exact present k returned

theorem Present.pruned {s : System} (present : Present s.manager s.kept) {manager : VersionManager}
    {selected : String → Bool} (shorter : ∀ fileName, manager.listVersions fileName =
      if selected fileName then (s.manager.listVersions fileName).take maxVersions
      else s.manager.listVersions fileName) :
    Present manager (s.keptAfter selected maxVersions) := by
  intro k kept
  obtain ⟨returned, left⟩ := mem_keptAfter.mp kept
  rw [shorter]
  split
  · rename_i chosen
    exact mem_take_of_notMem_drop (present k returned) (left chosen)
  · exact present k returned

theorem Present.removed (present : Present m kept) (fileName : String) :
    Present { m with store := m.store.remove fileName } (kept.filter fun k => k.1 ≠ fileName) := by
  intro k left
  obtain ⟨returned, other⟩ := List.mem_filter.mp left
  show k.2 ∈ (m.store.remove fileName).versions k.1
  rw [VersionStore.versions_remove, if_neg (by simpa using other)]
  exact present k returned

theorem Sound.pruned (sound : Sound s) {manager : VersionManager} {selected : String → Bool}
    (shorter : ∀ fileName, manager.listVersions fileName =
      if selected fileName then (s.manager.listVersions fileName).take maxVersions
      else s.manager.listVersions fileName) (count : Nat) :
    Sound (s.pruned manager count (s.keptAfter selected maxVersions)) := by
  have after : Sound { s with manager := manager, kept := s.keptAfter selected maxVersions } := by
    refine ⟨?_, sound.database, Present.pruned sound.present shorter⟩
    intro fileName
    show Numbered (manager.listVersions fileName)
    rw [shorter]
    split
    · exact (sound.memory fileName).take maxVersions
    · exact sound.memory fileName
  rw [System.pruned]
  split
  · exact after.of_same rfl rfl rfl
  · exact after

theorem Sound.inserted (sound : Sound s)
    (fresh : Fresh s (.createSnapshot fileName manifest annotation now written)) :
    Sound { s with manager := s.manager.insert fileName (s.manager.entry manifest annotation now),
                   clock := now } where
  memory := by
    intro other
    show Numbered ((s.manager.insert fileName _).listVersions other)
    rw [VersionManager.listVersions_insert]
    split
    · exact (sound.memory fileName).push s.manager fresh
    · exact sound.memory other
  database := sound.database
  present := Present.inserted sound.present fileName _

theorem Sound.removed (sound : Sound s) (fileName : String) :
    Sound { s with manager.store := s.manager.store.remove fileName,
                   kept := s.kept.filter fun k => k.1 ≠ fileName } where
  memory := by
    intro other
    show Numbered ((s.manager.store.remove fileName).versions other)
    rw [VersionStore.versions_remove]
    split
    · exact .nil
    · exact sound.memory other
  database := sound.database
  present := Present.removed sound.present fileName

theorem Sound.returned (sound : Sound s) (member : entry ∈ s.manager.listVersions fileName) :
    Sound { s with kept := (fileName, entry) :: s.kept } where
  memory := sound.memory
  database := sound.database
  present := Present.returned sound.present member

theorem step_sound (sound : Sound s) (fresh : Fresh s action) (stepped : s.step action = some t) :
    Sound t := by
  cases action with
  | createSnapshot fileName manifest annotation now written =>
    simp only [System.step, Option.ite_none_right_eq_some] at stepped
    obtain ⟨-, stepped⟩ := stepped
    have inserted := sound.inserted fresh
    split at stepped
    · cases stepped
      exact inserted
    · cases stepped
      refine (inserted.returned ?_).saveIfDirty written
      show _ ∈ (s.manager.insert fileName _).listVersions fileName
      rw [VersionManager.listVersions_insert, if_pos rfl]
      exact List.mem_cons_self
  | pruneVersions fileName maxVersions =>
    simp only [System.step] at stepped
    split at stepped
    · rename_i pruned
      cases stepped
      refine sound.pruned ?_ _
      intro other
      simp [VersionManager.listVersions_prune pruned]
    · cases stepped
      exact sound
  | pruneAllVersions maxVersions =>
    cases stepped
    refine sound.pruned ?_ _
    intro other
    exact VersionStore.versions_pruneAll s.manager.store maxVersions other
  | removeFile fileName written =>
    simp only [System.step] at stepped
    split at stepped
    · split at stepped
      · cases stepped
        exact sound.removed fileName
      · cases stepped
        exact (sound.removed fileName).saveIfDirty written
    · cases stepped
      exact sound
  | save written =>
    cases stepped
    exact sound.save written
  | loadFromFile =>
    cases stepped
    refine ⟨?_, sound.database, fresh⟩
    intro fileName
    cases saved : s.db with
    | none => exact .nil
    | some db => exact sound.database db saved fileName

theorem start_sound (now : Nat) : Sound (System.start now) :=
  ⟨fun _ => .nil, fun _ missing => (nomatch missing), fun _ none => (nomatch none)⟩

/-- In every run whose snapshots get fresh numbers and are on disk at each
restart, every returned identifier restores what was stored under it. -/
theorem restores_of_fresh (now : Nat) (actions : List Action) (s : System)
    (run : Runs.exec System.step (System.start now) actions = some s)
    (fresh : Runs.Meets System.step Fresh (System.start now) actions) : s.Restores :=
  (Runs.guarded_invariant step_sound fresh run (start_sound now)).restores

def emptyManifest (fileSize : UInt64) : FileManifest where
  fileHash := List.Vector.replicate 32 0
  fileSize := fileSize
  chunks := []
  chunkSize := 4096

/-- A snapshot before a restart and one after it. -/
def twoSnapshots (first second : Nat) : List Action :=
  [.createSnapshot "report" (emptyManifest 1) "backup" first true, .loadFromFile,
    .createSnapshot "report" (emptyManifest 2) "backup" second true]

theorem twoSnapshots_run (first second : Nat) (later : first ≤ second) : ∃ s,
    Runs.exec System.step (System.start first) (twoSnapshots first second) = some s ∧
    s.kept = [("report", VersionManager.new.entry (emptyManifest 2) "backup" second),
      ("report", VersionManager.new.entry (emptyManifest 1) "backup" first)] ∧
    s.manager.restoreVersion "report" (versionId second 0) = .ok (emptyManifest 2) := by
  simp only [twoSnapshots, Runs.exec, System.step, System.start, Nat.le_refl, if_true,
    Option.bind_some, if_false, Bool.false_eq_true, System.saveIfDirty, System.save, later]
  exact ⟨_, rfl, rfl, VersionManager.restoreVersion_insert (.loadFromFile _) "report"
    (VersionManager.new.entry (emptyManifest 2) "backup" second)⟩

theorem restores_of_fresh_later : ∃ s,
    Runs.exec System.step (System.start 0) (twoSnapshots 0 1) = some s ∧ s.Restores := by
  obtain ⟨s, run, -⟩ := twoSnapshots_run 0 1 (by decide)
  exact ⟨s, run, restores_of_fresh 0 (twoSnapshots 0 1) s run (by decide)⟩

/-- The counter starts again after a restart, so a snapshot in the second of an
earlier one takes its identifier and hides it. -/
theorem snapshot_hidden : ∃ s,
    Runs.exec System.step (System.start 0) (twoSnapshots 0 0) = some s ∧ ¬ s.Restores := by
  obtain ⟨s, run, kept, restored⟩ := twoSnapshots_run 0 0 (by decide)
  refine ⟨s, run, fun restores => ?_⟩
  have first := restores.manifest ("report", VersionManager.new.entry (emptyManifest 1) "backup" 0)
    (by simp [kept])
  exact absurd (Except.ok.inj (restored.symm.trans first)) (by decide)

end LanLink.Version
