import LanLink.Storage.Incremental

/-! What a target has received when an upload reports success, over every
sequence of uploads and downloads. -/
namespace LanLink.Incremental
open Words Maps Chunk Diff

section
variable (sha256 : Bytes → Hash)

/-- The block at an index is not the one the manifest lists there. -/
def Lacks (remote : FileManifest) (i : Nat) (block : Bytes) : Prop :=
  (remote.chunks[i]?).map ChunkMeta.hash ≠ some (sha256 block)

/-- The manifest of the content was sent, with every block the target lacked. -/
def Upload.Carries (u : Upload) (e : BlockDiffEngine) (data : Bytes) : Prop :=
  ∃ manifest chunks, e.chunker.chunkData sha256 data = some (manifest, chunks) ∧
    u.manifest = some manifest ∧
    ∀ i block, chunks[i]? = some block → Lacks sha256 u.remote i block →
      ∃ index : UInt32, index.toNat = i ∧ (index, block) ∈ u.blocks

/-- The target received the content under the name, and nothing was sent to it
under this name since. -/
def Reached (e : BlockDiffEngine) (log : List Upload) (target name : String) (data : Bytes) :
    Prop :=
  ∃ before u after, log = before ++ u :: after ∧ u.target = target ∧ u.fileName = name ∧
    u.Carries sha256 e data ∧
    ∀ later ∈ after, later.target ≠ target ∨ later.fileName ≠ name

/-- What a call of `syncFile` did. -/
inductive Synced (s : IncrementalSync) (localPath target : String) (input : UploadInput) :
    IncrementalSync → Option Upload → Except String SyncResult → Prop
  | refused (error : String) : Synced s localPath target input s none (.error error)
  | skipped (file : input.file = .ok data)
      (known : s.inSync (fileName localPath) (sha256 data) = true) (result : SyncResult) :
      Synced s localPath target input s none (.ok result)
  | brokenOff (remote : FileManifest) (blocks : List (UInt32 × Bytes)) (error : String) :
      Synced s localPath target input s
        (some ⟨target, fileName localPath, remote, blocks, none⟩) (.error error)
  | completed (file : input.file = .ok data)
      (fresh : s.inSync (fileName localPath) (sha256 data) = false)
      (answered : input.manifest = .ok reply)
      (split : s.diffEngine.chunker.chunkData sha256 data = some (manifest, chunks))
      (compared : s.diffEngine.diffFiles sha256 (s.remoteManifest reply) data = some (.ok diff))
      (sent : sendBlocks chunks input.failure diff.changedBlocks [] = some (blocks, none))
      (result : SyncResult) :
      Synced s localPath target input
        (s.upsert (fileName localPath) manifest.fileHash manifest.fileSize input.finish)
        (some ⟨target, fileName localPath, s.remoteManifest reply, blocks, some manifest⟩)
        (.ok result)

end

theorem chunkData_fileHash {c : Chunker} (split : c.chunkData sha256 data = some (manifest, chunks)) :
    manifest.fileHash = sha256 data := by
  obtain ⟨-, rfl, -⟩ := chunkData_eq_some.mp split
  rfl

theorem syncFile_synced {s : IncrementalSync}
    (ran : s.syncFile sha256 localPath target input = some (after, upload, result)) :
    Synced sha256 s localPath target input after upload result := by
  rw [IncrementalSync.syncFile] at ran
  cases file : input.file with
  | error error =>
    simp only [file, Option.some.injEq, Prod.mk.injEq] at ran
    obtain ⟨rfl, rfl, rfl⟩ := ran
    exact .refused _
  | ok data =>
    simp only [file, Option.bind_eq_bind] at ran
    obtain ⟨⟨manifest, chunks⟩, split, ran⟩ := Option.bind_eq_some_iff.mp ran
    have hash := chunkData_fileHash split
    dsimp only at ran
    rw [hash] at ran
    cases known : s.inSync (fileName localPath) (sha256 data) with
    | true =>
      simp only [known, if_true] at ran
      cases ran
      exact .skipped file known _
    | false =>
      simp only [known, Bool.false_eq_true, if_false] at ran
      cases answered : input.manifest with
      | error error =>
        simp only [answered] at ran
        cases ran
        exact .refused _
      | ok reply =>
        simp only [answered] at ran
        obtain ⟨compared | diff, diffed, ran⟩ := Option.bind_eq_some_iff.mp ran
        · cases ran
          exact .refused _
        · dsimp only at ran
          obtain ⟨⟨blocks, failed⟩, sent, ran⟩ := Option.bind_eq_some_iff.mp ran
          cases failed with
          | some error =>
            cases ran
            exact .brokenOff _ _ _
          | none =>
            dsimp only at ran
            cases last : input.failure blocks.length with
            | some error =>
              rw [last] at ran
              cases ran
              exact .brokenOff _ _ _
            | none =>
              rw [last, ← hash] at ran
              cases ran
              exact .completed file known answered split diffed sent _

/-- A block that the target lacks is looked at and found changed. -/
theorem compareBlock_lacking {outcome : Option BlockDiff} (positive : 0 < chunkSize)
    (fits : data.length + chunkSize < 2 ^ 64) (inside : i < Blocks.count chunkSize data.length)
    (lacks : Lacks sha256 remote i (Blocks.block chunkSize data i))
    (found : compareBlock sha256 chunkSize remote.chunks data
      (Blocks.count chunkSize data.length) i = some outcome) :
    ∃ b, outcome = some b ∧ b.index = i.toUInt32 ∧ b.transferred = true := by
  rw [compareBlock] at found
  rw [decide_eq_true inside, localSlice_eq positive fits inside] at found
  cases listed : remote.chunks[i]? with
  | none =>
    rw [listed] at found
    cases found
    exact ⟨_, rfl, rfl, rfl⟩
  | some entry =>
    have different : sha256 (Blocks.block chunkSize data i) ≠ entry.hash := by
      intro same
      exact lacks (by rw [listed, Option.map_some, same])
    simp only [listed, Option.bind_eq_bind, Option.bind_some, if_neg different] at found
    cases found
    exact ⟨_, rfl, rfl, rfl⟩

theorem diffFiles_lacking {e : BlockDiffEngine} (fits : data.length + e.chunkSize < 2 ^ 64)
    (few : Blocks.count e.chunkSize data.length < 2 ^ 32) (different : remote.fileHash ≠ sha256 data)
    (compared : e.diffFiles sha256 remote data = some (.ok diff))
    (inside : i < Blocks.count e.chunkSize data.length)
    (lacks : Lacks sha256 remote i (Blocks.block e.chunkSize data i)) :
    ∃ b ∈ diff.changedBlocks, b.index = i.toUInt32 ∧ b.transferred = true := by
  rw [BlockDiffEngine.diffFiles] at compared
  split at compared
  · cases compared
  rw [if_neg different.symm, numChunks_eq e.positive fits] at compared
  simp only [Option.bind_eq_bind, Option.bind_some] at compared
  obtain ⟨rounds, looped, done⟩ := Option.bind_eq_some_iff.mp compared
  cases done
  have reached : i ∈ List.range (max remote.chunks.length.toUInt32
      (Blocks.count e.chunkSize data.length).toUInt32).toNat := by
    rw [List.mem_range, toNat_max, toUInt32_toNat few]
    exact Nat.lt_of_lt_of_le inside (Nat.le_max_right _ _)
  obtain ⟨outcome, member, found⟩ := Blocks.mapM_mem looped reached
  obtain ⟨b, rfl, index, transferred⟩ := compareBlock_lacking e.positive fits inside lacks found
  exact ⟨b, List.mem_filterMap.mpr ⟨some b, member, rfl⟩, index, transferred⟩

/-- A loop that ends without a failure has sent every block it had to. -/
theorem sendBlocks_sent {failure : Nat → Option String}
    (ran : sendBlocks chunks failure changed sent = some (blocks, none)) :
    sent ⊆ blocks ∧ ∀ b ∈ changed, b.transferred = true →
      ∃ data, chunks[b.index.toNat]? = some data ∧ (b.index, data) ∈ blocks := by
  induction changed generalizing sent with
  | nil =>
    cases ran
    exact ⟨List.Subset.refl _, by simp⟩
  | cons b rest ih =>
    rw [sendBlocks] at ran
    split at ran
    · obtain ⟨data, present, ran⟩ := Option.bind_eq_some_iff.mp ran
      split at ran
      · cases ran
      · obtain ⟨kept, others⟩ := ih ran
        refine ⟨fun block member => kept (List.mem_append_left _ member), ?_⟩
        intro other member transferred
        rcases List.mem_cons.mp member with rfl | member
        · exact ⟨data, present, kept (by simp)⟩
        · exact others other member transferred
    · rename_i stays
      obtain ⟨kept, others⟩ := ih ran
      refine ⟨kept, ?_⟩
      intro other member transferred
      rcases List.mem_cons.mp member with rfl | member
      · exact absurd transferred stays
      · exact others other member transferred

section
variable (sha256 : Bytes → Hash)

/-- The remote manifest is one from which the missing blocks follow: with the hash
of the file it lists all its blocks, and otherwise the blocks have 32-bit numbers. -/
def Consistent (e : BlockDiffEngine) (remote : FileManifest) (data : Bytes) : Prop :=
  if remote.fileHash = sha256 data then
    ∀ i < Blocks.count e.chunkSize data.length,
      ¬ Lacks sha256 remote i (Blocks.block e.chunkSize data i)
  else Blocks.count e.chunkSize data.length < 2 ^ 32

end

theorem Synced.carries {s : IncrementalSync}
    (split : s.diffEngine.chunker.chunkData sha256 data = some (manifest, chunks))
    (compared : s.diffEngine.diffFiles sha256 remote data = some (.ok diff))
    (sent : sendBlocks chunks answers diff.changedBlocks [] = some (blocks, none))
    (consistent : Consistent sha256 s.diffEngine remote data) (target name : String) :
    Upload.Carries sha256 ⟨target, name, remote, blocks, some manifest⟩ s.diffEngine data := by
  refine ⟨manifest, chunks, split, rfl, ?_⟩
  intro i block present lacks
  obtain ⟨fits, -, rfl⟩ := chunkData_eq_some.mp split
  have inside : i < Blocks.count s.diffEngine.chunkSize data.length := by
    have bound := (List.getElem?_eq_some_iff.mp present).1
    rwa [Blocks.blocks_length] at bound
  cases Option.some.inj ((Blocks.blocks_getElem? data inside).symm.trans present)
  rw [Consistent] at consistent
  split at consistent
  · exact absurd lacks (consistent i inside)
  · rename_i different
    obtain ⟨b, changed, index, transferred⟩ :=
      diffFiles_lacking fits consistent different compared inside lacks
    obtain ⟨piece, taken, delivered⟩ := (sendBlocks_sent sent).2 b changed transferred
    have number : b.index.toNat = i := by
      rw [index]
      exact toUInt32_toNat (Nat.lt_trans inside consistent)
    rw [number] at taken
    cases Option.some.inj (present.symm.trans taken)
    exact ⟨b.index, number, delivered⟩

/-- The call that wrote an entry of the synchronisation state. -/
inductive Writer where
  | upload (target : String) (data : Bytes)
  | download
  deriving DecidableEq

/-- The node with the uploads it made. `writers` has the call that wrote each entry
of the state last, and `brokenOff` the targets and names whose last upload failed
on the way. -/
structure Node where
  sync : IncrementalSync
  log : List Upload
  writers : Map String Writer
  brokenOff : List (String × String)

def Node.new (e : BlockDiffEngine) : Node := ⟨⟨e, ∅⟩, [], ∅, []⟩

inductive Call where
  | syncFile (localPath remoteTarget : String) (input : UploadInput)
  | downloadFile (remoteTarget remotePath localPath : String) (input : DownloadInput)

def UploadInput.content (input : UploadInput) : Bytes := input.file.toOption.getD []

/-- The record of an upload that ended in the state `sync`. -/
def Node.record (n : Node) (sync : IncrementalSync) (data : Bytes) : Option Upload → Node
  | none => { n with sync }
  | some u =>
    if u.manifest.isSome then
      { sync, log := n.log ++ [u]
        writers := n.writers.insert u.fileName (.upload u.target data)
        brokenOff := n.brokenOff.filter fun place => place ≠ (u.target, u.fileName) }
    else
      { n with sync, log := n.log ++ [u], brokenOff := (u.target, u.fileName) :: n.brokenOff }

section
variable (sha256 : Bytes → Hash)

def Node.step (n : Node) : Call → Option Node
  | .syncFile localPath remoteTarget input =>
    (n.sync.syncFile sha256 localPath remoteTarget input).map fun (sync, upload, _) =>
      n.record sync input.content upload
  | .downloadFile _ remotePath localPath input =>
    (n.sync.downloadFile sha256 remotePath localPath input).map fun d =>
      if d.written.isSome then
        { n with sync := d.sync, writers := n.writers.insert (fileName remotePath) .download }
      else { n with sync := d.sync }

/-- A call of `syncFile` that succeeds leaves the content at its target. -/
def Delivers (n : Node) : Call → Prop
  | .syncFile localPath remoteTarget input =>
    ∀ data after upload result, input.file = .ok data →
      n.sync.syncFile sha256 localPath remoteTarget input = some (after, upload, .ok result) →
      Reached sha256 n.sync.diffEngine (n.log ++ upload.toList) remoteTarget (fileName localPath)
        data
  | .downloadFile .. => True

/-- A call that skips the upload finds an entry that an upload of the content to the
same target wrote, with no later one broken off; a call that does not skip it gets
a consistent manifest. -/
def Justified (n : Node) : Call → Prop
  | .syncFile localPath remoteTarget input =>
    ∀ data, input.file = .ok data →
      if n.sync.inSync (fileName localPath) (sha256 data) then
        n.writers.lookup (fileName localPath) = some (.upload remoteTarget data) ∧
          (remoteTarget, fileName localPath) ∉ n.brokenOff
      else
        ∀ reply, input.manifest = .ok reply →
          Consistent sha256 n.sync.diffEngine (n.sync.remoteManifest reply) data
  | .downloadFile .. => True

/-- An entry that an upload wrote, and no later one made doubtful, is true of its target. -/
structure Tracked (e : BlockDiffEngine) (n : Node) : Prop where
  engine : n.sync.diffEngine = e
  reached : ∀ target name data, n.writers.lookup name = some (.upload target data) →
    (target, name) ∉ n.brokenOff → Reached sha256 e n.log target name data

end

theorem Reached.append (reached : Reached sha256 e log target name data)
    (elsewhere : u.target ≠ target ∨ u.fileName ≠ name) :
    Reached sha256 e (log ++ [u]) target name data := by
  obtain ⟨before, sent, after, rfl, place, named, carries, quiet⟩ := reached
  refine ⟨before, sent, after ++ [u], by simp, place, named, carries, ?_⟩
  intro later member
  rcases List.mem_append.mp member with member | last
  · exact quiet later member
  · rw [List.mem_singleton.mp last]
    exact elsewhere

theorem reached_last (carries : u.Carries sha256 e data) :
    Reached sha256 e (log ++ [u]) u.target u.fileName data :=
  ⟨log, u, [], rfl, rfl, rfl, carries, by simp⟩

theorem Tracked.record (tracked : Tracked sha256 e n) (engine : sync.diffEngine = e)
    (carries : ∀ u, upload = some u → u.manifest.isSome → u.Carries sha256 e data) :
    Tracked sha256 e (n.record sync data upload) := by
  cases upload with
  | none => exact ⟨engine, tracked.reached⟩
  | some u =>
    unfold Node.record
    dsimp only
    split
    · rename_i completed
      refine ⟨engine, fun target name content written sound => ?_⟩
      by_cases same : name = u.fileName
      · subst same
        rw [AList.lookup_insert] at written
        cases written
        exact reached_last (carries u rfl completed)
      · rw [AList.lookup_insert_ne same] at written
        refine (tracked.reached target name content written ?_).append (.inr (Ne.symm same))
        intro broken
        exact sound (List.mem_filter.mpr ⟨broken, by simp [same]⟩)
    · refine ⟨engine, fun target name content written sound => ?_⟩
      rw [List.mem_cons, not_or] at sound
      apply (tracked.reached target name content written sound.2).append
      by_contra both
      rw [not_or, not_not, not_not] at both
      exact sound.1 (Prod.ext both.1.symm both.2.symm)

/-- A download changes one entry at most. -/
theorem downloadFile_sync {s : IncrementalSync}
    (ran : s.downloadFile sha256 remotePath localPath input = some d) :
    d.sync = s ∨ ∃ hash size, d.sync = s.upsert (fileName remotePath) hash size input.finish := by
  obtain ⟨-, same, -⟩ | ⟨reply, kept, blocks, ordered, restored, result, -, -, -, -, -, changed, -⟩ :=
    downloadFile_cases ran
  · exact .inl same
  · exact .inr ⟨_, _, changed⟩

theorem Tracked.download (tracked : Tracked sha256 e n) (engine : sync.diffEngine = e)
    (name : String) :
    Tracked sha256 e { n with sync, writers := n.writers.insert name .download } := by
  refine ⟨engine, fun target other data written sound => ?_⟩
  by_cases same : other = name
  · subst same
    rw [AList.lookup_insert] at written
    cases written
  · rw [AList.lookup_insert_ne same] at written
    exact tracked.reached target other data written sound

theorem content_eq {input : UploadInput} (file : input.file = .ok data) : input.content = data := by
  rw [UploadInput.content, file]
  rfl

theorem Synced.engine (synced : Synced sha256 s localPath target input after upload result) :
    after.diffEngine = s.diffEngine := by
  cases synced <;> rfl

/-- A call that completes an upload carries its content. -/
theorem Synced.completes {s : IncrementalSync} {u : Upload}
    (synced : Synced sha256 s localPath target input after (some u) result)
    (consistent : ∀ data reply, input.file = .ok data →
      s.inSync (fileName localPath) (sha256 data) = false → input.manifest = .ok reply →
      Consistent sha256 s.diffEngine (s.remoteManifest reply) data)
    (completed : u.manifest.isSome) : u.Carries sha256 s.diffEngine input.content := by
  cases synced with
  | brokenOff => cases completed
  | completed file fresh answered split compared sent =>
    rw [content_eq file]
    exact Synced.carries split compared sent (consistent _ _ file fresh answered) _ _

theorem Justified.consistent (justified : Justified sha256 n (.syncFile localPath target input)) :
    ∀ data reply, input.file = .ok data →
      n.sync.inSync (fileName localPath) (sha256 data) = false → input.manifest = .ok reply →
      Consistent sha256 n.sync.diffEngine (n.sync.remoteManifest reply) data := by
  intro data reply file fresh answered
  have condition := justified data file
  rw [if_neg (Bool.not_eq_true _ ▸ fresh)] at condition
  exact condition reply answered

theorem Tracked.step (tracked : Tracked sha256 e n) (justified : Justified sha256 n call)
    (stepped : n.step sha256 call = some after) : Tracked sha256 e after := by
  cases call with
  | syncFile localPath target input =>
    obtain ⟨⟨sync, upload, result⟩, ran, rfl⟩ := Option.map_eq_some_iff.mp stepped
    have synced := syncFile_synced ran
    apply tracked.record (synced.engine.trans tracked.engine)
    rintro u rfl completed
    rw [← tracked.engine]
    exact synced.completes justified.consistent completed
  | downloadFile remoteTarget remotePath localPath input =>
    obtain ⟨d, ran, rfl⟩ := Option.map_eq_some_iff.mp stepped
    have engine : d.sync.diffEngine = e := by
      rcases downloadFile_sync ran with same | ⟨hash, size, changed⟩
      · rw [same, tracked.engine]
      · rw [changed]
        exact tracked.engine
    split
    · exact tracked.download engine (fileName remotePath)
    · exact ⟨engine, tracked.reached⟩

theorem Tracked.delivers (tracked : Tracked sha256 e n) (justified : Justified sha256 n call) :
    Delivers sha256 n call := by
  cases call with
  | downloadFile => trivial
  | syncFile localPath target input =>
    intro data after upload result file ran
    have synced := syncFile_synced ran
    cases upload with
    | none =>
      have condition := justified data file
      have known : n.sync.inSync (fileName localPath) (sha256 data) = true := by
        cases synced with
        | skipped other known =>
          cases other.symm.trans file
          exact known
      rw [if_pos known] at condition
      rw [Option.toList_none, List.append_nil, tracked.engine]
      exact tracked.reached _ _ _ condition.1 condition.2
    | some u =>
      have completes := synced.completes justified.consistent
      rw [content_eq file] at completes
      cases synced with
      | completed => exact reached_last (completes rfl)

theorem tracked_new (sha256 : Bytes → Hash) (e : BlockDiffEngine) : Tracked sha256 e (.new e) where
  engine := rfl
  reached target name data written := by cases written

/-- Every upload that succeeds has reached its target, in every sequence of calls
whose skipped uploads are justified and whose answers are consistent. -/
theorem uploads_delivered (sha256 : Bytes → Hash) (e : BlockDiffEngine) (calls : List Call)
    (justified : Runs.Meets (Node.step sha256) (Justified sha256) (.new e) calls) :
    Runs.Meets (Node.step sha256) (Delivers sha256) (.new e) calls :=
  Runs.meets_guarded Tracked.step Tracked.delivers justified (tracked_new sha256 e)

/-- An upload of one byte to a node without the file, on a network without failures. -/
def firstUpload : UploadInput where
  file := .ok [1]
  manifest := .ok none
  failure _ := none
  start := 0
  finish := 0

theorem firstUpload_done
    (stepped : (Node.new .default).step shortDigest (.syncFile "a.bin" "B" firstUpload) = some n) :
    n.sync.inSync (fileName "a.bin") (shortDigest [1]) = true ∧
      n.writers.lookup (fileName "a.bin") = some (.upload "B" [1]) ∧ n.brokenOff = [] ∧
      n.log.map Upload.target = ["B"] := by
  have facts : ((Node.new .default).step shortDigest (.syncFile "a.bin" "B" firstUpload)).map
      (fun n => (n.sync.inSync (fileName "a.bin") (shortDigest [1]),
        n.writers.lookup (fileName "a.bin"), n.brokenOff, n.log.map Upload.target)) =
      some (true, some (.upload "B" [1]), [], ["B"]) := by decide +kernel
  rw [stepped] at facts
  simpa only [Option.map_some, Option.some.injEq, Prod.mk.injEq] using facts

theorem uploads_delivered_again :
    Runs.Meets (Node.step shortDigest) (Justified shortDigest) (.new .default)
        [.syncFile "a.bin" "B" firstUpload, .syncFile "a.bin" "B" firstUpload] ∧
      Runs.Meets (Node.step shortDigest) (Delivers shortDigest) (.new .default)
        [.syncFile "a.bin" "B" firstUpload, .syncFile "a.bin" "B" firstUpload] := by
  have justified : Runs.Meets (Node.step shortDigest) (Justified shortDigest) (.new .default)
      [.syncFile "a.bin" "B" firstUpload, .syncFile "a.bin" "B" firstUpload] := by
    refine ⟨?_, fun first stepped => ⟨?_, fun _ _ => trivial⟩⟩
    · intro data file
      cases file
      rw [if_neg (by decide)]
      intro reply answered
      cases answered
      rw [Consistent, if_neg (by decide)]
      decide
    · obtain ⟨known, written, sound, -⟩ := firstUpload_done stepped
      intro data file
      cases file
      rw [if_pos known]
      exact ⟨written, by simp [sound]⟩
  exact ⟨justified, uploads_delivered _ _ _ justified⟩

/-- The same file for a second node: the state has its hash, and nothing is sent. -/
theorem second_target_skipped :
    ¬ Runs.Meets (Node.step shortDigest) (Delivers shortDigest) (.new .default)
      [.syncFile "a.bin" "B" firstUpload, .syncFile "a.bin" "C" firstUpload] := by
  rintro ⟨-, later⟩
  obtain ⟨first, stepped⟩ : ∃ n, (Node.new .default).step shortDigest
      (.syncFile "a.bin" "B" firstUpload) = some n := Option.isSome_iff_exists.mp (by decide +kernel)
  obtain ⟨-, -, -, targets⟩ := firstUpload_done stepped
  have answer : (((Node.new .default).step shortDigest (.syncFile "a.bin" "B" firstUpload)).bind
      fun n => n.sync.syncFile shortDigest "a.bin" "C" firstUpload).map
        (fun outcome => (outcome.2.1, outcome.2.2.toOption)) =
      some (none, some ⟨1, 0, 0, true, 0⟩) := by decide +kernel
  rw [stepped, Option.bind_some] at answer
  obtain ⟨⟨sync, upload, result⟩, skipped, shape⟩ := Option.map_eq_some_iff.mp answer
  obtain ⟨rfl, success⟩ := Prod.mk.inj shape
  obtain ⟨result, rfl⟩ : ∃ r, result = .ok r := by
    cases result with
    | error error => cases success
    | ok r => exact ⟨r, rfl⟩
  obtain ⟨before, u, after, log, place, -⟩ := (later first stepped).1 [1] _ _ _ rfl skipped
  rw [Option.toList_none, List.append_nil] at log
  have sent : u.target ∈ first.log.map Upload.target := List.mem_map_of_mem (by simp [log])
  rw [targets, place] at sent
  exact absurd sent (by decide)

end LanLink.Incremental
