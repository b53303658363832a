import LanLink.Core.Maps
import LanLink.Core.Runs
import LanLink.Storage.DiffPatch

/-! Incremental upload and download of files. What the outside answers is an
argument of a call: the content of the file, the manifest of the remote node,
the failures of messages, the blocks it returns, and the clock. The two nodes'
transport only carries the messages. `none` is an abort. -/
namespace LanLink.Incremental
open Words Maps Chunk Diff

structure SyncResult where
  totalBlocks : UInt32
  transferredBlocks : UInt32
  bytesTransferred : UInt64
  alreadyInSync : Bool
  elapsedSecs : UInt64
  deriving DecidableEq

structure SyncStateEntry where
  fileName : String
  lastSyncedHash : Hash
  lastSyncedAt : UInt64
  lastSize : UInt64
  deriving DecidableEq

/-- Both constructors give the chunker and the engine one block size. -/
structure IncrementalSync where
  diffEngine : BlockDiffEngine
  state : Map String SyncStateEntry

def IncrementalSync.new : IncrementalSync := ⟨.default, ∅⟩

def IncrementalSync.withChunkSize (chunkSize : Nat) (word : chunkSize < 2 ^ 64) :
    IncrementalSync :=
  ⟨.new chunkSize word, ∅⟩

def IncrementalSync.upsert (s : IncrementalSync) (fileName : String) (hash : Hash)
    (size now : UInt64) : IncrementalSync :=
  { s with state := s.state.insert fileName ⟨fileName, hash, now, size⟩ }

/-- The last component of a path. Empty components and those of one dot do not
count; a path without a name is its own name. -/
def fileName (path : String) : String :=
  let components := (path.toList.splitOn '/').filter fun part => part ≠ [] ∧ part ≠ ['.']
  match components.getLast? with
  | none => path
  | some part => if part = ['.', '.'] then path else String.ofList part

/-- A remote node without the file answers `none`. -/
def IncrementalSync.remoteManifest (s : IncrementalSync) (reply : Option FileManifest) :
    FileManifest :=
  reply.getD ⟨zeroHash, 0, [], s.diffEngine.chunkSize.toUInt64⟩

/-- What a call sends to a node under a name. The manifest is missing when a
message failed before. -/
structure Upload where
  target : String
  fileName : String
  remote : FileManifest
  blocks : List (UInt32 × Bytes)
  manifest : Option FileManifest
  deriving DecidableEq

/-- The answers of the outside to an upload; `failure n` is the error of its
message number `n`. -/
structure UploadInput where
  file : Except String Bytes
  manifest : Except String (Option FileManifest)
  failure : Nat → Option String
  start : UInt64
  finish : UInt64

/-- The loop over the changed blocks, with the blocks sent so far. -/
def sendBlocks (chunks : List Bytes) (failure : Nat → Option String) :
    List BlockDiff → List (UInt32 × Bytes) → Option (List (UInt32 × Bytes) × Option String)
  | [], sent => some (sent, none)
  | block :: rest, sent =>
    if block.transferred then do
      let data ← chunks[block.index.toNat]?
      match failure sent.length with
      | some error => return (sent, some s!"failed to send block {block.index}: {error}")
      | none => sendBlocks chunks failure rest (sent ++ [(block.index, data)])
    else sendBlocks chunks failure rest sent

def bytesOf (blocks : List (UInt32 × Bytes)) : UInt64 :=
  (blocks.map (List.length ∘ Prod.snd)).sum.toUInt64

def elapsed (start finish : UInt64) : UInt64 := if start ≤ finish then finish - start else 0

section
variable (sha256 : Bytes → Hash)

/-- The state says that the file was synchronised with this hash. -/
def IncrementalSync.inSync (s : IncrementalSync) (fileName : String) (hash : Hash) : Bool :=
  match s.state.lookup fileName with
  | some entry => entry.lastSyncedHash = hash
  | none => false

def IncrementalSync.syncFile (s : IncrementalSync) (localPath remoteTarget : String)
    (input : UploadInput) :
    Option (IncrementalSync × Option Upload × Except String SyncResult) :=
  let name := fileName localPath
  match input.file with
  | .error error => some (s, none, .error ("failed to read '" ++ localPath ++ "': " ++ error))
  | .ok data => do
    let (localManifest, localChunks) ← s.diffEngine.chunker.chunkData sha256 data
    let total := localManifest.chunks.length.toUInt32
    if s.inSync name localManifest.fileHash then
      return (s, none, .ok ⟨total, 0, 0, true, elapsed input.start input.finish⟩)
    match input.manifest with
    | .error error => return (s, none, .error error)
    | .ok reply =>
      let remote := s.remoteManifest reply
      match ← s.diffEngine.diffFiles sha256 remote data with
      | .error error => return (s, none, .error ("diff computation failed: " ++ error))
      | .ok diff =>
        let (blocks, failed) ← sendBlocks localChunks input.failure diff.changedBlocks []
        let upload := ⟨remoteTarget, name, remote, blocks, none⟩
        match failed with
        | some error => return (s, some upload, .error error)
        | none =>
          match input.failure blocks.length with
          | some error =>
            return (s, some upload, .error ("failed to send manifest: " ++ error))
          | none =>
            return (s.upsert name localManifest.fileHash localManifest.fileSize input.finish,
              some { upload with manifest := some localManifest },
              .ok ⟨total, blocks.length.toUInt32, bytesOf blocks, false,
                elapsed input.start input.finish⟩)

end

/-- The answers of the outside to a download; `localFile` is `none` when there is
no file at the path. -/
structure DownloadInput where
  manifest : Except String (Option FileManifest)
  localFile : Option (Except String Bytes)
  block : UInt32 → Except String Bytes
  write : Option String
  start : UInt64
  finish : UInt64

/-- What a download leaves: the state, the content that was written, the blocks
that were requested and the result. -/
structure Download where
  sync : IncrementalSync
  written : Option Bytes
  requested : List UInt32
  result : Except String SyncResult

def blockIndices (total : UInt32) : List UInt32 := (List.range total.toNat).map Nat.toUInt32

/-- The requests in order, up to the first that fails. -/
def requestBlocks (block : UInt32 → Except String Bytes) :
    List UInt32 → Map UInt32 Bytes → List UInt32 → Map UInt32 Bytes × List UInt32 × Option String
  | [], blocks, requested => (blocks, requested, none)
  | i :: rest, blocks, requested =>
    match block i with
    | .error error => (blocks, requested ++ [i], some error)
    | .ok data => requestBlocks block rest (blocks.insert i data) (requested ++ [i])

section
variable (sha256 : Bytes → Hash)

/-- The local chunks whose hash is the remote one, by their index. -/
def keptBlocks (remote : FileManifest) (chunks : List Bytes) : Map UInt32 Bytes :=
  chunks.zipIdx.foldl (fun kept (chunk, i) =>
    match remote.chunks[i]? with
    | some entry => if entry.hash = sha256 chunk then kept.insert i.toUInt32 chunk else kept
    | none => kept) ∅

def orderBlocks (blocks : Map UInt32 Bytes) : List UInt32 → Except String (List Bytes)
  | [] => .ok []
  | i :: rest =>
    match blocks.lookup i with
    | none => .error s!"missing block {i} after download — this should not happen"
    | some data => (orderBlocks blocks rest).map (data :: ·)

/-- The blocks at hand, or an error of reading or comparing the local file. -/
def IncrementalSync.localBlocks (s : IncrementalSync) (remote : FileManifest) (localPath : String) :
    Option (Except String Bytes) → Option (Except String (Map UInt32 Bytes))
  | none => some (.ok ∅)
  | some (.error error) =>
    some (.error ("failed to read local '" ++ localPath ++ "': " ++ error))
  | some (.ok data) => do
    match ← s.diffEngine.diffFiles sha256 remote data with
    | .error error => return .error ("diff computation failed: " ++ error)
    | .ok _ =>
      let (_, chunks) ← s.diffEngine.chunker.chunkData sha256 data
      return .ok (keptBlocks sha256 remote chunks)

def IncrementalSync.downloadFile (s : IncrementalSync) (remotePath localPath : String)
    (input : DownloadInput) : Option Download :=
  match input.manifest with
  | .error error => some ⟨s, none, [], .error error⟩
  | .ok reply => do
    let remote := s.remoteManifest reply
    let total := remote.chunks.length.toUInt32
    match ← s.localBlocks sha256 remote localPath input.localFile with
    | .error error => return ⟨s, none, [], .error error⟩
    | .ok kept =>
      let need := (blockIndices total).filter fun i => i ∉ kept
      let (blocks, requested, failed) := requestBlocks input.block need kept []
      match failed with
      | some error => return ⟨s, none, requested, .error error⟩
      | none =>
        match orderBlocks blocks (blockIndices total) with
        | .error error => return ⟨s, none, requested, .error error⟩
        | .ok ordered =>
          match ← Chunker.reassemble sha256 remote ordered with
          | .error error =>
            return ⟨s, none, requested, .error ("reassembly failed: " ++ error)⟩
          | .ok restored =>
            match input.write with
            | some error =>
              return ⟨s, none, requested,
                .error ("failed to write '" ++ localPath ++ "': " ++ error)⟩
            | none =>
              let bytes := (need.map fun i => (blocks.lookup i).elim 0 List.length).sum
              return ⟨s.upsert (fileName remotePath) remote.fileHash remote.fileSize input.finish,
                some restored, requested,
                .ok ⟨total, need.length.toUInt32, bytes.toUInt64, need.isEmpty,
                  elapsed input.start input.finish⟩⟩

variable {sha256}

/-- A download fails and changes nothing, or it gets through all of its stages. -/
theorem downloadFile_cases {s : IncrementalSync}
    (ran : s.downloadFile sha256 remotePath localPath input = some d) :
    ((∃ error, d.result = .error error) ∧ d.sync = s ∧ d.written = none) ∨
    ∃ reply kept blocks ordered restored result,
      let remote := s.remoteManifest reply
      let indices := blockIndices remote.chunks.length.toUInt32
      input.manifest = .ok reply ∧
      s.localBlocks sha256 remote localPath input.localFile = some (.ok kept) ∧
      requestBlocks input.block (indices.filter fun i => i ∉ kept) kept [] =
        (blocks, d.requested, none) ∧
      orderBlocks blocks indices = .ok ordered ∧
      Chunker.reassemble sha256 remote ordered = some (.ok restored) ∧
      d.sync = s.upsert (fileName remotePath) remote.fileHash remote.fileSize input.finish ∧
      d.written = some restored ∧ d.result = .ok result := by
  rw [IncrementalSync.downloadFile] at ran
  cases answered : input.manifest with
  | error error =>
    simp only [answered] at ran
    cases ran
    exact .inl ⟨⟨_, rfl⟩, rfl, rfl⟩
  | ok reply =>
    simp only [answered, Option.bind_eq_bind] at ran
    obtain ⟨refused | kept, found, ran⟩ := Option.bind_eq_some_iff.mp ran
    · cases ran
      exact .inl ⟨⟨_, rfl⟩, rfl, rfl⟩
    dsimp only at ran
    split at ran
    · cases ran
      exact .inl ⟨⟨_, rfl⟩, rfl, rfl⟩
    rename_i complete
    split at ran
    · cases ran
      exact .inl ⟨⟨_, rfl⟩, rfl, rfl⟩
    rename_i ordered inOrder
    obtain ⟨refused | restored, assembled, ran⟩ := Option.bind_eq_some_iff.mp ran
    · cases ran
      exact .inl ⟨⟨_, rfl⟩, rfl, rfl⟩
    dsimp only at ran
    split at ran
    · cases ran
      exact .inl ⟨⟨_, rfl⟩, rfl, rfl⟩
    · cases ran
      exact .inr ⟨reply, kept, _, ordered, restored, _, rfl, found,
        Prod.ext rfl (Prod.ext rfl complete), inOrder, assembled, rfl, rfl, rfl⟩

end

end LanLink.Incremental
