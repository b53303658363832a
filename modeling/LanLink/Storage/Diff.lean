import LanLink.Storage.Chunk

/-! Block-level comparison of a local file with a remote manifest. The loop
bound is the larger block count cut to 32 bits, as in the source; a block
beyond either end is an addition or a deletion. -/
namespace LanLink.Diff
open Words Chunk

def minDiffChunkSize : Nat := 4096

inductive BlockDiffStatus where
  | unchanged | modified | added | deleted
  deriving DecidableEq, Repr

structure BlockDiff where
  index : UInt32
  offset : UInt64
  size : UInt64
  status : BlockDiffStatus
  newHash : Hash
  oldHash : Hash
  deriving DecidableEq

structure FileDiff where
  fileName : String
  oldSize : UInt64
  newSize : UInt64
  changedBlocks : List BlockDiff
  unchangedCount : UInt32
  filesMatch : Bool

structure DiffReport where
  diff : FileDiff
  blocksToTransfer : UInt32
  bytesToTransfer : UInt64
  estimatedSecs : UInt64

/-- Small sizes are clamped, so every engine compares blocks of at least 4 KiB. -/
structure BlockDiffEngine where
  chunkSize : Nat
  minimum : minDiffChunkSize ≤ chunkSize
  word : chunkSize < 2 ^ 64

def BlockDiffEngine.new (chunkSize : Nat) (word : chunkSize < 2 ^ 64) : BlockDiffEngine :=
  ⟨max chunkSize minDiffChunkSize, Nat.le_max_right _ _, Nat.max_lt.mpr ⟨word, by decide⟩⟩

def BlockDiffEngine.default : BlockDiffEngine := ⟨defaultChunkSize, by decide, defaultChunkSize_word⟩

theorem BlockDiffEngine.positive (e : BlockDiffEngine) : 0 < e.chunkSize :=
  Nat.lt_of_lt_of_le (by decide) e.minimum

/-- The chunker that cuts at the engine's block boundaries. -/
def BlockDiffEngine.chunker (e : BlockDiffEngine) : Chunker := ⟨e.chunkSize, e.positive, e.word⟩

def zeroHash : Hash := fill 32 []

section
variable (sha256 : Bytes → Hash)

/-- The local block at an index, as both branches of the loop slice it. -/
def localSlice (chunkSize : Nat) (localData : Bytes) (i : Nat) : Option (Nat × Bytes) := do
  let start ← checkedMul 64 i chunkSize
  let stop ← checkedAdd 64 start chunkSize
  let piece ← slice localData start (min stop localData.length)
  return (start, piece)

/-- One round of the loop: `none` inside is an unchanged block. The last case
is the source's `unreachable!`. -/
def compareBlock (chunkSize : Nat) (remoteChunks : List ChunkMeta) (localData : Bytes)
    (localNumChunks i : Nat) : Option (Option BlockDiff) :=
  match remoteChunks[i]?, decide (i < localNumChunks) with
  | some remote, true => do
    let (_, piece) ← localSlice chunkSize localData i
    if sha256 piece = remote.hash then return none
    return some ⟨i.toUInt32, remote.offset, piece.length.toUInt64, .modified, sha256 piece, remote.hash⟩
  | some remote, false =>
    some (some ⟨i.toUInt32, remote.offset, 0, .deleted, zeroHash, remote.hash⟩)
  | none, true => do
    let (start, piece) ← localSlice chunkSize localData i
    return some ⟨i.toUInt32, start.toUInt64, piece.length.toUInt64, .added, sha256 piece, zeroHash⟩
  | none, false => none

/-- The count of unchanged blocks is a 32-bit counter that the loop bound keeps from overflowing. -/
def BlockDiffEngine.diffFiles (e : BlockDiffEngine) (remote : FileManifest) (localData : Bytes) :
    Option (Except String FileDiff) :=
  if remote.chunkSize.toNat ≠ e.chunkSize then
    some (.error s!"chunk size mismatch: manifest has {remote.chunkSize} bytes, engine has {e.chunkSize} bytes")
  else if sha256 localData = remote.fileHash then
    some (.ok { fileName := "", oldSize := remote.fileSize, newSize := localData.length.toUInt64,
                changedBlocks := [], unchangedCount := remote.chunks.length.toUInt32,
                filesMatch := true })
  else do
    let localNumChunks ← numChunks e.chunkSize localData
    let maxIndex := max remote.chunks.length.toUInt32 localNumChunks.toUInt32
    let rounds ← (List.range maxIndex.toNat).mapM
      (compareBlock sha256 e.chunkSize remote.chunks localData localNumChunks)
    return .ok { fileName := "", oldSize := remote.fileSize, newSize := localData.length.toUInt64,
                 changedBlocks := rounds.filterMap id,
                 unchangedCount := (rounds.count none).toUInt32, filesMatch := false }

end

/-- Only added and modified blocks travel. -/
def BlockDiff.transferred (b : BlockDiff) : Bool := b.status = .added || b.status = .modified

/-- One round of the report loop over the running block and byte totals. -/
def tally (totals : Nat × Nat) (b : BlockDiff) : Option (Nat × Nat) :=
  if b.transferred then do
    let blocks ← checkedAdd 32 totals.1 1
    let bytes ← checkedAdd 64 totals.2 b.size.toNat
    return (blocks, bytes)
  else some totals

def BlockDiffEngine.generateReport (_ : BlockDiffEngine) (diff : FileDiff) (fileName : String) :
    Option DiffReport := do
  let (blocks, bytes) ← diff.changedBlocks.foldlM tally (0, 0)
  let secs := if 0 < bytes then max (bytes / 1000000) 1 else 0
  return ⟨{ diff with fileName }, blocks.toUInt32, bytes.toUInt64, secs.toUInt64⟩

/-- What a round finds at an index, in terms of the two files. -/
def change (sha256 : Bytes → Hash) (chunkSize : Nat) (old new : Bytes) (i : Nat) :
    Option BlockDiff :=
  let oldHash := sha256 (Blocks.block chunkSize old i)
  let piece := Blocks.block chunkSize new i
  let offset := (i * chunkSize).toUInt64
  if i < Blocks.count chunkSize old.length then
    if i < Blocks.count chunkSize new.length then
      if sha256 piece = oldHash then none
      else some ⟨i.toUInt32, offset, piece.length.toUInt64, .modified, sha256 piece, oldHash⟩
    else some ⟨i.toUInt32, offset, 0, .deleted, zeroHash, oldHash⟩
  else some ⟨i.toUInt32, offset, piece.length.toUInt64, .added, sha256 piece, zeroHash⟩

theorem localSlice_eq (positive : 0 < chunkSize) (fits : data.length + chunkSize < 2 ^ 64)
    (present : i < Blocks.count chunkSize data.length) :
    localSlice chunkSize data i = some (i * chunkSize, Blocks.block chunkSize data i) := by
  have inside := (Blocks.lt_count positive i data.length).mp present
  have start : i * chunkSize < 2 ^ 64 := by omega
  have stop : i * chunkSize + chunkSize < 2 ^ 64 := by omega
  simp only [localSlice, checkedMul_of_lt start, checkedAdd_of_lt stop, bind, Option.bind_some,
    slice_block present, pure]

/-- Every round computes the change between the two files at its index. -/
theorem compareBlock_eq (sha256 : Bytes → Hash) (positive : 0 < chunkSize)
    (fits : new.length + chunkSize < 2 ^ 64)
    (within : i < max (Blocks.count chunkSize old.length) (Blocks.count chunkSize new.length)) :
    compareBlock sha256 chunkSize
        ((List.range (Blocks.count chunkSize old.length)).map (blockMeta sha256 chunkSize old))
        new (Blocks.count chunkSize new.length) i =
      some (change sha256 chunkSize old new i) := by
  by_cases remote : i < Blocks.count chunkSize old.length
  · have found : ((List.range (Blocks.count chunkSize old.length)).map
        (blockMeta sha256 chunkSize old))[i]? = some (blockMeta sha256 chunkSize old i) := by
      simp [remote]
    by_cases present : i < Blocks.count chunkSize new.length
    · simp only [compareBlock, found, present, decide_true, localSlice_eq positive fits present,
        bind, Option.bind_some, change, remote, if_true, blockMeta]
      split <;> rfl
    · simp [compareBlock, remote, present, change, blockMeta]
  · have present : i < Blocks.count chunkSize new.length := by omega
    have missing : ((List.range (Blocks.count chunkSize old.length)).map
        (blockMeta sha256 chunkSize old))[i]? = none := by simpa using remote
    simp only [compareBlock, missing, present, decide_true, localSlice_eq positive fits present,
      bind, Option.bind_some, change, remote, if_false, pure]

end LanLink.Diff
