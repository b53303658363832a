import LanLink.Core.Words
import LanLink.Core.Blocks

/-! File chunking. The digest is a parameter: nothing here depends on which
hash function it is. `usize` is 64 bits wide; its operators abort on overflow,
an out-of-range slice aborts, and so does reserving more than `isize::MAX`
bytes. `none` is such an abort, `some (.error _)` an error the source returns. -/
namespace LanLink.Chunk
open Words

abbrev Hash := List.Vector UInt8 32

def defaultChunkSize : Nat := 4 * 1024 * 1024

/-- The largest allocation, and so the largest slice, in bytes. -/
def isizeMax : Nat := 2 ^ 63 - 1

/-- A byte slice as the language guarantees it. -/
structure Slice where
  bytes : Bytes
  bound : bytes.length ≤ isizeMax

structure ChunkMeta where
  hash : Hash
  index : UInt32
  offset : UInt64
  size : UInt64
  deriving DecidableEq

structure FileManifest where
  fileHash : Hash
  fileSize : UInt64
  chunks : List ChunkMeta
  chunkSize : UInt64
  deriving DecidableEq

/-- Both constructors leave a positive `usize`. -/
structure Chunker where
  chunkSize : Nat
  positive : 0 < chunkSize
  word : chunkSize < 2 ^ 64

theorem defaultChunkSize_word : defaultChunkSize < 2 ^ 64 := by decide

def Chunker.new : Chunker := ⟨defaultChunkSize, by decide, defaultChunkSize_word⟩

def Chunker.withChunkSize (chunkSize : Nat) (word : chunkSize < 2 ^ 64) : Chunker :=
  if zero : chunkSize = 0 then .new else ⟨chunkSize, Nat.pos_of_ne_zero zero, word⟩

/-- `&data[start..stop]`. -/
def slice (data : Bytes) (start stop : Nat) : Option Bytes :=
  if start ≤ stop ∧ stop ≤ data.length then some ((data.drop start).take (stop - start)) else none

/-- The rounding-up division as the source computes it. -/
def numChunks (chunkSize : Nat) (data : Bytes) : Option Nat :=
  if data.isEmpty then some 0
  else do
    let sum ← checkedAdd 64 data.length chunkSize
    let top ← checkedSub sum 1
    return top / chunkSize

section
variable (sha256 : Bytes → Hash)

/-- One round of the splitting loop. -/
def chunkAt (chunkSize : Nat) (data : Bytes) (i : Nat) : Option (ChunkMeta × Bytes) := do
  let start ← checkedMul 64 i chunkSize
  let stop ← checkedAdd 64 start chunkSize
  let piece ← slice data start (min stop data.length)
  return (⟨sha256 piece, i.toUInt32, start.toUInt64, piece.length.toUInt64⟩, piece)

def Chunker.chunkData (c : Chunker) (data : Bytes) : Option (FileManifest × List Bytes) := do
  let rounds ← numChunks c.chunkSize data
  let pieces ← (List.range rounds).mapM (chunkAt sha256 c.chunkSize data)
  return (⟨sha256 data, data.length.toUInt64, pieces.map Prod.fst, c.chunkSize.toUInt64⟩,
    pieces.map Prod.snd)

/-- The first chunk whose length is not the recorded one, as the error text. -/
def sizeMismatch : List ChunkMeta → List Bytes → Option String
  | entry :: metas, data :: chunks =>
    if data.length.toUInt64 ≠ entry.size then
      some s!"chunk {entry.index} size mismatch: expected {entry.size}, got {data.length}"
    else sizeMismatch metas chunks
  | _, _ => none

def Chunker.reassemble (manifest : FileManifest) (chunks : List Bytes) :
    Option (Except String Bytes) :=
  if chunks.length ≠ manifest.chunks.length then
    some (.error s!"chunk count mismatch: expected {manifest.chunks.length} chunks, got {chunks.length}")
  else match sizeMismatch manifest.chunks chunks with
  | some message => some (.error message)
  | none =>
    if isizeMax < manifest.fileSize.toNat then none
    else if sha256 chunks.flatten ≠ manifest.fileHash then
      some (.error "file hash mismatch: data integrity check failed")
    else some (.ok chunks.flatten)

end

theorem numChunks_eq (positive : 0 < chunkSize) (fits : data.length + chunkSize < 2 ^ 64) :
    numChunks chunkSize data = some (Blocks.count chunkSize data.length) := by
  cases data with
  | nil => simp [numChunks, positive]
  | cons byte rest =>
    have below : 1 ≤ (byte :: rest).length + chunkSize := by simp; omega
    simp only [numChunks, List.isEmpty_cons, Bool.false_eq_true, if_false,
      checkedAdd_of_lt fits, bind, Option.bind_some, checkedSub_of_le below]
    rfl

/-- The source's slice at an index is the block there. -/
theorem slice_block (present : i < Blocks.count chunkSize data.length) :
    slice data (i * chunkSize) (min (i * chunkSize + chunkSize) data.length) =
      some (Blocks.block chunkSize data i) := by
  have positive : 0 < chunkSize := by
    apply Nat.pos_of_ne_zero
    rintro rfl
    simp [Blocks.count] at present
  have inside := (Blocks.lt_count positive i data.length).mp present
  rw [slice, if_pos (by omega)]
  congr 1
  rw [Blocks.block, List.take_eq_take_iff, List.length_drop]
  omega

/-- A round of the loop cuts the block at its index. -/
theorem chunkAt_eq (sha256 : Bytes → Hash) (positive : 0 < chunkSize)
    (fits : data.length + chunkSize < 2 ^ 64) (present : i < Blocks.count chunkSize data.length) :
    chunkAt sha256 chunkSize data i =
      some (⟨sha256 (Blocks.block chunkSize data i), i.toUInt32, (i * chunkSize).toUInt64,
        (Blocks.block chunkSize data i).length.toUInt64⟩, Blocks.block chunkSize data i) := by
  have inside := (Blocks.lt_count positive i data.length).mp present
  have start : i * chunkSize < 2 ^ 64 := by omega
  have stop : i * chunkSize + chunkSize < 2 ^ 64 := by omega
  simp only [chunkAt, checkedMul_of_lt start, checkedAdd_of_lt stop, bind, Option.bind_some,
    slice_block present, pure]

/-- The metadata the manifest holds for block `i`. -/
def blockMeta (sha256 : Bytes → Hash) (chunkSize : Nat) (data : Bytes) (i : Nat) : ChunkMeta :=
  ⟨sha256 (Blocks.block chunkSize data i), i.toUInt32, (i * chunkSize).toUInt64,
    (Blocks.block chunkSize data i).length.toUInt64⟩

/-- Splitting computes exactly the blocks of the file and their metadata. -/
theorem Chunker.chunkData_eq (sha256 : Bytes → Hash) (c : Chunker)
    (fits : data.length + c.chunkSize < 2 ^ 64) :
    c.chunkData sha256 data = some
      (⟨sha256 data, data.length.toUInt64,
        (List.range (Blocks.count c.chunkSize data.length)).map (blockMeta sha256 c.chunkSize data),
        c.chunkSize.toUInt64⟩, Blocks.blocks c.chunkSize data) := by
  have pieces := Blocks.mapM_eq_some (l := List.range (Blocks.count c.chunkSize data.length))
    (g := fun i => (blockMeta sha256 c.chunkSize data i, Blocks.block c.chunkSize data i))
    (fun i member => chunkAt_eq sha256 c.positive fits (List.mem_range.mp member))
  simp only [chunkData, numChunks_eq c.positive fits, bind, Option.bind_some, pieces, pure,
    List.map_map, Blocks.blocks]
  rfl

/-- What a manifest and the chunks next to it say about a file. -/
structure Splits (sha256 : Bytes → Hash) (c : Chunker) (data : Bytes) (manifest : FileManifest)
    (chunks : List Bytes) : Prop where
  fileHash : manifest.fileHash = sha256 data
  fileSize : manifest.fileSize.toNat = data.length
  chunkSize : manifest.chunkSize.toNat = c.chunkSize
  paired : chunks.length = manifest.chunks.length
  located : ∀ (i : Nat) (entry : ChunkMeta), manifest.chunks[i]? = some entry →
    entry.index.toNat = i ∧ entry.offset.toNat = i * c.chunkSize
  sized : ∀ (i : Nat) (entry : ChunkMeta), manifest.chunks[i]? = some entry →
    0 < entry.size.toNat ∧ entry.size.toNat ≤ c.chunkSize ∧
      (i + 1 < manifest.chunks.length → entry.size.toNat = c.chunkSize)
  content : ∀ (i : Nat) (entry : ChunkMeta), manifest.chunks[i]? = some entry →
    chunks[i]? = some ((data.drop entry.offset.toNat).take entry.size.toNat) ∧
      entry.hash = sha256 ((data.drop entry.offset.toNat).take entry.size.toNat)
  total : (manifest.chunks.map (fun entry => entry.size.toNat)).sum = manifest.fileSize.toNat

/-- The recorded size of a block is its length; no field of it is truncated. -/
theorem blockMeta_fields (sha256 : Bytes → Hash) (positive : 0 < chunkSize)
    (fits : data.length + chunkSize < 2 ^ 64) (few : Blocks.count chunkSize data.length < 2 ^ 32)
    (present : i < Blocks.count chunkSize data.length) :
    (blockMeta sha256 chunkSize data i).index.toNat = i ∧
      (blockMeta sha256 chunkSize data i).offset.toNat = i * chunkSize ∧
      (blockMeta sha256 chunkSize data i).size.toNat = (Blocks.block chunkSize data i).length := by
  have inside := (Blocks.lt_count positive i data.length).mp present
  have short : (Blocks.block chunkSize data i).length = min chunkSize (data.length - i * chunkSize) :=
    Blocks.block_length data i
  refine ⟨?_, toUInt64_toNat (by omega), toUInt64_toNat (by omega)⟩
  simpa [blockMeta] using Nat.mod_eq_of_lt (show i < 2 ^ 32 by omega)

theorem manifest_entry {f : Nat → ChunkMeta}
    (found : ((List.range n).map f)[i]? = some entry) : i < n ∧ entry = f i := by
  simp only [List.getElem?_map, Option.map_eq_some_iff] at found
  obtain ⟨j, located, rfl⟩ := found
  obtain ⟨bound, rfl⟩ := List.getElem?_eq_some_iff.mp located
  simpa using bound

theorem block_slice (data : Bytes) (i : Nat) :
    (data.drop (i * chunkSize)).take (Blocks.block chunkSize data i).length =
      Blocks.block chunkSize data i := by
  rw [Blocks.block_length, Blocks.block, List.take_eq_take_iff, List.length_drop]
  omega

theorem Chunker.splits (sha256 : Bytes → Hash) (c : Chunker)
    (fits : data.length + c.chunkSize < 2 ^ 64)
    (few : Blocks.count c.chunkSize data.length < 2 ^ 32) :
    Splits sha256 c data
      ⟨sha256 data, data.length.toUInt64,
        (List.range (Blocks.count c.chunkSize data.length)).map (blockMeta sha256 c.chunkSize data),
        c.chunkSize.toUInt64⟩ (Blocks.blocks c.chunkSize data) := by
  have fields := fun i => blockMeta_fields (i := i) sha256 c.positive fits few
  refine ⟨rfl, toUInt64_toNat (by omega), toUInt64_toNat c.word, by simp, ?_, ?_, ?_, ?_⟩
  · intro i entry found
    obtain ⟨present, rfl⟩ := manifest_entry found
    exact ⟨(fields i present).1, (fields i present).2.1⟩
  · intro i entry found
    obtain ⟨present, rfl⟩ := manifest_entry found
    rw [(fields i present).2.2]
    refine ⟨Blocks.block_nonempty c.positive data present, ?_, ?_⟩
    · rw [Blocks.block_length]
      omega
    · intro inner
      simp only [List.length_map, List.length_range] at inner
      exact Blocks.block_full data
        (Nat.le_of_lt ((Blocks.lt_count c.positive (i + 1) data.length).mp inner))
  · intro i entry found
    obtain ⟨present, rfl⟩ := manifest_entry found
    rw [(fields i present).2.1, (fields i present).2.2, block_slice]
    exact ⟨Blocks.blocks_getElem? data present, rfl⟩
  · have sizes : ((List.range (Blocks.count c.chunkSize data.length)).map
        (blockMeta sha256 c.chunkSize data)).map (fun entry => entry.size.toNat) =
        (Blocks.blocks c.chunkSize data).map List.length := by
      rw [Blocks.blocks, List.map_map, List.map_map]
      apply List.map_congr_left
      intro i member
      exact (fields i (List.mem_range.mp member)).2.2
    simp only [sizes, Blocks.sum_block_lengths c.positive,
      toUInt64_toNat (show data.length < 2 ^ 64 by omega)]

theorem sizeMismatch_blocks (sha256 : Bytes → Hash) (data : Bytes) (indices : List Nat) :
    sizeMismatch (indices.map (blockMeta sha256 chunkSize data))
      (indices.map (Blocks.block chunkSize data)) = none := by
  induction indices with
  | nil => rfl
  | cons i rest ih => simp [sizeMismatch, blockMeta, ih]

/-- Every chunk has the size that is recorded for it. -/
def Sized (metas : List ChunkMeta) (chunks : List Bytes) : Prop :=
  List.Forall₂ (fun entry data => data.length.toUInt64 = entry.size) metas chunks

theorem sizeMismatch_none_iff (paired : chunks.length = metas.length) :
    sizeMismatch metas chunks = none ↔ Sized metas chunks := by
  induction metas generalizing chunks with
  | nil =>
    cases List.length_eq_zero_iff.mp paired
    exact iff_of_true rfl .nil
  | cons entry rest ih =>
    cases chunks with
    | nil => cases paired
    | cons data others =>
      have next := ih (Nat.succ.inj paired)
      rw [sizeMismatch, Sized, List.forall₂_cons, ← Sized, ← next]
      by_cases same : data.length.toUInt64 = entry.size
      · simp [same]
      · simp [same]

/-- What reassembling checks before it returns a file. -/
theorem reassemble_eq_ok (sha256 : Bytes → Hash) (manifest : FileManifest) (chunks : List Bytes)
    (restored : Bytes) :
    Chunker.reassemble sha256 manifest chunks = some (.ok restored) ↔
      chunks.length = manifest.chunks.length ∧ Sized manifest.chunks chunks ∧
        manifest.fileSize.toNat ≤ isizeMax ∧ sha256 chunks.flatten = manifest.fileHash ∧
        restored = chunks.flatten := by
  rw [Chunker.reassemble]
  by_cases paired : chunks.length = manifest.chunks.length
  · rw [if_neg (not_not.mpr paired), ← sizeMismatch_none_iff paired]
    cases sizeMismatch manifest.chunks chunks with
    | some message => simp
    | none =>
      by_cases large : isizeMax < manifest.fileSize.toNat
      · simp [large, Nat.not_le.mpr large]
      · by_cases hash : sha256 chunks.flatten = manifest.fileHash
        · simp [large, hash, paired, Nat.not_lt.mp large, eq_comm]
        · simp [large, hash]
  · simp [paired]

/-- Splitting and reassembling is the identity, and the manifest describes the
file completely, for every digest function. -/
theorem chunk_round_trip (sha256 : Bytes → Hash) (c : Chunker) (d : Slice)
    (fits : d.bytes.length + c.chunkSize < 2 ^ 64)
    (few : (d.bytes.length + c.chunkSize - 1) / c.chunkSize < 2 ^ 32) :
    ∃ manifest chunks, c.chunkData sha256 d.bytes = some (manifest, chunks) ∧
      Splits sha256 c d.bytes manifest chunks ∧
      Chunker.reassemble sha256 manifest chunks = some (.ok d.bytes) := by
  refine ⟨_, _, c.chunkData_eq sha256 fits, c.splits sha256 fits few, ?_⟩
  have bound := d.bound
  have size : d.bytes.length.toUInt64.toNat = d.bytes.length := toUInt64_toNat (by omega)
  simp only [Chunker.reassemble, Blocks.blocks_length, List.length_map, List.length_range, ne_eq,
    not_true_eq_false, if_false, size]
  rw [Blocks.blocks, sizeMismatch_blocks, ← Blocks.blocks, Blocks.flatten_blocks c.positive]
  simp only [not_true_eq_false, if_false, if_neg (Nat.not_lt.mpr bound)]

/-- SHA-256 of the byte strings that occur when `1, 2, 3` is cut in pairs. -/
def knownDigest (bytes : Bytes) : Hash :=
  let value := if bytes = [1, 2, 3] then
      0x039058c6f2c0cb492c533b0a4d14ef77cc0f78abccced5287d84a1a2011cfb81
    else if bytes = [1, 2] then
      0xa12871fee210fb8619291eaea194581cbd2531e4b23759d225f6806923f63222
    else if bytes = [3] then
      0x084fed08b978af4d7d196a7446a86b58009e636b611db16211b65a9aadff29c5
    else 0
  ⟨bigEndian 32 value, bigEndian_length 32 value⟩

theorem chunk_round_trip_pairs : ∃ manifest chunks,
    (Chunker.withChunkSize 2 (by decide)).chunkData knownDigest [1, 2, 3] =
      some (manifest, chunks) ∧
    Splits knownDigest (Chunker.withChunkSize 2 (by decide)) [1, 2, 3] manifest chunks ∧
    Chunker.reassemble knownDigest manifest chunks = some (.ok [1, 2, 3]) :=
  chunk_round_trip knownDigest (Chunker.withChunkSize 2 (by decide)) ⟨[1, 2, 3], by decide⟩
    (by decide) (by decide)

/-- A chunk that is missing or has another size is reported whatever else the
manifest says. -/
theorem reassemble_mismatch (sha256 : Bytes → Hash) {manifest : FileManifest} {chunks : List Bytes}
    (mismatch : ¬ (chunks.length = manifest.chunks.length ∧ Sized manifest.chunks chunks)) :
    ∃ message, Chunker.reassemble sha256 manifest chunks = some (.error message) := by
  rw [Chunker.reassemble]
  by_cases paired : chunks.length = manifest.chunks.length
  · rw [if_neg (not_not.mpr paired)]
    cases found : sizeMismatch manifest.chunks chunks with
    | some message => exact ⟨message, rfl⟩
    | none => exact absurd ⟨paired, (sizeMismatch_none_iff paired).mp found⟩ mismatch
  · rw [if_pos paired]
    exact ⟨_, rfl⟩

/-- Where the size of the file can be reserved, reassembling never aborts. -/
theorem reassemble_returns (sha256 : Bytes → Hash) {manifest : FileManifest} (chunks : List Bytes)
    (reserved : manifest.fileSize.toNat ≤ isizeMax) :
    ∃ result, Chunker.reassemble sha256 manifest chunks = some result := by
  rw [Chunker.reassemble]
  split
  · exact ⟨_, rfl⟩
  · split
    · exact ⟨_, rfl⟩
    · rw [if_neg (Nat.not_lt.mpr reserved)]
      split
      · exact ⟨_, rfl⟩
      · exact ⟨_, rfl⟩

/-- Reassembling checks the number of the chunks, their sizes and the hash of the
file, and returns an error when one of them is wrong. It does not compare the
size of the file. -/
theorem reassemble_checks (sha256 : Bytes → Hash) (manifest : FileManifest) (chunks : List Bytes) :
    (¬ (chunks.length = manifest.chunks.length ∧ Sized manifest.chunks chunks) →
      ∃ message, Chunker.reassemble sha256 manifest chunks = some (.error message)) ∧
    (manifest.fileSize.toNat ≤ isizeMax →
      (∀ restored, Chunker.reassemble sha256 manifest chunks = some (.ok restored) ↔
        chunks.length = manifest.chunks.length ∧ Sized manifest.chunks chunks ∧
          sha256 restored = manifest.fileHash ∧ restored = chunks.flatten) ∧
      (¬ (chunks.length = manifest.chunks.length ∧ Sized manifest.chunks chunks ∧
          sha256 chunks.flatten = manifest.fileHash) →
        ∃ message, Chunker.reassemble sha256 manifest chunks = some (.error message))) := by
  refine ⟨reassemble_mismatch sha256, fun reserved => ⟨fun restored => ?_, fun wrong => ?_⟩⟩
  · rw [reassemble_eq_ok]
    constructor
    · rintro ⟨paired, sized, -, hash, rfl⟩
      exact ⟨paired, sized, hash, rfl⟩
    · rintro ⟨paired, sized, hash, rfl⟩
      exact ⟨paired, sized, reserved, hash, rfl⟩
  · obtain ⟨result, ran⟩ := reassemble_returns sha256 chunks reserved
    cases result with
    | error message => exact ⟨message, ran⟩
    | ok restored =>
      obtain ⟨paired, sized, -, hash, -⟩ := (reassemble_eq_ok _ _ _ _).mp ran
      exact absurd ⟨paired, sized, hash⟩ wrong

/-- A file of one byte whose manifest says that it has five. -/
theorem reassemble_ignores_fileSize :
    Chunker.reassemble knownDigest ⟨knownDigest [3], 5, [⟨knownDigest [3], 0, 0, 1⟩], 2⟩ [[3]] =
      some (.ok [3]) ∧ [(3 : UInt8)].length ≠ (5 : UInt64).toNat := by
  decide

end LanLink.Chunk
