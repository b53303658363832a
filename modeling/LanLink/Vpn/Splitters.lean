import LanLink.Storage.DiffPaths
import LanLink.Vpn.MultipathSplit

/-! The three functions that cut data into pieces of a size the caller chose.
All of them add the size to the length before they divide, in machine words. -/
namespace LanLink.Splitters
open Words Chunk Diff Multipath

section
variable (sha256 : Bytes → Hash)

/-- Splitting ends without an overflow, and the pieces are the data. -/
def ChunkSafe (c : Chunker) (data : Bytes) : Prop :=
  ∃ manifest chunks, c.chunkData sha256 data = some (manifest, chunks) ∧ chunks.flatten = data

/-- Every block of the data is reported as added or modified, or it is the block of
the manifest, and all blocks are counted. -/
structure Covers (chunkSize : Nat) (remote : FileManifest) (data : Bytes) (diff : FileDiff) :
    Prop where
  reported : ∀ i < Blocks.count chunkSize data.length,
    (∃ b ∈ diff.changedBlocks, b.transferred ∧ b.index.toNat = i ∧
      b.size.toNat = (Blocks.block chunkSize data i).length) ∨
    ∃ entry, remote.chunks[i]? = some entry ∧ entry.hash = sha256 (Blocks.block chunkSize data i)
  counted : diff.changedBlocks.countP BlockDiff.transferred + diff.unchangedCount.toNat =
    Blocks.count chunkSize data.length

/-- Comparing ends without an overflow and covers the data, by the hash of the whole file
or block by block. -/
def DiffSafe (e : BlockDiffEngine) (remote : FileManifest) (data : Bytes) : Prop :=
  ∃ diff, e.diffFiles sha256 remote data = some (.ok diff) ∧
    (diff.filesMatch ∨ Covers sha256 e.chunkSize remote data diff)

end

/-- Fragmenting ends without an overflow, and the fragments are the data. -/
def FragmentSafe {W : Type} (m : MultiPathManager W) (data : Bytes) : Prop :=
  ∃ fragments next, m.fragmentData true data = some (fragments, next) ∧
    (fragments.map Prod.snd).flatten = data

section
variable {sha256 : Bytes → Hash} {data : Bytes}

theorem chunkSafe_iff (c : Chunker) :
    ChunkSafe sha256 c data ↔ data.length + c.chunkSize < 2 ^ 64 := by
  constructor
  · rintro ⟨manifest, chunks, split, -⟩
    exact (chunkData_eq_some.mp split).1
  · intro fits
    exact ⟨_, _, c.chunkData_eq sha256 fits, Blocks.flatten_blocks c.positive data⟩

theorem fragmentSafe_iff {W : Type} (m : MultiPathManager W) (seqWord : m.nextSeq < 2 ^ 64)
    (sizeWord : m.fragmentSize < 2 ^ 64) (length : data.length < 2 ^ 63) :
    FragmentSafe m data ↔ 0 < m.fragmentSize ∧ data.length + m.fragmentSize < 2 ^ 64 ∧
      m.nextSeq + Blocks.count m.fragmentSize data.length < 2 ^ 64 := by
  constructor
  · rintro ⟨fragments, next, cut, -⟩
    by_contra fails
    have aborted := fragmentData_aborts true m seqWord sizeWord length
      fun cuts => fails ⟨cuts.1, cuts.2 rfl⟩
    rw [aborted] at cut
    cases cut
  · rintro ⟨positive, fits, numbers⟩
    refine ⟨_, _, fragmentData_eq true positive fits numbers, ?_⟩
    rw [numbered_data]
    exact Blocks.flatten_blocks positive data

/-- A round over a block of the data: the block is unchanged or it travels. -/
def LocalRound : Option BlockDiff → Bool
  | none => true
  | some b => b.transferred

theorem countP_transferred (rounds : List (Option BlockDiff)) :
    (rounds.filterMap id).countP BlockDiff.transferred + rounds.count none =
      rounds.countP LocalRound := by
  induction rounds with
  | nil => rfl
  | cons round rest ih =>
    cases round with
    | none =>
      have skipped : (none :: rest).filterMap id = rest.filterMap id := rfl
      rw [skipped, List.count_cons_self, List.countP_cons_of_pos rfl]
      omega
    | some b =>
      have kept : (some b :: rest).filterMap id = b :: rest.filterMap id := rfl
      have uncounted : (some b :: rest).count none = rest.count none :=
        List.count_cons_of_ne (Option.some_ne_none b)
      rw [kept, uncounted, List.countP_cons, List.countP_cons]
      show _ + (if b.transferred then 1 else 0) + _ = _ + if b.transferred then 1 else 0
      omega

theorem countP_range_lt (n m : Nat) : (List.range m).countP (· < n) = min n m := by
  induction m with
  | zero => simp
  | succ m ih =>
    rw [List.range_succ, List.countP_append, ih, List.countP_singleton]
    simp only [decide_eq_true_eq]
    split <;> omega

/-- What a round finds: only rounds over blocks of the data are unchanged or travel. -/
structure Found (sha256 : Bytes → Hash) (chunkSize : Nat) (remoteChunks : List ChunkMeta)
    (data : Bytes) (i : Nat) (round : Option BlockDiff) : Prop where
  kind : LocalRound round = decide (i < Blocks.count chunkSize data.length)
  same : round = none → ∃ entry, remoteChunks[i]? = some entry ∧
    entry.hash = sha256 (Blocks.block chunkSize data i)
  place : ∀ b, round = some b → b.transferred → b.index = i.toUInt32 ∧
    b.size = (Blocks.block chunkSize data i).length.toUInt64

/-- A block of the data that travels. -/
theorem Found.travels {b : BlockDiff} (present : i < Blocks.count chunkSize data.length)
    (moved : b.transferred) (index : b.index = i.toUInt32)
    (size : b.size = (Blocks.block chunkSize data i).length.toUInt64) :
    Found sha256 chunkSize remoteChunks data i (some b) where
  kind := by
    rw [decide_eq_true present]
    exact moved
  same := by rintro ⟨⟩
  place := by
    rintro _ ⟨⟩ -
    exact ⟨index, size⟩

theorem compareBlock_found (positive : 0 < chunkSize) (fits : data.length + chunkSize < 2 ^ 64)
    (within : i < max remoteChunks.length (Blocks.count chunkSize data.length)) :
    ∃ round, compareBlock sha256 chunkSize remoteChunks data
        (Blocks.count chunkSize data.length) i = some round ∧
      Found sha256 chunkSize remoteChunks data i round := by
  by_cases present : i < Blocks.count chunkSize data.length
  · have slice := localSlice_eq positive fits present
    cases remote : remoteChunks[i]? with
    | none =>
      refine ⟨some ⟨i.toUInt32, (i * chunkSize).toUInt64,
        (Blocks.block chunkSize data i).length.toUInt64, .added,
        sha256 (Blocks.block chunkSize data i), zeroHash⟩, ?_, .travels present rfl rfl rfl⟩
      simp only [compareBlock, remote, present, decide_true, slice, bind, Option.bind_some, pure]
    | some entry =>
      by_cases same : sha256 (Blocks.block chunkSize data i) = entry.hash
      · refine ⟨none, ?_, (decide_eq_true present).symm, fun _ => ⟨entry, remote, same.symm⟩, ?_⟩
        · simp only [compareBlock, remote, present, decide_true, slice, bind, Option.bind_some,
            same, if_true, pure]
        · rintro b ⟨⟩
      · refine ⟨some ⟨i.toUInt32, entry.offset, (Blocks.block chunkSize data i).length.toUInt64,
          .modified, sha256 (Blocks.block chunkSize data i), entry.hash⟩, ?_,
          .travels present rfl rfl rfl⟩
        simp only [compareBlock, remote, present, decide_true, slice, bind, Option.bind_some, same,
          if_false, pure]
  · have listed : i < remoteChunks.length := by omega
    refine ⟨some ⟨i.toUInt32, remoteChunks[i].offset, 0, .deleted, zeroHash,
      remoteChunks[i].hash⟩, ?_, (decide_eq_false present).symm, ?_, ?_⟩
    · simp only [compareBlock, List.getElem?_eq_getElem listed, present, decide_false]
    · rintro ⟨⟩
    · rintro b ⟨⟩ moved
      cases moved

/-- Rounds over all blocks of the data cover it: every block has a round of its own, and the
rounds over blocks are as many as the blocks. -/
theorem covers_of_found {remote : FileManifest} {round : Nat → Option BlockDiff} {diff : FileDiff}
    (found : ∀ i < m, Found sha256 chunkSize remote.chunks data i (round i))
    (room : Blocks.count chunkSize data.length ≤ m) (few : m < 2 ^ 32) (word : chunkSize < 2 ^ 64)
    (changed : diff.changedBlocks = ((List.range m).map round).filterMap id)
    (unchanged : diff.unchangedCount = (((List.range m).map round).count none).toUInt32) :
    Covers sha256 chunkSize remote data diff := by
  constructor
  · intro i inside
    have here := found i (Nat.lt_of_lt_of_le inside room)
    cases result : round i with
    | none => exact .inr (here.same result)
    | some b =>
      have moved : b.transferred := by
        have kind := here.kind
        rw [result, decide_eq_true inside] at kind
        exact kind
      obtain ⟨index, size⟩ := here.place b result moved
      refine .inl ⟨b, ?_, moved, ?_, ?_⟩
      · rw [changed, List.filterMap_map]
        exact List.mem_filterMap.mpr ⟨i, List.mem_range.mpr (by omega), result⟩
      · rw [index, toUInt32_toNat (by omega)]
      · have short : (Blocks.block chunkSize data i).length ≤ chunkSize := by
          rw [Blocks.block_length]
          omega
        rw [size, toUInt64_toNat (by omega)]
  · have kinds : ((List.range m).map round).countP LocalRound =
        Blocks.count chunkSize data.length := by
      rw [List.countP_map, ← Nat.min_eq_left room, ← countP_range_lt]
      apply List.countP_congr
      intro i member
      rw [Function.comp_apply, (found i (List.mem_range.mp member)).kind]
    have length : ((List.range m).map round).count none ≤ m := by
      have bounded : ((List.range m).map round).count none ≤ ((List.range m).map round).length :=
        List.count_le_length
      rwa [List.length_map, List.length_range] at bounded
    rw [changed, unchanged, toUInt32_toNat (by omega), countP_transferred, kinds]

/-- The loop of a comparison covers the data when its blocks can be counted in 32 bits. -/
theorem blockLoop_covers (sha256 : Bytes → Hash) {e : BlockDiffEngine} (remote : FileManifest)
    (fits : data.length + e.chunkSize < 2 ^ 64)
    (few : Blocks.count e.chunkSize data.length < 2 ^ 32) :
    ∃ found, blockLoop sha256 e remote data = some found ∧ ∀ diff : FileDiff,
      diff.changedBlocks = found.1 → diff.unchangedCount = found.2 →
        Covers sha256 e.chunkSize remote data diff := by
  generalize bound : (max remote.chunks.length.toUInt32
    (Blocks.count e.chunkSize data.length).toUInt32).toNat = m
  have rounds_few : m < 2 ^ 32 := bound ▸ UInt32.toNat_lt _
  have room : Blocks.count e.chunkSize data.length ≤ m ∧
      m ≤ max remote.chunks.length (Blocks.count e.chunkSize data.length) := by
    rw [toNat_max, toUInt32_toNat few] at bound
    have cut : remote.chunks.length.toUInt32.toNat ≤ remote.chunks.length := Nat.mod_le _ _
    omega
  have each : ∀ i < m, ∃ round, compareBlock sha256 e.chunkSize remote.chunks data
      (Blocks.count e.chunkSize data.length) i = some round ∧
      Found sha256 e.chunkSize remote.chunks data i round := by
    intro i within
    exact compareBlock_found e.positive fits (Nat.lt_of_lt_of_le within room.2)
  choose! round compared found using each
  have loop := Blocks.mapM_eq_some fun i member => compared i (List.mem_range.mp member)
  refine ⟨(((List.range m).map round).filterMap id,
    (((List.range m).map round).count none).toUInt32), ?_, ?_⟩
  · rw [blockLoop, numChunks_eq e.positive fits]
    simp only [bind, Option.bind_some, bound, loop, pure]
  · intro diff changed unchanged
    exact covers_of_found found room.1 rounds_few e.word changed unchanged

theorem diffSafe_iff {e : BlockDiffEngine} {remote : FileManifest}
    (aligned : remote.chunkSize.toNat = e.chunkSize) : DiffSafe sha256 e remote data ↔
      sha256 data = remote.fileHash ∨
        data.length + e.chunkSize < 2 ^ 64 ∧ Blocks.count e.chunkSize data.length < 2 ^ 32 := by
  by_cases same : sha256 data = remote.fileHash
  · refine iff_of_true ?_ (.inl same)
    rw [DiffSafe, BlockDiffEngine.diffFiles, if_neg (not_not.mpr aligned), if_pos same]
    exact ⟨_, rfl, .inl rfl⟩
  · rw [DiffSafe, or_iff_right same]
    constructor
    · rintro ⟨diff, compared, covered⟩
      have counters := diffFiles_counted compared
      rw [diffFiles_slow aligned same] at compared
      obtain ⟨found, loop, listed⟩ := Option.map_eq_some_iff.mp compared
      cases listed
      have covers := covered.resolve_left Bool.false_ne_true
      constructor
      · by_contra overflows
        rw [blockLoop, numChunks_none e.word (Nat.not_lt.mp overflows)] at loop
        cases loop
      · have moved := List.countP_le_length (p := BlockDiff.transferred) (l := found.1)
        have counted := covers.counted
        dsimp only at counters counted
        omega
    · rintro ⟨fits, few⟩
      obtain ⟨found, loop, covers⟩ := blockLoop_covers sha256 remote fits few
      rw [diffFiles_slow aligned same, loop]
      exact ⟨_, rfl, .inr (covers _ rfl rfl)⟩

end

/-- Each of the three is safe exactly for lengths that leave room for the rounding, with
blocks that can be counted and a counter that has room for the fragments. -/
theorem splitters_safe_iff (sha256 : Bytes → Hash) (data : Slice) (size : UInt64)
    {remote : FileManifest} {W : Type} (m : MultiPathManager W) (seqWord : m.nextSeq < 2 ^ 64)
    (aligned : remote.chunkSize.toNat = (BlockDiffEngine.new size.toNat size.toNat_lt).chunkSize) :
    (ChunkSafe sha256 (.withChunkSize size.toNat size.toNat_lt) data.bytes ↔
      data.bytes.length + (Chunker.withChunkSize size.toNat size.toNat_lt).chunkSize < 2 ^ 64) ∧
    (DiffSafe sha256 (.new size.toNat size.toNat_lt) remote data.bytes ↔
      sha256 data.bytes = remote.fileHash ∨
        data.bytes.length + (BlockDiffEngine.new size.toNat size.toNat_lt).chunkSize < 2 ^ 64 ∧
        Blocks.count (BlockDiffEngine.new size.toNat size.toNat_lt).chunkSize data.bytes.length <
          2 ^ 32) ∧
    (FragmentSafe { m with fragmentSize := size.toNat } data.bytes ↔
      0 < size.toNat ∧ data.bytes.length + size.toNat < 2 ^ 64 ∧
        m.nextSeq + Blocks.count size.toNat data.bytes.length < 2 ^ 64) := by
  have length : data.bytes.length < 2 ^ 63 := by
    have := data.bound
    rw [isizeMax] at this
    omega
  exact ⟨chunkSafe_iff _, diffSafe_iff aligned,
    fragmentSafe_iff { m with fragmentSize := size.toNat } seqWord size.toNat_lt length⟩

/-- A digest of one value, and a manifest of another file with blocks of a size. -/
def digest (_ : Bytes) : Hash := .replicate 32 0

def otherManifest (chunkSize : UInt64) : FileManifest := ⟨.replicate 32 1, 0, [], chunkSize⟩

def idle (fragmentSize : Nat) : MultiPathManager Nat := ⟨.empty, 0, fragmentSize⟩

theorem splitters_safe_iff_page :
    (ChunkSafe digest (.withChunkSize 4096 (by decide)) [0] ↔
      1 + (Chunker.withChunkSize 4096 (by decide)).chunkSize < 2 ^ 64) ∧
    (DiffSafe digest (.new 4096 (by decide)) (otherManifest 4096) [0] ↔
      digest [0] = (otherManifest 4096).fileHash ∨
        1 + (BlockDiffEngine.new 4096 (by decide)).chunkSize < 2 ^ 64 ∧
        Blocks.count (BlockDiffEngine.new 4096 (by decide)).chunkSize 1 < 2 ^ 32) ∧
    (FragmentSafe (idle 4096) [0] ↔
      0 < 4096 ∧ 1 + 4096 < 2 ^ 64 ∧ 0 + Blocks.count 4096 1 < 2 ^ 64) :=
  splitters_safe_iff digest ⟨[0], by decide⟩ 4096 (idle 0) (by decide) rfl

/-- With the largest size a single byte is too long for all three. -/
theorem splitters_overflow :
    ¬ ChunkSafe digest (.withChunkSize (2 ^ 64 - 1) (by decide)) [0] ∧
    ¬ DiffSafe digest (.new (2 ^ 64 - 1) (by decide)) (otherManifest 18446744073709551615) [0] ∧
    ¬ FragmentSafe (idle (2 ^ 64 - 1)) [0] := by
  refine ⟨?_, ?_, ?_⟩
  · rw [chunkSafe_iff]
    decide
  · rw [diffSafe_iff (by decide)]
    decide
  · have seqWord : (idle (2 ^ 64 - 1)).nextSeq < 2 ^ 64 := by decide
    have sizeWord : (idle (2 ^ 64 - 1)).fragmentSize < 2 ^ 64 := by decide
    rw [fragmentSafe_iff _ seqWord sizeWord (by decide)]
    decide

end LanLink.Splitters
