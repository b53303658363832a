import LanLink.Storage.DiffPatch

/-! The early return of a comparison against its loop. When the file hashes are
equal the loop would find nothing either; but the loop sees only as many blocks
as the counters of 32 bits say, so it may find nothing in files that differ. -/
namespace LanLink.Diff
open Words Chunk

/-- The loop of `diffFiles` on its own: the changed blocks and the number of
unchanged ones. -/
def blockLoop (sha256 : Bytes → Hash) (e : BlockDiffEngine) (remote : FileManifest)
    (localData : Bytes) : Option (List BlockDiff × UInt32) := do
  let localNumChunks ← numChunks e.chunkSize localData
  let maxIndex := max remote.chunks.length.toUInt32 localNumChunks.toUInt32
  let rounds ← (List.range maxIndex.toNat).mapM
    (compareBlock sha256 e.chunkSize remote.chunks localData localNumChunks)
  return (rounds.filterMap id, (rounds.count none).toUInt32)

/-- The number of rounds of the loop. -/
def loopRounds (chunkSize : Nat) (old new : Bytes) : Nat :=
  max (Blocks.count chunkSize old.length % 2 ^ 32) (Blocks.count chunkSize new.length % 2 ^ 32)

/-- On equal hashes the loop gives what the early return gives, and the files
are said to match exactly when the loop finds no changed block. -/
def PathsAgree (sha256 : Bytes → Hash) (e : BlockDiffEngine) (remote : FileManifest)
    (localData : Bytes) : Prop :=
  (sha256 localData = remote.fileHash → ∃ diff,
    e.diffFiles sha256 remote localData = some (.ok diff) ∧ diff.changedBlocks = [] ∧
      blockLoop sha256 e remote localData = some ([], diff.unchangedCount)) ∧
  ∃ diff, e.diffFiles sha256 remote localData = some (.ok diff) ∧
    (diff.filesMatch = true ↔ ∃ unchangedCount,
      blockLoop sha256 e remote localData = some ([], unchangedCount))

section
variable {sha256 : Bytes → Hash} {e : BlockDiffEngine} {old new : Bytes}

/-- Past the early return a comparison is its loop. -/
theorem diffFiles_slow {remote : FileManifest} (aligned : remote.chunkSize.toNat = e.chunkSize)
    (different : sha256 new ≠ remote.fileHash) :
    e.diffFiles sha256 remote new = (blockLoop sha256 e remote new).map fun found =>
      .ok { fileName := "", oldSize := remote.fileSize, newSize := new.length.toUInt64,
            changedBlocks := found.1, unchangedCount := found.2, filesMatch := false } := by
  rw [BlockDiffEngine.diffFiles, if_neg (not_not.mpr aligned), if_neg different, blockLoop]
  cases numChunks e.chunkSize new with
  | none => rfl
  | some localNumChunks =>
    simp only [bind, Option.bind_some]
    cases (List.range (max remote.chunks.length.toUInt32 localNumChunks.toUInt32).toNat).mapM
      (compareBlock sha256 e.chunkSize remote.chunks new localNumChunks) <;> rfl

theorem loopRounds_le (chunkSize : Nat) (old new : Bytes) : loopRounds chunkSize old new ≤
    max (Blocks.count chunkSize old.length) (Blocks.count chunkSize new.length) := by
  have first := Nat.mod_le (Blocks.count chunkSize old.length) (2 ^ 32)
  have second := Nat.mod_le (Blocks.count chunkSize new.length) (2 ^ 32)
  rw [loopRounds]
  omega

/-- The loop lists the changes of its rounds. -/
theorem blockLoop_eq (split : e.chunker.chunkData sha256 old = some (manifest, oldChunks))
    (fits : new.length + e.chunkSize < 2 ^ 64) :
    blockLoop sha256 e manifest new = some
      (changes sha256 e.chunkSize old new (loopRounds e.chunkSize old new),
        (((List.range (loopRounds e.chunkSize old new)).map
          (change sha256 e.chunkSize old new)).count none).toUInt32) := by
  obtain ⟨-, -, chunks, -⟩ := manifest_fields split
  have last : (max (Blocks.count e.chunkSize old.length).toUInt32
      (Blocks.count e.chunkSize new.length).toUInt32).toNat = loopRounds e.chunkSize old new :=
    toNat_max _ _
  have rounds := Blocks.mapM_eq_some (l := List.range (loopRounds e.chunkSize old new))
    (g := change sha256 e.chunkSize old new)
    (fun i member => compareBlock_eq sha256 e.positive fits
      (Nat.lt_of_lt_of_le (List.mem_range.mp member) (loopRounds_le e.chunkSize old new)))
  rw [blockLoop, numChunks_eq e.positive fits, chunks, List.length_map, List.length_range]
  simp only [bind, Option.bind_some, last, rounds]
  rw [List.filterMap_map]
  rfl

theorem changes_nil : changes sha256 chunkSize old new n = [] ↔
    ∀ i < n, change sha256 chunkSize old new i = none := by
  simp [changes]

/-- A block inside the first `n` is told by the bytes of these. -/
theorem block_of_take (within : i < n) :
    Blocks.block chunkSize old i = Blocks.block chunkSize (old.take (n * chunkSize)) i := by
  have room := Nat.mul_le_mul_right chunkSize within
  rw [Nat.succ_mul] at room
  rw [Blocks.block, Blocks.block, List.drop_take, List.take_take]
  congr 1
  omega

/-- Without collisions the first rounds find nothing exactly when the files
begin with the same bytes. -/
theorem changes_nil_iff (positive : 0 < chunkSize)
    (free : CollisionFree sha256 (hashed chunkSize old new))
    (within : n ≤ max (Blocks.count chunkSize old.length) (Blocks.count chunkSize new.length)) :
    changes sha256 chunkSize old new n = [] ↔
      new.take (n * chunkSize) = old.take (n * chunkSize) := by
  rw [changes_nil]
  constructor
  · intro nothing
    have blocks : (List.range n).map (Blocks.block chunkSize new) =
        (List.range n).map (Blocks.block chunkSize old) :=
      List.map_congr_left fun i member => same_block free (nothing i (List.mem_range.mp member))
    rw [← Blocks.flatten_blocks_take, ← Blocks.flatten_blocks_take, blocks]
  · intro same i early
    have block : Blocks.block chunkSize new i = Blocks.block chunkSize old i := by
      rw [block_of_take early, same, ← block_of_take early]
    have lengths := congrArg List.length block
    rw [Blocks.block_length, Blocks.block_length] at lengths
    have hasOld := Blocks.lt_count positive i old.length
    have hasNew := Blocks.lt_count positive i new.length
    have inOld : i < Blocks.count chunkSize old.length := by omega
    have inNew : i < Blocks.count chunkSize new.length := by omega
    rw [change, if_pos inOld, if_pos inNew, block, if_pos rfl]

/-- The loop on the file that was split finds nothing, and counts its rounds. -/
theorem blockLoop_same (split : e.chunker.chunkData sha256 old = some (manifest, oldChunks)) :
    blockLoop sha256 e manifest old =
      some ([], (Blocks.count e.chunkSize old.length).toUInt32) := by
  have fits : old.length + e.chunkSize < 2 ^ 64 := (chunkData_eq_some.mp split).1
  have nothing : ∀ i < loopRounds e.chunkSize old old,
      change sha256 e.chunkSize old old i = none := by
    intro i early
    have present := Nat.lt_of_lt_of_le early (loopRounds_le e.chunkSize old old)
    rw [Nat.max_self] at present
    rw [change, if_pos present, if_pos present, if_pos rfl]
  have unchanged : (List.range (loopRounds e.chunkSize old old)).map
      (change sha256 e.chunkSize old old) =
      List.replicate (loopRounds e.chunkSize old old) none :=
    List.eq_replicate_iff.mpr ⟨by simp, fun round member => by
      obtain ⟨i, early, rfl⟩ := List.mem_map.mp member
      exact nothing i (List.mem_range.mp early)⟩
  rw [blockLoop_eq split fits, changes_nil.mpr nothing, unchanged, List.count_replicate_self,
    loopRounds, Nat.max_self]
  congr 2
  apply UInt32.toNat_inj.mp
  exact Nat.mod_mod _ _

/-- The two paths agree exactly when the files are the same, or the arithmetic
fits the machine words and the loop gets to see a difference. -/
theorem paths_agree_iff (e : BlockDiffEngine) (old new : Bytes)
    (split : e.chunker.chunkData sha256 old = some (manifest, oldChunks))
    (free : CollisionFree sha256 (hashed e.chunkSize old new)) :
    PathsAgree sha256 e manifest new ↔
      new = old ∨ (new.length + e.chunkSize < 2 ^ 64 ∧
        new.take (loopRounds e.chunkSize old new * e.chunkSize) ≠
          old.take (loopRounds e.chunkSize old new * e.chunkSize)) := by
  obtain ⟨aligned, fileHash, chunks, -⟩ := manifest_fields split
  by_cases same : new = old
  · subst same
    obtain ⟨diff, compared, nothing, counted, matching⟩ := diffFiles_match split rfl
    have looped := blockLoop_same split
    rw [← counted] at looped
    refine iff_of_true ⟨fun _ => ⟨diff, compared, nothing, looped⟩, diff, compared, ?_⟩ (Or.inl rfl)
    exact iff_of_true matching ⟨_, looped⟩
  · have different : sha256 new ≠ manifest.fileHash := by
      rw [fileHash]
      exact fun equal => same (free _ (by simp [hashed]) _ (by simp [hashed]) equal)
    have slow := diffFiles_slow aligned different
    simp only [PathsAgree, different, false_implies, true_and, same, false_or]
    by_cases fits : new.length + e.chunkSize < 2 ^ 64
    · have looped := blockLoop_eq split fits
      have found := changes_nil_iff e.positive free (loopRounds_le e.chunkSize old new)
      rw [looped, Option.map_some] at slow
      simp only [slow, looped, fits, true_and, Option.some.injEq, Except.ok.injEq, exists_eq_left',
        Bool.false_eq_true, false_iff, Prod.mk.injEq, exists_and_left, exists_eq', and_true, found,
        ne_eq]
    · have aborts : e.diffFiles sha256 manifest new = none := by
        rw [slow, blockLoop, numChunks_none e.word (Nat.not_lt.mp fits)]
        rfl
      refine iff_of_false ?_ (fun seen => fits seen.1)
      rw [aborts]
      rintro ⟨diff, compared, -⟩
      cases compared

end

theorem paths_agree_byte : ∃ manifest oldChunks,
    (BlockDiffEngine.new 4096 (by decide)).chunker.chunkData shortDigest [1] =
      some (manifest, oldChunks) ∧
    PathsAgree shortDigest (BlockDiffEngine.new 4096 (by decide)) manifest [2] := by
  have split := (BlockDiffEngine.new 4096 (by decide)).chunker.chunkData_eq shortDigest
    (show [(1 : UInt8)].length + _ < 2 ^ 64 by decide)
  refine ⟨_, _, split, (paths_agree_iff _ [1] [2] split (by unfold CollisionFree; decide)).mpr ?_⟩
  exact Or.inr (by decide)

/-- With the largest block size there is no result for two bytes. -/
theorem paths_disagree : ∃ manifest oldChunks,
    (BlockDiffEngine.new (2 ^ 64 - 1) (by decide)).chunker.chunkData shortDigest [] =
      some (manifest, oldChunks) ∧
    CollisionFree shortDigest (hashed (2 ^ 64 - 1) [] [0, 0]) ∧
    ¬ PathsAgree shortDigest (BlockDiffEngine.new (2 ^ 64 - 1) (by decide)) manifest [0, 0] := by
  refine ⟨_, _, rfl, by unfold CollisionFree; decide, ?_⟩
  rintro ⟨-, diff, compared, -⟩
  have aborts : (BlockDiffEngine.new (2 ^ 64 - 1) (by decide)).diffFiles shortDigest
      ⟨shortDigest [], 0, [], (2 ^ 64 - 1).toUInt64⟩ [0, 0] = none := rfl
  exact absurd (aborts.symm.trans compared) (by simp)

end LanLink.Diff
