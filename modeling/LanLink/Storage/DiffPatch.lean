import LanLink.Storage.Diff

/-! A diff as a patch. Applying the changed blocks to the old block list, in
the order the engine reports them, must give the block list of the new file.
The invariant of that replay is an overlay: a front of new blocks over what is
left of the old ones. -/
namespace LanLink.Diff
open Words Chunk

/-- No two of the byte strings that are hashed have the same digest. -/
def CollisionFree (sha256 : Bytes → Hash) (inputs : List Bytes) : Prop :=
  ∀ a ∈ inputs, ∀ b ∈ inputs, sha256 a = sha256 b → a = b

/-- Everything a comparison of two files hashes. -/
def hashed (chunkSize : Nat) (old new : Bytes) : List Bytes :=
  old :: new :: (Blocks.blocks chunkSize old ++ Blocks.blocks chunkSize new)

/-- Replace or append the block of the new file at an added or modified index. -/
def place (chunkSize : Nat) (new : Bytes) (chunks : List Bytes) (b : BlockDiff) : List Bytes :=
  let i := b.index.toNat
  if b.transferred then
    if i < chunks.length then chunks.set i (Blocks.block chunkSize new i)
    else chunks ++ [Blocks.block chunkSize new i]
  else chunks

def isDeleted (changed : List BlockDiff) (i : Nat) : Bool :=
  changed.any fun b => b.status = .deleted && b.index.toNat = i

/-- Place the transferred blocks in order, then drop the deleted indices. -/
def patch (chunkSize : Nat) (new : Bytes) (oldChunks : List Bytes) (changed : List BlockDiff) :
    List Bytes :=
  ((changed.foldl (place chunkSize new) oldChunks).zipIdx.filter
    fun entry => !isDeleted changed entry.2).map Prod.fst

/-- What a diff of two files has to be. -/
structure CorrectDiff (e : BlockDiffEngine) (new : Bytes) (oldChunks newChunks : List Bytes)
    (diff : FileDiff) : Prop where
  increasing : diff.changedBlocks.Pairwise fun a b => a.index < b.index
  patches : patch e.chunkSize new oldChunks diff.changedBlocks = newChunks
  counted : diff.unchangedCount.toNat + diff.changedBlocks.length =
    max oldChunks.length newChunks.length
  reported : ∀ fileName, ∃ report, e.generateReport diff fileName = some report ∧
    report.bytesToTransfer.toNat = ((diff.changedBlocks.filter BlockDiff.transferred).map
      fun b => (Blocks.block e.chunkSize new b.index.toNat).length).sum

section
variable {sha256 : Bytes → Hash} {chunkSize : Nat} {old new : Bytes}

/-- The fields of a changed block in terms of the two files. -/
theorem change_cases (changed : change sha256 chunkSize old new i = some b)
    (within : i < max (Blocks.count chunkSize old.length) (Blocks.count chunkSize new.length)) :
    b.index = i.toUInt32 ∧
      ((b.transferred = true ∧ i < Blocks.count chunkSize new.length ∧ b.status ≠ .deleted ∧
          b.size = (Blocks.block chunkSize new i).length.toUInt64) ∨
        (b.transferred = false ∧ Blocks.count chunkSize new.length ≤ i ∧ b.status = .deleted)) := by
  simp only [change] at changed
  split at changed
  · split at changed
    · rename_i present
      split at changed
      · cases changed
      · cases changed
        exact ⟨rfl, .inl ⟨rfl, present, by simp, rfl⟩⟩
    · rename_i absent
      cases changed
      exact ⟨rfl, .inr ⟨rfl, Nat.not_lt.mp absent, rfl⟩⟩
  · cases changed
    exact ⟨rfl, .inl ⟨rfl, by omega, by simp, rfl⟩⟩

theorem change_none (unchanged : change sha256 chunkSize old new i = none) :
    i < Blocks.count chunkSize old.length ∧ i < Blocks.count chunkSize new.length ∧
      sha256 (Blocks.block chunkSize new i) = sha256 (Blocks.block chunkSize old i) := by
  simp only [change] at unchanged
  split at unchanged
  · rename_i hasOld
    split at unchanged
    · rename_i hasNew
      split at unchanged
      · rename_i same
        exact ⟨hasOld, hasNew, same⟩
      · cases unchanged
    · cases unchanged
  · cases unchanged

/-- Without collisions an unreported index holds the same block in both files. -/
theorem same_block (free : CollisionFree sha256 (hashed chunkSize old new))
    (unchanged : change sha256 chunkSize old new i = none) :
    Blocks.block chunkSize new i = Blocks.block chunkSize old i := by
  obtain ⟨hasOld, hasNew, same⟩ := change_none unchanged
  have newMember := List.mem_of_getElem? (Blocks.blocks_getElem? new hasNew)
  have oldMember := List.mem_of_getElem? (Blocks.blocks_getElem? old hasOld)
  exact free _ (by simp [hashed, newMember]) _ (by simp [hashed, oldMember]) same

/-- The changed blocks among the first `k` indices. -/
def changes (sha256 : Bytes → Hash) (chunkSize : Nat) (old new : Bytes) (k : Nat) :
    List BlockDiff := (List.range k).filterMap (change sha256 chunkSize old new)

theorem changes_succ : changes sha256 chunkSize old new (k + 1) =
    changes sha256 chunkSize old new k ++ (change sha256 chunkSize old new k).toList := by
  cases found : change sha256 chunkSize old new k <;>
    simp [changes, List.range_succ, List.filterMap_append, found]

theorem mem_changes : b ∈ changes sha256 chunkSize old new k ↔
    ∃ i < k, change sha256 chunkSize old new i = some b := by
  simp [changes]

theorem changes_increasing (few : k ≤ 2 ^ 32)
    (within : k ≤ max (Blocks.count chunkSize old.length) (Blocks.count chunkSize new.length)) :
    (changes sha256 chunkSize old new k).Pairwise fun a b => a.index < b.index := by
  induction k with
  | zero => simp [changes]
  | succ k ih =>
    rw [changes_succ]
    refine List.pairwise_append.mpr ⟨ih (by omega) (by omega), ?_, ?_⟩
    · cases change sha256 chunkSize old new k <;> simp
    · intro a earlier b last
      obtain ⟨i, below, found⟩ := mem_changes.mp earlier
      have here := (change_cases found (by omega)).1
      have next := (change_cases (Option.mem_toList.mp last) (by omega)).1
      rw [here, next, UInt32.lt_iff_toNat_lt, toUInt32_toNat (by omega), toUInt32_toNat (by omega)]
      exact below

/-- The replay loop: after the changes below `k`, the first `k` blocks are the new ones. -/
theorem place_changes (free : CollisionFree sha256 (hashed chunkSize old new)) (few : k ≤ 2 ^ 32)
    (within : k ≤ max (Blocks.count chunkSize old.length) (Blocks.count chunkSize new.length)) :
    (changes sha256 chunkSize old new k).foldl (place chunkSize new) (Blocks.blocks chunkSize old) =
      Blocks.overlay (Blocks.blocks chunkSize new) (Blocks.blocks chunkSize old) k := by
  induction k with
  | zero => simp [changes]
  | succ k ih =>
    rw [changes_succ, List.foldl_append, ih (by omega) (by omega)]
    cases found : change sha256 chunkSize old new k with
    | none =>
      obtain ⟨hasOld, hasNew, -⟩ := change_none found
      exact (Blocks.overlay_same (by simpa using hasNew) (by simpa using hasOld)
        (by simpa [Blocks.blocks] using same_block free found)).symm
    | some b =>
      rcases change_cases found (by omega) with ⟨index, ⟨moved, hasNew, -, -⟩ | ⟨kept, past, -⟩⟩
      · have position : b.index.toNat = k := by rw [index, toUInt32_toNat (by omega)]
        have available : k < (Blocks.blocks chunkSize new).length := by simpa using hasNew
        have newBlock : Blocks.block chunkSize new k = (Blocks.blocks chunkSize new)[k] := by
          simp [Blocks.blocks]
        simp only [Option.toList_some, List.foldl_cons, List.foldl_nil, place, moved, if_true,
          position, newBlock, Blocks.overlay_length, Blocks.blocks_length]
        by_cases hasOld : k < Blocks.count chunkSize old.length
        · rw [if_pos (by omega), Blocks.overlay_set available (by simpa using hasOld)]
        · rw [if_neg (by omega), Blocks.overlay_append available (by simpa using hasOld)]
      · have reached : (Blocks.blocks chunkSize new).length ≤ k := by simpa using past
        simp only [Option.toList_some, List.foldl_cons, List.foldl_nil, place, kept,
          Bool.false_eq_true, if_false, Blocks.overlay_past reached,
          Blocks.overlay_past (Nat.le_succ_of_le reached)]

theorem isDeleted_changes (few : k ≤ 2 ^ 32)
    (full : k = max (Blocks.count chunkSize old.length) (Blocks.count chunkSize new.length)) :
    isDeleted (changes sha256 chunkSize old new k) i =
      decide (Blocks.count chunkSize new.length ≤ i ∧ i < k) := by
  rw [Bool.eq_iff_iff, decide_eq_true_iff]
  simp only [isDeleted, List.any_eq_true, Bool.and_eq_true, decide_eq_true_eq]
  constructor
  · rintro ⟨b, member, deleted, position⟩
    obtain ⟨j, below, found⟩ := mem_changes.mp member
    rcases change_cases found (by omega) with ⟨index, ⟨-, -, other, -⟩ | ⟨-, past, -⟩⟩
    · exact absurd deleted other
    · rw [index, toUInt32_toNat (by omega)] at position
      omega
  · rintro ⟨past, below⟩
    cases found : change sha256 chunkSize old new i with
    | none =>
      have := (change_none found).2.1
      omega
    | some b =>
      rcases change_cases found (by omega) with ⟨index, ⟨-, present, -, -⟩ | ⟨-, -, deleted⟩⟩
      · omega
      · exact ⟨b, mem_changes.mpr ⟨i, below, found⟩, deleted, by
          rw [index, toUInt32_toNat (by omega)]⟩

theorem patch_changes (free : CollisionFree sha256 (hashed chunkSize old new)) (few : k ≤ 2 ^ 32)
    (full : k = max (Blocks.count chunkSize old.length) (Blocks.count chunkSize new.length)) :
    patch chunkSize new (Blocks.blocks chunkSize old) (changes sha256 chunkSize old new k) =
      Blocks.blocks chunkSize new := by
  have reached : (Blocks.blocks chunkSize new).length ≤ k := by simp; omega
  rw [patch, place_changes free few (by omega), Blocks.overlay_past reached, List.zipIdx_append,
    List.filter_append, List.map_append]
  have front : (Blocks.blocks chunkSize new).zipIdx.filter
      (fun entry => !isDeleted (changes sha256 chunkSize old new k) entry.2) =
      (Blocks.blocks chunkSize new).zipIdx := by
    apply List.filter_eq_self.mpr
    rintro ⟨piece, i⟩ member
    have below := List.snd_lt_of_mem_zipIdx member
    simp only [Blocks.blocks_length] at below
    rw [isDeleted_changes few full, Bool.not_eq_true', decide_eq_false_iff_not]
    omega
  have rest : (((Blocks.blocks chunkSize old).drop (Blocks.blocks chunkSize new).length).zipIdx
      (0 + (Blocks.blocks chunkSize new).length)).filter
      (fun entry => !isDeleted (changes sha256 chunkSize old new k) entry.2) = [] := by
    apply List.filter_eq_nil_iff.mpr
    rintro ⟨piece, i⟩ member
    have above := List.le_snd_of_mem_zipIdx member
    have below := List.snd_lt_add_of_mem_zipIdx member
    simp only [List.length_drop, Blocks.blocks_length] at above below
    rw [isDeleted_changes few full, Bool.not_eq_true', decide_eq_false_iff_not]
    omega
  rw [front, rest]
  simp

/-- The report loop adds up the transferred blocks as long as the totals fit. -/
theorem foldlM_tally (changed : List BlockDiff) (blocks bytes : Nat)
    (few : blocks + changed.length < 2 ^ 32)
    (small : bytes + ((changed.filter BlockDiff.transferred).map (fun b => b.size.toNat)).sum
      < 2 ^ 64) :
    changed.foldlM tally (blocks, bytes) = some
      (blocks + changed.countP BlockDiff.transferred,
        bytes + ((changed.filter BlockDiff.transferred).map (fun b => b.size.toNat)).sum) := by
  induction changed generalizing blocks bytes with
  | nil => simp
  | cons b rest ih =>
    simp only [List.length_cons] at few
    rw [List.foldlM_cons]
    cases moved : b.transferred with
    | false =>
      simp only [List.filter_cons, moved, Bool.false_eq_true, if_false] at small
      simp [tally, moved, ih blocks bytes (by omega) small]
    | true =>
      simp only [List.filter_cons, moved, if_true, List.map_cons, List.sum_cons] at small
      have counted : tally (blocks, bytes) b = some (blocks + 1, bytes + b.size.toNat) := by
        simp [tally, moved, checkedAdd_of_lt (show blocks + 1 < 2 ^ 32 by omega),
          checkedAdd_of_lt (show bytes + b.size.toNat < 2 ^ 64 by omega)]
      rw [counted]
      simp only [bind, Option.bind_some]
      rw [ih (blocks + 1) (bytes + b.size.toNat) (by omega) (by omega)]
      simp only [List.countP_cons, moved, if_true, List.filter_cons, List.map_cons, List.sum_cons,
        Option.some.injEq, Prod.mk.injEq]
      omega

/-- A transferred block is recorded with the length of the new block at its index. -/
theorem changes_size (few : k ≤ 2 ^ 32) (fits : new.length + chunkSize < 2 ^ 64)
    (within : k ≤ max (Blocks.count chunkSize old.length) (Blocks.count chunkSize new.length))
    (member : b ∈ changes sha256 chunkSize old new k) (moved : b.transferred = true) :
    b.size.toNat = (Blocks.block chunkSize new b.index.toNat).length := by
  obtain ⟨i, below, found⟩ := mem_changes.mp member
  rcases change_cases found (by omega) with ⟨index, ⟨-, -, -, size⟩ | ⟨kept, -, -⟩⟩
  · have bound : (Blocks.block chunkSize new i).length ≤ chunkSize := by
      rw [Blocks.block_length]
      omega
    rw [size, index, toUInt32_toNat (by omega), toUInt64_toNat (by omega)]
  · simp [moved] at kept

/-- No byte of the new file is counted twice. -/
theorem changes_bytes (few : k ≤ 2 ^ 32) (fits : new.length + chunkSize < 2 ^ 64)
    (within : k ≤ max (Blocks.count chunkSize old.length) (Blocks.count chunkSize new.length)) :
    (((changes sha256 chunkSize old new k).filter BlockDiff.transferred).map
      (fun b => b.size.toNat)).sum ≤ (new.take (k * chunkSize)).length := by
  induction k with
  | zero => simp [changes]
  | succ k ih =>
    have earlier := ih (by omega) (by omega)
    have cut : (new.take ((k + 1) * chunkSize)).length =
        (new.take (k * chunkSize)).length + (Blocks.block chunkSize new k).length := by
      simp only [List.length_take, Blocks.block_length, Nat.add_mul]
      omega
    rw [changes_succ, List.filter_append, List.map_append, List.sum_append, cut]
    apply Nat.add_le_add earlier
    cases found : change sha256 chunkSize old new k with
    | none => simp
    | some b =>
      cases moved : b.transferred with
      | false => simp [moved]
      | true =>
        have member : b ∈ changes sha256 chunkSize old new (k + 1) :=
          mem_changes.mpr ⟨k, by omega, found⟩
        have size := changes_size few fits within member moved
        rw [(change_cases found (by omega)).1, toUInt32_toNat (by omega)] at size
        simp [moved, size]

end

/-- Every round is either counted or reported. -/
theorem rounds_counted (rounds : List (Option BlockDiff)) :
    rounds.count none + (rounds.filterMap id).length = rounds.length := by
  induction rounds with
  | nil => rfl
  | cons round rest ih =>
    cases round with
    | none =>
      have skipped : (none :: rest).filterMap id = rest.filterMap id := rfl
      rw [List.count_cons_self, skipped, List.length_cons]
      omega
    | some b =>
      have kept : (some b :: rest).filterMap id = b :: rest.filterMap id := rfl
      have uncounted : (some b :: rest).count none = rest.count none :=
        List.count_cons_of_ne (Option.some_ne_none b)
      rw [uncounted, kept, List.length_cons, List.length_cons]
      omega

/-- The rounding-up division overflows for every larger file. -/
theorem numChunks_none (word : chunkSize < 2 ^ 64)
    (overflows : 2 ^ 64 ≤ data.length + chunkSize) : numChunks chunkSize data = none := by
  cases data with
  | nil =>
    simp only [List.length_nil] at overflows
    omega
  | cons byte rest =>
    simp only [numChunks, List.isEmpty_cons, Bool.false_eq_true, if_false,
      checkedAdd_eq_none overflows, bind, Option.bind_none]

/-- What splitting returns, when it returns. -/
theorem chunkData_eq_some {c : Chunker} : c.chunkData sha256 data = some (manifest, chunks) ↔
    data.length + c.chunkSize < 2 ^ 64 ∧
      manifest = ⟨sha256 data, data.length.toUInt64,
        (List.range (Blocks.count c.chunkSize data.length)).map (blockMeta sha256 c.chunkSize data),
        c.chunkSize.toUInt64⟩ ∧ chunks = Blocks.blocks c.chunkSize data := by
  by_cases fits : data.length + c.chunkSize < 2 ^ 64
  · rw [c.chunkData_eq sha256 fits, Option.some.injEq, Prod.mk.injEq]
    simp only [fits, true_and, eq_comm]
  · simp only [Chunker.chunkData, numChunks_none c.word (Nat.not_lt.mp fits), bind,
      Option.bind_none, reduceCtorEq, fits, false_and]

theorem toNat_max (a b : UInt32) : (max a b).toNat = max a.toNat b.toNat := by
  rw [Nat.max_def]
  change (if a ≤ b then b else a).toNat = _
  simp only [UInt32.le_iff_toNat_le]
  split <;> rfl

section
variable {sha256 : Bytes → Hash} {e : BlockDiffEngine} {old new : Bytes}

theorem manifest_fields (split : e.chunker.chunkData sha256 old = some (manifest, oldChunks)) :
    manifest.chunkSize.toNat = e.chunkSize ∧ manifest.fileHash = sha256 old ∧
      manifest.chunks = (List.range (Blocks.count e.chunkSize old.length)).map
        (blockMeta sha256 e.chunkSize old) ∧ oldChunks = Blocks.blocks e.chunkSize old := by
  obtain ⟨-, rfl, rfl⟩ := chunkData_eq_some.mp split
  exact ⟨toUInt64_toNat e.word, rfl, rfl, rfl⟩

/-- The loop of the comparison reports every change between the two files. -/
theorem diffFiles_loop (fits : new.length + e.chunkSize < 2 ^ 64)
    (fewOld : Blocks.count e.chunkSize old.length < 2 ^ 32)
    (fewNew : Blocks.count e.chunkSize new.length < 2 ^ 32)
    (split : e.chunker.chunkData sha256 old = some (manifest, oldChunks))
    (different : sha256 new ≠ sha256 old)
    (bound : n = max (Blocks.count e.chunkSize old.length) (Blocks.count e.chunkSize new.length)) :
    ∃ diff, e.diffFiles sha256 manifest new = some (.ok diff) ∧
      diff.changedBlocks = changes sha256 e.chunkSize old new n ∧
      diff.unchangedCount.toNat + diff.changedBlocks.length = n := by
  obtain ⟨aligned, fileHash, chunks, -⟩ := manifest_fields split
  have rounds := Blocks.mapM_eq_some (l := List.range n)
    (g := change sha256 e.chunkSize old new)
    (fun i member => compareBlock_eq sha256 e.positive fits
      (show i < max (Blocks.count e.chunkSize old.length) (Blocks.count e.chunkSize new.length) by
        rw [← bound]; exact List.mem_range.mp member))
  have counted := rounds_counted ((List.range n).map (change sha256 e.chunkSize old new))
  have listed : ((List.range n).map (change sha256 e.chunkSize old new)).filterMap id =
      changes sha256 e.chunkSize old new n := by
    rw [List.filterMap_map]
    rfl
  rw [listed, List.length_map, List.length_range] at counted
  have last : (max (Blocks.count e.chunkSize old.length).toUInt32
      (Blocks.count e.chunkSize new.length).toUInt32).toNat = n := by
    rw [toNat_max, toUInt32_toNat fewOld, toUInt32_toNat fewNew, bound]
  refine ⟨{ fileName := "", oldSize := manifest.fileSize, newSize := new.length.toUInt64,
            changedBlocks := changes sha256 e.chunkSize old new n,
            unchangedCount := (((List.range n).map
              (change sha256 e.chunkSize old new)).count none).toUInt32,
            filesMatch := false }, ?_, rfl, ?_⟩
  · rw [BlockDiffEngine.diffFiles, if_neg (not_not.mpr aligned), fileHash, if_neg different,
      numChunks_eq e.positive fits, chunks, List.length_map, List.length_range]
    simp only [bind, Option.bind_some, last, rounds, listed]
    rfl
  · rw [toUInt32_toNat (by omega)]
    exact counted

/-- The fast path reports nothing. -/
theorem diffFiles_match (split : e.chunker.chunkData sha256 old = some (manifest, oldChunks))
    (same : sha256 new = sha256 old) :
    ∃ diff, e.diffFiles sha256 manifest new = some (.ok diff) ∧ diff.changedBlocks = [] ∧
      diff.unchangedCount = (Blocks.count e.chunkSize old.length).toUInt32 ∧
      diff.filesMatch = true := by
  obtain ⟨aligned, fileHash, chunks, -⟩ := manifest_fields split
  refine ⟨{ fileName := "", oldSize := manifest.fileSize, newSize := new.length.toUInt64,
            changedBlocks := [], unchangedCount := (Blocks.count e.chunkSize old.length).toUInt32,
            filesMatch := true }, ?_, rfl, rfl, rfl⟩
  rw [BlockDiffEngine.diffFiles, if_neg (not_not.mpr aligned), fileHash, if_pos same, chunks,
    List.length_map, List.length_range]

theorem reported_changes (fits : new.length + e.chunkSize < 2 ^ 64) (few : n < 2 ^ 32)
    (bound : n = max (Blocks.count e.chunkSize old.length) (Blocks.count e.chunkSize new.length))
    (diff : FileDiff) (listed : diff.changedBlocks = changes sha256 e.chunkSize old new n)
    (fileName : String) : ∃ report, e.generateReport diff fileName = some report ∧
      report.bytesToTransfer.toNat = ((diff.changedBlocks.filter BlockDiff.transferred).map
        fun b => (Blocks.block e.chunkSize new b.index.toNat).length).sum := by
  have bytes : (((changes sha256 e.chunkSize old new n).filter BlockDiff.transferred).map
      (fun b => b.size.toNat)).sum ≤ (new.take (n * e.chunkSize)).length :=
    changes_bytes (Nat.le_of_lt few) fits (by omega)
  have length : (changes sha256 e.chunkSize old new n).length ≤ n := by
    have := List.length_filterMap_le (change sha256 e.chunkSize old new) (List.range n)
    rwa [List.length_range] at this
  rw [List.length_take] at bytes
  have totals := foldlM_tally (changes sha256 e.chunkSize old new n) 0 0 (by omega) (by omega)
  have sizes : ((changes sha256 e.chunkSize old new n).filter BlockDiff.transferred).map
      (fun b => b.size.toNat) =
      ((changes sha256 e.chunkSize old new n).filter BlockDiff.transferred).map
        (fun b => (Blocks.block e.chunkSize new b.index.toNat).length) := by
    apply List.map_congr_left
    intro b member
    obtain ⟨member, moved⟩ := List.mem_filter.mp member
    exact changes_size (Nat.le_of_lt few) fits (by omega) member moved
  rw [BlockDiffEngine.generateReport, listed, totals, ← sizes]
  refine ⟨_, rfl, ?_⟩
  simp only [Nat.zero_add]
  exact toUInt64_toNat (by omega)

/-- The counters of a diff are 32 bits wide, and so is the loop bound. -/
theorem diffFiles_counted (compared : e.diffFiles sha256 manifest new = some (.ok diff)) :
    diff.unchangedCount.toNat + diff.changedBlocks.length < 2 ^ 32 := by
  rw [BlockDiffEngine.diffFiles] at compared
  split at compared
  · cases compared
  · split at compared
    · cases compared
      exact UInt32.toNat_lt _
    · obtain ⟨localNumChunks, -, compared⟩ := Option.bind_eq_some_iff.mp compared
      obtain ⟨rounds, looped, compared⟩ := Option.bind_eq_some_iff.mp compared
      cases compared
      have length := Blocks.mapM_length looped
      have counted := rounds_counted rounds
      have truncated : (rounds.count none).toUInt32.toNat ≤ rounds.count none := Nat.mod_le _ _
      have bound := UInt32.toNat_lt
        (max manifest.chunks.length.toUInt32 localNumChunks.toUInt32)
      rw [List.length_range] at length
      dsimp only
      omega

theorem correct_empty (diff : FileDiff) (nothing : diff.changedBlocks = [])
    (few : Blocks.count e.chunkSize old.length < 2 ^ 32)
    (counted : diff.unchangedCount = (Blocks.count e.chunkSize old.length).toUInt32) :
    CorrectDiff e old (Blocks.blocks e.chunkSize old) (Blocks.blocks e.chunkSize old) diff where
  increasing := by simp [nothing]
  patches := by simp [nothing, patch, isDeleted]
  counted := by
    rw [nothing, counted, toUInt32_toNat few, List.length_nil, Blocks.blocks_length]
    omega
  reported := fun fileName => ⟨_, by rw [BlockDiffEngine.generateReport, nothing]; rfl, by simp [nothing]⟩

theorem correct_changes (free : CollisionFree sha256 (hashed e.chunkSize old new))
    (fits : new.length + e.chunkSize < 2 ^ 64) (few : n < 2 ^ 32)
    (bound : n = max (Blocks.count e.chunkSize old.length) (Blocks.count e.chunkSize new.length))
    (diff : FileDiff) (listed : diff.changedBlocks = changes sha256 e.chunkSize old new n)
    (counted : diff.unchangedCount.toNat + diff.changedBlocks.length = n) :
    CorrectDiff e new (Blocks.blocks e.chunkSize old) (Blocks.blocks e.chunkSize new) diff where
  increasing := by
    rw [listed]
    exact changes_increasing (Nat.le_of_lt few) (Nat.le_of_eq bound)
  patches := by
    rw [listed]
    exact patch_changes free (Nat.le_of_lt few) bound
  counted := by
    rw [counted, bound, Blocks.blocks_length, Blocks.blocks_length]
  reported := reported_changes fits few bound diff listed

/-- Comparing with the manifest of the old file gives a correct patch exactly
when the index arithmetic fits the machine words. -/
theorem diff_correct_iff (e : BlockDiffEngine) (old new : Bytes)
    (split : e.chunker.chunkData sha256 old = some (manifest, oldChunks))
    (free : CollisionFree sha256 (hashed e.chunkSize old new)) :
    (∃ newManifest newChunks diff,
      e.chunker.chunkData sha256 new = some (newManifest, newChunks) ∧
      e.diffFiles sha256 manifest new = some (.ok diff) ∧
      CorrectDiff e new oldChunks newChunks diff) ↔
    new.length + e.chunkSize < 2 ^ 64 ∧ Blocks.count e.chunkSize old.length < 2 ^ 32 ∧
      Blocks.count e.chunkSize new.length < 2 ^ 32 := by
  obtain ⟨-, -, -, rfl⟩ := manifest_fields split
  constructor
  · rintro ⟨newManifest, newChunks, diff, newSplit, compared, correct⟩
    obtain ⟨fits, -, rfl⟩ := chunkData_eq_some.mp newSplit
    have counted := correct.counted
    have small := diffFiles_counted compared
    simp only [Blocks.blocks_length, BlockDiffEngine.chunker] at counted
    exact ⟨fits, by omega, by omega⟩
  · rintro ⟨fits, fewOld, fewNew⟩
    have newSplit := e.chunker.chunkData_eq sha256 fits
    by_cases same : sha256 new = sha256 old
    · have equal : new = old := free _ (by simp [hashed]) _ (by simp [hashed]) same
      subst equal
      obtain ⟨diff, compared, nothing, counted, -⟩ := diffFiles_match split same
      exact ⟨_, _, diff, newSplit, compared, correct_empty diff nothing fewOld counted⟩
    · obtain ⟨diff, compared, listed, counted⟩ :=
        diffFiles_loop fits fewOld fewNew split same rfl
      exact ⟨_, _, diff, newSplit, compared,
        correct_changes free fits (by omega) rfl diff listed counted⟩

/-- SHA-256 of the short byte strings used below. -/
def shortDigest (bytes : Bytes) : Hash :=
  let value := if bytes = [] then
      0xe3b0c44298fc1c149afbf4c8996fb92427ae41e4649b934ca495991b7852b855
    else if bytes = [0, 0] then
      0x96a296d224f285c67bee93c30f8a309157f0daa35dc5b87e410b78630a09cfc7
    else if bytes = [1] then
      0x4bf5122f344554c53bde2ebb8cd2b7e3d1600ad631c385a5d7cce23c7785459a
    else if bytes = [2] then
      0xdbc1b4c900ffe48d575b5da5c638040125f65db0fe3e24494b76ea986457d986
    else 0
  ⟨bigEndian 32 value, bigEndian_length 32 value⟩

theorem diff_correct_iff_byte :
    ∃ manifest newManifest oldChunks newChunks diff,
      (BlockDiffEngine.new 4096 (by decide)).chunker.chunkData shortDigest [1] =
        some (manifest, oldChunks) ∧
      (BlockDiffEngine.new 4096 (by decide)).chunker.chunkData shortDigest [2] =
        some (newManifest, newChunks) ∧
      (BlockDiffEngine.new 4096 (by decide)).diffFiles shortDigest manifest [2] = some (.ok diff) ∧
      CorrectDiff (BlockDiffEngine.new 4096 (by decide)) [2] oldChunks newChunks diff := by
  have split := (BlockDiffEngine.new 4096 (by decide)).chunker.chunkData_eq shortDigest
    (show [(1 : UInt8)].length + _ < 2 ^ 64 by decide)
  obtain ⟨newManifest, newChunks, diff, newSplit, compared, correct⟩ :=
    (diff_correct_iff _ [1] [2] split (by unfold CollisionFree; decide)).mpr (by decide)
  exact ⟨_, newManifest, _, newChunks, diff, split, newSplit, compared, correct⟩

/-- With the largest block size the rounding-up division overflows on two bytes. -/
theorem diff_overflows : ∃ manifest oldChunks,
    (BlockDiffEngine.new (2 ^ 64 - 1) (by decide)).chunker.chunkData shortDigest [] =
      some (manifest, oldChunks) ∧
    CollisionFree shortDigest (hashed (2 ^ 64 - 1) [] [0, 0]) ∧
    (BlockDiffEngine.new (2 ^ 64 - 1) (by decide)).diffFiles shortDigest manifest [0, 0] = none := by
  refine ⟨_, _, rfl, ?_, ?_⟩
  · rw [CollisionFree]
    decide
  · rfl

end

end LanLink.Diff
