import Mathlib.Data.List.Induction
import LanLink.Storage.Incremental

/-! What an incremental download writes. Blocks of the local file and blocks of
the remote node come together in one map by their index, so the written file has
one block for each chunk of the manifest, and a block is requested only when the
local file does not have it. -/
namespace LanLink.Incremental
open Words Maps Chunk Diff

/-- The block of the local file at an index, when there is one. -/
def DownloadInput.localBlock (input : DownloadInput) (chunkSize i : Nat) : Option Bytes :=
  match input.localFile with
  | some (.ok data) => (Blocks.blocks chunkSize data)[i]?
  | _ => none

/-- The local block at an index has the hash that the manifest records there. -/
def HashAgrees (sha256 : Bytes → Hash) (remote : FileManifest) (i : Nat) (block : Bytes) : Prop :=
  ∃ entry, remote.chunks[i]? = some entry ∧ entry.hash = sha256 block

instance (sha256 : Bytes → Hash) (remote : FileManifest) (i : Nat) (block : Bytes) :
    Decidable (HashAgrees sha256 remote i block) :=
  decidable_of_iff ((remote.chunks[i]?.map fun entry => decide (entry.hash = sha256 block)) = some true)
    (by simp [HashAgrees])

/-- Where a written block comes from: it was requested, or it is the local one. -/
def Origin (sha256 : Bytes → Hash) (s : IncrementalSync) (remote : FileManifest)
    (input : DownloadInput) (requested : List UInt32) (i : Nat) (block : Bytes) : Prop :=
  if i.toUInt32 ∈ requested then input.block i.toUInt32 = .ok block
  else input.localBlock s.diffEngine.chunkSize i = some block ∧ HashAgrees sha256 remote i block

/-- What a successful download leaves. -/
structure Fetched (sha256 : Bytes → Hash) (s : IncrementalSync) (remote : FileManifest)
    (remotePath : String) (input : DownloadInput) (d : Download) : Prop where
  content : ∃ blocks : List Bytes, d.written = some blocks.flatten ∧
    blocks.length = remote.chunks.length ∧ Sized remote.chunks blocks ∧
    (∀ i block, blocks[i]? = some block → Origin sha256 s remote input d.requested i block) ∧
    sha256 blocks.flatten = remote.fileHash
  requested : ∀ i ∈ d.requested, ∀ block,
    input.localBlock s.diffEngine.chunkSize i.toNat = some block →
      ¬ HashAgrees sha256 remote i.toNat block
  recorded : ∃ entry, d.sync.state.lookup (fileName remotePath) = some entry ∧
    entry.lastSyncedHash = remote.fileHash

/-- Requests that are all answered add the answers to the map. -/
theorem requestBlocks_answered (block : UInt32 → Except String Bytes) (need : List UInt32)
    (kept : Map UInt32 Bytes) (asked : List UInt32)
    (ran : requestBlocks block need kept asked = (blocks, requested, none)) :
    requested = asked ++ need ∧ ∀ i, (i ∈ need → ∃ data, block i = .ok data ∧
      blocks.lookup i = some data) ∧ (i ∉ need → blocks.lookup i = kept.lookup i) := by
  induction need generalizing kept asked with
  | nil =>
    cases ran
    simp
  | cons first rest ih =>
    rw [requestBlocks] at ran
    cases answer : block first with
    | error error =>
      rw [answer] at ran
      cases ran
    | ok data =>
      rw [answer] at ran
      obtain ⟨asked, found⟩ := ih _ _ ran
      refine ⟨by simp [asked], fun i => ⟨fun member => ?_, fun absent => ?_⟩⟩
      · by_cases later : i ∈ rest
        · exact (found i).1 later
        · have same : i = first := (List.mem_cons.mp member).resolve_right later
          rw [(found i).2 later, same, AList.lookup_insert]
          exact ⟨data, answer, rfl⟩
      · rw [List.mem_cons, not_or] at absent
        rw [(found i).2 absent.2, AList.lookup_insert_ne absent.1]

theorem orderBlocks_ok (ran : orderBlocks blocks indices = .ok ordered) :
    List.Forall₂ (fun i data => blocks.lookup i = some data) indices ordered := by
  induction indices generalizing ordered with
  | nil =>
    cases ran
    exact .nil
  | cons i rest ih =>
    rw [orderBlocks] at ran
    cases found : blocks.lookup i with
    | none =>
      rw [found] at ran
      cases ran
    | some data =>
      rw [found] at ran
      cases later : orderBlocks blocks rest with
      | error error =>
        rw [later] at ran
        cases ran
      | ok others =>
        rw [later] at ran
        cases ran
        exact .cons found (ih later)

theorem keptBlocks_append (remote : FileManifest) (chunks : List Bytes) (chunk : Bytes) :
    keptBlocks sha256 remote (chunks ++ [chunk]) =
      if HashAgrees sha256 remote chunks.length chunk then
        (keptBlocks sha256 remote chunks).insert chunks.length.toUInt32 chunk
      else keptBlocks sha256 remote chunks := by
  rw [keptBlocks, List.zipIdx_append, List.foldl_append, ← keptBlocks]
  simp only [List.zipIdx_singleton, List.foldl_cons, List.foldl_nil, Nat.zero_add]
  cases found : remote.chunks[chunks.length]? with
  | none => simp [HashAgrees, found]
  | some entry =>
    by_cases same : entry.hash = sha256 chunk
    · simp [HashAgrees, found, same]
    · simp [HashAgrees, found, same]

/-- The blocks that are kept are the local ones with the recorded hash. -/
theorem lookup_keptBlocks {remote : FileManifest} (few : remote.chunks.length < 2 ^ 32)
    (chunks : List Bytes) (j : UInt32) :
    (keptBlocks sha256 remote chunks).lookup j =
      chunks[j.toNat]?.filter fun chunk => HashAgrees sha256 remote j.toNat chunk := by
  induction chunks using List.reverseRecOn with
  | nil => rfl
  | append_singleton chunks chunk ih =>
    have numbered (agrees : HashAgrees sha256 remote chunks.length chunk) :
        chunks.length.toUInt32.toNat = chunks.length := by
      obtain ⟨entry, found, -⟩ := agrees
      have bound := (List.getElem?_eq_some_iff.mp found).1
      exact toUInt32_toNat (by omega)
    rw [keptBlocks_append]
    by_cases last : j.toNat = chunks.length
    · have missing : chunks[j.toNat]? = none := List.getElem?_eq_none (Nat.le_of_eq last.symm)
      have here : (chunks ++ [chunk])[j.toNat]? = some chunk := by simp [last]
      rw [here, last]
      split
      · rename_i agrees
        have key : chunks.length.toUInt32 = j :=
          UInt32.toNat_inj.mp ((numbered agrees).trans last.symm)
        rw [key, AList.lookup_insert, Option.filter_some, if_pos (decide_eq_true agrees)]
      · rename_i differs
        rw [ih, missing, Option.filter_some, if_neg (by simpa using differs), Option.filter_none]
    · have same : (chunks ++ [chunk])[j.toNat]? = chunks[j.toNat]? := by
        rcases Nat.lt_or_ge j.toNat chunks.length with early | late
        · exact List.getElem?_append_left early
        · rw [List.getElem?_eq_none late]
          exact List.getElem?_eq_none (by simp; omega)
      rw [same, ← ih]
      split
      · rename_i agrees
        refine AList.lookup_insert_ne fun key => last ?_
        rw [key, numbered agrees]
      · rfl

/-- The blocks at hand before any request. -/
theorem lookup_localBlocks {s : IncrementalSync} {remote : FileManifest} {input : DownloadInput}
    (few : remote.chunks.length < 2 ^ 32)
    (ran : s.localBlocks sha256 remote localPath input.localFile = some (.ok kept)) (j : UInt32) :
    kept.lookup j = (input.localBlock s.diffEngine.chunkSize j.toNat).filter
      fun chunk => HashAgrees sha256 remote j.toNat chunk := by
  rw [DownloadInput.localBlock]
  cases file : input.localFile with
  | none =>
    rw [file] at ran
    cases ran
    rfl
  | some read =>
    rw [file] at ran
    cases read with
    | error error => cases ran
    | ok data =>
      obtain ⟨compared, -, ran⟩ := Option.bind_eq_some_iff.mp ran
      cases compared with
      | error error => cases ran
      | ok diff =>
        obtain ⟨⟨manifest, chunks⟩, split, ran⟩ := Option.bind_eq_some_iff.mp ran
        cases ran
        obtain ⟨-, -, rfl⟩ := chunkData_eq_some.mp split
        exact lookup_keptBlocks few _ j

/-- The ordered blocks are as many as the manifest has chunks only when no index
was cut to 32 bits. -/
theorem ordered_few {remote : FileManifest} (inOrder : orderBlocks blocks
      (blockIndices remote.chunks.length.toUInt32) = .ok ordered)
    (paired : ordered.length = remote.chunks.length) : remote.chunks.length < 2 ^ 32 := by
  have lengths := (orderBlocks_ok inOrder).length_eq
  rw [blockIndices, List.length_map, List.length_range] at lengths
  have bound := remote.chunks.length.toUInt32.toNat_lt
  omega

theorem origin_of_ordered {s : IncrementalSync} {remote : FileManifest} {input : DownloadInput}
    (few : remote.chunks.length < 2 ^ 32)
    (found : s.localBlocks sha256 remote localPath input.localFile = some (.ok kept))
    (asked : requestBlocks input.block
      ((blockIndices remote.chunks.length.toUInt32).filter fun i => i ∉ kept) kept [] =
        (blocks, requested, none))
    (inOrder : orderBlocks blocks (blockIndices remote.chunks.length.toUInt32) = .ok ordered)
    (placed : ordered[i]? = some block) : Origin sha256 s remote input requested i block := by
  obtain ⟨same, answered⟩ := requestBlocks_answered _ _ _ _ asked
  rw [List.nil_append] at same
  have ordering := orderBlocks_ok inOrder
  obtain ⟨early, value⟩ := List.getElem?_eq_some_iff.mp placed
  have inside : i < (blockIndices remote.chunks.length.toUInt32).length :=
    ordering.length_eq ▸ early
  have entry : blocks.lookup i.toUInt32 = some block := by
    have here := (List.forall₂_iff_get.mp ordering).2 i inside early
    have index : (blockIndices remote.chunks.length.toUInt32)[i] = i.toUInt32 := by
      simp [blockIndices]
    rwa [List.get_eq_getElem, List.get_eq_getElem, index, value] at here
  rw [blockIndices, List.length_map, List.length_range, toUInt32_toNat few] at inside
  have number : i.toUInt32.toNat = i := toUInt32_toNat (by omega)
  rw [Origin]
  split
  · rename_i member
    obtain ⟨data, answer, stored⟩ := (answered i.toUInt32).1 (same ▸ member)
    rw [answer, Option.some.inj (stored.symm.trans entry)]
  · rename_i absent
    rw [(answered i.toUInt32).2 (same ▸ absent), lookup_localBlocks few found, number,
      Option.filter_eq_some_iff] at entry
    exact ⟨entry.1, by simpa using entry.2⟩

/-- A block is requested when the local file does not have it. -/
theorem requested_differs {s : IncrementalSync} {remote : FileManifest} {input : DownloadInput}
    (few : remote.chunks.length < 2 ^ 32)
    (found : s.localBlocks sha256 remote localPath input.localFile = some (.ok kept))
    (missing : i ∉ kept)
    (here : input.localBlock s.diffEngine.chunkSize i.toNat = some block) :
    ¬ HashAgrees sha256 remote i.toNat block := by
  intro agrees
  have held := lookup_localBlocks few found i
  rw [here, Option.filter_some, if_pos (decide_eq_true agrees)] at held
  exact missing (Maps.mem_of_lookup held)

/-- A download that succeeds has put the file together from one block for each
chunk of the manifest; one that fails has changed nothing. A write that fails is
among the failures, and `written` does not tell what it left. -/
theorem download_sound (sha256 : Bytes → Hash) (s : IncrementalSync) (remotePath localPath : String)
    (input : DownloadInput) (d : Download)
    (ran : s.downloadFile sha256 remotePath localPath input = some d) :
    (∀ result, d.result = .ok result → ∃ reply, input.manifest = .ok reply ∧
      Fetched sha256 s (s.remoteManifest reply) remotePath input d) ∧
    (∀ error, d.result = .error error → d.sync = s ∧ d.written = none) := by
  obtain ⟨⟨failed, refused⟩, unchanged⟩ | ⟨reply, kept, blocks, ordered, restored, result, answered,
    found, asked, inOrder, assembled, synced, written, done⟩ := downloadFile_cases ran
  · refine ⟨fun result done => ?_, fun _ _ => unchanged⟩
    rw [refused] at done
    cases done
  · refine ⟨fun _ _ => ⟨reply, answered, ?_⟩, fun error refused => ?_⟩
    · obtain ⟨paired, sized, -, hash, rfl⟩ := (reassemble_eq_ok _ _ _ _).mp assembled
      have few := ordered_few inOrder paired
      refine ⟨⟨ordered, written, paired, sized, ?_, hash⟩, ?_, ?_⟩
      · intro i block placed
        exact origin_of_ordered few found asked inOrder placed
      · intro i member block here
        have need := (requestBlocks_answered _ _ _ _ asked).1
        rw [List.nil_append] at need
        rw [need, List.mem_filter] at member
        exact requested_differs few found (by simpa using member.2) here
      · rw [synced]
        exact ⟨_, AList.lookup_insert _, rfl⟩
    · rw [refused] at done
      cases done

/-- The file of the remote node has another byte than the local one. -/
def otherByte : DownloadInput where
  manifest := .ok (some ⟨shortDigest [1], 1, [⟨shortDigest [1], 0, 0, 1⟩], 4096⟩)
  localFile := some (.ok [2])
  block := fun _ => .ok [1]
  write := none
  start := 0
  finish := 1

theorem download_sound_otherByte : ∃ d result,
    (IncrementalSync.withChunkSize 4096 (by decide)).downloadFile shortDigest "report" "report"
      otherByte = some d ∧ d.result = .ok result ∧ d.written = some [1] ∧ d.requested = [0] ∧
    Fetched shortDigest (IncrementalSync.withChunkSize 4096 (by decide))
      ⟨shortDigest [1], 1, [⟨shortDigest [1], 0, 0, 1⟩], 4096⟩ "report" otherByte d := by
  obtain ⟨d, result, ran, done, written, requested⟩ : ∃ d result,
      (IncrementalSync.withChunkSize 4096 (by decide)).downloadFile shortDigest "report" "report"
        otherByte = some d ∧ d.result = .ok result ∧ d.written = some [1] ∧ d.requested = [0] :=
    ⟨_, _, rfl, rfl, rfl, rfl⟩
  obtain ⟨reply, answered, fetched⟩ := (download_sound _ _ _ _ _ d ran).1 result done
  cases answered
  exact ⟨d, result, ran, done, written, requested, fetched⟩

end LanLink.Incremental
