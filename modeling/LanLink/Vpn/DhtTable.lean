import LanLink.Vpn.DhtMessages

/-! The routing table over whole runs: every node is in the bucket of its first
bit that differs from the local node's, and there once. -/
namespace LanLink.Vpn
open Words Bits
open LanLink.Chunk (slice)

/-- The identifiers in the table, bucket by bucket. -/
def DhtManager.nodeIds (m : DhtManager) : List NodeID :=
  (List.finRange bucketCount).flatMap fun i => (m.buckets i).entries.map BucketEntry.nodeId

structure Table (m : DhtManager) : Prop where
  agrees : ∀ i, ∀ entry ∈ (m.buckets i).entries, ∀ j < i.val,
    bit entry.nodeId.toList j = bit m.localId.toList j
  differs : ∀ i, ∀ entry ∈ (m.buckets i).entries,
    bit entry.nodeId.toList i ≠ bit m.localId.toList i
  distinct : m.nodeIds.Nodup
  bounded : ∀ i, (m.buckets i).entries.length ≤ kBucketSize
  foreign : m.localId ∉ m.nodeIds

/-- Another node is put where its identifier first differs. -/
theorem bucketNumber_bits (other : target ≠ localId) :
    (∀ j < bucketNumber localId target, bit target.toList j = bit localId.toList j) ∧
      bit target.toList (bucketNumber localId target) ≠
        bit localId.toList (bucketNumber localId target) := by
  have lengths : localId.toList.length = target.toList.length := by simp
  rw [bucketNumber]
  cases found : firstSetBit 0 (xorDistance localId target) with
  | none =>
    have same := eq_of_xorBytes_zero lengths (firstSetBit_none found)
    exact absurd (List.Vector.eq _ _ same).symm other
  | some k =>
    obtain ⟨j, position, -, set, before⟩ := firstSetBit_some found
    rw [Nat.zero_mul, Nat.zero_add] at position
    subst position
    simp only [xorDistance, bit_xorBytes lengths] at set before
    rw [Option.getD_some]
    constructor
    · intro r below
      have equal : bit localId.toList r = bit target.toList r := by
        simpa using before r below
      exact equal.symm
    · intro same
      rw [same, Bool.xor_self] at set
      cases set

/-- The state of one bucket whose nodes all belong there. -/
structure KBucket.Holds (belongs : NodeID → Prop) (b : KBucket) : Prop where
  placed : ∀ entry ∈ b.entries, belongs entry.nodeId
  distinct : (b.entries.map BucketEntry.nodeId).Nodup
  capacity : b.capacity = kBucketSize
  bounded : b.entries.length ≤ kBucketSize

theorem renew_ids (renewed : renew nodeId addr now entries = some after) :
    after.map BucketEntry.nodeId = entries.map BucketEntry.nodeId := by
  induction entries generalizing after with
  | nil => simp [renew] at renewed
  | cons entry rest ih =>
    rw [renew] at renewed
    split at renewed
    · cases renewed
      rfl
    · obtain ⟨others, tail, rfl⟩ := Option.map_eq_some_iff.mp renewed
      rw [List.map_cons, List.map_cons, ih tail]

theorem renew_none (missing : renew nodeId addr now entries = none) :
    nodeId ∉ entries.map BucketEntry.nodeId := by
  induction entries with
  | nil => simp
  | cons entry rest ih =>
    rw [renew] at missing
    split at missing
    · cases missing
    · rename_i different
      have apart : nodeId ≠ entry.nodeId := fun same => different same.symm
      simp only [List.map_cons, List.mem_cons, not_or]
      exact ⟨apart, ih (Option.map_eq_none_iff.mp missing)⟩

/-- Only the identifiers matter. -/
theorem KBucket.Holds.of_ids {b after : KBucket} (holds : b.Holds belongs)
    (ids : after.entries.map BucketEntry.nodeId = b.entries.map BucketEntry.nodeId)
    (capacity : after.capacity = b.capacity) : after.Holds belongs where
  placed := by
    intro entry member
    have known : entry.nodeId ∈ b.entries.map BucketEntry.nodeId :=
      ids ▸ List.mem_map_of_mem member
    obtain ⟨other, present, same⟩ := List.mem_map.mp known
    exact same ▸ holds.placed other present
  distinct := ids ▸ holds.distinct
  capacity := capacity.trans holds.capacity
  bounded := by
    have lengths := congrArg List.length ids
    simp only [List.length_map] at lengths
    exact lengths ▸ holds.bounded

/-- A new node at the back of a bucket that is not full. -/
theorem KBucket.Holds.append {b : KBucket} {entry : BucketEntry} (holds : b.Holds belongs)
    (own : belongs entry.nodeId) (new : entry.nodeId ∉ b.entries.map BucketEntry.nodeId)
    (room : b.entries.length < kBucketSize) :
    KBucket.Holds belongs { b with entries := b.entries ++ [entry] } where
  placed := by
    intro other member
    rcases List.mem_append.mp member with member | back
    · exact holds.placed other member
    · rw [List.mem_singleton.mp back]
      exact own
  distinct := by
    rw [List.map_append, List.map_singleton]
    refine List.nodup_append.mpr ⟨holds.distinct, List.nodup_singleton _, ?_⟩
    intro id known other back same
    rw [List.mem_singleton.mp back] at same
    exact new (same ▸ known)
  capacity := holds.capacity
  bounded := by
    rw [List.length_append, List.length_singleton]
    exact room

theorem KBucket.Holds.insert {b : KBucket} (holds : b.Holds belongs) (own : belongs nodeId)
    (addr : String) (now : Nat) : (b.insert nodeId addr now).1.Holds belongs := by
  rw [KBucket.insert]
  split
  · rename_i entries renewed
    exact holds.of_ids (renew_ids renewed) rfl
  · rename_i missing
    dsimp only
    split
    · rename_i room
      exact holds.append own (renew_none missing) (holds.capacity ▸ room)
    · exact holds

/-- A bucket from which entries are taken away. -/
theorem KBucket.Holds.sublist {b after : KBucket} (holds : b.Holds belongs)
    (fewer : after.entries.Sublist b.entries) (capacity : after.capacity = b.capacity) :
    after.Holds belongs where
  placed := fun entry member => holds.placed entry (fewer.subset member)
  distinct := holds.distinct.sublist (fewer.map _)
  capacity := capacity.trans holds.capacity
  bounded := fewer.length_le.trans holds.bounded

theorem KBucket.Holds.remove {b : KBucket} (holds : b.Holds belongs) (nodeId : NodeID) :
    (b.remove nodeId).1.Holds belongs :=
  holds.sublist List.eraseP_sublist rfl

theorem KBucket.Holds.foldl_remove {b : KBucket} (holds : b.Holds belongs)
    (stale : List BucketEntry) :
    (stale.foldl (fun bucket entry => (bucket.remove entry.nodeId).1) b).Holds belongs := by
  induction stale generalizing b with
  | nil => exact holds
  | cons entry rest ih => exact ih (holds.remove entry.nodeId)

theorem erased_ids {entries : List BucketEntry} (nodeId : NodeID)
    (distinct : (entries.map BucketEntry.nodeId).Nodup) :
    nodeId ∉ (entries.eraseP fun entry => entry.nodeId = nodeId).map BucketEntry.nodeId := by
  induction entries with
  | nil => simp
  | cons entry rest ih =>
    rw [List.map_cons, List.nodup_cons] at distinct
    by_cases named : entry.nodeId = nodeId
    · subst named
      simpa using distinct.1
    · have other : nodeId ≠ entry.nodeId := fun same => named same.symm
      simpa [named, other] using ih distinct.2

/-- The touched entry is taken out and put at the back. -/
theorem KBucket.Holds.touch {b : KBucket} (holds : b.Holds belongs) (nodeId : NodeID)
    (now : Nat) : (b.touch nodeId now).1.Holds belongs := by
  rw [KBucket.touch]
  split
  · rename_i entry found
    have present := List.mem_of_find?_eq_some found
    have named : entry.nodeId = nodeId := by simpa using List.find?_some found
    have shorter : (b.entries.eraseP fun entry => entry.nodeId = nodeId).length =
        b.entries.length - 1 := List.length_eraseP_of_mem present (by simpa using named)
    have room : (b.remove nodeId).1.entries.length < kBucketSize := by
      have some_entry := List.length_pos_of_mem present
      have bounded := holds.bounded
      simp only [KBucket.remove, shorter]
      omega
    have gone := erased_ids nodeId holds.distinct
    rw [← named] at gone room ⊢
    exact (holds.remove entry.nodeId).append (holds.placed entry present) gone room
  · exact holds

theorem KBucket.Holds.refresh {b : KBucket} (holds : b.Holds belongs) (now : Nat) :
    (b.refresh now).1.Holds belongs := by
  rw [KBucket.refresh]
  split
  · split
    · exact holds.foldl_remove b.entries
    · exact holds
  · exact holds

/-- Every bucket holds only nodes that `bucketIndex` sends there. -/
structure Placed (localId : NodeID) (m : DhtManager) : Prop where
  own : m.localId = localId
  holds : ∀ i : Fin bucketCount,
    (m.buckets i).Holds fun nodeId => nodeId ≠ localId ∧ bucketNumber localId nodeId = i

theorem placed_new (localId : NodeID) : Placed localId (.new localId) where
  own := rfl
  holds _ := ⟨by simp [DhtManager.new, KBucket.new], List.nodup_nil, rfl, Nat.zero_le _⟩

theorem Placed.setBucket (placed : Placed localId m)
    (holds : b.Holds fun nodeId => nodeId ≠ localId ∧ bucketNumber localId nodeId = i.val) :
    Placed localId (m.setBucket i b) where
  own := placed.own
  holds := by
    intro j
    by_cases same : j = i
    · subst same
      have changed : (m.setBucket j b).buckets j = b := Function.update_self ..
      rw [changed]
      exact holds
    · have kept : (m.setBucket i b).buckets j = m.buckets j := Function.update_of_ne same ..
      rw [kept]
      exact placed.holds j

theorem Placed.insertNode (placed : Placed localId m) (nodeId : NodeID) (addr : String)
    (now : Nat) : Placed localId (m.insertNode nodeId addr now).1 := by
  rw [DhtManager.insertNode]
  split
  · exact placed
  · rename_i other
    rw [placed.own] at other
    have place : bucketNumber localId nodeId = m.bucketIndex nodeId :=
      congrArg (bucketNumber · nodeId) placed.own.symm
    exact placed.setBucket ((placed.holds _).insert ⟨other, place⟩ addr now)

theorem Placed.touchNode (placed : Placed localId m) (nodeId : NodeID) (now : Nat) :
    Placed localId (m.touchNode nodeId now).1 := by
  rw [DhtManager.touchNode]
  split
  · exact placed
  · exact placed.setBucket ((placed.holds _).touch nodeId now)

theorem Placed.removeNode (placed : Placed localId m) (nodeId : NodeID) :
    Placed localId (m.removeNode nodeId).1 := by
  rw [DhtManager.removeNode]
  split
  · exact placed
  · exact placed.setBucket ((placed.holds _).remove nodeId)

theorem Placed.refresh (placed : Placed localId m) (now : Nat) :
    Placed localId (m.refresh now).1 where
  own := placed.own
  holds i := (placed.holds i).refresh now

/-- The nodes of an answer, or of the bootstrap list, one by one. -/
theorem Placed.foldl_insertNode {nodes : List T} (placed : Placed localId m)
    (nodeId : T → NodeID) (addr : T → String) (now : Nat) :
    Placed localId
      (nodes.foldl (fun m node => (m.insertNode (nodeId node) (addr node) now).1) m) := by
  induction nodes generalizing m with
  | nil => exact placed
  | cons node rest ih => exact ih (placed.insertNode (nodeId node) (addr node) now)

section
variable (sha256 : Bytes → NodeID)

/-- A put changes at most the values. -/
theorem handlePut_eq (m : DhtManager) (data : Bytes) (now : UInt64) :
    ∃ values, m.handlePut sha256 data now = some { m with values } := by
  rw [DhtManager.handlePut]
  by_cases short : data.length < 2
  · exact ⟨m.values, if_pos short⟩
  rw [if_neg short, readU16_eq (by omega), Option.bind_eq_bind, Option.bind_some]
  generalize ofBigEndian ((data.drop 0).take 2) = keyLen
  by_cases noKey : data.length < 2 + keyLen + 4
  · exact ⟨m.values, if_pos noKey⟩
  rw [if_neg noKey, slice_eq (by omega) (by omega), slice_eq (by omega) (by omega)]
  simp only [Option.bind_eq_bind, Option.bind_some]
  generalize ofBigEndian ((data.drop (2 + keyLen)).take _) = valueLen
  by_cases noValue : data.length < 2 + keyLen + 4 + valueLen + 8
  · exact ⟨m.values, if_pos noValue⟩
  rw [if_neg noValue, slice_eq (by omega) (by omega), slice_eq (by omega) (by omega)]
  exact ⟨_, rfl⟩

/-- No message aborts the node or puts another in a wrong place. -/
theorem Placed.processMessage (placed : Placed localId m) (senderId : NodeID) (payload : Bytes)
    (now : Nat) (nowSecs : UInt64) :
    ∃ after answers, m.processMessage sha256 senderId payload now nowSecs = some (after, answers) ∧
      Placed localId after := by
  unfold DhtManager.processMessage
  cases payload with
  | nil => exact ⟨m, _, rfl, placed⟩
  | cons tag data =>
    have key (enough : ¬ data.length < 32) :
        ∃ bytes nodeId, slice data 0 32 = some bytes ∧ nodeIdOf bytes = some nodeId := by
      have inside : 32 ≤ data.length := Nat.le_of_not_lt enough
      exact ⟨_, _, slice_eq inside (Nat.zero_le 32), nodeIdOf_take (by omega)⟩
    dsimp only
    cases DhtMessageType.fromU8 tag with
    | none => exact ⟨m, _, rfl, placed⟩
    | some type =>
      cases type with
      | ping => exact ⟨_, _, rfl, placed.touchNode senderId now⟩
      | pong => exact ⟨_, _, rfl, placed.touchNode senderId now⟩
      | findNode =>
        dsimp only
        split
        · exact ⟨m, _, rfl, placed⟩
        · rename_i enough
          obtain ⟨bytes, target, sliced, read⟩ := key enough
          simp only [sliced, read, Option.bind_eq_bind, Option.bind_some]
          exact ⟨m, _, rfl, placed⟩
      | nodes =>
        dsimp only
        rw [decodeNodeList_eq]
        exact ⟨_, _, rfl, placed.foldl_insertNode Prod.fst Prod.snd now⟩
      | put =>
        obtain ⟨values, handled⟩ := handlePut_eq sha256 m data nowSecs
        dsimp only
        rw [handled]
        exact ⟨_, _, rfl, placed.own, placed.holds⟩
      | get =>
        dsimp only
        split
        · exact ⟨m, _, rfl, placed⟩
        · rename_i enough
          obtain ⟨bytes, keyHash, sliced, read⟩ := key enough
          simp only [sliced, read, Option.bind_eq_bind, Option.bind_some]
          split
          · exact ⟨m, _, rfl, placed⟩
          · exact ⟨m, _, rfl, placed⟩
      | value => exact ⟨m, _, rfl, placed⟩

end

/-- The bucket of a node follows from its identifier, so no two buckets share one. -/
theorem Placed.table (placed : Placed localId m) : Table m where
  agrees i entry member j below := by
    obtain ⟨other, place⟩ := (placed.holds i).placed entry member
    rw [placed.own]
    exact (bucketNumber_bits other).1 j (place.symm ▸ below)
  differs i entry member := by
    obtain ⟨other, place⟩ := (placed.holds i).placed entry member
    rw [placed.own, ← place]
    exact (bucketNumber_bits other).2
  distinct := by
    refine List.nodup_flatMap.mpr ⟨fun i _ => (placed.holds i).distinct, ?_⟩
    refine (List.nodup_finRange bucketCount).imp fun {i j} different => ?_
    intro nodeId here there
    obtain ⟨entry, member, rfl⟩ := List.mem_map.mp here
    obtain ⟨other, member', same⟩ := List.mem_map.mp there
    have first := ((placed.holds i).placed entry member).2
    have second := ((placed.holds j).placed other member').2
    rw [same, first] at second
    exact different (Fin.ext second)
  bounded i := (placed.holds i).bounded
  foreign := by
    intro stored
    obtain ⟨i, -, member⟩ := List.mem_flatMap.mp stored
    obtain ⟨entry, member, same⟩ := List.mem_map.mp member
    rw [placed.own] at same
    exact ((placed.holds i).placed entry member).1 same

inductive DhtAction where
  | insertNode (nodeId : NodeID) (addr : String) (now : Nat)
  | touchNode (nodeId : NodeID) (now : Nat)
  | removeNode (nodeId : NodeID)
  | refresh (now : Nat)
  | bootstrapFromNodes (nodes : List BootstrapNode) (now : Nat)
  | processMessage (senderId : NodeID) (payload : Bytes) (now : Nat) (nowSecs : UInt64)

section
variable (sha256 : Bytes → NodeID)

def DhtManager.step (m : DhtManager) : DhtAction → Option DhtManager
  | .insertNode nodeId addr now => some (m.insertNode nodeId addr now).1
  | .touchNode nodeId now => some (m.touchNode nodeId now).1
  | .removeNode nodeId => some (m.removeNode nodeId).1
  | .refresh now => some (m.refresh now).1
  | .bootstrapFromNodes nodes now => some (m.bootstrapFromNodes nodes now)
  | .processMessage senderId payload now nowSecs =>
    (m.processMessage sha256 senderId payload now nowSecs).map Prod.fst

theorem Placed.step (placed : Placed localId m) (action : DhtAction) :
    ∃ after, m.step sha256 action = some after ∧ Placed localId after := by
  cases action with
  | insertNode nodeId addr now => exact ⟨_, rfl, placed.insertNode nodeId addr now⟩
  | touchNode nodeId now => exact ⟨_, rfl, placed.touchNode nodeId now⟩
  | removeNode nodeId => exact ⟨_, rfl, placed.removeNode nodeId⟩
  | refresh now => exact ⟨_, rfl, placed.refresh now⟩
  | bootstrapFromNodes nodes now => exact ⟨_, rfl, placed.foldl_insertNode _ _ now⟩
  | processMessage senderId payload now nowSecs =>
    obtain ⟨after, answers, processed, kept⟩ :=
      placed.processMessage sha256 senderId payload now nowSecs
    exact ⟨after, by rw [DhtManager.step, processed, Option.map_some], kept⟩

/-- Every sequence of operations and messages runs to its end and leaves a table
around the local node. -/
theorem table_of_operations (localId : NodeID) (actions : List DhtAction) :
    ∃ m, Runs.exec (DhtManager.step sha256) (.new localId) actions = some m ∧
      m.localId = localId ∧ Table m := by
  obtain ⟨m, run, placed⟩ := Runs.total_invariant (Placed.step sha256) actions (placed_new localId)
  exact ⟨m, run, placed.own, placed.table⟩

end

end LanLink.Vpn
