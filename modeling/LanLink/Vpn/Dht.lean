import LanLink.Core.Bits
import LanLink.Core.Maps
import LanLink.Core.Runs
import LanLink.Storage.Chunk

/-! The distributed hash table: 256 buckets of nodes around the local one, stored
values, and the handling of messages. Instants count nanoseconds, times of values
are seconds of the system clock, and sums of 64-bit words wrap, as in a release
build. The digest of a key is a parameter. An answer is the payload of its relay
message; `none` is an abort, as by an index out of range. -/
namespace LanLink.Vpn
open Words Bits Maps
open LanLink.Chunk (slice)

abbrev NodeID := List.Vector UInt8 32

def kBucketSize : Nat := 20

def bucketCount : Nat := 256

def nodeTimeoutSecs : Nat := 600

/-- In nanoseconds. -/
def second : Nat := 1000000000

inductive DhtMessageType where
  | ping | pong | findNode | nodes | put | get | value
  deriving DecidableEq, Repr

def DhtMessageType.fromU8 (b : UInt8) : Option DhtMessageType :=
  if b = 0x01 then some .ping
  else if b = 0x02 then some .pong
  else if b = 0x03 then some .findNode
  else if b = 0x04 then some .nodes
  else if b = 0x05 then some .put
  else if b = 0x06 then some .get
  else if b = 0x07 then some .value
  else none

def DhtMessageType.toU8 : DhtMessageType → UInt8
  | .ping => 0x01
  | .pong => 0x02
  | .findNode => 0x03
  | .nodes => 0x04
  | .put => 0x05
  | .get => 0x06
  | .value => 0x07

structure BucketEntry where
  nodeId : NodeID
  addr : String
  lastSeen : Nat
  deriving DecidableEq

structure KBucket where
  entries : List BucketEntry
  capacity : Nat
  deriving DecidableEq

def KBucket.new (capacity : Nat) : KBucket := ⟨[], capacity⟩

/-- The first entry of the node with a new time and address, in its place. -/
def renew (nodeId : NodeID) (addr : String) (now : Nat) :
    List BucketEntry → Option (List BucketEntry)
  | [] => none
  | entry :: rest =>
    if entry.nodeId = nodeId then some ({ entry with lastSeen := now, addr } :: rest)
    else (renew nodeId addr now rest).map (entry :: ·)

/-- A full bucket refuses a new node and returns it. -/
def KBucket.insert (b : KBucket) (nodeId : NodeID) (addr : String) (now : Nat) :
    KBucket × Except BucketEntry Bool :=
  match renew nodeId addr now b.entries with
  | some entries => ({ b with entries }, .ok false)
  | none =>
    let entry := ⟨nodeId, addr, now⟩
    if b.entries.length < b.capacity then ({ b with entries := b.entries ++ [entry] }, .ok true)
    else (b, .error entry)

/-- The node moves to the back. -/
def KBucket.touch (b : KBucket) (nodeId : NodeID) (now : Nat) : KBucket × Bool :=
  match b.entries.find? fun entry => entry.nodeId = nodeId with
  | some entry =>
    ({ b with entries := (b.entries.eraseP fun entry => entry.nodeId = nodeId) ++
        [{ entry with lastSeen := now }] }, true)
  | none => (b, false)

def KBucket.remove (b : KBucket) (nodeId : NodeID) : KBucket × Option BucketEntry :=
  ({ b with entries := b.entries.eraseP fun entry => entry.nodeId = nodeId },
    b.entries.find? fun entry => entry.nodeId = nodeId)

structure ValueEntry where
  value : Bytes
  createdAt : UInt64
  ttl : UInt64
  deriving DecidableEq

def ValueEntry.isExpired (v : ValueEntry) (now : UInt64) : Bool := v.createdAt + v.ttl ≤ now

structure DhtManager where
  localId : NodeID
  buckets : Fin bucketCount → KBucket
  values : Map NodeID ValueEntry

def DhtManager.new (localId : NodeID) : DhtManager := ⟨localId, fun _ => .new kBucketSize, ∅⟩

def xorDistance (a b : NodeID) : Bytes := xorBytes a.toList b.toList

/-- The local node itself would go to the last bucket. -/
def bucketNumber (localId target : NodeID) : Nat :=
  (firstSetBit 0 (xorDistance localId target)).getD (bucketCount - 1)

theorem bucketNumber_lt (localId target : NodeID) : bucketNumber localId target < bucketCount := by
  rw [bucketNumber]
  cases found : firstSetBit 0 (xorDistance localId target) with
  | none => decide
  | some k =>
    obtain ⟨j, rfl, bound, -⟩ := firstSetBit_some found
    simp only [xorDistance, xorBytes, List.length_zipWith, List.Vector.toList_length] at bound
    simp only [Option.getD_some, bucketCount]
    omega

/-- The number is an index of the array of buckets. -/
def DhtManager.bucketIndex (m : DhtManager) (target : NodeID) : Fin bucketCount :=
  ⟨bucketNumber m.localId target, bucketNumber_lt m.localId target⟩

def DhtManager.setBucket (m : DhtManager) (i : Fin bucketCount) (b : KBucket) : DhtManager :=
  { m with buckets := Function.update m.buckets i b }

def DhtManager.insertNode (m : DhtManager) (nodeId : NodeID) (addr : String) (now : Nat) :
    DhtManager × Except (Option BucketEntry) Bool :=
  if nodeId = m.localId then (m, .ok false)
  else
    let i := m.bucketIndex nodeId
    let (bucket, result) := (m.buckets i).insert nodeId addr now
    (m.setBucket i bucket, result.mapError some)

def DhtManager.touchNode (m : DhtManager) (nodeId : NodeID) (now : Nat) : DhtManager × Bool :=
  if nodeId = m.localId then (m, false)
  else
    let i := m.bucketIndex nodeId
    let (bucket, found) := (m.buckets i).touch nodeId now
    (m.setBucket i bucket, found)

def DhtManager.removeNode (m : DhtManager) (nodeId : NodeID) : DhtManager × Option BucketEntry :=
  if nodeId = m.localId then (m, none)
  else
    let i := m.bucketIndex nodeId
    let (bucket, removed) := (m.buckets i).remove nodeId
    (m.setBucket i bucket, removed)

def cmpXor : Bytes → Bytes → Ordering
  | a :: as, b :: bs => if a ≠ b then compare a b else cmpXor as bs
  | _, _ => .eq

/-- The nodes of all buckets, in the order of the buckets. -/
def DhtManager.allNodes (m : DhtManager) : List (NodeID × String) :=
  (List.finRange bucketCount).flatMap fun i =>
    (m.buckets i).entries.map fun entry => (entry.nodeId, entry.addr)

/-- The sort is stable. -/
def DhtManager.findNearest (m : DhtManager) (target : NodeID) (count : Nat) :
    List (NodeID × String) :=
  (m.allNodes.mergeSort fun a b =>
    cmpXor (xorDistance target a.1) (xorDistance target b.1) ≠ .gt).take count

def DhtManager.findNode (m : DhtManager) (target : NodeID) : List (NodeID × String) :=
  m.findNearest target kBucketSize

structure BootstrapNode where
  host : String
  port : UInt16
  deriving DecidableEq

def BootstrapNode.addr (node : BootstrapNode) : String := node.host ++ ":" ++ toString node.port

/-- Bootstrap nodes have no identifier yet and get a placeholder. -/
def DhtManager.bootstrapFromNodes (m : DhtManager) (nodes : List BootstrapNode) (now : Nat) :
    DhtManager :=
  nodes.foldl (fun m node => (m.insertNode (List.Vector.replicate 32 0) node.addr now).1) m

/-- When the node in front was not seen for half the timeout, all nodes of the
bucket are removed. -/
def KBucket.refresh (b : KBucket) (now : Nat) : KBucket × Nat :=
  match b.entries.head? with
  | some entry =>
    if nodeTimeoutSecs / 2 * second < now - entry.lastSeen then
      (b.entries.foldl (fun bucket stale => (bucket.remove stale.nodeId).1) b, b.entries.length)
    else (b, 0)
  | none => (b, 0)

def DhtManager.refresh (m : DhtManager) (now : Nat) : DhtManager × Nat :=
  ({ m with buckets := fun i => ((m.buckets i).refresh now).1 },
    ((List.finRange bucketCount).map fun i => ((m.buckets i).refresh now).2).sum)

end LanLink.Vpn
