import LanLink.Core.Blocks
import LanLink.Core.Maps
import LanLink.Core.Words

/-! Transport over several paths: data is cut into numbered fragments, each fragment
is given a path, and the receiver puts the fragments back into order. Weights of
paths are floating-point numbers in the source; here they are of any type, with any
addition and any comparison with a sequence number. -/
namespace LanLink.Multipath
open Words Maps

structure Fragment where
  seq : Nat
  streamId : UInt64
  data : Bytes
  totalFragments : Nat
  deriving DecidableEq

inductive PathState where
  | active | degraded | dead
  deriving DecidableEq, Repr

structure PathInfo (W : Type) where
  id : Nat
  weight : W
  state : PathState
  lostPackets : Nat

/-- The table of paths; every path is filed under its own id. -/
structure PathTable (W : Type) where
  paths : Map Nat (PathInfo W)
  keyed : ∀ id path, paths.lookup id = some path → path.id = id

section
variable {W : Type} (checks : Bool)

def PathTable.empty : PathTable W := ⟨∅, nofun⟩

/-- A path that is there changes, but not its id. -/
def PathTable.modify (t : PathTable W) (id : Nat) (change : PathInfo W → PathInfo W)
    (same : ∀ path, (change path).id = path.id) : PathTable W :=
  match found : t.paths.lookup id with
  | none => t
  | some path => ⟨t.paths.insert id (change path), by
      intro other entry there
      by_cases here : other = id
      · rw [here, AList.lookup_insert] at there
        cases there
        rw [same, t.keyed id path found, here]
      · rw [AList.lookup_insert_ne here] at there
        exact t.keyed other entry there⟩

def PathTable.addPath (t : PathTable W) (id : Nat) (initial : W) : PathTable W :=
  ⟨t.paths.insert id ⟨id, initial, .active, 0⟩, by
    intro other entry there
    by_cases here : other = id
    · rw [here, AList.lookup_insert] at there
      cases there
      exact here.symm
    · rw [AList.lookup_insert_ne here] at there
      exact t.keyed other entry there⟩

def PathTable.removePath (t : PathTable W) (id : Nat) : PathTable W :=
  ⟨t.paths.erase id, by
    intro other entry there
    by_cases here : other = id
    · rw [here, AList.lookup_erase] at there
      cases there
    · rw [AList.lookup_erase_ne here] at there
      exact t.keyed other entry there⟩

/-- The weight is computed anew from the latency. -/
def PathTable.updatePathLatency (t : PathTable W) (id : Nat) (weight : W) : PathTable W :=
  t.modify id (fun path => { path with weight }) fun _ => rfl

def PathTable.recordAck (t : PathTable W) (id : Nat) : PathTable W :=
  t.modify id (fun path => { path with state := .active }) fun _ => rfl

/-- The state of a path after as many lost packets. -/
def lossState (state : PathState) (lostPackets : Nat) : PathState :=
  if 20 < lostPackets then .dead else if 5 < lostPackets then .degraded else state

def PathTable.recordLoss (t : PathTable W) (id : Nat) : Option (PathTable W) :=
  match t.paths.lookup id with
  | none => some t
  | some path => do
    let lostPackets ← addWord checks 32 path.lostPackets 1
    let change (path : PathInfo W) : PathInfo W :=
      { path with lostPackets, state := lossState path.state lostPackets }
    return t.modify id change fun _ => rfl

structure MultiPathManager (W : Type) where
  table : PathTable W
  nextSeq : Nat
  fragmentSize : Nat

/-- The loop that cuts the data; it runs at most once for every byte. -/
def fragmentLoop (data : Bytes) (fragmentSize : Nat) :
    Nat → Nat → Nat → Option (List (Nat × Bytes))
  | 0, _, _ => some []
  | n + 1, offset, seq =>
    if offset < data.length then do
      let stop := min (← addWord checks 64 offset fragmentSize) data.length
      let next ← addWord checks 64 seq 1
      let rest ← fragmentLoop data fragmentSize n stop next
      return (seq, (data.take stop).drop offset) :: rest
    else some []

/-- How many sequence numbers are reserved for data of a length; a division by zero
aborts. -/
def reserve (fragmentSize length : Nat) : Option Nat := do
  let sum ← addWord checks 64 length fragmentSize
  let above ← subWord checks 64 sum 1
  if fragmentSize = 0 then none else some (above / fragmentSize)

def MultiPathManager.fragmentData (m : MultiPathManager W) (data : Bytes) :
    Option (List (Nat × Bytes) × MultiPathManager W) := do
  let reserved ← reserve checks m.fragmentSize data.length
  let fragments ← fragmentLoop checks data m.fragmentSize data.length 0 m.nextSeq
  return (fragments, { m with nextSeq := (m.nextSeq + reserved) % 2 ^ 64 })

variable [Add W] (below : W → Nat → Bool)

/-- The paths are gone through from the current one on, while the sum of their weights is
below the sequence number; the last path takes the rest. -/
def choosePath (seq : Nat) (current : PathInfo W) (accum : W) :
    List (PathInfo W) → PathInfo W × W × List (PathInfo W)
  | [] => (current, accum, [])
  | next :: later =>
    if below accum seq then choosePath seq next (accum + next.weight) later
    else (current, accum, next :: later)

def assignPaths (streamId : UInt64) (totalFragments : Nat) (current : PathInfo W) (accum : W)
    (later : List (PathInfo W)) : List (Nat × Bytes) → List (Nat × Fragment)
  | [] => []
  | (seq, data) :: rest =>
    let (path, accum, later) := choosePath below seq current accum later
    (path.id, ⟨seq, streamId, data, totalFragments⟩) ::
      assignPaths streamId totalFragments path accum later rest

def MultiPathManager.activePaths (m : MultiPathManager W) : List (PathInfo W) :=
  ((pairs m.table.paths).map (·.2)).filter fun path => path.state ≠ .dead

/-- Without a path that is alive nothing is sent and no number is used. -/
def MultiPathManager.sendViaPaths (m : MultiPathManager W) (data : Bytes) (streamId : UInt64) :
    Option (List (Nat × Fragment) × MultiPathManager W) :=
  match m.activePaths with
  | [] => some ([], m)
  | first :: later => do
    let (fragments, m) ← m.fragmentData checks data
    return (assignPaths below streamId (fragments.length % 2 ^ 32) first first.weight later
      fragments, m)

end

structure ReorderBuffer where
  buffer : Map Nat Bytes
  expectedSeq : Nat
  maxSize : Nat

def ReorderBuffer.new (maxSize : Nat) : ReorderBuffer := ⟨∅, 0, maxSize⟩

section
variable (checks : Bool)

/-- Fragments that follow are put out as long as they are there; every round takes one
out of the buffer. -/
def drain : Nat → Map Nat Bytes → Nat →
    Option (List Bytes × Map Nat Bytes × Nat)
  | 0, buffer, expected => some ([], buffer, expected)
  | n + 1, buffer, expected =>
    match buffer.lookup expected with
    | none => some ([], buffer, expected)
    | some data => do
      let next ← addWord checks 64 expected 1
      let (later, buffer, expected) ← drain n (buffer.erase expected) next
      return (data :: later, buffer, expected)

/-- What is put out, if anything. -/
def ReorderBuffer.insert (b : ReorderBuffer) (seq : Nat) (data : Bytes) :
    Option (Option (List Bytes) × ReorderBuffer) :=
  if seq < b.expectedSeq then some (none, b)
  else if seq = b.expectedSeq then do
    let next ← addWord checks 64 b.expectedSeq 1
    let (later, buffer, expectedSeq) ← drain checks b.buffer.entries.length b.buffer next
    return (some (data :: later), { b with buffer, expectedSeq })
  else if b.buffer.entries.length < b.maxSize then
    some (none, { b with buffer := b.buffer.insert seq data })
  else some (none, b)

end

end LanLink.Multipath
