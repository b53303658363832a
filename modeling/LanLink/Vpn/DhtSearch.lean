import LanLink.Vpn.DhtNearest
import LanLink.Vpn.DhtTable

/-! The search for the nearest nodes, over the tables that operations can build.
Identifiers are in the table once and distances to one target are different, so
the order by distance is strict and leaves the search no choice. -/
namespace LanLink.Vpn
open Words

/-- What a search for `count` nodes has to return. -/
structure Search (m : DhtManager) (target : NodeID) (count : Nat)
    (found : List (NodeID × String)) : Prop where
  length : found.length = min count m.nodeIds.length
  stored : ∀ node ∈ found, node ∈ m.allNodes
  distinct : (found.map Prod.fst).Nodup
  increasing : found.Pairwise fun a b => distance target a.1 < distance target b.1
  nearest : ∀ other ∈ m.allNodes, other ∉ found →
    ∀ node ∈ found, distance target node.1 < distance target other.1

theorem allNodes_ids (m : DhtManager) : m.allNodes.map Prod.fst = m.nodeIds := by
  simp [DhtManager.allNodes, DhtManager.nodeIds, List.map_flatMap, Function.comp_def]

theorem byDistance_perm (m : DhtManager) (target : NodeID) :
    (m.byDistance target).Perm m.allNodes :=
  List.mergeSort_perm m.allNodes _

theorem byDistance_ids (m : DhtManager) (target : NodeID) :
    ((m.byDistance target).map Prod.fst).Perm m.nodeIds := by
  rw [← allNodes_ids]
  exact (byDistance_perm m target).map Prod.fst

/-- No two nodes of the table are equally far. -/
theorem byDistance_strict {m : DhtManager} (distinct : m.nodeIds.Nodup) (target : NodeID) :
    (m.byDistance target).Pairwise fun a b => distance target a.1 < distance target b.1 := by
  have ids : ((m.byDistance target).map Prod.fst).Nodup :=
    (byDistance_ids m target).nodup_iff.mpr distinct
  have apart := List.pairwise_map.mp ids
  apply ((byDistance_pairwise m target).and apart).imp
  rintro a b ⟨ordered, different⟩
  exact Nat.lt_of_le_of_ne ordered fun same => different (distance_injective same)

theorem findNearest_search {m : DhtManager} (distinct : m.nodeIds.Nodup) (target : NodeID)
    (count : Nat) : Search m target count (m.findNearest target count) := by
  have strict := byDistance_strict distinct target
  have sorted : ∀ node, node ∈ m.byDistance target ↔ node ∈ m.allNodes :=
    fun node => (byDistance_perm m target).mem_iff
  rw [findNearest_eq]
  constructor
  · have size := (byDistance_ids m target).length_eq
    rw [List.length_map] at size
    rw [List.length_take, size]
  · intro node member
    exact (sorted node).mp (List.mem_of_mem_take member)
  · have ids : ((m.byDistance target).map Prod.fst).Nodup :=
      (byDistance_ids m target).nodup_iff.mpr distinct
    exact ids.sublist ((List.take_sublist _ _).map _)
  · exact strict.sublist (List.take_sublist _ _)
  · intro other known missing node member
    -- a node that is stored and not taken stands behind the cut
    have behind : other ∈ (m.byDistance target).drop count := by
      have listed := (sorted other).mpr known
      rw [← List.take_append_drop count (m.byDistance target)] at listed
      exact (List.mem_append.mp listed).resolve_left missing
    rw [← List.take_append_drop count (m.byDistance target)] at strict
    exact (List.pairwise_append.mp strict).2.2 node member other behind

/-- The identifiers found depend only on which identifiers are stored. -/
theorem findNearest_ids_eq {m n : DhtManager} (mDistinct : m.nodeIds.Nodup)
    (nDistinct : n.nodeIds.Nodup) (same : ∀ id, id ∈ m.nodeIds ↔ id ∈ n.nodeIds)
    (target : NodeID) (count : Nat) :
    (m.findNearest target count).map Prod.fst = (n.findNearest target count).map Prod.fst := by
  have stored : m.nodeIds.Perm n.nodeIds :=
    (List.perm_ext_iff_of_nodup mDistinct nDistinct).mpr same
  have listed : ((m.byDistance target).map Prod.fst).Perm ((n.byDistance target).map Prod.fst) :=
    (byDistance_ids m target).trans (stored.trans (byDistance_ids n target).symm)
  have equal : (m.byDistance target).map Prod.fst = (n.byDistance target).map Prod.fst := by
    have mSorted : ((m.byDistance target).map Prod.fst).Pairwise
        fun a b => distance target a < distance target b :=
      List.pairwise_map.mpr (byDistance_strict mDistinct target)
    have nSorted : ((n.byDistance target).map Prod.fst).Pairwise
        fun a b => distance target a < distance target b :=
      List.pairwise_map.mpr (byDistance_strict nDistinct target)
    refine List.Perm.eq_of_pairwise ?_ mSorted nSorted listed
    intro a b _ _ first second
    exact absurd first (Nat.lt_asymm second)
  rw [findNearest_eq, findNearest_eq, List.map_take, List.map_take, equal]

/-- In the table that any operations have built, the search returns the nearest
stored nodes, and the same identifiers as in any other table of these nodes. -/
theorem findNearest_of_operations (sha256 : Bytes → NodeID) (localId : NodeID)
    (actions others : List DhtAction) (target : NodeID) (count : Nat) :
    ∃ m n, Runs.exec (DhtManager.step sha256) (.new localId) actions = some m ∧
      Runs.exec (DhtManager.step sha256) (.new localId) others = some n ∧
      Search m target count (m.findNearest target count) ∧
      ((∀ id, id ∈ m.nodeIds ↔ id ∈ n.nodeIds) →
        (m.findNearest target count).map Prod.fst = (n.findNearest target count).map Prod.fst) := by
  obtain ⟨m, mRun, -, mTable⟩ := table_of_operations sha256 localId actions
  obtain ⟨n, nRun, -, nTable⟩ := table_of_operations sha256 localId others
  refine ⟨m, n, mRun, nRun, findNearest_search mTable.distinct target count, fun same => ?_⟩
  exact findNearest_ids_eq mTable.distinct nTable.distinct same target count

def idOf (byte : UInt8) : NodeID := List.Vector.replicate 32 byte

/-- Three nodes in one order and in another. -/
theorem findNearest_two_orders :
    ∃ m n, Runs.exec (DhtManager.step fun _ => idOf 0) (.new (idOf 0))
        [.insertNode (idOf 1) "a" 0, .insertNode (idOf 2) "b" 1, .insertNode (idOf 3) "c" 2] = some m ∧
      Runs.exec (DhtManager.step fun _ => idOf 0) (.new (idOf 0))
        [.insertNode (idOf 3) "c" 0, .insertNode (idOf 1) "a" 1, .insertNode (idOf 2) "b" 2] = some n ∧
      (m.findNearest (idOf 3) 2).map Prod.fst = (n.findNearest (idOf 3) 2).map Prod.fst := by
  obtain ⟨m, n, mRun, nRun, -, ids⟩ := findNearest_of_operations (fun _ => idOf 0) (idOf 0)
    [.insertNode (idOf 1) "a" 0, .insertNode (idOf 2) "b" 1, .insertNode (idOf 3) "c" 2]
    [.insertNode (idOf 3) "c" 0, .insertNode (idOf 1) "a" 1, .insertNode (idOf 2) "b" 2]
    (idOf 3) 2
  refine ⟨m, n, mRun, nRun, ids ?_⟩
  have first : m.nodeIds = [idOf 2, idOf 3, idOf 1] := by
    cases mRun
    decide +kernel
  have second : n.nodeIds = [idOf 3, idOf 2, idOf 1] := by
    cases nRun
    decide +kernel
  intro id
  simp only [first, second, List.mem_cons, List.not_mem_nil, or_false]
  exact or_left_comm

end LanLink.Vpn
