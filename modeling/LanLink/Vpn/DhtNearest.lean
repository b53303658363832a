import LanLink.Vpn.Dht

/-! The nearest nodes of the table. The comparison of two distances is that of
the numbers their bytes write, so the search sorts by a number. -/
namespace LanLink.Vpn
open Words Bits

/-- All 256 bits of the distance as a number. -/
def distance (target nodeId : NodeID) : Nat := ofBigEndian (xorDistance target nodeId)

/-- A stored node that no other stored node is nearer to the target than. -/
def DhtManager.Nearest (m : DhtManager) (target nodeId : NodeID) : Prop :=
  nodeId ∈ m.allNodes.map Prod.fst ∧
    ∀ other ∈ m.allNodes.map Prod.fst, distance target nodeId ≤ distance target other

/-- The first byte that differs decides. -/
theorem cmpXor_eq {a b : Bytes} (lengths : a.length = b.length) :
    cmpXor a b = compare (ofBigEndian a) (ofBigEndian b) := by
  induction a generalizing b with
  | nil =>
    rw [List.length_eq_zero_iff.mp lengths.symm]
    rfl
  | cons x rest ih =>
    cases b with
    | nil => simp at lengths
    | cons y others =>
      have tails : rest.length = others.length := Nat.succ.inj lengths
      have small := ofBigEndian_lt rest
      have little := ofBigEndian_lt others
      rw [← tails] at little
      rw [cmpXor, ofBigEndian_cons, ofBigEndian_cons, ← tails, ih tails]
      rcases Nat.lt_trichotomy x.toNat y.toNat with less | same | more
      · have different : x ≠ y := fun equal => Nat.ne_of_lt less (congrArg UInt8.toNat equal)
        have first : compare x y = .lt := Std.compare_eq_lt.mpr less
        rw [if_pos different, first]
        exact (Nat.compare_eq_lt.mpr (leading_digit_lt less small)).symm
      · rw [if_neg (not_not.mpr (UInt8.toNat_inj.mp same)), same]
        simp [compare, compareOfLessAndEq]
      · have different : x ≠ y := fun equal => Nat.ne_of_gt more (congrArg UInt8.toNat equal)
        have first : compare x y = .gt := Std.compare_eq_gt.mpr more
        rw [if_pos different, first]
        exact (Nat.compare_eq_gt.mpr (leading_digit_lt more little)).symm

theorem xorDistance_length (a b : NodeID) : (xorDistance a b).length = 32 := by
  simp [xorDistance, xorBytes]

theorem nearer_iff (target a b : NodeID) :
    cmpXor (xorDistance target a) (xorDistance target b) ≠ .gt ↔
      distance target a ≤ distance target b := by
  rw [cmpXor_eq (by simp only [xorDistance_length]), Nat.compare_ne_gt]
  rfl

theorem distance_injective (same : distance target a = distance target b) : a = b := by
  have bytes : xorDistance target a = xorDistance target b :=
    ofBigEndian_injective (by simp only [xorDistance_length]) same
  exact List.Vector.eq _ _ (xorBytes_cancel (by simp) (by simp) bytes)

/-- The stored nodes in the order of their distances. -/
def DhtManager.byDistance (m : DhtManager) (target : NodeID) : List (NodeID × String) :=
  m.allNodes.mergeSort fun a b => distance target a.1 ≤ distance target b.1

theorem findNearest_eq (m : DhtManager) (target : NodeID) (count : Nat) :
    m.findNearest target count = (m.byDistance target).take count := by
  simp only [DhtManager.findNearest, nearer_iff, DhtManager.byDistance]

theorem byDistance_pairwise (m : DhtManager) (target : NodeID) :
    (m.byDistance target).Pairwise fun a b => distance target a.1 ≤ distance target b.1 := by
  have sorted : (m.byDistance target).Pairwise
      fun a b => decide (distance target a.1 ≤ distance target b.1) := by
    apply List.pairwise_mergeSort
    · intro a b c first second
      simp only [decide_eq_true_eq] at first second ⊢
      exact first.trans second
    · intro a b
      simp only [Bool.or_eq_true, decide_eq_true_eq]
      exact Nat.le_total _ _
  exact sorted.imp of_decide_eq_true

theorem nearest_of_byDistance {m : DhtManager} (found : m.byDistance target = node :: rest) :
    m.Nearest target node.1 := by
  have stored (other : NodeID × String) : other ∈ m.allNodes ↔ other ∈ node :: rest := by
    rw [← found, DhtManager.byDistance, List.mem_mergeSort]
  have order := byDistance_pairwise m target
  rw [found, List.pairwise_cons] at order
  refine ⟨List.mem_map_of_mem ((stored node).mpr List.mem_cons_self), ?_⟩
  intro other member
  obtain ⟨entry, present, rfl⟩ := List.mem_map.mp member
  rcases List.mem_cons.mp ((stored entry).mp present) with rfl | later
  · exact Nat.le_refl _
  · exact order.1 entry later

theorem DhtManager.Nearest.unique {m : DhtManager} (first : m.Nearest target a)
    (second : m.Nearest target b) : a = b :=
  distance_injective (Nat.le_antisymm (first.2 b second.1) (second.2 a first.1))

/-- The search finds the nearest node first. -/
theorem findNode_head (m : DhtManager) (target nodeId : NodeID) :
    (m.findNode target).head?.map Prod.fst = some nodeId ↔ m.Nearest target nodeId := by
  have front : (m.findNode target).head? = (m.byDistance target).head? := by
    rw [DhtManager.findNode, findNearest_eq, List.head?_take, if_neg (by decide)]
  rw [front]
  cases found : m.byDistance target with
  | nil =>
    have empty : m.allNodes = [] := by
      rw [← List.length_eq_zero_iff, ← List.length_mergeSort, List.length_eq_zero_iff]
      exact found
    simp [DhtManager.Nearest, empty]
  | cons node rest =>
    have nearest := nearest_of_byDistance found
    simp only [List.head?_cons, Option.map_some, Option.some.injEq]
    constructor
    · rintro rfl
      exact nearest
    · exact fun other => nearest.unique other

end LanLink.Vpn
