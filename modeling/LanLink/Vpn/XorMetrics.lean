import LanLink.Vpn.DhtNearest

/-! The distance of the mesh routing beside the metric of the table. The former
shifts all 32 bytes of the difference through a word of 128 bits, and the first
16 of them are lost. -/
namespace LanLink.Vpn
open Words Bits

/-- `(dist << 8) | byte` in 128 bits. -/
def shiftIn (dist : BitVec 128) (byte : UInt8) : BitVec 128 :=
  dist <<< 8 ||| byte.toBitVec.setWidth 128

/-- The integer that `distance` of the identity module converts to a float. -/
def distanceU128 (a b : NodeID) : BitVec 128 := (xorBytes a.toList b.toList).foldl shiftIn 0

/-- `b` is strictly nearer to `a` than `c`, for parts of identifiers. -/
def Nearer (a b c : Bytes) : Prop := ofBigEndian (xorBytes a b) < ofBigEndian (xorBytes a c)

instance (a b c : Bytes) : Decidable (Nearer a b c) := inferInstanceAs (Decidable (_ < _))

/-- The integer orders two nodes as the table does and tells a node from others. -/
def MetricsAgree (a b c : NodeID) : Prop :=
  (distanceU128 a b < distanceU128 a c → cmpXor (xorDistance a b) (xorDistance a c) = .lt) ∧
    (distanceU128 a b = 0 → a = b)

def firstHalf (id : NodeID) : Bytes := id.toList.take 16

def lastHalf (id : NodeID) : Bytes := id.toList.drop 16

/-- The first halves do not order the nodes the other way, and the last half alone
tells the two nodes apart. -/
def HalvesAgree (a b c : NodeID) : Prop :=
  ¬ (Nearer (firstHalf a) (firstHalf c) (firstHalf b) ∧
      Nearer (lastHalf a) (lastHalf b) (lastHalf c)) ∧
    (lastHalf a = lastHalf b → firstHalf a = firstHalf b)

theorem shiftIn_toNat (dist : BitVec 128) (byte : UInt8) :
    (shiftIn dist byte).toNat = (dist.toNat * 256 + byte.toNat) % 2 ^ 128 := by
  have small := byte.toNat_lt
  have room : dist.toNat <<< 8 % 2 ^ 128 = (dist.toNat % 2 ^ 120) <<< 8 := by
    simp only [Nat.shiftLeft_eq]
    omega
  have low : (byte.toBitVec.setWidth 128).toNat = byte.toNat := by
    rw [BitVec.toNat_setWidth]
    exact Nat.mod_eq_of_lt (Nat.lt_trans small (by decide))
  rw [shiftIn, BitVec.toNat_or, BitVec.toNat_shiftLeft, room, low,
    ← Nat.shiftLeft_add_eq_or_of_lt small, Nat.shiftLeft_eq]
  omega

theorem foldl_shiftIn_toNat (bytes : Bytes) (dist : BitVec 128) :
    (bytes.foldl shiftIn dist).toNat =
      (dist.toNat * 256 ^ bytes.length + ofBigEndian bytes) % 2 ^ 128 := by
  induction bytes generalizing dist with
  | nil =>
    rw [List.foldl_nil, List.length_nil, Nat.pow_zero, Nat.mul_one]
    exact (Nat.mod_eq_of_lt dist.isLt).symm
  | cons byte rest ih =>
    have shifted : (dist.toNat * 256 + byte.toNat) * 256 ^ rest.length =
        dist.toNat * 256 ^ (rest.length + 1) + byte.toNat * 256 ^ rest.length := by
      rw [Nat.add_mul, Nat.mul_assoc, ← Nat.pow_succ']
    rw [List.foldl_cons, ih, shiftIn_toNat, ofBigEndian_cons, List.length_cons, Nat.add_mod,
      Nat.mod_mul_mod, ← Nat.add_mod, shifted, Nat.add_assoc]

theorem distance_halves (a b : NodeID) : distance a b =
    ofBigEndian (xorBytes (firstHalf a) (firstHalf b)) * 256 ^ 16 +
      ofBigEndian (xorBytes (lastHalf a) (lastHalf b)) := by
  have split : xorDistance a b = xorBytes (firstHalf a) (firstHalf b) ++
      xorBytes (lastHalf a) (lastHalf b) := by
    simp only [xorBytes, firstHalf, lastHalf, ← List.take_zipWith, ← List.drop_zipWith,
      List.take_append_drop]
    rfl
  have length : (xorBytes (lastHalf a) (lastHalf b)).length = 16 := by
    simp [xorBytes, lastHalf]
  rw [distance, split, ofBigEndian_append, length]

theorem lastHalf_lt (a b : NodeID) : ofBigEndian (xorBytes (lastHalf a) (lastHalf b)) < 256 ^ 16 := by
  have bound := ofBigEndian_lt (xorBytes (lastHalf a) (lastHalf b))
  have length : (xorBytes (lastHalf a) (lastHalf b)).length = 16 := by
    simp [xorBytes, lastHalf]
  rwa [length] at bound

/-- Only the last half is left of the difference. -/
theorem distanceU128_toNat (a b : NodeID) :
    (distanceU128 a b).toNat = ofBigEndian (xorBytes (lastHalf a) (lastHalf b)) := by
  have whole := foldl_shiftIn_toNat (xorBytes a.toList b.toList) 0
  have value : ofBigEndian (xorBytes a.toList b.toList) = distance a b := rfl
  have zero : (0 : BitVec 128).toNat = 0 := rfl
  have small := lastHalf_lt a b
  rw [distanceU128, whole, value, distance_halves, zero]
  omega

theorem halves_eq {a b : NodeID} (first : firstHalf a = firstHalf b)
    (last : lastHalf a = lastHalf b) : a = b := by
  apply List.Vector.eq
  rw [← List.take_append_drop 16 a.toList, ← List.take_append_drop 16 b.toList]
  exact congrArg₂ (· ++ ·) first last

/-- Only equal strings have no difference. -/
theorem xorBytes_zero_iff (lengths : a.length = b.length) :
    ofBigEndian (xorBytes a b) = 0 ↔ a = b := by
  induction a generalizing b with
  | nil =>
    rw [List.length_eq_zero_iff.mp lengths.symm]
    exact ⟨fun _ => rfl, fun _ => rfl⟩
  | cons x rest ih =>
    cases b with
    | nil => exact absurd lengths (Nat.succ_ne_zero _)
    | cons y others =>
      have power : (256 : Nat) ^ (xorBytes rest others).length ≠ 0 :=
        Nat.ne_of_gt (Nat.pow_pos (by decide))
      have byte : (x ^^^ y).toNat = 0 ↔ x = y := by
        rw [← UInt8.xor_eq_zero_iff, ← UInt8.toNat_inj]
        rfl
      show ofBigEndian ((x ^^^ y) :: xorBytes rest others) = 0 ↔ _
      rw [ofBigEndian_cons, Nat.add_eq_zero_iff, Nat.mul_eq_zero, or_iff_left power, byte,
        ih (Nat.succ.inj lengths), List.cons.injEq]

/-- The metrics agree on three nodes exactly when the halves of their
identifiers do. -/
theorem metricsAgree_iff (a b c : NodeID) : MetricsAgree a b c ↔ HalvesAgree a b c := by
  have order : (distanceU128 a b < distanceU128 a c →
      cmpXor (xorDistance a b) (xorDistance a c) = .lt) ↔
      ¬ (Nearer (firstHalf a) (firstHalf c) (firstHalf b) ∧
        Nearer (lastHalf a) (lastHalf b) (lastHalf c)) := by
    have small := lastHalf_lt a b
    have small' := lastHalf_lt a c
    rw [Nearer, Nearer, cmpXor_eq (by simp only [xorDistance_length]), Nat.compare_eq_lt,
      BitVec.lt_def, distanceU128_toNat, distanceU128_toNat]
    change (_ → distance a b < distance a c) ↔ _
    rw [distance_halves, distance_halves]
    generalize ofBigEndian (xorBytes (lastHalf a) (lastHalf b)) = low at *
    generalize ofBigEndian (xorBytes (lastHalf a) (lastHalf c)) = low' at *
    constructor
    · rintro ordered ⟨first, last⟩
      have := ordered last
      omega
    · intro apart last
      have : ¬ _ < _ := fun first => apart ⟨first, last⟩
      omega
  have apart : (distanceU128 a b = 0 → a = b) ↔
      (lastHalf a = lastHalf b → firstHalf a = firstHalf b) := by
    have zero : distanceU128 a b = 0 ↔ lastHalf a = lastHalf b := by
      rw [← BitVec.toNat_inj, distanceU128_toNat]
      exact xorBytes_zero_iff (by simp [lastHalf])
    rw [zero]
    constructor
    · intro same last
      rw [same last]
    · intro same last
      exact halves_eq (same last) last
  exact and_congr order apart

/-- An identifier by its first and its last byte. -/
def outer (first last : UInt8) : NodeID := ⟨first :: List.replicate 30 0 ++ [last], rfl⟩

/-- A node that differs in the first byte has the distance 0 and so comes before one
that differs in the last byte. -/
theorem metrics_disagree :
    distanceU128 (outer 0 0) (outer 1 0) = 0 ∧ outer 0 0 ≠ outer 1 0 ∧
    distanceU128 (outer 0 0) (outer 1 0) < distanceU128 (outer 0 0) (outer 0 1) ∧
    cmpXor (xorDistance (outer 0 0) (outer 1 0)) (xorDistance (outer 0 0) (outer 0 1)) = .gt ∧
    ¬ MetricsAgree (outer 0 0) (outer 1 0) (outer 0 1) := by
  have zero : distanceU128 (outer 0 0) (outer 1 0) = 0 := by decide
  have other : outer 0 0 ≠ outer 1 0 := by decide
  exact ⟨zero, other, by decide, by decide, fun agree => other (agree.2 zero)⟩

end LanLink.Vpn
