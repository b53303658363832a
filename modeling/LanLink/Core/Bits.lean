import Mathlib.Data.List.GetD

/-! Bits of byte strings, the most significant bit of each byte first, and the
first bit in which two strings differ. -/
namespace Bits

def bit (bytes : List UInt8) (i : Nat) : Bool := (bytes.getD (i / 8) 0).toBitVec.getMsbD (i % 8)

def leadingZeros (byte : UInt8) : Nat := byte.toBitVec.clz.toNat

/-- The first bit that is set, of bytes whose first one has the index `i`. -/
def firstSetBit : Nat → List UInt8 → Option Nat
  | _, [] => none
  | i, byte :: rest => if byte ≠ 0 then some (i * 8 + leadingZeros byte) else firstSetBit (i + 1) rest

def xorBytes (a b : List UInt8) : List UInt8 := List.zipWith (· ^^^ ·) a b

theorem leadingZeros_lt {byte : UInt8} (nonzero : byte ≠ 0) : leadingZeros byte < 8 := by
  have vector : byte.toBitVec ≠ 0#8 := fun zero => nonzero (UInt8.toBitVec_inj.mp zero)
  exact BitVec.lt_def.mp (BitVec.clz_lt_iff_ne_zero.mpr vector)

theorem getMsbD_leadingZeros {byte : UInt8} (nonzero : byte ≠ 0) :
    byte.toBitVec.getMsbD (leadingZeros byte) = true := by
  have vector : byte.toBitVec ≠ 0#8 := fun zero => nonzero (UInt8.toBitVec_inj.mp zero)
  rw [BitVec.getMsbD_eq_getLsbD]
  simp only [leadingZeros_lt nonzero, decide_true, Bool.true_and]
  exact BitVec.getLsbD_true_clz_of_ne_zero (by decide) vector

theorem getMsbD_below_leadingZeros (byte : UInt8) (below : r < leadingZeros byte) :
    byte.toBitVec.getMsbD r = false := by
  rw [BitVec.getMsbD_eq_getLsbD]
  by_cases inside : r < 8
  · have small : byte.toBitVec.toNat < 2 ^ (8 - leadingZeros byte) :=
      BitVec.toNat_lt_two_pow_sub_clz
    have high : byte.toBitVec.toNat < 2 ^ (8 - 1 - r) :=
      Nat.lt_of_lt_of_le small (Nat.pow_le_pow_right (by decide) (by omega))
    simp only [BitVec.getLsbD, Nat.testBit_lt_two_pow high, Bool.and_false]
  · simp [inside]

theorem bit_cons_of_lt (byte : UInt8) (rest : List UInt8) (small : i < 8) :
    bit (byte :: rest) i = byte.toBitVec.getMsbD i := by
  have first : i / 8 = 0 := by omega
  have inside : i % 8 = i := by omega
  simp [bit, first, inside]

theorem bit_cons_add (byte : UInt8) (rest : List UInt8) (i : Nat) :
    bit (byte :: rest) (i + 8) = bit rest i := by
  have later : (i + 8) / 8 = i / 8 + 1 := by omega
  have inside : (i + 8) % 8 = i % 8 := by omega
  simp [bit, later, inside]

/-- The bit that is found is set and no bit before it is. -/
theorem firstSetBit_some (found : firstSetBit i bytes = some k) :
    ∃ j, k = i * 8 + j ∧ j < 8 * bytes.length ∧ bit bytes j = true ∧
      ∀ r < j, bit bytes r = false := by
  induction bytes generalizing i with
  | nil => simp [firstSetBit] at found
  | cons byte rest ih =>
    rw [firstSetBit] at found
    split at found
    · rename_i nonzero
      have inside := leadingZeros_lt nonzero
      refine ⟨leadingZeros byte, (Option.some.inj found).symm, ?_, ?_, fun r below => ?_⟩
      · simp only [List.length_cons]
        omega
      · rw [bit_cons_of_lt byte rest inside]
        exact getMsbD_leadingZeros nonzero
      · rw [bit_cons_of_lt byte rest (Nat.lt_trans below inside)]
        exact getMsbD_below_leadingZeros byte below
    · rename_i zero
      rw [not_not] at zero
      obtain ⟨j, position, bound, set, before⟩ := ih found
      refine ⟨j + 8, by omega, by simp only [List.length_cons]; omega, ?_, fun r below => ?_⟩
      · rw [bit_cons_add]
        exact set
      · by_cases inside : r < 8
        · rw [bit_cons_of_lt byte rest inside, zero]
          simp
        · obtain ⟨shifted, rfl⟩ := Nat.exists_eq_add_of_le' (Nat.le_of_not_lt inside)
          rw [bit_cons_add]
          exact before shifted (by omega)

theorem firstSetBit_none (missing : firstSetBit i bytes = none) : ∀ byte ∈ bytes, byte = 0 := by
  induction bytes generalizing i with
  | nil => simp
  | cons byte rest ih =>
    rw [firstSetBit] at missing
    split at missing
    · cases missing
    · rename_i zero
      rw [not_not] at zero
      exact List.forall_mem_cons.mpr ⟨zero, ih missing⟩

theorem bit_xorBytes (same : a.length = b.length) (i : Nat) :
    bit (xorBytes a b) i = (bit a i ^^ bit b i) := by
  unfold bit
  by_cases inside : i / 8 < a.length
  · have other : i / 8 < b.length := same ▸ inside
    rw [xorBytes, List.getD_eq_getElem?_getD, List.getElem?_zipWith]
    simp [inside, other]
  · have outside : ¬ i / 8 < b.length := same ▸ inside
    rw [xorBytes, List.getD_eq_getElem?_getD, List.getElem?_zipWith]
    simp [inside, outside]

theorem xorBytes_comm (a b : List UInt8) : xorBytes a b = xorBytes b a :=
  List.zipWith_comm_of_comm UInt8.xor_comm

/-- Strings without a difference are equal. -/
theorem eq_of_xorBytes_zero (same : a.length = b.length)
    (zero : ∀ byte ∈ xorBytes a b, byte = 0) : a = b := by
  induction a generalizing b with
  | nil => exact (List.length_eq_zero_iff.mp same.symm).symm
  | cons x rest ih =>
    cases b with
    | nil => simp at same
    | cons y others =>
      simp only [xorBytes, List.zipWith_cons_cons, List.forall_mem_cons] at zero
      rw [UInt8.xor_eq_zero_iff.mp zero.1, ih (Nat.succ.inj same) zero.2]

theorem xorBytes_cancel (first : t.length = a.length) (second : t.length = b.length)
    (same : xorBytes t a = xorBytes t b) : a = b := by
  induction t generalizing a b with
  | nil => rw [List.length_eq_zero_iff.mp first.symm, List.length_eq_zero_iff.mp second.symm]
  | cons x rest ih =>
    cases a with
    | nil => simp at first
    | cons y ys =>
      cases b with
      | nil => simp at second
      | cons z zs =>
        simp only [xorBytes, List.zipWith_cons_cons, List.cons.injEq] at same
        rw [(UInt8.xor_right_inj x).mp same.1, ih (Nat.succ.inj first) (Nat.succ.inj second) same.2]

end Bits
