import Mathlib.Algebra.GroupWithZero.Nat
import Mathlib.Data.List.Basic

/-! Unbounded counters kept in 32-bit words. `Counts w n` says that the word is the
counter modulo 2^32; counters that are close to each other are told apart by their words. -/
namespace Serial

def Counts (w : UInt32) (n : Nat) : Prop := w.toNat = n % 2 ^ 32

variable {v w : UInt32} {m n : Nat}

theorem Counts.succ (counts : Counts w n) : Counts (w + 1) (n + 1) := by
  rw [Counts] at counts ⊢
  rw [UInt32.toNat_add, counts]
  change (n % 2 ^ 32 + 1) % 2 ^ 32 = _
  omega

theorem Counts.add (counts : Counts w n) (k : Nat) : Counts (w + k.toUInt32) (n + k) := by
  have word : k.toUInt32.toNat = k % 2 ^ 32 := by simp
  rw [Counts] at counts ⊢
  rw [UInt32.toNat_add, counts, word]
  omega

/-- The distance of two words is the distance of the counters, around the circle. -/
theorem Counts.sub (here : Counts w n) (there : Counts v m) :
    (w - v).toNat = (n + (2 ^ 32 - m % 2 ^ 32)) % 2 ^ 32 := by
  have range := w.toNat_lt
  rw [Counts] at here there
  rw [UInt32.toNat_sub, here, there]
  omega

theorem Counts.sub_of_le (here : Counts w n) (there : Counts v m) (le : m ≤ n)
    (close : n < m + 2 ^ 32) : (w - v).toNat = n - m := by
  rw [here.sub there]
  omega

theorem Counts.sub_of_lt (here : Counts w n) (there : Counts v m) (lt : n < m)
    (close : m ≤ n + 2 ^ 32) : (w - v).toNat = 2 ^ 32 - (m - n) := by
  rw [here.sub there]
  omega

/-- Words of close counters agree only if the counters do. -/
theorem Counts.inj (here : Counts w n) (there : Counts w m) (above : n < m + 2 ^ 32)
    (below : m < n + 2 ^ 32) : n = m := by
  rw [Counts] at here there
  omega

theorem Counts.unique (here : Counts w n) (there : Counts v n) : w = v :=
  UInt32.toNat_inj.mp (here.trans there.symm)

theorem Counts.toNat_of_lt (counts : Counts w n) (small : n < 2 ^ 32) : w.toNat = n := by
  rw [Counts] at counts
  omega

end Serial
