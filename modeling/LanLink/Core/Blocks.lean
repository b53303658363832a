import Mathlib.Algebra.GroupWithZero.Nat
import Mathlib.Data.List.Basic

/-! A list cut into consecutive blocks of a fixed size. Only the last block may
be shorter, and it is never empty; the empty list has no block. The blocks are
indexed by position, so a lookup needs no traversal of earlier blocks. -/
namespace Blocks
variable {α β : Type}

/-- How many blocks of `size` elements cover a list of the given length. -/
def count (size length : Nat) : Nat := (length + size - 1) / size

def block (size : Nat) (list : List α) (i : Nat) : List α := (list.drop (i * size)).take size

def blocks (size : Nat) (list : List α) : List (List α) :=
  (List.range (count size list.length)).map (block size list)

section
variable {size : Nat}

@[simp] theorem count_zero (positive : 0 < size) : count size 0 = 0 := by
  simp only [count, Nat.zero_add]
  exact Nat.div_eq_of_lt (by omega)

/-- An index is below the count exactly when its block starts inside the list. -/
theorem lt_count (positive : 0 < size) (i length : Nat) :
    i < count size length ↔ i * size < length := by
  rw [count, Nat.lt_iff_add_one_le, Nat.le_div_iff_mul_le positive, Nat.add_mul]
  omega

theorem count_le (positive : 0 < size) (length bound : Nat) :
    count size length ≤ bound ↔ length ≤ bound * size := by
  have := lt_count positive bound length
  omega

theorem count_le_length (positive : 0 < size) (length : Nat) : count size length ≤ length :=
  (count_le positive length length).mpr (Nat.le_mul_of_pos_right _ positive)

@[simp] theorem blocks_length (list : List α) :
    (blocks size list).length = count size list.length := by
  simp [blocks]

theorem blocks_getElem? (list : List α) (present : i < count size list.length) :
    (blocks size list)[i]? = some (block size list i) := by
  simp [blocks, present]

theorem block_length (list : List α) (i : Nat) :
    (block size list i).length = min size (list.length - i * size) := by
  simp [block]

theorem block_full (list : List α) (inner : (i + 1) * size ≤ list.length) :
    (block size list i).length = size := by
  rw [Nat.add_mul] at inner
  rw [block_length]
  omega

theorem block_nonempty (positive : 0 < size) (list : List α)
    (present : i < count size list.length) : 0 < (block size list i).length := by
  have := (lt_count positive i list.length).mp present
  rw [block_length]
  omega

theorem flatten_blocks_take (list : List α) (n : Nat) :
    ((List.range n).map (block size list)).flatten = list.take (n * size) := by
  induction n with
  | zero => simp
  | succ n ih =>
    rw [List.range_succ, List.map_append, List.flatten_append, ih, Nat.add_mul, Nat.one_mul,
      List.take_add]
    simp [block]

/-- Nothing is lost: the blocks in order are the list. -/
theorem flatten_blocks (positive : 0 < size) (list : List α) :
    (blocks size list).flatten = list := by
  have covered := (count_le positive list.length (count size list.length)).mp (Nat.le_refl _)
  rw [blocks, flatten_blocks_take, List.take_of_length_le covered]

theorem sum_block_lengths (positive : 0 < size) (list : List α) :
    ((blocks size list).map List.length).sum = list.length := by
  rw [← List.length_flatten, flatten_blocks positive]

end

section
variable {new old : List α}

/-- The first `k` new elements written over an old list of any length. -/
def overlay (new old : List α) (k : Nat) : List α := new.take k ++ old.drop (min k new.length)

@[simp] theorem overlay_zero : overlay new old 0 = old := by simp [overlay]

theorem overlay_length : (overlay new old k).length = max old.length (min k new.length) := by
  simp only [overlay, List.length_append, List.length_take, List.length_drop]
  omega

theorem overlay_set (hasNew : k < new.length) (hasOld : k < old.length) :
    (overlay new old k).set k new[k] = overlay new old (k + 1) := by
  have front : (new.take k).length = k := by simp; omega
  have stop : min k new.length = k := by omega
  have next : min (k + 1) new.length = k + 1 := by omega
  rw [overlay, overlay, stop, next, List.set_append_right k _ (by omega), front, Nat.sub_self,
    List.drop_eq_getElem_cons hasOld, List.set_cons_zero, List.take_succ_eq_append_getElem hasNew,
    List.append_assoc, List.singleton_append]

theorem overlay_append (hasNew : k < new.length) (noOld : old.length ≤ k) :
    overlay new old k ++ [new[k]] = overlay new old (k + 1) := by
  have rest : old.drop (min k new.length) = [] := List.drop_eq_nil_of_le (by omega)
  have next : old.drop (min (k + 1) new.length) = [] := List.drop_eq_nil_of_le (by omega)
  rw [overlay, overlay, rest, next, List.take_succ_eq_append_getElem hasNew, List.append_nil,
    List.append_nil]

theorem overlay_same (hasNew : k < new.length) (hasOld : k < old.length)
    (same : new[k] = old[k]) : overlay new old (k + 1) = overlay new old k := by
  have stop : min k new.length = k := by omega
  have next : min (k + 1) new.length = k + 1 := by omega
  rw [overlay, overlay, stop, next, List.drop_eq_getElem_cons hasOld,
    List.take_succ_eq_append_getElem hasNew, same, List.append_assoc, List.singleton_append]

theorem overlay_past (past : new.length ≤ k) :
    overlay new old k = new ++ old.drop new.length := by
  rw [overlay, List.take_of_length_le past, Nat.min_eq_right past]

end

/-- A loop that succeeds at every element succeeds with the list of its results. -/
theorem mapM_eq_some {f : α → Option β} {g : α → β} {l : List α}
    (each : ∀ a ∈ l, f a = some (g a)) : l.mapM f = some (l.map g) := by
  induction l with
  | nil => rfl
  | cons a rest ih =>
    rw [List.mapM_cons, each a (by simp), ih (fun b member => each b (by simp [member]))]
    rfl

theorem mapM_eq_ok {f : α → Except ε β} {g : α → β} {l : List α}
    (each : ∀ a ∈ l, f a = .ok (g a)) : l.mapM f = .ok (l.map g) := by
  induction l with
  | nil => rfl
  | cons a rest ih =>
    rw [List.mapM_cons, each a (by simp), ih (fun b member => each b (by simp [member]))]
    rfl

theorem mapM_length {f : α → Option β} {l : List α} {results : List β}
    (ran : l.mapM f = some results) : results.length = l.length := by
  induction l generalizing results with
  | nil =>
    cases ran
    rfl
  | cons a rest ih =>
    rw [List.mapM_cons] at ran
    obtain ⟨b, -, tail⟩ := Option.bind_eq_some_iff.mp ran
    obtain ⟨later, looped, done⟩ := Option.bind_eq_some_iff.mp tail
    cases done
    simp [ih looped]

theorem mapM_mem {f : α → Option β} {l : List α} {results : List β}
    (ran : l.mapM f = some results) (member : a ∈ l) : ∃ b ∈ results, f a = some b := by
  induction l generalizing results with
  | nil => cases member
  | cons first rest ih =>
    rw [List.mapM_cons] at ran
    obtain ⟨b, here, tail⟩ := Option.bind_eq_some_iff.mp ran
    obtain ⟨later, looped, done⟩ := Option.bind_eq_some_iff.mp tail
    cases done
    rcases List.mem_cons.mp member with rfl | member
    · exact ⟨b, List.mem_cons_self, here⟩
    · obtain ⟨other, found, there⟩ := ih looped member
      exact ⟨other, List.mem_cons_of_mem _ found, there⟩

end Blocks
