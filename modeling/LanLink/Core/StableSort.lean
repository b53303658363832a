import Mathlib.Data.List.Basic

/-! Sorting by a key, where entries of one key keep their order. -/
namespace StableSort
variable {α : Type} {key : α → Nat} {l m : List α}

def sort (key : α → Nat) (l : List α) : List α := l.mergeSort fun a b => key a ≤ key b

structure Sorts (key : α → Nat) (l sorted : List α) : Prop where
  ordered : sorted.Pairwise fun a b => key a ≤ key b
  stable : ∀ k, sorted.filter (key · = k) = l.filter (key · = k)

theorem sort_sorts (key : α → Nat) (l : List α) : Sorts key l (sort key l) := by
  have transitive (a b c : α) (first : decide (key a ≤ key b)) (second : decide (key b ≤ key c)) :
      decide (key a ≤ key c) :=
    decide_eq_true (Nat.le_trans (of_decide_eq_true first) (of_decide_eq_true second))
  have total (a b : α) : decide (key a ≤ key b) || decide (key b ≤ key a) := by
    simpa using Nat.le_total (key a) (key b)
  constructor
  · exact (List.pairwise_mergeSort transitive total l).imp fun le => of_decide_eq_true le
  · intro k
    have equal : (l.filter (key · = k)).Pairwise fun a b => decide (key a ≤ key b) := by
      refine List.pairwise_iff_forall_sublist.mpr fun {a b} inside => ?_
      have first := (List.mem_filter.mp (inside.subset (by simp : a ∈ [a, b]))).2
      have second := (List.mem_filter.mp (inside.subset (by simp : b ∈ [a, b]))).2
      simp only [decide_eq_true_eq] at first second ⊢
      omega
    have kept := (List.sublist_mergeSort transitive total equal List.filter_sublist).filter (key · = k)
    simp only [List.filter_filter, Bool.and_self] at kept
    refine (kept.eq_of_length ?_).symm
    exact ((List.mergeSort_perm l _).filter _).length_eq.symm

theorem mem_of_filters (same : ∀ k, l.filter (key · = k) = m.filter (key · = k)) (member : x ∈ l) :
    x ∈ m := by
  have inside : x ∈ l.filter (key · = key x) := List.mem_filter.mpr ⟨member, by simp⟩
  rw [same] at inside
  exact (List.mem_filter.mp inside).1

theorem head_le (ordered : (x :: l).Pairwise fun a b => key a ≤ key b) (member : y ∈ x :: l) :
    key x ≤ key y := by
  rcases List.mem_cons.mp member with rfl | later
  · exact Nat.le_refl _
  · exact List.rel_of_pairwise_cons ordered later

/-- An order is given by the keys and by the order at each of them. -/
theorem ordered_unique (ordered : l.Pairwise fun a b => key a ≤ key b)
    (ordered' : m.Pairwise fun a b => key a ≤ key b)
    (same : ∀ k, l.filter (key · = k) = m.filter (key · = k)) : l = m := by
  induction l generalizing m with
  | nil =>
    refine (List.eq_nil_iff_forall_not_mem.mpr fun x member => ?_).symm
    exact List.not_mem_nil (mem_of_filters (fun k => (same k).symm) member)
  | cons x l ih =>
    cases m with
    | nil => exact absurd (mem_of_filters same List.mem_cons_self) List.not_mem_nil
    | cons y m =>
      have equal : key x = key y := Nat.le_antisymm
        (head_le ordered (mem_of_filters (fun k => (same k).symm) List.mem_cons_self))
        (head_le ordered' (mem_of_filters same List.mem_cons_self))
      have heads := same (key x)
      rw [List.filter_cons_of_pos (by simp), List.filter_cons_of_pos (by simp [equal])] at heads
      obtain ⟨rfl, -⟩ := List.cons.inj heads
      have tails (k : Nat) : l.filter (key · = k) = m.filter (key · = k) := by
        have all := same k
        by_cases here : key x = k
        · rw [List.filter_cons_of_pos (by simp [here]), List.filter_cons_of_pos (by simp [here])] at all
          exact (List.cons.inj all).2
        · rwa [List.filter_cons_of_neg (by simp [here]), List.filter_cons_of_neg (by simp [here])] at all
      exact congrArg (x :: ·) (ih ordered.tail ordered'.tail tails)

theorem sort_congr (same : ∀ k, l.filter (key · = k) = m.filter (key · = k)) :
    sort key l = sort key m :=
  have first := sort_sorts key l
  have second := sort_sorts key m
  ordered_unique first.ordered second.ordered fun k =>
    (first.stable k).trans ((same k).trans (second.stable k).symm)

/-- Sorting after each entry that is added is the same as sorting once. -/
theorem foldl_sort (key : α → Nat) (before added : List α) :
    added.foldl (fun l a => sort key (l ++ [a])) (sort key before) = sort key (before ++ added) := by
  induction added generalizing before with
  | nil => rw [List.append_nil, List.foldl_nil]
  | cons a rest ih =>
    have one : sort key (sort key before ++ [a]) = sort key (before ++ [a]) := by
      refine sort_congr fun k => ?_
      rw [List.filter_append, List.filter_append, (sort_sorts key before).stable]
    rw [List.foldl_cons, one, ih, List.append_assoc]
    rfl

end StableSort
