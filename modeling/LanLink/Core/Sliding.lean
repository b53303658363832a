import Mathlib.Data.List.Count

/-! How many of the times in a list fall into an interval of a given width, wherever the
interval lies. Times grow at the end of the list. -/
namespace Sliding

/-- At most `limit` of the times lie in any interval of the width, ends included. -/
def Within (limit width : Nat) (times : List Nat) : Prop :=
  ∀ t, times.countP (fun x => t ≤ x ∧ x ≤ t + width) ≤ limit

/-- The times that are at most the width older than `now`. -/
def recent (width now : Nat) (times : List Nat) : Nat := times.countP (fun x => now ≤ x + width)

variable {limit width now : Nat} {times : List Nat}

theorem within_nil : Within limit width [] := fun _ => Nat.zero_le _

theorem Within.left (within : Within limit width (times ++ more)) : Within limit width times := by
  intro t
  have all := within t
  rw [List.countP_append] at all
  exact Nat.le_trans (Nat.le_add_right _ _) all

theorem recent_append (first second : List Nat) :
    recent width now (first ++ second) = recent width now first + recent width now second :=
  List.countP_append

theorem recent_of_old (old : ∀ x ∈ times, x + width < now) : recent width now times = 0 := by
  rw [recent, List.countP_eq_zero]
  intro x member
  have before := old x member
  simpa using before

theorem recent_of_new (new : ∀ x ∈ times, now ≤ x + width) : recent width now times = times.length := by
  rw [recent, List.countP_eq_length]
  intro x member
  simpa using new x member

/-- A new latest time keeps the law exactly if it fits in the interval that ends with it. -/
theorem within_snoc (latest : ∀ x ∈ times, x ≤ now) :
    Within limit width (times ++ [now]) ↔
      Within limit width times ∧ recent width now times + 1 ≤ limit := by
  constructor
  · intro within
    refine ⟨within.left, ?_⟩
    -- the interval that ends with the new time, or starts at zero
    have ending := within (now - width)
    have last : now - width ≤ now ∧ now ≤ now - width + width := by omega
    rw [List.countP_append, List.countP_singleton, if_pos (by simpa using last)] at ending
    have fewer : recent width now times ≤
        times.countP (fun x => now - width ≤ x ∧ x ≤ now - width + width) := by
      apply List.countP_mono_left
      intro x member near
      have before := latest x member
      simp only [decide_eq_true_eq] at near ⊢
      omega
    omega
  · rintro ⟨within, room⟩ t
    rw [List.countP_append, List.countP_singleton]
    by_cases inside : t ≤ now ∧ now ≤ t + width
    · have fewer : times.countP (fun x => t ≤ x ∧ x ≤ t + width) ≤ recent width now times := by
        apply List.countP_mono_left
        intro x member near
        simp only [decide_eq_true_eq] at near ⊢
        omega
      rw [if_pos (by simpa using inside)]
      omega
    · rw [if_neg (by simpa using inside)]
      exact within t

end Sliding
