import LanLink.Core.Runs

/-! Noninterference of runs. The actions belong to parties; purging a run leaves
the actions of one party. A relation between the states of the two runs that
other parties' actions keep, and the party's own actions keep on both sides,
relates the states the two runs end in. -/
namespace Noninterference
open Runs
variable {S A D : Type} [DecidableEq D] {step : S → A → Option S} {g : S → A → Prop}

def purge (party : A → D) (d : D) (actions : List A) : List A := actions.filter (party · = d)

theorem purge_own {party : A → D} (own : party a = d) :
    purge party d (a :: rest) = a :: purge party d rest := by
  simp [purge, own]

theorem purge_other {party : A → D} (other : party a ≠ d) :
    purge party d (a :: rest) = purge party d rest := by
  simp [purge, other]

/-- The unwinding rule for runs whose every step satisfies the guard. -/
theorem purge_simulates {party : A → D} {R : S → S → Prop}
    (skips : ∀ {s a t s'}, R s s' → g s a → step s a = some t → party a ≠ d → R t s')
    (matches_own : ∀ {s a t s'}, R s s' → g s a → step s a = some t → party a = d →
      ∃ t', step s' a = some t' ∧ R t t')
    (meets : Meets step g s actions) (run : exec step s actions = some t) (related : R s s') :
    ∃ t', exec step s' (purge party d actions) = some t' ∧ R t t' := by
  induction actions generalizing s s' with
  | nil =>
    cases Option.some.inj run
    exact ⟨s', rfl, related⟩
  | cons a rest ih =>
    obtain ⟨middle, stepped, run⟩ := exec_cons.mp run
    by_cases own : party a = d
    · obtain ⟨middle', stepped', related⟩ := matches_own related meets.1 stepped own
      obtain ⟨t', run', related⟩ := ih (meets.2 middle stepped) run related
      rw [purge_own own]
      exact ⟨t', exec_cons.mpr ⟨middle', stepped', run'⟩, related⟩
    · rw [purge_other own]
      exact ih (meets.2 middle stepped) run (skips related meets.1 stepped own)

end Noninterference
