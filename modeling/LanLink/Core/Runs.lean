import Mathlib.Data.List.Basic

/-! Finite runs of a partial step function. An action that is not enabled, or
whose step aborts, has no successor. A guard is a condition on an action and
the state before it; `Meets` says that every step of a run satisfies it. -/
namespace Runs
variable {S A : Type} {step : S → A → Option S} {g : S → A → Prop}

def exec (step : S → A → Option S) : S → List A → Option S
  | s, [] => some s
  | s, a :: rest => (step s a).bind (exec step · rest)

def Meets (step : S → A → Option S) (guard : S → A → Prop) : S → List A → Prop
  | _, [] => True
  | s, a :: rest => guard s a ∧ ∀ t, step s a = some t → Meets step guard t rest

/-- The property holds in every state of a run. -/
def Always (step : S → A → Option S) (P : S → Prop) : S → List A → Prop
  | s, [] => P s
  | s, a :: rest => P s ∧ ∀ t, step s a = some t → Always step P t rest

def decideMeets [∀ s a, Decidable (g s a)] :
    (s : S) → (actions : List A) → Decidable (Meets step g s actions)
  | _, [] => isTrue trivial
  | s, a :: rest =>
    match stepped : step s a with
    | none => decidable_of_iff (g s a)
        ⟨fun holds => ⟨holds, fun t reached => by simp [stepped] at reached⟩, And.left⟩
    | some t =>
      have : Decidable (Meets step g t rest) := decideMeets t rest
      decidable_of_iff (g s a ∧ Meets step g t rest) (by simp [Meets, stepped])

instance [∀ s a, Decidable (g s a)] (s : S) (actions : List A) :
    Decidable (Meets step g s actions) := decideMeets s actions

theorem exec_cons : exec step s (a :: rest) = some u ↔
    ∃ t, step s a = some t ∧ exec step t rest = some u := by
  simp [exec, Option.bind_eq_some_iff]

theorem exec_append : exec step s (first ++ second) = some u ↔
    ∃ t, exec step s first = some t ∧ exec step t second = some u := by
  induction first generalizing s with
  | nil => simp [exec]
  | cons a rest ih =>
    simp only [List.cons_append, exec_cons, ih]
    constructor
    · rintro ⟨t, stepped, middle, before, after⟩
      exact ⟨middle, ⟨t, stepped, before⟩, after⟩
    · rintro ⟨middle, ⟨t, stepped, before⟩, after⟩
      exact ⟨t, stepped, middle, before, after⟩

/-- The invariant rule for steps that never abort where the invariant holds. -/
theorem total_invariant {P : S → Prop}
    (preserves : ∀ {s}, P s → ∀ a, ∃ t, step s a = some t ∧ P t) (actions : List A)
    (initial : P s) : ∃ t, exec step s actions = some t ∧ P t := by
  induction actions generalizing s with
  | nil => exact ⟨s, rfl, initial⟩
  | cons a rest ih =>
    obtain ⟨middle, stepped, kept⟩ := preserves initial a
    obtain ⟨t, run, holds⟩ := ih kept
    exact ⟨t, exec_cons.mpr ⟨middle, stepped, run⟩, holds⟩

theorem exec_total (total : ∀ s a, ∃ t, step s a = some t) (s : S) (actions : List A) :
    ∃ t, exec step s actions = some t := by
  have preserves {s : S} (_ : True) (a : A) : ∃ t, step s a = some t ∧ True :=
    (total s a).imp fun _ stepped => ⟨stepped, trivial⟩
  obtain ⟨t, run, -⟩ := total_invariant preserves actions (s := s) trivial
  exact ⟨t, run⟩

theorem meets_cons (stepped : step s a = some t) :
    Meets step g s (a :: rest) ↔ g s a ∧ Meets step g t rest := by
  simp only [Meets, stepped, Option.some.injEq, forall_eq']

theorem meets_append (run : exec step s first = some t) :
    Meets step g s (first ++ second) ↔ Meets step g s first ∧ Meets step g t second := by
  induction first generalizing s with
  | nil =>
    simp only [exec, Option.some.injEq] at run
    simp [Meets, run]
  | cons a rest ih =>
    obtain ⟨middle, stepped, run⟩ := exec_cons.mp run
    simp only [List.cons_append, Meets, stepped, Option.some.injEq, forall_eq', ih run, and_assoc]

/-- The invariant rule for runs whose every step satisfies the guard. -/
theorem guarded_invariant {P : S → Prop}
    (preserves : ∀ {s a t}, P s → g s a → step s a = some t → P t)
    (meets : Meets step g s actions) (run : exec step s actions = some t) (initial : P s) :
    P t := by
  induction actions generalizing s with
  | nil =>
    cases Option.some.inj run
    exact initial
  | cons a rest ih =>
    obtain ⟨middle, stepped, run⟩ := exec_cons.mp run
    exact ih (meets.2 middle stepped) run (preserves initial meets.1 stepped)

/-- A run ends where every step that satisfies the guard does. -/
theorem guarded_total {P : S → Prop}
    (enabled : ∀ {s a}, P s → g s a → ∃ t, step s a = some t ∧ P t)
    (meets : Meets step g s actions) (initial : P s) : ∃ t, exec step s actions = some t ∧ P t := by
  induction actions generalizing s with
  | nil => exact ⟨s, rfl, initial⟩
  | cons a rest ih =>
    obtain ⟨middle, stepped, kept⟩ := enabled initial meets.1
    obtain ⟨t, run, holds⟩ := ih (meets.2 middle stepped) kept
    exact ⟨t, exec_cons.mpr ⟨middle, stepped, run⟩, holds⟩

/-- What an invariant gives holds in every state of a run whose steps satisfy the guard. -/
theorem always_of_meets {P I : S → Prop}
    (preserves : ∀ {s a t}, I s → g s a → step s a = some t → I t) (gives : ∀ s, I s → P s)
    (meets : Meets step g s actions) (initial : I s) : Always step P s actions := by
  induction actions generalizing s with
  | nil => exact gives s initial
  | cons a rest ih =>
    refine ⟨gives s initial, fun t stepped => ?_⟩
    exact ih (meets.2 t stepped) (preserves initial meets.1 stepped)

/-- A property that every step keeps exactly when the guard holds is kept by a
run exactly when every step satisfies the guard. -/
theorem guarded_iff {P I : S → Prop}
    (keeps : ∀ {s a t}, I s → step s a = some t → I t ∧ (P t ↔ P s ∧ g s a))
    (run : exec step s actions = some t) (initial : I s) : P t ↔ P s ∧ Meets step g s actions := by
  induction actions generalizing s with
  | nil =>
    cases Option.some.inj run
    simp [Meets]
  | cons a rest ih =>
    obtain ⟨middle, stepped, run⟩ := exec_cons.mp run
    obtain ⟨kept, here⟩ := keeps initial stepped
    rw [ih run kept, here, and_assoc]
    simp [Meets, stepped]

/-- A property that a step keeps exactly when the guard holds is kept in every
state of a run exactly when every step satisfies the guard; a step may also
restore the property. Steps may be assumed to satisfy a further condition. -/
theorem always_iff_of_meets {P I : S → Prop} {assumed : S → A → Prop}
    (keeps : ∀ {s a t}, I s → step s a = some t → I t)
    (exact_keeps : ∀ {s a t}, I s → P s → assumed s a → step s a = some t → (P t ↔ g s a))
    (meets : Meets step assumed s actions) (run : exec step s actions = some t) (initial : I s)
    (holds : P s) : Always step P s actions ↔ Meets step g s actions := by
  induction actions generalizing s with
  | nil => simp [Always, Meets, holds]
  | cons a rest ih =>
    obtain ⟨middle, stepped, run⟩ := exec_cons.mp run
    have here := exact_keeps initial holds meets.1 stepped
    have later := meets.2 middle stepped
    simp only [Always, Meets, stepped, Option.some.injEq, forall_eq', holds, true_and]
    constructor
    · intro always
      have next : P middle := by
        cases rest with
        | nil => exact always
        | cons => exact always.1
      exact ⟨here.mp next, (ih later run (keeps initial stepped) next).mp always⟩
    · rintro ⟨guarded, meets⟩
      exact (ih later run (keeps initial stepped) (here.mpr guarded)).mpr meets

theorem meets_of_forall (always : ∀ a ∈ actions, ∀ s, g s a) : Meets step g s actions := by
  induction actions generalizing s with
  | nil => trivial
  | cons a rest ih =>
    exact ⟨always a (by simp) s, fun _ _ => ih (fun b member => always b (by simp [member]))⟩

theorem always_iff {P I : S → Prop} (keeps : ∀ {s a t}, I s → step s a = some t → I t)
    (exact_keeps : ∀ {s a t}, I s → P s → step s a = some t → (P t ↔ g s a))
    (run : exec step s actions = some t) (initial : I s) (holds : P s) :
    Always step P s actions ↔ Meets step g s actions :=
  always_iff_of_meets keeps (fun initial holds _ => exact_keeps initial holds)
    (meets_of_forall (g := fun _ _ => True) fun _ _ _ => trivial) run initial holds

/-- The same for runs that may abort, where the guard allows the steps that do. -/
theorem always_iff_of_aborts {P I : S → Prop}
    (keeps : ∀ {s a t}, I s → P s → step s a = some t → I t)
    (aborts : ∀ {s a}, I s → P s → step s a = none → g s a)
    (exact_keeps : ∀ {s a t}, I s → P s → step s a = some t → (P t ↔ g s a)) (initial : I s)
    (holds : P s) : Always step P s actions ↔ Meets step g s actions := by
  induction actions generalizing s with
  | nil => simp [Always, Meets, holds]
  | cons a rest ih =>
    cases stepped : step s a with
    | none =>
      have allowed := aborts initial holds stepped
      simp [Always, Meets, stepped, holds, allowed]
    | some middle =>
      have here := exact_keeps initial holds stepped
      simp only [Always, Meets, stepped, Option.some.injEq, forall_eq', holds, true_and]
      by_cases next : P middle
      · rw [ih (keeps initial holds stepped) next]
        simp [here.mp next]
      · refine iff_of_false (fun always => next ?_) (fun meets => next (here.mpr meets.1))
        cases rest with
        | nil => exact always
        | cons => exact always.1

/-- Under an invariant that the guard keeps, a guard may be weakened along a whole run. -/
theorem meets_guarded {P : S → Prop} {h : S → A → Prop}
    (preserves : ∀ {s a t}, P s → g s a → step s a = some t → P t)
    (weaker : ∀ {s a}, P s → g s a → h s a) (meets : Meets step g s actions) (initial : P s) :
    Meets step h s actions := by
  induction actions generalizing s with
  | nil => trivial
  | cons a rest ih =>
    refine ⟨weaker initial meets.1, fun t stepped => ?_⟩
    exact ih (meets.2 t stepped) (preserves initial meets.1 stepped)

theorem meets_mono {P : S → Prop} {h : S → A → Prop}
    (preserves : ∀ {s a t}, P s → step s a = some t → P t) (weaker : ∀ {s a}, P s → g s a → h s a)
    (meets : Meets step g s actions) (initial : P s) : Meets step h s actions :=
  meets_guarded (fun held _ stepped => preserves held stepped) weaker meets initial

/-- Guards that agree on the steps of a run agree on the run. -/
theorem meets_congr {assumed h : S → A → Prop} (same : ∀ {s a}, assumed s a → (g s a ↔ h s a))
    (meets : Meets step assumed s actions) : Meets step g s actions ↔ Meets step h s actions := by
  induction actions generalizing s with
  | nil => exact Iff.rfl
  | cons a rest ih =>
    refine and_congr (same meets.1) (forall₂_congr fun t stepped => ?_)
    exact ih (meets.2 t stepped)

theorem meets_and {h : S → A → Prop} :
    Meets step (fun s a => g s a ∧ h s a) s actions ↔ Meets step g s actions ∧ Meets step h s actions := by
  induction actions generalizing s with
  | nil => simp [Meets]
  | cons a rest ih =>
    simp only [Meets, ih]
    constructor
    · rintro ⟨⟨first, second⟩, both⟩
      exact ⟨⟨first, fun t stepped => (both t stepped).1⟩,
        ⟨second, fun t stepped => (both t stepped).2⟩⟩
    · rintro ⟨⟨first, firsts⟩, ⟨second, seconds⟩⟩
      exact ⟨⟨first, second⟩, fun t stepped => ⟨firsts t stepped, seconds t stepped⟩⟩

theorem invariant {P : S → Prop} (preserves : ∀ {s a t}, P s → step s a = some t → P t)
    (run : exec step s actions = some t) (initial : P s) : P t :=
  guarded_invariant (g := fun _ _ => True) (fun held _ stepped => preserves held stepped)
    (meets_of_forall (fun _ _ _ => trivial)) run initial

theorem length_le_of_falls {size : S → Nat}
    (falls : ∀ {s a t}, step s a = some t → size t < size s) (run : exec step s actions = some t) :
    actions.length + size t ≤ size s := by
  induction actions generalizing s with
  | nil =>
    cases run
    exact Nat.le_of_eq (Nat.zero_add _)
  | cons a rest ih =>
    obtain ⟨middle, stepped, run⟩ := exec_cons.mp run
    have first := falls stepped
    have later := ih run
    rw [List.length_cons]
    omega

/-- Where a step is enabled in every state but the final ones, and runs do not go on for ever, a
run gets to a final state. -/
theorem reaches {P Final : S → Prop} {size : S → Nat}
    (falls : ∀ {s a t}, step s a = some t → size t < size s)
    (advances : ∀ {s}, P s → ¬ Final s → ∃ a t, step s a = some t ∧ P t) (initial : P s) :
    ∃ actions t, exec step s actions = some t ∧ P t ∧ Final t := by
  induction bound : size s using Nat.strongRecOn generalizing s with
  | ind n ih =>
    by_cases final : Final s
    · exact ⟨[], s, rfl, initial, final⟩
    · obtain ⟨a, middle, stepped, kept⟩ := advances initial final
      obtain ⟨rest, t, run, holds, final⟩ := ih (size middle) (bound ▸ falls stepped) kept rfl
      exact ⟨a :: rest, t, exec_cons.mpr ⟨middle, stepped, run⟩, holds, final⟩

end Runs
