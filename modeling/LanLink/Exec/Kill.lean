import LanLink.Exec.Task

/-! Killing a running command. The thread that waits for the child takes it out
of its slot and keeps the lock of the slot until the child has exited. A `kill`
that comes later finds the lock taken for as long as the child runs. -/
namespace LanLink.Exec

/-- A pending `kill` gets the lock at once and signals the child. -/
def Kills (id : UInt32) (s : State) : Prop :=
  ∃ t u, s.step id .killLock = some t ∧ t.step id .killChild = some u ∧
    u.signals = s.signals + 1

/-- A `kill` that has been requested reaches the child, before and after it
got the lock. -/
structure Killable (id : UInt32) (s : State) : Prop where
  pending : ∀ last, s.task = .killing last → Kills id s
  locked : ∀ last, s.task = .signalling last →
    ∃ t, s.step id .killChild = some t ∧ t.signals = s.signals + 1

/-- Who has the child and who has the lock of its slot. -/
structure Slotted (s : State) : Prop where
  slot : s.slot = true ↔ s.waiter = .starting
  waiting : s.lock = some .waiter ↔ s.waiter = .waiting
  signalling : s.lock = some .task ↔ ∃ last, s.task = .signalling last
  alive : s.child = .running → s.waiter = .starting ∨ s.waiter = .waiting

section
variable {id : UInt32} {s t : State}

theorem start_slotted : Slotted State.start := by
  constructor <;> simp [State.start]

theorem step_slotted (slotted : Slotted s) (stepped : s.step id action = some t) : Slotted t := by
  obtain ⟨slot, waiting, signalling, alive⟩ := slotted
  cases action with
  | waitLock =>
    simp only [State.step] at stepped
    split at stepped
    · rename_i idle
      rw [if_pos (slot.mpr idle.1)] at stepped
      cases stepped
      rw [idle.2] at signalling
      exact ⟨by simp, by simp, by simpa using signalling, fun _ => Or.inr rfl⟩
    · cases stepped
  | waitChild =>
    simp only [State.step] at stepped
    split at stepped
    · rename_i code held gone
      cases stepped
      rw [waiting.mpr held] at signalling
      refine ⟨by simpa [held] using slot, by simp, by simpa using signalling, by simp [gone]⟩
    · cases stepped
  | killLock =>
    simp only [State.step] at stepped
    split at stepped
    · rename_i last killing
      simp only [Option.ite_none_right_eq_some, Option.some.injEq] at stepped
      obtain ⟨free, rfl⟩ := stepped
      rw [free] at waiting
      exact ⟨slot, by simpa using waiting, by simp, alive⟩
    · cases stepped
  | killChild =>
    simp only [State.step] at stepped
    split at stepped
    · rename_i last holding
      cases stepped
      rw [signalling.mpr ⟨last, holding⟩] at waiting
      refine ⟨slot, by simpa using waiting, ?_, alive⟩
      cases last <;> simp [Task.afterKill]
    · cases stepped
  | _ =>
    simp only [State.step] at stepped
    constructor <;> grind [State.setFeed]

theorem run_slotted (run : Runs.exec (State.step id) State.start actions = some s) : Slotted s :=
  Runs.invariant step_slotted run start_slotted

theorem Slotted.locked (slotted : Slotted s) (running : s.child = .running)
    (signalling : s.task = .signalling last) :
    ∃ t, s.step id .killChild = some t ∧ t.signals = s.signals + 1 := by
  have held := slotted.signalling.mpr ⟨last, signalling⟩
  have starting : s.waiter = .starting := by
    rcases slotted.alive running with starting | waiting
    · exact starting
    · rw [slotted.waiting.mpr waiting] at held
      cases held
  simp [State.step, signalling, slotted.slot.mpr starting, running]

theorem Slotted.pending_iff (slotted : Slotted s) (running : s.child = .running)
    (killing : s.task = .killing last) : Kills id s ↔ s.waiter = .starting := by
  constructor
  · rintro ⟨t, u, locked, _⟩
    simp only [State.step, killing, Option.ite_none_right_eq_some] at locked
    rcases slotted.alive running with starting | waiting
    · exact starting
    · rw [slotted.waiting.mpr waiting] at locked
      cases locked.1
  · intro starting
    have free : s.lock = none := by
      cases held : s.lock with
      | none => rfl
      | some holder =>
        cases holder with
        | waiter =>
          rw [slotted.waiting.mp held] at starting
          cases starting
        | task =>
          obtain ⟨_, signalling⟩ := slotted.signalling.mp held
          rw [killing] at signalling
          cases signalling
    simp [Kills, State.step, killing, free, slotted.slot.mpr starting, running]

end

/-- While the child runs, a `kill` reaches it exactly when the waiting thread
has not yet locked the slot. -/
theorem killable_iff (id : UInt32) (actions : List Action) (s : State)
    (run : Runs.exec (State.step id) State.start actions = some s)
    (running : s.child = .running) :
    Killable id s ↔ ∀ last, s.task = .killing last → s.waiter = .starting := by
  have slotted := run_slotted run
  constructor
  · intro killable last killing
    exact (slotted.pending_iff running killing).mp (killable.pending last killing)
  · intro early
    refine ⟨fun last killing => ?_, fun last signalling => slotted.locked running signalling⟩
    exact (slotted.pending_iff running killing).mpr (early last killing)

/-- A signal that is asked for before the waiting thread runs. -/
def earlyKill : List Action := [.command (.signal 9), .selectCommand]

theorem killable_iff_early : ∃ s,
    Runs.exec (State.step 5) State.start earlyKill = some s ∧ s.task = .killing false ∧
    Killable 5 s := by
  refine ⟨_, rfl, rfl, (killable_iff 5 earlyKill _ rfl rfl).mpr ?_⟩
  exact fun _ _ => rfl

/-- The same signal after the waiting thread has started. -/
def lateKill : List Action := [.waitLock, .command (.signal 9), .selectCommand]

theorem kill_blocked : ∃ s,
    Runs.exec (State.step 5) State.start lateKill = some s ∧ s.child = .running ∧
    s.task = .killing false ∧ s.step 5 .killLock = none ∧ ¬ Killable 5 s := by
  refine ⟨_, rfl, rfl, rfl, rfl, fun killable => ?_⟩
  obtain ⟨t, u, locked, _⟩ := killable.pending false rfl
  cases locked

end LanLink.Exec
