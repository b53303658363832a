import Mathlib.Logic.Function.Basic

/-! Reader-writer locks as a single thread meets them. A call takes and drops
guards; a request for a lock on which the call itself holds a conflicting guard
never comes back, and ends the call with what it waits for. -/
namespace Guards

inductive Mode where
  | read | write
  deriving DecidableEq, Repr

/-- A request for a lock that the same call holds. -/
structure Wait (L : Type) where
  lock : L
  held : Mode
  deriving DecidableEq, Repr

structure State (L D : Type) where
  held : L → Option Mode
  data : D

abbrev Call (L D : Type) := StateT (State L D) (Except (Wait L))

section
variable {L D α β : Type}

def data : Call L D D := fun s => .ok (s.data, s)

def modifyData (f : D → D) : Call L D Unit := fun s => .ok ((), { s with data := f s.data })

/-- No guard is held. -/
def idle (d : D) : State L D := ⟨fun _ => none, d⟩

@[simp] theorem idle_data (d : D) : (idle (L := L) d).data = d := rfl

@[simp] theorem data_idle (d : D) : data (idle (L := L) d) = .ok (d, idle d) := rfl

@[simp] theorem modifyData_idle (f : D → D) (d : D) :
    modifyData f (idle (L := L) d) = .ok ((), idle (f d)) := rfl

/-- A call that waits for itself goes no further. -/
@[simp] theorem bind_apply (call : Call L D α) (next : α → Call L D β) (s : State L D) :
    (call >>= next) s = match call s with
      | .ok (a, t) => next a t
      | .error wait => .error wait := by
  simp only [bind, StateT.bind, Except.bind]
  cases call s with
  | ok result => rfl
  | error wait => rfl

@[simp] theorem map_apply (f : α → β) (call : Call L D α) (s : State L D) :
    (f <$> call) s = match call s with
      | .ok (a, t) => .ok (f a, t)
      | .error wait => .error wait := by
  rw [← bind_pure_comp, bind_apply]
  rfl

@[simp] theorem pure_apply (a : α) (s : State L D) : (pure a : Call L D α) s = .ok (a, s) := rfl

end

section
variable {L D : Type} [DecidableEq L]

/-- Only two read guards go together. -/
def conflict : Option Mode → Mode → Option Mode
  | none, _ => none
  | some .read, .read => none
  | some held, _ => some held

def lock (l : L) (mode : Mode) : Call L D Unit := fun s =>
  match conflict (s.held l) mode with
  | none => .ok ((), { s with held := Function.update s.held l (some mode) })
  | some held => .error ⟨l, held⟩

def unlock (l : L) : Call L D Unit := fun s =>
  .ok ((), { s with held := Function.update s.held l none })

/-- The state inside a critical section. -/
def holding (l : L) (mode : Mode) (d : D) : State L D :=
  ⟨Function.update (fun _ => none) l (some mode), d⟩

@[simp] theorem lock_idle (l : L) (mode : Mode) (d : D) :
    lock l mode (idle d) = .ok ((), holding l mode d) := rfl

@[simp] theorem unlock_holding (l : L) (mode : Mode) (d : D) :
    unlock l (holding l mode d) = .ok ((), idle d) := by
  simp [unlock, holding, idle]

/-- A lock held for writing cannot be taken again. -/
@[simp] theorem lock_holding_write (l : L) (mode : Mode) (d : D) :
    lock l mode (holding l .write d) = .error ⟨l, .write⟩ := by
  simp [lock, holding, conflict]

@[simp] theorem data_holding (l : L) (mode : Mode) (d : D) :
    data (holding l mode d) = .ok (d, holding l mode d) := rfl

@[simp] theorem modifyData_holding (l : L) (mode : Mode) (f : D → D) (d : D) :
    modifyData f (holding l mode d) = .ok ((), holding l mode (f d)) := rfl

end

end Guards
