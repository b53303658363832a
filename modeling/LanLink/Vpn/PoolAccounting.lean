import LanLink.Vpn.ConnectionPool

/-! The counter of active connections. Beside the pool runs a record of the streams that
were handed out since the pool was last cleared and have not come back. -/
namespace LanLink.Vpn
open Maps Runs

structure Ledger where
  shared : Shared
  current : List Holding

/-- The record after a call. -/
def Shared.handedOut (w : Shared) (current : List Holding) : PoolCall → List Holding
  | .getConnection task addr sys =>
    match (w.pool.getConnection addr sys ⟨w.opened⟩).1 with
    | .ok stream => ⟨task, stream⟩ :: current
    | .error _ => current
  | .returnConnection task _ stream _ => current.erase ⟨task, stream⟩
  | .cleanupIdle _ => current
  | .clear => []

namespace Ledger

def start (maxSize : Nat) : Ledger := ⟨.start maxSize, []⟩

def step (l : Ledger) (call : PoolCall) : Option Ledger :=
  (l.shared.step call).map fun shared => ⟨shared, l.shared.handedOut l.current call⟩

/-- The counter is the length of the record, and every address keeps to the size of the pool. -/
structure Accounted (l : Ledger) : Prop where
  count : l.shared.pool.activeCount.toNat = l.current.length
  bounded : ∀ addr, (l.shared.pool.pool addr).length ≤ l.shared.pool.maxSize

/-- The subtraction of a return does not go below zero. -/
def NoWrap (l : Ledger) : PoolCall → Prop
  | .returnConnection task _ stream _ =>
    ⟨task, stream⟩ ∈ l.shared.held → 0 < l.shared.pool.activeCount.toNat
  | .getConnection _ _ _ | .cleanupIdle _ | .clear => True

/-- A free connection can be cloned, there is room in the counter for what is handed out,
and what comes back was handed out since the last clear. -/
def Countable (l : Ledger) : PoolCall → Prop
  | .getConnection _ addr sys =>
    match (l.shared.pool.pool addr).find? (ConnectionPool.free sys) with
    | some _ => sys.fault = none ∧ l.shared.pool.activeCount.toNat + 1 < 2 ^ 64
    | none => (l.shared.pool.pool addr).length < l.shared.pool.maxSize → sys.fault = none →
        l.shared.pool.activeCount.toNat + 1 < 2 ^ 64
  | .returnConnection task _ stream _ =>
    ⟨task, stream⟩ ∈ l.shared.held → ⟨task, stream⟩ ∈ l.current
  | .cleanupIdle _ | .clear => True

end Ledger

section
variable {n : UInt64} {k : Nat}

theorem count_up_iff (counted : n.toNat = k) : (n + 1).toNat = k + 1 ↔ n.toNat + 1 < 2 ^ 64 := by
  have range := n.toNat_lt
  rw [UInt64.toNat_add]
  change (n.toNat + 1) % 2 ^ 64 = k + 1 ↔ _
  omega

theorem count_up_ne (counted : n.toNat = k) : (n + 1).toNat ≠ k := by
  have range := n.toNat_lt
  rw [UInt64.toNat_add]
  change (n.toNat + 1) % 2 ^ 64 ≠ k
  omega

theorem count_down_iff (counted : n.toNat = k) : (n - 1).toNat = k - 1 ↔ 0 < k := by
  have range := n.toNat_lt
  rw [UInt64.toNat_sub]
  change (2 ^ 64 - 1 + n.toNat) % 2 ^ 64 = k - 1 ↔ _
  omega

theorem count_down_ne (counted : n.toNat = k) : (n - 1).toNat ≠ k := by
  have range := n.toNat_lt
  rw [UInt64.toNat_sub]
  change (2 ^ 64 - 1 + n.toNat) % 2 ^ 64 ≠ k
  omega

end

theorem length_setFirst {p : PooledConnection → Bool} {conns : List PooledConnection}
    (found : conns.find? p = some conn) (f : PooledConnection → PooledConnection) :
    (setFirst p f conns).length = conns.length := by
  obtain ⟨-, front, rest, rfl, set⟩ := setFirst_of_find? found f
  simp [set]

namespace Ledger
variable {l next : Ledger}

theorem bounded_setPool {p : ConnectionPool} (bounded : ∀ a, (p.pool a).length ≤ p.maxSize)
    (fits : conns.length ≤ p.maxSize) (addr a : String) :
    ((p.setPool addr conns).pool a).length ≤ p.maxSize := by
  rw [ConnectionPool.pool_setPool]
  split
  · exact fits
  · exact bounded a

theorem get_stepped (stepped : l.step (.getConnection task addr sys) = some next) :
    next.shared.pool = (l.shared.pool.getConnection addr sys ⟨l.shared.opened⟩).2 ∧
      next.current = l.shared.handedOut l.current (.getConnection task addr sys) := by
  obtain ⟨shared, called, rfl⟩ := Option.map_eq_some_iff.mp stepped
  refine ⟨?_, rfl⟩
  simp only [Shared.step] at called
  split at called
  all_goals
    rename_i answered
    cases Option.some.inj called
    rw [answered]

/-- A call that marks a free connection counts it, whether or not the clone succeeds. -/
theorem accounted_reused_iff (accounted : l.Accounted)
    (found : (l.shared.pool.pool addr).find? (ConnectionPool.free sys) = some conn)
    (stepped : l.step (.getConnection task addr sys) = some next) :
    next.Accounted ↔ sys.fault = none ∧ l.shared.pool.activeCount.toNat + 1 < 2 ^ 64 := by
  obtain ⟨pool, current⟩ := get_stepped stepped
  simp only [ConnectionPool.getConnection, found] at pool
  simp only [Shared.handedOut, ConnectionPool.getConnection, found] at current
  have bounded (a : String) : (next.shared.pool.pool a).length ≤ next.shared.pool.maxSize := by
    rw [pool]
    exact bounded_setPool accounted.bounded
      ((length_setFirst found (.use sys.now)).trans_le (accounted.bounded addr)) addr a
  have counted : next.Accounted ↔ (l.shared.pool.activeCount + 1).toNat = next.current.length := by
    constructor
    · intro after
      simpa only [pool] using after.count
    · intro count
      exact ⟨by simpa only [pool] using count, bounded⟩
  rw [counted, current]
  cases faulty : sys.fault with
  | some kind => exact iff_of_false (count_up_ne accounted.count) fun both => absurd both.1 (Option.some_ne_none kind)
  | none => exact (count_up_iff accounted.count).trans (and_iff_right rfl).symm

theorem accounted_connected_iff (accounted : l.Accounted)
    (missing : (l.shared.pool.pool addr).find? (ConnectionPool.free sys) = none)
    (room : (l.shared.pool.pool addr).length < l.shared.pool.maxSize) (sound : sys.fault = none)
    (stepped : l.step (.getConnection task addr sys) = some next) :
    next.Accounted ↔ l.shared.pool.activeCount.toNat + 1 < 2 ^ 64 := by
  obtain ⟨pool, current⟩ := get_stepped stepped
  simp only [ConnectionPool.getConnection, missing, room, if_true, sound] at pool
  simp only [Shared.handedOut, ConnectionPool.getConnection, missing, room, if_true, sound] at current
  have longer (conn : PooledConnection) :
      (l.shared.pool.pool addr ++ [conn]).length ≤ l.shared.pool.maxSize := by
    rw [List.length_append]
    exact room
  constructor
  · intro after
    have later := after.count
    rw [pool, current] at later
    exact (count_up_iff accounted.count).mp later
  · intro fits
    constructor
    · rw [pool, current]
      exact (count_up_iff accounted.count).mpr fits
    · rw [pool]
      exact bounded_setPool accounted.bounded (longer _) addr

theorem accounted_refused (accounted : l.Accounted)
    (missing : (l.shared.pool.pool addr).find? (ConnectionPool.free sys) = none)
    (refused : ¬ ((l.shared.pool.pool addr).length < l.shared.pool.maxSize ∧ sys.fault = none))
    (stepped : l.step (.getConnection task addr sys) = some next) : next.Accounted := by
  obtain ⟨pool, current⟩ := get_stepped stepped
  have same : next.shared.pool = l.shared.pool.setPool addr (l.shared.pool.pool addr) ∧
      next.current = l.current := by
    simp only [ConnectionPool.getConnection, missing] at pool
    simp only [Shared.handedOut, ConnectionPool.getConnection, missing] at current
    by_cases room : (l.shared.pool.pool addr).length < l.shared.pool.maxSize
    · cases faulty : sys.fault with
      | none => exact absurd ⟨room, faulty⟩ refused
      | some kind =>
        simp only [room, if_true, faulty] at pool current
        exact ⟨pool, current⟩
    · simp only [room, if_false] at pool current
      exact ⟨pool, current⟩
  constructor
  · rw [same.1, same.2]
    exact accounted.count
  · rw [same.1]
    exact bounded_setPool accounted.bounded (accounted.bounded addr) addr

theorem accounted_returned_iff (accounted : l.Accounted)
    (stepped : l.step (.returnConnection task addr stream sys) = some next) :
    next.Accounted ↔ ⟨task, stream⟩ ∈ l.current := by
  obtain ⟨shared, called, rfl⟩ := Option.map_eq_some_iff.mp stepped
  have pool : shared.pool = l.shared.pool.returnConnection addr sys := by
    rw [Shared.step] at called
    split at called
    · cases Option.some.inj called
      rfl
    · cases called
  have count : shared.pool.activeCount = l.shared.pool.activeCount - 1 := by
    rw [pool, ConnectionPool.returnConnection]
    split <;> rfl
  have bounded (a : String) : (shared.pool.pool a).length ≤ shared.pool.maxSize := by
    rw [pool, ConnectionPool.returnConnection]
    split
    case h_1 conn found =>
      exact bounded_setPool accounted.bounded
        ((length_setFirst found (.release sys.now)).trans_le (accounted.bounded addr)) addr a
    case h_2 => exact accounted.bounded a
  have counted : Accounted ⟨shared, l.current.erase ⟨task, stream⟩⟩ ↔
      (l.shared.pool.activeCount - 1).toNat = (l.current.erase ⟨task, stream⟩).length := by
    rw [← count]
    exact ⟨Accounted.count, fun right => ⟨right, bounded⟩⟩
  refine counted.trans ?_
  by_cases member : ⟨task, stream⟩ ∈ l.current
  · rw [List.length_erase_of_mem member, count_down_iff accounted.count]
    exact iff_of_true (List.length_pos_of_mem member) member
  · rw [List.erase_of_not_mem member]
    exact iff_of_false (count_down_ne accounted.count) member

/-- One call keeps the accounts exactly if it is countable. -/
theorem accounted_iff (accounted : l.Accounted) (stepped : l.step call = some next) :
    next.Accounted ↔ l.Countable call := by
  cases call with
  | getConnection task addr sys =>
    rw [Countable]
    cases found : (l.shared.pool.pool addr).find? (ConnectionPool.free sys) with
    | some conn => exact accounted_reused_iff accounted found stepped
    | none =>
      by_cases connects : (l.shared.pool.pool addr).length < l.shared.pool.maxSize ∧ sys.fault = none
      · obtain ⟨room, sound⟩ := connects
        simpa [room, sound] using accounted_connected_iff accounted found room sound stepped
      · refine iff_of_true (accounted_refused accounted found connects stepped) ?_
        exact fun room sound => absurd ⟨room, sound⟩ connects
  | returnConnection task addr stream sys =>
    have held : ⟨task, stream⟩ ∈ l.shared.held := by
      obtain ⟨shared, called, -⟩ := Option.map_eq_some_iff.mp stepped
      by_contra missing
      rw [Shared.step, if_neg missing] at called
      cases called
    rw [accounted_returned_iff accounted stepped, Countable]
    exact (imp_iff_right held).symm
  | cleanupIdle now =>
    cases Option.some.inj stepped
    refine iff_of_true ⟨accounted.count, fun a => ?_⟩ trivial
    change ((l.shared.pool.cleanupIdle now).pool a).length ≤ _
    rw [ConnectionPool.pool_cleanupIdle]
    exact (List.length_filter_le _ _).trans (accounted.bounded a)
  | clear =>
    cases Option.some.inj stepped
    exact iff_of_true ⟨rfl, fun _ => Nat.zero_le _⟩ trivial

theorem noWrap_of_countable (accounted : l.Accounted) (countable : l.Countable call) :
    l.NoWrap call := by
  cases call with
  | returnConnection task addr stream sys =>
    intro held
    rw [accounted.count]
    exact List.length_pos_of_mem (countable held)
  | _ => trivial

theorem countable_of_refused (refused : l.step call = none) : l.Countable call := by
  cases call with
  | getConnection task addr sys =>
    rw [step, Option.map_eq_none_iff, Shared.step] at refused
    split at refused <;> cases refused
  | returnConnection task addr stream sys =>
    intro held
    rw [step, Option.map_eq_none_iff, Shared.step, if_pos held] at refused
    cases refused
  | _ => trivial

theorem start_accounted (maxSize : Nat) : (start maxSize).Accounted :=
  ⟨rfl, fun _ => Nat.zero_le _⟩

/-- In a run from a new pool the accounts are right in every state, and no return wraps the
counter, exactly if every call is countable. -/
theorem accounted_run_iff (maxSize : Nat) (calls : List PoolCall) :
    Always step Accounted (start maxSize) calls ∧ Meets step NoWrap (start maxSize) calls ↔
      Meets step Countable (start maxSize) calls := by
  have always : Always step Accounted (start maxSize) calls ↔
      Meets step Countable (start maxSize) calls :=
    always_iff_of_aborts (I := fun _ => True) (fun _ _ _ => trivial)
    (fun _ _ refused => countable_of_refused refused)
    (fun _ holds stepped => accounted_iff holds stepped) trivial (start_accounted maxSize)
  rw [always]
  refine and_iff_left_of_imp fun meets => ?_
  exact meets_guarded (fun holds countable stepped => (accounted_iff holds stepped).mpr countable)
    noWrap_of_countable meets (start_accounted maxSize)

/-- A clone fails for a connection that came back before. -/
def cloneFails : List PoolCall := [
  .getConnection 1 "10.0.0.2:7000" Shared.healthy,
  .returnConnection 1 "10.0.0.2:7000" ⟨0⟩ Shared.healthy,
  .getConnection 2 "10.0.0.2:7000" { Shared.healthy with fault := some .other }]

/-- A stream comes back after the pool was cleared. -/
def returnedLate : List PoolCall := [
  .getConnection 1 "10.0.0.2:7000" Shared.healthy, .clear,
  .returnConnection 1 "10.0.0.2:7000" ⟨0⟩ Shared.healthy]

/-- Nothing is handed out, and the counter says one after the first run and 2^64 - 1 after
the second. -/
theorem counter_off :
    (exec step (start 10) cloneFails).map
      (fun l => (l.current.length, l.shared.pool.activeCount.toNat)) = some (0, 1) ∧
    (exec step (start 10) returnedLate).map
      (fun l => (l.current.length, l.shared.pool.activeCount.toNat)) = some (0, 2 ^ 64 - 1) ∧
    ¬ Always step Accounted (start 10) cloneFails ∧
    ¬ Always step Accounted (start 10) returnedLate := by
  refine ⟨by decide +kernel, by decide +kernel, fun always => ?_, fun always => ?_⟩
  · have last := ((always.2 _ rfl).2 _ rfl).2 _ rfl
    exact absurd last.count (by decide +kernel)
  · have last := ((always.2 _ rfl).2 _ rfl).2 _ rfl
    exact absurd last.count (by decide +kernel)

end Ledger
end LanLink.Vpn
