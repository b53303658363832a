import Mathlib.Data.List.Induction
import LanLink.Core.Runs
import LanLink.Vpn.MultipathDelivery

/-! Which paths are used. Paths are registered, removed, acknowledged and charged with losses in
any order; what has happened to a path since it was registered tells whether it is still used.
An acknowledgement does not take back the losses before it. -/
namespace LanLink.Multipath
open Maps Words Runs

/-- A new path has the weight 1. -/
inductive PathCall (W : Type) where
  | addPath
  | removePath (id : Nat)
  | updatePathLatency (id : Nat) (weight : W)
  | recordAck (id : Nat)
  | recordLoss (id : Nat)

structure Paths (W : Type) where
  table : PathTable W
  nextPathId : Nat

section
variable {W : Type} (checks : Bool) (one : W)

def Paths.start : Paths W := ⟨.empty, 1⟩

def Paths.step (s : Paths W) : PathCall W → Option (Paths W)
  | .addPath => some ⟨s.table.addPath s.nextPathId one, (s.nextPathId + 1) % 2 ^ 64⟩
  | .removePath id => some { s with table := s.table.removePath id }
  | .updatePathLatency id weight => some { s with table := s.table.updatePathLatency id weight }
  | .recordAck id => some { s with table := s.table.recordAck id }
  | .recordLoss id => (s.table.recordLoss checks id).map fun table => { s with table }

def PathCall.isAdd : PathCall W → Bool
  | .addPath => true
  | _ => false

/-- How many paths the calls register. -/
def adds (calls : List (PathCall W)) : Nat := calls.countP PathCall.isAdd

def PathCall.isLoss (p : Nat → Bool) : PathCall W → Bool
  | .recordLoss id => p id
  | _ => false

/-- How many losses the calls record for a path. -/
def losses (id : Nat) (calls : List (PathCall W)) : Nat := calls.countP (PathCall.isLoss (· = id))

def allLosses (calls : List (PathCall W)) : Nat := calls.countP (PathCall.isLoss fun _ => true)

/-- The calls behind the one that registered the path: the first gets the id 1. -/
def since : Nat → List (PathCall W) → Option (List (PathCall W))
  | _, [] => none
  | id, .addPath :: rest => if id = 1 then some rest else since (id - 1) rest
  | id, _ :: rest => since id rest

/-- No loss has been recorded for the path since its last acknowledgement. -/
def Settled (id : Nat) (calls : List (PathCall W)) : Prop :=
  ∃ before after, calls = before ++ .recordAck id :: after ∧ losses id after = 0

/-- The path is not removed, and its losses are few or before its last acknowledgement. -/
structure Used (id : Nat) (later : List (PathCall W)) : Prop where
  kept : .removePath id ∉ later
  good : losses id later ≤ 20 ∨ Settled id later

/-- The entry of a path is what the calls since its registration have made of it. -/
def Filed (id : Nat) (history : Option (List (PathCall W))) : Option (PathInfo W) → Prop
  | none => ∀ later, history = some later → .removePath id ∈ later
  | some path => ∃ later, history = some later ∧ .removePath id ∉ later ∧
      path.lostPackets = losses id later ∧
      (path.state = .dead ↔ 20 < losses id later ∧ ¬ Settled id later)

structure Tracks (calls : List (PathCall W)) (s : Paths W) : Prop where
  next : s.nextPathId = adds calls + 1
  filed : ∀ id, Filed id (since id calls) (s.table.paths.lookup id)

variable {checks one} {id other : Nat} {calls later : List (PathCall W)} {call : PathCall W}
  {s t : Paths W} {table : PathTable W}

/-- A call that says nothing of whether the path is used. -/
def PathCall.Aside (id : Nat) : PathCall W → Prop
  | .addPath | .updatePathLatency .. => True
  | .removePath other | .recordAck other | .recordLoss other => other ≠ id

theorem since_append (id : Nat) (calls : List (PathCall W)) (call : PathCall W) :
    since id (calls ++ [call]) = match since id calls with
      | some later => some (later ++ [call])
      | none => if call.isAdd ∧ id = adds calls + 1 then some [] else none := by
  induction calls generalizing id with
  | nil =>
    cases call with
    | addPath => simp [since, PathCall.isAdd, adds]
    | _ => simp [since, PathCall.isAdd]
  | cons first rest ih =>
    cases first with
    | addPath =>
      by_cases here : id = 1
      · simp [since, here]
      · have count : adds (.addPath :: rest) = adds rest + 1 := List.countP_cons_of_pos rfl
        have same : id - 1 = adds rest + 1 ↔ id = adds rest + 1 + 1 := by omega
        rw [List.cons_append, since, if_neg here, ih, since, if_neg here, count]
        simp only [same]
    | _ =>
      have count (other : PathCall W) (plain : other.isAdd = false) :
          adds (other :: rest) = adds rest := by simp [adds, plain]
      rw [List.cons_append, since, ih, since, count _ rfl] <;> simp

theorem losses_append (id : Nat) (later : List (PathCall W)) (call : PathCall W) :
    losses id (later ++ [call]) = losses id later + if call.isLoss (· = id) then 1 else 0 := by
  simp [losses, List.countP_append, List.countP_singleton]

theorem settled_append (id : Nat) (later : List (PathCall W)) (call : PathCall W) :
    Settled id (later ++ [call]) ↔
      call = .recordAck id ∨ Settled id later ∧ call.isLoss (· = id) = false := by
  constructor
  · rintro ⟨before, after, split, none⟩
    rcases List.eq_nil_or_concat after with rfl | ⟨front, last, rfl⟩
    · obtain ⟨-, same⟩ := List.append_inj' split rfl
      cases same
      exact .inl rfl
    · rw [List.concat_eq_append, ← List.cons_append, ← List.append_assoc] at split
      obtain ⟨same, ends⟩ := List.append_inj' split rfl
      cases ends
      rw [List.concat_eq_append, losses_append] at none
      have plain : call.isLoss (· = id) = false := by
        by_contra loss
        simp [loss] at none
      exact .inr ⟨⟨before, front, same, by omega⟩, plain⟩
  · rintro (rfl | ⟨⟨before, after, rfl, none⟩, plain⟩)
    · exact ⟨later, [], rfl, rfl⟩
    · refine ⟨before, after ++ [call], by simp, ?_⟩
      rw [losses_append, none, plain]
      rfl

/-- A call that says nothing of a path leaves its history as it is. -/
theorem Filed.aside {entry : Option (PathInfo W)} (filed : Filed id (since id calls) entry)
    (aside : call.Aside id) (old : (since id calls).isSome ∨ ¬ (call.isAdd ∧ id = adds calls + 1)) :
    Filed id (since id (calls ++ [call])) entry := by
  have silent : PathCall.isLoss (· = id) call = false := by
    cases call <;> simp_all [PathCall.isLoss, PathCall.Aside]
  have plain : call ≠ .recordAck id ∧ call ≠ .removePath id := by
    cases call <;> simp_all [PathCall.Aside]
  rw [since_append]
  cases history : since id calls with
  | none =>
    rw [history] at filed old
    have new : ¬ (call.isAdd ∧ id = adds calls + 1) := old.resolve_left (by simp)
    rw [if_neg new]
    exact filed
  | some later =>
    rw [history] at filed
    cases entry with
    | none =>
      rintro more ⟨⟩
      exact List.mem_append_left _ (filed later rfl)
    | some path =>
      obtain ⟨same, known, kept, lost, dead⟩ := filed
      cases known
      refine ⟨_, rfl, ?_, ?_, ?_⟩
      · simp [kept, plain.2.symm]
      · rw [losses_append, silent]
        exact lost
      · rw [losses_append, settled_append, silent]
        simpa [plain.1] using dead

/-- A path is filed under the number of its registration. -/
theorem since_range (history : since id calls = some later) : 1 ≤ id ∧ id ≤ adds calls := by
  induction calls generalizing id with
  | nil => cases history
  | cons first rest ih =>
    cases first with
    | addPath =>
      have count : adds (.addPath :: rest) = adds rest + 1 := List.countP_cons_of_pos rfl
      rw [since] at history
      split at history
      · omega
      · have inside := ih history
        omega
    | _ =>
      have count (other : PathCall W) (plain : other.isAdd = false) :
          adds (other :: rest) = adds rest := by simp [adds, plain]
      rw [count _ rfl]
      exact ih history

theorem lookup_modify (table : PathTable W) (id other : Nat) (change : PathInfo W → PathInfo W)
    (same : ∀ path, (change path).id = path.id) :
    (table.modify id change same).paths.lookup other =
      if other = id then (table.paths.lookup id).map change else table.paths.lookup other := by
  unfold PathTable.modify
  split
  · rename_i missing
    split
    · rename_i here
      rw [here, missing, Option.map_none]
    · rfl
  · rename_i path found
    split
    · rename_i here
      rw [here, AList.lookup_insert, found, Option.map_some]
    · rename_i away
      exact AList.lookup_insert_ne away

theorem losses_le (id : Nat) (calls : List (PathCall W)) : losses id calls ≤ allLosses calls :=
  List.countP_mono_left fun call _ loss => by
    cases call <;> simp_all [PathCall.isLoss]

theorem since_sublist (history : since id calls = some later) : later.Sublist calls := by
  induction calls generalizing id with
  | nil => cases history
  | cons first rest ih =>
    cases first with
    | addPath =>
      rw [since] at history
      split at history
      · cases history
        exact List.sublist_cons_self _ _
      · exact (ih history).cons _
    | _ => exact (ih history).cons _

theorem adds_append (calls : List (PathCall W)) (call : PathCall W) :
    adds (calls ++ [call]) = adds calls + if call.isAdd then 1 else 0 := by
  simp [adds, List.countP_append, List.countP_singleton]

/-- A path has no more losses than were recorded. -/
theorem Filed.lost_le {path : PathInfo W} (filed : Filed id (since id calls) (some path)) :
    path.lostPackets + 1 ≤ allLosses calls + 1 := by
  obtain ⟨later, history, -, known, -⟩ := filed
  rw [known]
  exact Nat.succ_le_succ ((losses_le id later).trans ((since_sublist history).countP_le))

theorem since_plain (plain : call.isAdd = false) (id : Nat) :
    since id (calls ++ [call]) = (since id calls).map (· ++ [call]) := by
  rw [since_append]
  cases since id calls with
  | none => simp [plain]
  | some later => rfl

/-- A path that is not there stays away. -/
theorem Filed.gone (filed : Filed id (since id calls) none) (plain : call.isAdd = false) :
    Filed id (since id (calls ++ [call])) none := by
  intro later history
  rw [since_plain plain] at history
  obtain ⟨earlier, before, rfl⟩ := Option.map_eq_some_iff.mp history
  exact List.mem_append_left _ (filed earlier before)

/-- What happens to a path that stays. -/
theorem Filed.change {path changed : PathInfo W} (filed : Filed id (since id calls) (some path))
    (kept : call ≠ .removePath id)
    (lost : changed.lostPackets = path.lostPackets + if call.isLoss (· = id) then 1 else 0)
    (dead : ∀ later, path.lostPackets = losses id later →
      (path.state = .dead ↔ 20 < losses id later ∧ ¬ Settled id later) →
      (changed.state = .dead ↔ 20 < changed.lostPackets ∧ ¬ Settled id (later ++ [call]))) :
    Filed id (since id (calls ++ [call])) (some changed) := by
  obtain ⟨later, history, stays, known, state⟩ := filed
  have count : changed.lostPackets = losses id (later ++ [call]) := by
    rw [losses_append, lost, known]
  refine ⟨later ++ [call], by rw [since_append, history], ?_, count, ?_⟩
  · simp [stays, kept.symm]
  · rw [dead later known state, count]

theorem Tracks.addPath (tracks : Tracks calls s) (few : adds calls + 2 < 2 ^ 64)
    (stepped : s.step checks one .addPath = some t) : Tracks (calls ++ [.addPath]) t := by
  cases stepped
  refine ⟨?_, fun id => ?_⟩
  · rw [tracks.next, adds_append]
    exact Nat.mod_eq_of_lt few
  · rw [PathTable.addPath, tracks.next]
    by_cases here : id = adds calls + 1
    · rw [here, AList.lookup_insert, since_append]
      cases history : since (adds calls + 1) calls with
      | some later =>
        have inside := since_range history
        omega
      | none =>
        rw [if_pos ⟨rfl, rfl⟩]
        exact ⟨[], rfl, List.not_mem_nil, rfl, by simp [losses]⟩
    · rw [AList.lookup_insert_ne here]
      exact (tracks.filed id).aside trivial (.inr fun new => here new.2)

/-- A call that registers nothing changes the entries that it says something of. -/
theorem Tracks.change (tracks : Tracks calls s) (plain : call.isAdd = false)
    (next : t.nextPathId = s.nextPathId)
    (filed : ∀ id, call.Aside id ∧ t.table.paths.lookup id = s.table.paths.lookup id ∨
      Filed id (since id (calls ++ [call])) (t.table.paths.lookup id)) : Tracks (calls ++ [call]) t := by
  refine ⟨?_, fun id => ?_⟩
  · rw [next, tracks.next, adds_append, plain]
    rfl
  · rcases filed id with ⟨aside, same⟩ | changed
    · rw [same]
      exact (tracks.filed id).aside aside (.inr fun new => by simp [plain] at new)
    · exact changed

theorem Tracks.removePath (tracks : Tracks calls s)
    (stepped : s.step checks one (.removePath other) = some t) :
    Tracks (calls ++ [.removePath other]) t := by
  cases stepped
  refine tracks.change rfl rfl fun id => ?_
  by_cases here : id = other
  · subst here
    refine .inr ?_
    rw [PathTable.removePath, AList.lookup_erase, since_plain rfl]
    intro later history
    obtain ⟨earlier, -, rfl⟩ := Option.map_eq_some_iff.mp history
    exact List.mem_append_right _ List.mem_cons_self
  · exact .inl ⟨Ne.symm here, AList.lookup_erase_ne here⟩

/-- A change of one path that is no removal of it. -/
theorem Tracks.modify {change : PathInfo W → PathInfo W} (tracks : Tracks calls s)
    (same : ∀ path, (change path).id = path.id) (plain : call.isAdd = false)
    (kept : call ≠ .removePath other) (away : ∀ id, id ≠ other → call.Aside id)
    (lost : ∀ path, s.table.paths.lookup other = some path →
      (change path).lostPackets = path.lostPackets + if call.isLoss (· = other) then 1 else 0)
    (dead : ∀ path later, path.lostPackets = losses other later →
      (path.state = .dead ↔ 20 < losses other later ∧ ¬ Settled other later) →
      s.table.paths.lookup other = some path →
      ((change path).state = .dead ↔
        20 < (change path).lostPackets ∧ ¬ Settled other (later ++ [call]))) :
    Tracks (calls ++ [call]) { s with table := s.table.modify other change same } := by
  refine tracks.change plain rfl fun id => ?_
  rw [lookup_modify]
  split
  · rename_i here
    subst here
    have filed := tracks.filed id
    cases found : s.table.paths.lookup id with
    | none =>
      rw [found] at filed
      exact .inr (filed.gone plain)
    | some path =>
      rw [found] at filed
      exact .inr (filed.change kept (lost path found) fun later known state =>
        dead path later known state found)
  · rename_i apart
    exact .inl ⟨away id apart, rfl⟩

theorem Tracks.updatePathLatency (tracks : Tracks calls s)
    (stepped : s.step checks one (.updatePathLatency other weight) = some t) :
    Tracks (calls ++ [.updatePathLatency other weight]) t := by
  cases stepped
  refine tracks.modify _ rfl nofun (fun _ _ => trivial) (fun _ _ => rfl)
    fun path later known state _ => ?_
  rw [settled_append, known]
  simpa [PathCall.isLoss] using state

theorem Tracks.recordAck (tracks : Tracks calls s)
    (stepped : s.step checks one (.recordAck other) = some t) :
    Tracks (calls ++ [.recordAck other]) t := by
  cases stepped
  refine tracks.modify _ rfl nofun (fun _ => Ne.symm) (fun _ _ => rfl)
    fun path later known state _ => ?_
  simp [settled_append]

theorem lossState_dead (state : PathState) (n : Nat) :
    lossState state n = .dead ↔ 20 < n ∨ n ≤ 5 ∧ state = .dead := by
  rw [lossState]
  split
  · simp [*]
  · split
    · simp
      omega
    · have few : n ≤ 5 := by omega
      simp [few]
      omega

theorem Tracks.recordLoss (tracks : Tracks calls s) (few : allLosses calls + 1 < 2 ^ 32) :
    ∃ t, s.step checks one (.recordLoss other) = some t ∧ Tracks (calls ++ [.recordLoss other]) t := by
  have filed := tracks.filed other
  cases found : s.table.paths.lookup other with
  | none =>
    refine ⟨s, by simp [Paths.step, PathTable.recordLoss, found], ?_⟩
    refine tracks.change rfl rfl fun id => ?_
    by_cases here : id = other
    · subst here
      rw [found] at filed ⊢
      exact .inr (filed.gone rfl)
    · exact .inl ⟨Ne.symm here, rfl⟩
  | some path =>
    rw [found] at filed
    have fits : path.lostPackets + 1 < 2 ^ 32 := filed.lost_le.trans_lt few
    refine ⟨_, by simp only [Paths.step, PathTable.recordLoss, found, addWord_of_lt fits]; rfl, ?_⟩
    refine tracks.modify _ rfl nofun (fun _ => Ne.symm) (fun entry there => ?_)
      fun entry later known state there => ?_
    · obtain rfl := Option.some.inj (found.symm.trans there)
      simp [PathCall.isLoss]
    · obtain rfl := Option.some.inj (found.symm.trans there)
      have behind : ¬ Settled other (later ++ [.recordLoss other]) := by
        simp [settled_append, PathCall.isLoss]
      rw [lossState_dead, known, and_iff_left behind]
      constructor
      · rintro (many | ⟨low, gone⟩)
        · exact many
        · have many := (state.mp gone).1
          omega
      · exact .inl

theorem allLosses_append (calls : List (PathCall W)) (call : PathCall W) :
    allLosses (calls ++ [call]) = allLosses calls + if call.isLoss fun _ => true then 1 else 0 := by
  simp [allLosses, List.countP_append, List.countP_singleton]

theorem step_tracks (tracks : Tracks calls s) (few : adds (calls ++ [call]) + 1 < 2 ^ 64)
    (counted : allLosses (calls ++ [call]) < 2 ^ 32) :
    ∃ t, s.step checks one call = some t ∧ Tracks (calls ++ [call]) t := by
  rw [adds_append] at few
  rw [allLosses_append] at counted
  cases call with
  | addPath =>
    have stepped : s.step checks one .addPath = some _ := rfl
    exact ⟨_, stepped, tracks.addPath few stepped⟩
  | removePath id =>
    have stepped : s.step checks one (.removePath id) = some _ := rfl
    exact ⟨_, stepped, tracks.removePath stepped⟩
  | updatePathLatency id weight =>
    have stepped : s.step checks one (.updatePathLatency id weight) = some _ := rfl
    exact ⟨_, stepped, tracks.updatePathLatency stepped⟩
  | recordAck id =>
    have stepped : s.step checks one (.recordAck id) = some _ := rfl
    exact ⟨_, stepped, tracks.recordAck stepped⟩
  | recordLoss id => exact tracks.recordLoss counted

theorem run_tracks (few : adds calls + 1 < 2 ^ 64) (counted : allLosses calls < 2 ^ 32) :
    ∃ s, exec (Paths.step checks one) .start calls = some s ∧ Tracks calls s := by
  induction calls using List.reverseRecOn with
  | nil => exact ⟨.start, rfl, rfl, fun id => by simp [Paths.start, PathTable.empty, Filed, since]⟩
  | append_singleton calls call ih =>
    have before := few
    rw [adds_append] at before
    have lost := counted
    rw [allLosses_append] at lost
    obtain ⟨s, run, tracks⟩ := ih (by omega) (by omega)
    obtain ⟨t, stepped, tracks⟩ := step_tracks tracks few counted
    exact ⟨t, exec_append.mpr ⟨s, run, exec_cons.mpr ⟨t, stepped, rfl⟩⟩, tracks⟩

theorem Tracks.alive_iff (tracks : Tracks calls s) (id : Nat) :
    s.table.Alive id ↔ ∃ later, since id calls = some later ∧ Used id later := by
  have filed := tracks.filed id
  rw [PathTable.Alive]
  cases found : s.table.paths.lookup id with
  | none =>
    rw [found] at filed
    constructor
    · rintro ⟨path, same, -⟩
      cases same
    · rintro ⟨later, history, used⟩
      exact absurd (filed later history) used.kept
  | some path =>
    rw [found] at filed
    obtain ⟨later, history, kept, -, dead⟩ := filed
    constructor
    · rintro ⟨same, found, alive⟩
      cases found
      refine ⟨later, history, kept, ?_⟩
      by_contra bad
      rw [not_or, not_le] at bad
      exact alive (dead.mpr bad)
    · rintro ⟨others, again, used⟩
      obtain rfl := Option.some.inj (history.symm.trans again)
      refine ⟨path, rfl, fun gone => ?_⟩
      obtain ⟨many, unsettled⟩ := dead.mp gone
      exact used.good.elim (fun few => absurd many (Nat.not_lt.mpr few)) unsettled

/-- After any calls a path is alive exactly if it is registered, has not been removed since, and
has lost at most 20 packets or none since its last acknowledgement. Fragments go over such paths
only. -/
theorem path_used_iff [Add W] (checks : Bool) (one : W) (calls : List (PathCall W))
    (few : adds calls + 1 < 2 ^ 64) (counted : allLosses calls < 2 ^ 32) :
    ∃ s, exec (Paths.step checks one) .start calls = some s ∧
      (∀ id, s.table.Alive id ↔ ∃ later, since id calls = some later ∧ Used id later) ∧
      ∀ below (m : MultiPathManager W) data streamId sent next, m.table = s.table →
        m.sendViaPaths checks below data streamId = some (sent, next) →
        ∀ entry ∈ sent, ∃ later, since entry.1 calls = some later ∧ Used entry.1 later := by
  obtain ⟨s, run, tracks⟩ : ∃ s, exec (Paths.step checks one) .start calls = some s ∧
      Tracks calls s := run_tracks few counted
  refine ⟨s, run, tracks.alive_iff, fun below m data streamId sent next same sends entry member => ?_⟩
  exact (tracks.alive_iff entry.1).mp (same ▸ sendViaPaths_alive sends entry member)

/-- A path that has lost 21 packets and is acknowledged. -/
def recovered : List (PathCall Nat) :=
  .addPath :: List.replicate 21 (.recordLoss 1) ++ [.recordAck 1]

/-- The next loss takes it out of use at once. -/
theorem path_used_iff_recovered :
    (∃ s, exec (Paths.step true 1) .start recovered = some s ∧ s.table.Alive 1) ∧
    ∃ s, exec (Paths.step true 1) .start (recovered ++ [.recordLoss 1]) = some s ∧
      ¬ s.table.Alive 1 := by
  obtain ⟨s, run, alive, -⟩ := path_used_iff true 1 recovered (by decide) (by decide)
  obtain ⟨t, longer, dead, -⟩ := path_used_iff true 1 (recovered ++ [.recordLoss 1]) (by decide)
    (by decide)
  refine ⟨⟨s, run, (alive 1).mpr ⟨_, rfl, by simp, .inr ⟨_, [], rfl, rfl⟩⟩⟩, t, longer, ?_⟩
  rw [dead 1]
  rintro ⟨later, history, used⟩
  cases history
  rcases used.good with low | settled
  · exact absurd low (by decide)
  · exact absurd ((settled_append 1 _ (.recordLoss 1)).mp settled) (by simp [PathCall.isLoss])

end

end LanLink.Multipath
