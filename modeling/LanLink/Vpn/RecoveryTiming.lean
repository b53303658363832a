import LanLink.Vpn.DhtSearch
import LanLink.Vpn.RecoveryEvidence

/-! The times of the recovery check. The check subtracts the time of the last attempt
from the clock of the system, which may have been set back; the time may also come from
a file. -/
namespace LanLink.Vpn
open Words Maps Runs

/-- The states of a file, in the order in which they are put into the table. -/
def SelfHealManager.loadState (h : SelfHealManager) (file : List SelfHealNodeState) :
    SelfHealManager × List HealEvent :=
  ({ h with states := insertAll h.states (file.map fun state => (state.nodeId, state)) },
    [.stateRestored file.length])

/-- The state that a file gives to a node. -/
def given (file : List SelfHealNodeState) (nodeId : NodeID) : Option SelfHealNodeState :=
  (insertAll ∅ (file.map fun state => (state.nodeId, state))).lookup nodeId

/-- The filter computes the time since the last attempt. -/
def SelfHealNodeState.subtracts (s : SelfHealNodeState) (max : UInt32) : Bool :=
  s.isOffline && !s.hasExceededMaxAttempts max && s.lastRecoveryAttempt != 0

/-- The manager with its loop, and the time when each node was last probed, by the loop
or as a file says. -/
structure Probing where
  healing : Healing
  probed : NodeID → Option UInt64

inductive ProbeInput where
  | heal (input : HealInput)
  | saveState
  | loadState (file : List SelfHealNodeState)

namespace Probing

def new (localId : NodeID) (maxFailed : UInt32) (now : Int) : Probing :=
  ⟨.start (.new localId) maxFailed now, fun _ => none⟩

/-- The clocks with which the loop runs its filter in this step. -/
def filters (s : Probing) : ProbeInput → Option (NodeID → UInt64)
  | .heal (.loop now secs) =>
    match s.healing.todo with
    | .recoveryCheck :: _ =>
      if seconds defaultRecoveryCheckSecs ≤ max 0 (now - s.healing.lastRecoveryCheck) then some secs
      else none
    | _ => none
  | _ => none

/-- The node that the loop probes in this step, and the time then. -/
def attempts (s : Probing) : ProbeInput → Option (NodeID × UInt64)
  | .heal (.loop _ secs) =>
    match s.healing.todo with
    | .recordAttempt nodeId :: _ =>
      if nodeId ∈ s.healing.manager.states then some (nodeId, secs nodeId) else none
    | _ => none
  | _ => none

/-- The subtraction for some node underflows. -/
def underflows (s : Probing) (secs : NodeID → UInt64) : Bool :=
  s.healing.manager.states.entries.any fun e =>
    e.2.subtracts s.healing.maxFailed && decide (secs e.2.nodeId < e.2.lastRecoveryAttempt)

/-- A time of a file that is not zero replaces what was known. -/
def loaded (s : Probing) (file : List SelfHealNodeState) : Probing where
  healing := s.healing.handled (s.healing.manager.loadState file) s.healing.silent
  probed nodeId :=
    match given file nodeId with
    | some state =>
      if state.lastRecoveryAttempt = 0 then s.probed nodeId else some state.lastRecoveryAttempt
    | none => s.probed nodeId

/-- A subtraction that underflows aborts in a build with checks. -/
def step (checks : Bool) (s : Probing) (input : ProbeInput) : Option Probing :=
  if checks && (s.filters input).any s.underflows then none
  else
    match input with
    | .heal heal => some
        { healing := s.healing.next heal
          probed := match s.attempts input with
            | some (nodeId, now) => Function.update s.probed nodeId (some now)
            | none => s.probed }
    | .saveState => some s
    | .loadState file => some (s.loaded file)

/-- The filter does not underflow, and a node that it selects was probed, if at all, at
least 30 seconds ago. -/
def Sound (s : Probing) (input : ProbeInput) : Prop :=
  ∀ secs, s.filters input = some secs → s.underflows secs = false ∧
    ∀ nodeId ∈ s.healing.manager.recoveryDue s.healing.maxFailed secs,
      ∀ time, s.probed nodeId = some time →
        time.toNat + defaultRecoveryCheckSecs ≤ (secs nodeId).toNat

/-- The clock is not behind the last probe of an offline node that is not given up, and
not within 30 seconds of a probe at time zero. -/
def Timely (s : Probing) (input : ProbeInput) : Prop :=
  ∀ secs, s.filters input = some secs →
    ∀ nodeId state, s.healing.manager.states.lookup nodeId = some state →
      state.isOffline = true → state.hasExceededMaxAttempts s.healing.maxFailed = false →
      ∀ time, s.probed nodeId = some time →
        time ≤ secs nodeId ∧ (time = 0 → defaultRecoveryCheckSecs ≤ (secs nodeId).toNat)

instance (s : Probing) (input : ProbeInput) : Decidable (s.Timely input) :=
  decidable_of_iff ((s.filters input).all fun secs =>
      decide (∀ e ∈ s.healing.manager.states.entries,
        e.2.isOffline = true → e.2.hasExceededMaxAttempts s.healing.maxFailed = false →
        (s.probed e.1).all fun time => time ≤ secs e.1 &&
          decide (time = 0 → defaultRecoveryCheckSecs ≤ (secs e.1).toNat))) <| by
    simp only [Option.all_eq_true, Bool.and_eq_true, decide_eq_true_eq]
    exact ⟨fun timely secs filtered nodeId state found =>
        timely secs filtered ⟨nodeId, state⟩ (AList.mem_lookup_iff.mp found),
      fun timely secs filtered e member =>
        timely secs filtered e.1 e.2 (AList.mem_lookup_iff.mpr member)⟩

/-- A file does not set back the time when a node was last probed. -/
def Current (s : Probing) : ProbeInput → Prop
  | .loadState file => ∀ nodeId state time, given file nodeId = some state →
      s.probed nodeId = some time → time ≤ state.lastRecoveryAttempt
  | _ => True

instance (s : Probing) : (input : ProbeInput) → Decidable (s.Current input)
  | .loadState file =>
    decidable_of_iff (∀ e ∈ (insertAll (∅ : Map NodeID SelfHealNodeState)
        (file.map fun state : SelfHealNodeState => (state.nodeId, state))).entries,
        (s.probed e.1).all fun time => time ≤ e.2.lastRecoveryAttempt) <| by
      simp only [Option.all_eq_true, decide_eq_true_eq]
      exact ⟨fun current nodeId state time found =>
          current ⟨nodeId, state⟩ (AList.mem_lookup_iff.mp found) time,
        fun current e member time => current e.1 e.2 time (AList.mem_lookup_iff.mpr member)⟩
  | .heal _ | .saveState => isTrue trivial

end Probing

namespace SelfHealManager

/-- The identifier and the time that the state of a node records. -/
def attempt (h : SelfHealManager) (nodeId : NodeID) : Option (NodeID × UInt64) :=
  (h.states.lookup nodeId).map fun state => (state.nodeId, state.lastRecoveryAttempt)

/-- No recorded time changes, and the nodes that are new have none. -/
def Keeps (before after : SelfHealManager) : Prop :=
  ∀ nodeId, after.attempt nodeId = before.attempt nodeId ∨
    (before.attempt nodeId = none ∧ after.attempt nodeId = some (nodeId, 0))

theorem Keeps.refl (h : SelfHealManager) : Keeps h h := fun _ => .inl rfl

theorem Keeps.of_states {before after : SelfHealManager} (same : after.states = before.states) :
    Keeps before after := by
  intro nodeId
  rw [attempt, same]
  exact .inl rfl

theorem Keeps.trans {a b c : SelfHealManager} (first : Keeps a b) (second : Keeps b c) :
    Keeps a c := by
  intro nodeId
  rcases second nodeId with same | ⟨missing, new⟩
  · rw [same]
    exact first nodeId
  · rcases first nodeId with same | ⟨-, there⟩
    · exact .inr ⟨same ▸ missing, new⟩
    · rw [there] at missing
      cases missing

theorem keeps_addNode (h : SelfHealManager) (nodeId : NodeID) (nowSecs : UInt64) :
    Keeps h (h.addNode nodeId nowSecs) := by
  rw [addNode]
  split
  · exact .refl h
  · rename_i absent
    intro other
    by_cases same : other = nodeId
    · subst same
      refine .inr ⟨?_, ?_⟩
      · rw [attempt, AList.lookup_eq_none.mpr absent]
        rfl
      · rw [attempt, AList.lookup_insert]
        rfl
    · exact .inl (by rw [attempt, AList.lookup_insert_ne same, attempt])

/-- Changes that keep the identifier and the time. -/
def Steady (change : SelfHealNodeState → SelfHealNodeState) : Prop :=
  ∀ state, (change state).nodeId = state.nodeId ∧
    (change state).lastRecoveryAttempt = state.lastRecoveryAttempt

theorem steady_markOnline (now : UInt64) : Steady (.markOnline · now) := fun _ => ⟨rfl, rfl⟩

theorem steady_markOffline : Steady .markOffline := fun _ => ⟨rfl, rfl⟩

theorem keeps_updateState (h : SelfHealManager) (nodeId : NodeID) (nowSecs : UInt64)
    (steady : Steady change) : Keeps h (h.updateState nodeId nowSecs change) := by
  intro other
  rw [updateState]
  by_cases same : other = nodeId
  · subst same
    simp only [attempt, AList.lookup_insert, Option.map_some, (steady _).1, (steady _).2]
    cases h.states.lookup other with
    | none => exact .inr ⟨rfl, rfl⟩
    | some state => exact .inl rfl
  · exact .inl (by rw [attempt, AList.lookup_insert_ne same, attempt])

theorem attempt_changeState (h : SelfHealManager) (nodeId other : NodeID)
    (change : SelfHealNodeState → SelfHealNodeState) :
    (h.changeState nodeId change).attempt other =
      if other = nodeId then (h.states.lookup nodeId).map fun state =>
        ((change state).nodeId, (change state).lastRecoveryAttempt)
      else h.attempt other := by
  rw [changeState]
  by_cases same : other = nodeId
  · subst same
    rw [if_pos rfl]
    cases found : h.states.lookup other with
    | none => simp only [attempt, found, Option.map_none]
    | some state => simp only [attempt, AList.lookup_insert, Option.map_some]
  · rw [if_neg same]
    cases h.states.lookup nodeId with
    | none => rfl
    | some state => simp only [attempt, AList.lookup_insert_ne same]

theorem keeps_changeState (h : SelfHealManager) (nodeId : NodeID) (steady : Steady change) :
    Keeps h (h.changeState nodeId change) := by
  intro other
  left
  rw [attempt_changeState]
  split
  · rename_i same
    subst same
    simp only [attempt, (steady _).1, (steady _).2]
  · rfl

theorem keeps_onNodeRecovered (h : SelfHealManager) (nodeId : NodeID) (now : Int)
    (nowSecs : UInt64) : Keeps h (h.onNodeRecovered nodeId now nowSecs).1 :=
  (keeps_updateState h nodeId nowSecs (steady_markOnline nowSecs)).trans (.of_states rfl)

theorem keeps_onNodeOffline (h : SelfHealManager) (nodeId : NodeID) (clock : NodeID → Int)
    (nowSecs : UInt64) : Keeps h (h.onNodeOffline nodeId clock nowSecs).1 := by
  apply (keeps_updateState h nodeId nowSecs steady_markOffline).trans
  apply Keeps.of_states
  rw [onNodeOffline]
  dsimp only
  split
  · rfl
  · rfl

theorem keeps_onNodeOnline (h : SelfHealManager) (nodeId : NodeID) (now : Int)
    (nowSecs : UInt64) : Keeps h (h.onNodeOnline nodeId now nowSecs).1 := by
  have added := keeps_addNode h nodeId nowSecs
  unfold onNodeOnline
  dsimp only
  split
  · exact added.trans (keeps_onNodeRecovered _ nodeId now nowSecs)
  · exact added

theorem keeps_onHeartbeatReceived (h : SelfHealManager) (nodeId : NodeID) (now : Int)
    (nowSecs : UInt64) : Keeps h (h.onHeartbeatReceived nodeId now nowSecs).1 := by
  have added := keeps_addNode h nodeId nowSecs
  unfold onHeartbeatReceived
  dsimp only
  split
  · exact added.trans ((keeps_changeState _ nodeId (steady_markOnline nowSecs)).trans
      (keeps_onNodeRecovered _ nodeId now nowSecs))
  · exact added.trans (keeps_changeState _ nodeId fun _ => ⟨rfl, rfl⟩)

theorem keeps_processHealMessage (h : SelfHealManager) (msg : SelfHealMessage) (now : Int)
    (nowSecs : UInt64) : Keeps h (h.processHealMessage msg now nowSecs).1 := by
  have added := keeps_addNode h msg.senderId nowSecs
  rw [processHealMessage]
  split
  · exact .refl h
  · exact .of_states rfl
  · dsimp only
    split
    · split
      · exact added.trans (keeps_onNodeRecovered _ msg.senderId now nowSecs)
      · exact added
    · exact added

theorem keeps_handlePathFailure (h : SelfHealManager) (target : NodeID) (now : Int) :
    Keeps h (h.handlePathFailure target now).1 :=
  .of_states (handlePathFailure_same h target now).1

end SelfHealManager

namespace Healing
open SelfHealManager

/-- Only the record of an attempt changes a time. -/
theorem keeps_runOp (s : Healing) (rest : List HealOp) (now : Int) (secs : NodeID → UInt64)
    (other : ∀ nodeId, op ≠ .recordAttempt nodeId) :
    Keeps s.manager (s.runOp rest now secs op).manager := by
  cases op with
  | takePongs => exact .of_states rfl
  | checkPong sender => exact .refl s.manager
  | markPong sender => exact keeps_updateState s.manager sender _ (steady_markOnline _)
  | rebuild sender => exact .of_states rfl
  | announce nodeId => exact .refl s.manager
  | recoveryCheck => exact .refl s.manager
  | recordAttempt nodeId => exact absurd rfl (other nodeId)
  | probe nodeId =>
    simp only [runOp]
    split
    · rename_i manager probed
      exact .of_states (probe_same probed).1
    · exact .refl s.manager
  | markProbed nodeId => exact keeps_changeState s.manager nodeId (steady_markOnline _)
  | checked instant => exact .refl s.manager

/-- The loop is about to record an attempt. -/
def records (s : Healing) : HealInput → Option (NodeID × UInt64)
  | .loop _ secs =>
    match s.todo with
    | .recordAttempt nodeId :: _ => some (nodeId, secs nodeId)
    | _ => none
  | _ => none

theorem keeps_next (s : Healing) (input : HealInput) (silent : s.records input = none) :
    Keeps s.manager (s.next input).manager := by
  cases input with
  | nodeOffline nodeId clock nowSecs => exact keeps_onNodeOffline s.manager nodeId clock nowSecs
  | nodeOnline nodeId now nowSecs => exact keeps_onNodeOnline s.manager nodeId now nowSecs
  | heartbeatReceived nodeId now nowSecs =>
    exact keeps_onHeartbeatReceived s.manager nodeId now nowSecs
  | healMessage msg now nowSecs => exact keeps_processHealMessage s.manager msg now nowSecs
  | pathFailure target now => exact keeps_handlePathFailure s.manager target now
  | network multihop dht => exact .of_states rfl
  | loop now secs =>
    simp only [next]
    cases todo : s.todo with
    | nil => exact .refl s.manager
    | cons op rest =>
      apply s.keeps_runOp
      rintro nodeId rfl
      simp [records, todo] at silent

/-- An attempt is recorded in the state of its node, if there is one. -/
theorem attempt_recorded (s : Healing) (input : HealInput)
    (records : s.records input = some (nodeId, now)) (other : NodeID) :
    (s.next input).manager.attempt other =
      if other = nodeId then (s.manager.attempt nodeId).map fun known => (known.1, now)
      else s.manager.attempt other := by
  cases input with
  | loop instant secs =>
    unfold Healing.records at records
    dsimp only at records
    split at records
    · rename_i target rest todo
      cases records
      simp only [next, todo, runOp]
      rw [attempt_changeState]
      simp only [attempt, Option.map_map]
      rfl
    · cases records
  | _ => cases records

end Healing

namespace Probing
open SelfHealManager

/-- Every state has the time of the last probe of its node, and zero if there was none. -/
def Recorded (s : Probing) : Prop :=
  ∀ nodeId, (s.healing.manager.attempt nodeId = none ∧ s.probed nodeId = none) ∨
    s.healing.manager.attempt nodeId = some (nodeId, (s.probed nodeId).getD 0)

theorem Recorded.keeps {s : Probing} {after : Healing} (recorded : Recorded s)
    (kept : Keeps s.healing.manager after.manager) : Recorded ⟨after, s.probed⟩ := by
  intro nodeId
  rcases kept nodeId with same | ⟨missing, new⟩
  · dsimp only
    rw [same]
    exact recorded nodeId
  · right
    rcases recorded nodeId with ⟨-, never⟩ | there
    · dsimp only
      rw [new, never]
      rfl
    · rw [missing] at there
      cases there

theorem Recorded.heal {s : Probing} (recorded : Recorded s) (input : HealInput) :
    Recorded
      { healing := s.healing.next input
        probed := match s.attempts (.heal input) with
          | some (nodeId, now) => Function.update s.probed nodeId (some now)
          | none => s.probed } := by
  cases records : s.healing.records input with
  | none =>
    have none_probed : s.attempts (.heal input) = none := by
      cases input with
      | loop now secs =>
        simp only [attempts]
        split
        · rename_i nodeId rest todo
          simp [Healing.records, todo] at records
        · rfl
      | _ => rfl
    rw [none_probed]
    exact recorded.keeps (s.healing.keeps_next input records)
  | some record =>
    obtain ⟨target, now⟩ := record
    have after := s.healing.attempt_recorded input records
    have probes : s.attempts (.heal input) =
        if target ∈ s.healing.manager.states then some (target, now) else none := by
      cases input with
      | loop instant secs =>
        unfold Healing.records at records
        dsimp only at records
        split at records
        · rename_i todo
          cases records
          simp only [attempts, todo]
        · cases records
      | _ => cases records
    intro nodeId
    dsimp only
    rw [after nodeId, probes]
    by_cases there : target ∈ s.healing.manager.states
    · rw [if_pos there]
      dsimp only
      by_cases same : nodeId = target
      · subst same
        rw [if_pos rfl, Function.update_self]
        rcases recorded nodeId with ⟨missing, -⟩ | known
        · obtain ⟨state, found⟩ := exists_lookup there
          simp [attempt, found] at missing
        · exact .inr (by rw [known]; rfl)
      · rw [if_neg same, Function.update_of_ne same]
        exact recorded nodeId
    · rw [if_neg there]
      dsimp only
      by_cases same : nodeId = target
      · subst same
        have missing : s.healing.manager.attempt nodeId = none := by
          rw [attempt, AList.lookup_eq_none.mpr there]
          rfl
        rw [if_pos rfl, missing]
        rcases recorded nodeId with ⟨-, never⟩ | known
        · exact .inl ⟨rfl, never⟩
        · rw [missing] at known
          cases known
      · rw [if_neg same]
        exact recorded nodeId

theorem given_nodeId (found : given file nodeId = some state) : state.nodeId = nodeId := by
  rcases mem_of_lookup_insertAll found with member | nothing
  · obtain ⟨other, -, same⟩ := List.mem_map.mp member
    cases same
    rfl
  · cases nothing

/-- A file that sets no time back. -/
theorem Recorded.load {s : Probing} (recorded : Recorded s) (current : s.Current (.loadState file)) :
    Recorded (s.loaded file) := by
  intro nodeId
  have after : (s.healing.manager.loadState file).1.states.lookup nodeId =
      (given file nodeId).or (s.healing.manager.states.lookup nodeId) :=
    lookup_insertAll_or _ _ nodeId
  simp only [loaded, Healing.handled, attempt, after]
  cases found : given file nodeId with
  | none => exact recorded nodeId
  | some state =>
    right
    have named := given_nodeId found
    simp only [Option.some_or, Option.map_some, named, Option.some.injEq, Prod.mk.injEq, true_and]
    split
    · rename_i zero
      cases probed : s.probed nodeId with
      | none => exact zero
      | some time =>
        have earlier := current nodeId state time found probed
        rw [zero] at earlier ⊢
        exact (UInt64.le_antisymm earlier (UInt64.zero_le)).symm
    · rfl

theorem Recorded.step {s t : Probing} (recorded : Recorded s) (current : s.Current input)
    (stepped : s.step checks input = some t) : Recorded t := by
  unfold Probing.step at stepped
  split at stepped
  · cases stepped
  · cases input with
    | heal input =>
      cases stepped
      exact recorded.heal input
    | saveState =>
      cases stepped
      exact recorded
    | loadState file =>
      cases stepped
      exact recorded.load current

section
variable {s : Probing} {state : SelfHealNodeState} {nodeId : NodeID}

theorem Recorded.found (recorded : Recorded s)
    (found : s.healing.manager.states.lookup nodeId = some state) :
    state.nodeId = nodeId ∧ state.lastRecoveryAttempt = (s.probed nodeId).getD 0 := by
  have known : s.healing.manager.attempt nodeId = some (state.nodeId, state.lastRecoveryAttempt) := by
    rw [attempt, found]
    rfl
  rcases recorded nodeId with ⟨missing, -⟩ | same
  · rw [known] at missing
    cases missing
  · rw [known] at same
    simpa using same

/-- The filter of a state that is due looks only at the time. -/
theorem recoveryDue_iff (max : UInt32) (now : UInt64) :
    state.recoveryDue max now = true ↔
      state.isOffline = true ∧ state.hasExceededMaxAttempts max = false ∧
        (state.lastRecoveryAttempt = 0 ∨
          defaultRecoveryCheckSecs ≤ (now - state.lastRecoveryAttempt).toNat) := by
  simp [SelfHealNodeState.recoveryDue, and_assoc]

theorem subtracts_iff (max : UInt32) :
    state.subtracts max = true ↔ state.isOffline = true ∧
      state.hasExceededMaxAttempts max = false ∧ state.lastRecoveryAttempt ≠ 0 := by
  simp [SelfHealNodeState.subtracts, and_assoc]

theorem mem_recoveryDue (recorded : Recorded s) {secs : NodeID → UInt64} :
    nodeId ∈ s.healing.manager.recoveryDue s.healing.maxFailed secs ↔
      ∃ state, s.healing.manager.states.lookup nodeId = some state ∧
        state.recoveryDue s.healing.maxFailed (secs nodeId) = true := by
  simp only [SelfHealManager.recoveryDue, List.mem_map, List.mem_filter]
  constructor
  · rintro ⟨state, ⟨⟨entry, member, rfl⟩, due⟩, rfl⟩
    have found := AList.mem_lookup_iff.mpr member
    have named := (recorded.found found).1
    rw [named] at due ⊢
    exact ⟨entry.2, found, due⟩
  · rintro ⟨state, found, due⟩
    have named := (recorded.found found).1
    rw [← named] at due
    exact ⟨state, ⟨⟨⟨nodeId, state⟩, AList.mem_lookup_iff.mp found, rfl⟩, due⟩, named⟩

theorem underflows_iff (recorded : Recorded s) {secs : NodeID → UInt64} :
    s.underflows secs = false ↔ ∀ nodeId state,
      s.healing.manager.states.lookup nodeId = some state →
      state.subtracts s.healing.maxFailed = true → state.lastRecoveryAttempt ≤ secs nodeId := by
  simp only [underflows, List.any_eq_false, Bool.and_eq_true, decide_eq_true_eq, not_and,
    UInt64.not_lt]
  constructor
  · intro all nodeId state found subtracts
    have named := (recorded.found found).1
    have bound := all ⟨nodeId, state⟩ (AList.mem_lookup_iff.mp found) subtracts
    dsimp only at bound
    rwa [named] at bound
  · intro all entry member subtracts
    have found := AList.mem_lookup_iff.mpr member
    have named := (recorded.found found).1
    rw [named]
    exact all entry.1 entry.2 found subtracts

/-- The filter is right about one node exactly when the clock is. -/
theorem filter_iff (recorded : Recorded s)
    (found : s.healing.manager.states.lookup nodeId = some state) (max : UInt32) (now : UInt64) :
    ((state.subtracts max = true → state.lastRecoveryAttempt ≤ now) ∧
      (state.recoveryDue max now = true → ∀ time, s.probed nodeId = some time →
        time.toNat + defaultRecoveryCheckSecs ≤ now.toNat)) ↔
      (state.isOffline = true → state.hasExceededMaxAttempts max = false →
        ∀ time, s.probed nodeId = some time →
          time ≤ now ∧ (time = 0 → defaultRecoveryCheckSecs ≤ now.toNat)) := by
  have last := (recorded.found found).2
  rw [recoveryDue_iff, subtracts_iff]
  cases probed : s.probed nodeId with
  | none =>
    rw [probed, Option.getD_none] at last
    simp [last]
  | some time =>
    rw [probed, Option.getD_some] at last
    rw [last]
    simp only [Option.some.injEq, forall_eq']
    constructor
    · rintro ⟨bounded, late⟩ offline tried
      by_cases zero : time = 0
      · subst zero
        exact ⟨UInt64.zero_le, fun _ => by simpa using late ⟨offline, tried, .inl rfl⟩⟩
      · exact ⟨bounded ⟨offline, tried, zero⟩, fun same => absurd same zero⟩
    · intro timely
      refine ⟨fun subtracts => (timely subtracts.1 subtracts.2.1).1, ?_⟩
      rintro ⟨offline, tried, due⟩
      obtain ⟨before, early⟩ := timely offline tried
      rcases due with zero | due
      · subst zero
        simpa using early rfl
      · rw [UInt64.toNat_sub_of_le _ _ before] at due
        have := UInt64.le_iff_toNat_le.mp before
        omega

theorem sound_iff_timely (recorded : Recorded s) (input : ProbeInput) :
    s.Sound input ↔ s.Timely input := by
  rw [Sound, Timely]
  apply forall₂_congr
  intro secs _
  constructor
  · rintro ⟨enough, right⟩ nodeId state found
    apply (filter_iff recorded found _ (secs nodeId)).mp
    refine ⟨(underflows_iff recorded).mp enough nodeId state found, fun due => ?_⟩
    exact right nodeId ((mem_recoveryDue recorded).mpr ⟨state, found, due⟩)
  · intro timely
    have each (nodeId : NodeID) (state : SelfHealNodeState)
        (found : s.healing.manager.states.lookup nodeId = some state) :=
      (filter_iff recorded found s.healing.maxFailed (secs nodeId)).mpr (timely nodeId state found)
    constructor
    · exact (underflows_iff recorded).mpr fun nodeId state found => (each nodeId state found).1
    · intro nodeId selected
      obtain ⟨state, found, due⟩ := (mem_recoveryDue recorded).mp selected
      exact (each nodeId state found).2 due

end

/-- In every run whose files set no probe back, whatever the clocks do, the filter is
right in every check exactly when in every check the clock is neither behind the last
probe of a node nor close to one at time zero. -/
theorem recovery_sound_iff (checks : Bool) (localId : NodeID) (maxFailed : UInt32) (now : Int)
    (inputs : List ProbeInput)
    (current : Meets (step checks) Current (new localId maxFailed now) inputs) :
    Meets (step checks) Sound (new localId maxFailed now) inputs ↔
      Meets (step checks) Timely (new localId maxFailed now) inputs := by
  have initial : Recorded (new localId maxFailed now) := fun nodeId => .inl ⟨rfl, rfl⟩
  have recorded : Meets (step checks) (fun s _ => Recorded s) (new localId maxFailed now) inputs :=
    meets_guarded (fun held current stepped => Recorded.step held current stepped)
      (fun held _ => held) current initial
  exact meets_congr (fun held => sound_iff_timely held _) recorded

/-- The steps of the loop up to its first check, after half a minute. -/
def firstCheck (secs : UInt64) : List ProbeInput :=
  [.heal (.loop 0 fun _ => secs), .heal (.loop 0 fun _ => secs),
    .heal (.loop (seconds 30) fun _ => secs)]

/-- A file has a node that was probed at 100. The check at 130 selects it, so it is probed
again, and the check at 170 selects it once more. -/
def secondCheck : List ProbeInput :=
  .loadState [⟨idOf 1, 50, 0, true, 100⟩] :: firstCheck 130 ++
    [.heal (.loop (seconds 30) fun _ => 131), .heal (.loop (seconds 31) fun _ => 131),
      .heal (.loop (seconds 31) fun _ => 131), .heal (.loop (seconds 31) fun _ => 131),
      .heal (.loop (seconds 31) fun _ => 131), .heal (.loop (seconds 70) fun _ => 170),
      .heal (.loop (seconds 70) fun _ => 171)]

theorem recovery_sound_first :
    Meets (step false) Sound (new (idOf 0) 5 0) secondCheck ∧
      ((exec (step false) (new (idOf 0) 5 0) secondCheck).map fun s => s.probed (idOf 1)) =
        some (some 171) :=
  ⟨(recovery_sound_iff false (idOf 0) 5 0 secondCheck (by decide +kernel)).mpr (by decide +kernel),
    by decide +kernel⟩

/-- A file from a clock that was ahead: an offline node, last probed at 1000. -/
def fromTheFuture : List SelfHealNodeState := [⟨idOf 1, 900, 0, true, 1000⟩]

/-- The first check at 100 underflows, in either build. -/
theorem recovery_from_the_future :
    ¬ Meets (step false) Sound (new (idOf 0) 5 0) (.loadState fromTheFuture :: firstCheck 100) ∧
      ¬ Meets (step true) Sound (new (idOf 0) 5 0)
        (.loadState fromTheFuture :: firstCheck 100) := by
  constructor
  · intro sound
    have check := (((sound.2 _ rfl).2 _ rfl).2 _ rfl).1
    exact absurd (check (fun _ => 100) rfl).1 (by decide +kernel)
  · intro sound
    have check := (((sound.2 _ rfl).2 _ rfl).2 _ rfl).1
    exact absurd (check (fun _ => 100) rfl).1 (by decide +kernel)

end Probing

end LanLink.Vpn
