import LanLink.Core.Runs
import LanLink.Vpn.Codecs
import LanLink.Vpn.DhtSearch
import Mathlib.Data.List.Chain

/-! The status of the nodes that send heartbeats. The thread of the loop and the
handler of messages take the lock for each of their steps, and call back while they
hold it, so that a run is any order of these steps. Instants count nanoseconds. -/
namespace LanLink.Vpn
open Words Maps

structure NodeHeartbeatState where
  nodeId : NodeID
  lastHeartbeat : Nat
  missedCount : UInt32
  isOnline : Bool
  sendSequence : UInt64
  recvSequence : UInt64
  deriving DecidableEq

def NodeHeartbeatState.new (nodeId : NodeID) (now : Nat) : NodeHeartbeatState where
  nodeId := nodeId
  lastHeartbeat := now
  missedCount := 0
  isOnline := true
  sendSequence := 0
  recvSequence := 0

def NodeHeartbeatState.shouldBeOffline (state : NodeHeartbeatState) (threshold : UInt32) : Bool :=
  threshold ≤ state.missedCount

inductive HeartbeatEvent where
  | onNodeOnline (nodeId : NodeID)
  | onNodeOffline (nodeId : NodeID)
  | onHeartbeatSent (nodeId : NodeID) (sequence : UInt64)
  | onHeartbeatReceived (nodeId : NodeID) (sequence : UInt64)
  deriving DecidableEq

structure HeartbeatManager where
  interval : Nat
  offlineThreshold : UInt32
  nodes : Map NodeID NodeHeartbeatState

namespace HeartbeatManager

def addNode (m : HeartbeatManager) (nodeId : NodeID) (now : Nat) : HeartbeatManager :=
  if nodeId ∈ m.nodes then m else { m with nodes := m.nodes.insert nodeId (.new nodeId now) }

/-- A node that was not there before counts as online. -/
def handleHeartbeat (m : HeartbeatManager) (msg : HeartbeatMessage) (now : Nat) :
    HeartbeatManager × List HeartbeatEvent :=
  let state := (m.nodes.lookup msg.senderId).getD (.new msg.senderId now)
  let wasOffline := !state.isOnline
  let state := { state with
    lastHeartbeat := now, missedCount := 0, isOnline := true, recvSequence := msg.sequence }
  ({ m with nodes := m.nodes.insert msg.senderId state },
    (if wasOffline then [.onNodeOnline msg.senderId] else []) ++
      [.onHeartbeatReceived msg.senderId msg.sequence])

def setSendSequence (m : HeartbeatManager) (nodeId : NodeID) (sequence : UInt64) :
    HeartbeatManager :=
  match m.nodes.lookup nodeId with
  | some state =>
    { m with nodes := m.nodes.insert nodeId { state with sendSequence := sequence } }
  | none => m

end HeartbeatManager

/-- The check of one node. The count of an online node is below the threshold, so the
word does not overflow. -/
def NodeHeartbeatState.check (state : NodeHeartbeatState) (threshold : UInt32) (limit now : Nat) :
    NodeHeartbeatState × List HeartbeatEvent :=
  if state.isOnline = true ∧ limit < now - state.lastHeartbeat then
    let state := { state with missedCount := state.missedCount + 1 }
    if state.shouldBeOffline threshold then
      ({ state with isOnline := false }, [.onNodeOffline state.nodeId])
    else (state, [])
  else (state, [])

/-- Twice a duration; the seconds of a duration are a 64-bit word. -/
def doubled (interval : Nat) : Option Nat :=
  if interval * 2 < 2 ^ 64 * second then some (interval * 2) else none

/-- The check of all nodes. The interval is doubled for the first node that is online,
and aborts the loop if it is too long. -/
def HeartbeatManager.checkNodes (m : HeartbeatManager) (clock : NodeID → Nat) :
    Option (HeartbeatManager × List HeartbeatEvent) :=
  if m.nodes.entries.any fun e => e.2.isOnline then do
    let limit ← doubled m.interval
    let check (state : NodeHeartbeatState) :=
      state.check m.offlineThreshold limit (clock state.nodeId)
    return ({ m with nodes := mapValues (fun state => (check state).1) m.nodes },
      m.nodes.entries.flatMap fun e => (check e.2).2)
  else some (m, [])

/-- The manager, with the callbacks so far. -/
structure Monitor where
  manager : HeartbeatManager
  events : List HeartbeatEvent

inductive HeartbeatAction where
  | addNode (nodeId : NodeID) (now : Nat)
  | heartbeatSent (nodeId : NodeID) (sequence : UInt64)
  | setSendSequence (nodeId : NodeID) (sequence : UInt64)
  | checkNodes (clock : NodeID → Nat)
  | handleHeartbeat (msg : HeartbeatMessage) (now : Nat)

def Monitor.step (s : Monitor) : HeartbeatAction → Option Monitor
  | .addNode nodeId now => some { s with manager := s.manager.addNode nodeId now }
  | .heartbeatSent nodeId sequence =>
    some { s with events := s.events ++ [.onHeartbeatSent nodeId sequence] }
  | .setSendSequence nodeId sequence =>
    some { s with manager := s.manager.setSendSequence nodeId sequence }
  | .checkNodes clock => do
    let (manager, events) ← s.manager.checkNodes clock
    return ⟨manager, s.events ++ events⟩
  | .handleHeartbeat msg now =>
    let (manager, events) := s.manager.handleHeartbeat msg now
    some ⟨manager, s.events ++ events⟩

def Monitor.new (interval : Nat) (threshold : UInt32) : Monitor := ⟨⟨interval, threshold, ∅⟩, []⟩

/-- What a callback says about the status of a node. -/
def HeartbeatEvent.status (nodeId : NodeID) : HeartbeatEvent → Option Bool
  | .onNodeOnline other => if other = nodeId then some true else none
  | .onNodeOffline other => if other = nodeId then some false else none
  | _ => none

def statuses (nodeId : NodeID) (events : List HeartbeatEvent) : List Bool :=
  events.filterMap (HeartbeatEvent.status nodeId)

/-- The callbacks of each node alternate and the first says that it is offline, the
last one agrees with its state, and the count of an online node is below the threshold. -/
structure Tracked (s : Monitor) : Prop where
  first : ∀ nodeId, (statuses nodeId s.events).head? ≠ some true
  alternate : ∀ nodeId, (statuses nodeId s.events).IsChain (· ≠ ·)
  status : ∀ nodeId state, s.manager.nodes.lookup nodeId = some state →
    (state.isOnline = true ↔ (statuses nodeId s.events).getLast? = none ∨
      (statuses nodeId s.events).getLast? = some true)
  counted : ∀ nodeId state, s.manager.nodes.lookup nodeId = some state → state.isOnline = true →
    state.missedCount < s.manager.offlineThreshold

/-- One node beside its callbacks. It counts as online before the first of them, so
that each one differs from the status before it. -/
structure Monitored (threshold : UInt32) (nodeId : NodeID) (entry : Option NodeHeartbeatState)
    (calls : List Bool) : Prop where
  chain : (true :: calls).IsChain (· ≠ ·)
  absent : entry = none → calls = []
  named : ∀ state, entry = some state → state.nodeId = nodeId
  status : ∀ state, entry = some state → state.isOnline = calls.getLast?.getD true
  counted : ∀ state, entry = some state → state.isOnline = true → state.missedCount < threshold

section
variable {threshold : UInt32} {nodeId : NodeID} {calls : List Bool}

/-- A callback that changes the status. -/
theorem chain_append (chain : (true :: calls).IsChain (· ≠ ·))
    (changes : b ≠ calls.getLast?.getD true) : (true :: (calls ++ [b])).IsChain (· ≠ ·) := by
  rw [← List.cons_append]
  apply chain.append (List.isChain_singleton b)
  intro last present next alone
  rw [List.getLast?_cons, Option.mem_some] at present
  rw [List.head?_singleton, Option.mem_some] at alone
  subst present alone
  exact changes.symm

/-- A new node is online and has missed nothing. -/
theorem Monitored.new (monitored : Monitored threshold nodeId none calls) (positive : 0 < threshold)
    (now : Nat) : Monitored threshold nodeId (some (.new nodeId now)) calls := by
  have silent := monitored.absent rfl
  subst silent
  constructor
  · exact monitored.chain
  · intro missing
    cases missing
  · rintro state ⟨⟩
    rfl
  · rintro state ⟨⟩
    rfl
  · rintro state ⟨⟩ _
    exact positive

/-- A state of the same node with the same status and count. -/
theorem Monitored.replace (monitored : Monitored threshold nodeId (some state) calls)
    (named : after.nodeId = state.nodeId) (status : after.isOnline = state.isOnline)
    (count : after.missedCount = state.missedCount) :
    Monitored threshold nodeId (some after) calls := by
  constructor
  · exact monitored.chain
  · intro missing
    cases missing
  · rintro state ⟨⟩
    exact named.trans (monitored.named _ rfl)
  · rintro state ⟨⟩
    exact status.trans (monitored.status _ rfl)
  · rintro state ⟨⟩ online
    rw [count]
    exact monitored.counted _ rfl (status ▸ online)

/-- A heartbeat calls back exactly when the node was offline. -/
theorem Monitored.heartbeat {state after : NodeHeartbeatState}
    (monitored : Monitored threshold nodeId (some state) calls) (positive : 0 < threshold)
    (named : after.nodeId = state.nodeId) (online : after.isOnline = true)
    (count : after.missedCount = 0) :
    Monitored threshold nodeId (some after)
      (calls ++ if state.isOnline = true then [] else [true]) := by
  have status := monitored.status _ rfl
  have counted : after.missedCount < threshold := count ▸ positive
  have same : after.nodeId = nodeId := named.trans (monitored.named _ rfl)
  split
  · rename_i before
    rw [List.append_nil]
    refine ⟨monitored.chain, by simp, ?_, ?_, ?_⟩
    · rintro state ⟨⟩
      exact same
    · rintro state ⟨⟩
      rw [online, ← status, before]
    · rintro state ⟨⟩ _
      exact counted
  · rename_i before
    rw [Bool.not_eq_true] at before
    have changes : true ≠ calls.getLast?.getD true := by
      rw [← status, before]
      decide
    refine ⟨chain_append monitored.chain changes, by simp, ?_, ?_, ?_⟩
    · rintro state ⟨⟩
      exact same
    · rintro state ⟨⟩
      rw [List.getLast?_concat, online]
      rfl
    · rintro state ⟨⟩ _
      exact counted

/-- A check of an online node counts, or calls back and sets it offline. -/
theorem Monitored.check {state : NodeHeartbeatState}
    (monitored : Monitored threshold nodeId (some state) calls) (limit now : Nat) :
    Monitored threshold nodeId (some (state.check threshold limit now).1)
      (calls ++ statuses nodeId (state.check threshold limit now).2) := by
  have named := monitored.named _ rfl
  have status := monitored.status _ rfl
  rw [NodeHeartbeatState.check]
  split
  · rename_i late
    dsimp only
    split
    · have only : statuses nodeId [.onNodeOffline state.nodeId] = [false] := by
        simp [statuses, HeartbeatEvent.status, named]
      have changes : false ≠ calls.getLast?.getD true := by
        rw [← status, late.1]
        decide
      rw [only]
      refine ⟨chain_append monitored.chain changes, by simp, ?_, ?_, ?_⟩
      · rintro state ⟨⟩
        exact named
      · rintro state ⟨⟩
        rw [List.getLast?_concat]
        rfl
      · rintro state ⟨⟩ online
        cases online
    · rename_i below
      refine ⟨?_, by simp, ?_, ?_, ?_⟩
      · simpa [statuses] using monitored.chain
      · rintro state ⟨⟩
        exact named
      · rintro state ⟨⟩
        simpa [statuses] using status
      · rintro state ⟨⟩ _
        simpa [NodeHeartbeatState.shouldBeOffline] using below
  · simpa [statuses] using monitored

end

/-- Every node is monitored, also one that is not in the table. -/
def AllMonitored (s : Monitor) : Prop :=
  ∀ nodeId, Monitored s.manager.offlineThreshold nodeId (s.manager.nodes.lookup nodeId)
    (statuses nodeId s.events)

theorem statuses_append (nodeId : NodeID) (first second : List HeartbeatEvent) :
    statuses nodeId (first ++ second) = statuses nodeId first ++ statuses nodeId second :=
  List.filterMap_append

section
variable {s t : Monitor}

theorem AllMonitored.addNode (monitored : AllMonitored s) (positive : 0 < s.manager.offlineThreshold)
    (nodeId : NodeID) (now : Nat) :
    AllMonitored { s with manager := s.manager.addNode nodeId now } := by
  rw [HeartbeatManager.addNode]
  split
  · exact monitored
  · rename_i absent
    intro other
    by_cases same : other = nodeId
    · subst same
      have before := monitored other
      rw [AList.lookup_eq_none.mpr absent] at before
      dsimp only
      rw [AList.lookup_insert]
      exact before.new positive now
    · dsimp only
      rw [AList.lookup_insert_ne same]
      exact monitored other

theorem AllMonitored.setSendSequence (monitored : AllMonitored s) (nodeId : NodeID) (sequence : UInt64) :
    AllMonitored { s with manager := s.manager.setSendSequence nodeId sequence } := by
  rw [HeartbeatManager.setSendSequence]
  split
  · rename_i state found
    intro other
    by_cases same : other = nodeId
    · subst same
      have before := monitored other
      rw [found] at before
      dsimp only
      rw [AList.lookup_insert]
      exact before.replace rfl rfl rfl
    · dsimp only
      rw [AList.lookup_insert_ne same]
      exact monitored other
  · exact monitored

/-- The messages of a node are about no other one. -/
theorem AllMonitored.handleHeartbeat (monitored : AllMonitored s)
    (positive : 0 < s.manager.offlineThreshold) (msg : HeartbeatMessage) (now : Nat) :
    AllMonitored ⟨(s.manager.handleHeartbeat msg now).1,
      s.events ++ (s.manager.handleHeartbeat msg now).2⟩ := by
  rw [HeartbeatManager.handleHeartbeat]
  dsimp only
  generalize present : (s.manager.nodes.lookup msg.senderId).getD (.new msg.senderId now) = state
  intro other
  dsimp only
  rw [statuses_append, statuses_append]
  by_cases same : other = msg.senderId
  · have before : Monitored s.manager.offlineThreshold other (some state) (statuses other s.events) := by
      have known := monitored other
      rw [same] at known ⊢
      cases found : s.manager.nodes.lookup msg.senderId with
      | none =>
        rw [found] at known present
        rw [← present]
        exact known.new positive now
      | some old =>
        rw [found] at known present
        rw [← present]
        exact known
    have calls : statuses other (if (!state.isOnline) = true then [.onNodeOnline msg.senderId] else []) ++
        statuses other [.onHeartbeatReceived msg.senderId msg.sequence] =
          if state.isOnline = true then [] else [true] := by
      cases state.isOnline with
      | true => simp [statuses, HeartbeatEvent.status]
      | false => simp [statuses, HeartbeatEvent.status, same]
    rw [calls, same, AList.lookup_insert]
    exact (same ▸ before).heartbeat positive rfl rfl rfl
  · have silent : statuses other (if (!state.isOnline) = true then [.onNodeOnline msg.senderId] else []) ++
        statuses other [.onHeartbeatReceived msg.senderId msg.sequence] = [] := by
      have different : msg.senderId ≠ other := fun equal => same equal.symm
      cases state.isOnline with
      | true => simp [statuses, HeartbeatEvent.status]
      | false => simp [statuses, HeartbeatEvent.status, different]
    rw [silent, List.append_nil, AList.lookup_insert_ne same]
    exact monitored other

theorem check_silent {state : NodeHeartbeatState} (other : state.nodeId ≠ nodeId)
    (threshold : UInt32) (limit now : Nat) :
    statuses nodeId (state.check threshold limit now).2 = [] := by
  rw [NodeHeartbeatState.check]
  split
  · dsimp only
    split
    · simp [statuses, HeartbeatEvent.status, other]
    · rfl
  · rfl

/-- Each node is checked once, whatever the order is. -/
theorem AllMonitored.checkNodes (monitored : AllMonitored s)
    (checked : s.manager.checkNodes clock = some (manager, events)) :
    AllMonitored ⟨manager, s.events ++ events⟩ ∧
      manager.offlineThreshold = s.manager.offlineThreshold := by
  rw [HeartbeatManager.checkNodes] at checked
  split at checked
  · obtain ⟨limit, -, done⟩ := Option.bind_eq_some_iff.mp checked
    cases done
    refine ⟨fun nodeId => ?_, rfl⟩
    dsimp only
    have calls : statuses nodeId (s.manager.nodes.entries.flatMap fun e =>
        (e.2.check s.manager.offlineThreshold limit (clock e.2.nodeId)).2) =
          (s.manager.nodes.lookup nodeId).elim [] fun state => statuses nodeId
            (state.check s.manager.offlineThreshold limit (clock state.nodeId)).2 := by
      rw [statuses, List.filterMap_flatMap]
      apply flatMap_entries (f := fun (_ : NodeID) (state : NodeHeartbeatState) => statuses nodeId
        (state.check s.manager.offlineThreshold limit (clock state.nodeId)).2)
      intro other state different found
      have named := (monitored other).named state found
      exact check_silent (named ▸ different) _ _ _
    rw [statuses_append, calls, lookup_mapValues]
    have before := monitored nodeId
    cases found : s.manager.nodes.lookup nodeId with
    | none =>
      rw [found] at before
      simpa using before
    | some state =>
      rw [found] at before
      exact before.check limit (clock state.nodeId)
  · cases checked
    rw [List.append_nil]
    exact ⟨monitored, rfl⟩

/-- The threshold stays, and every node stays monitored. -/
theorem AllMonitored.step (monitored : AllMonitored s) (positive : 0 < s.manager.offlineThreshold)
    (stepped : s.step action = some t) : AllMonitored t ∧ 0 < t.manager.offlineThreshold := by
  cases action with
  | addNode nodeId now =>
    cases stepped
    have same : (s.manager.addNode nodeId now).offlineThreshold = s.manager.offlineThreshold := by
      rw [HeartbeatManager.addNode]
      split
      · rfl
      · rfl
    exact ⟨monitored.addNode positive nodeId now, same ▸ positive⟩
  | heartbeatSent nodeId sequence =>
    cases stepped
    refine ⟨fun other => ?_, positive⟩
    have silent : statuses other [.onHeartbeatSent nodeId sequence] = [] := rfl
    dsimp only
    rw [statuses_append, silent, List.append_nil]
    exact monitored other
  | setSendSequence nodeId sequence =>
    cases stepped
    have same : (s.manager.setSendSequence nodeId sequence).offlineThreshold =
        s.manager.offlineThreshold := by
      rw [HeartbeatManager.setSendSequence]
      split
      · rfl
      · rfl
    exact ⟨monitored.setSendSequence nodeId sequence, same ▸ positive⟩
  | checkNodes clock =>
    obtain ⟨⟨manager, events⟩, checked, done⟩ := Option.bind_eq_some_iff.mp stepped
    cases done
    obtain ⟨kept, same⟩ := monitored.checkNodes checked
    exact ⟨kept, same ▸ positive⟩
  | handleHeartbeat msg now =>
    cases stepped
    exact ⟨monitored.handleHeartbeat positive msg now, positive⟩

theorem AllMonitored.tracked (monitored : AllMonitored s) : Tracked s := by
  constructor
  · intro nodeId first
    obtain ⟨differs, -⟩ := List.isChain_cons.mp (monitored nodeId).chain
    exact differs true first rfl
  · intro nodeId
    exact (List.isChain_cons.mp (monitored nodeId).chain).2
  · intro nodeId state found
    rw [(monitored nodeId).status state found]
    cases (statuses nodeId s.events).getLast? with
    | none => simp
    | some last => simp
  · intro nodeId state found
    exact (monitored nodeId).counted state found

end

theorem allMonitored_new (interval : Nat) (threshold : UInt32) :
    AllMonitored (.new interval threshold) := by
  intro nodeId
  constructor
  · exact List.isChain_singleton true
  · intro _
    rfl
  · intro state found
    cases found
  · intro state found
    cases found
  · intro state found
    cases found

/-- In every order of the steps of the loop and the handler, and whenever the checks
happen, the callbacks of every node alternate and agree with its state. -/
theorem heartbeats_tracked (interval : Nat) (threshold : UInt32) (positive : 1 ≤ threshold)
    (actions : List HeartbeatAction) :
    Runs.Always Monitor.step Tracked (.new interval threshold) actions := by
  have every : Runs.Meets Monitor.step (fun _ _ => True) (.new interval threshold) actions :=
    Runs.meets_of_forall fun _ _ _ => trivial
  have above : 0 < threshold := UInt32.lt_of_lt_of_le (by decide) positive
  exact Runs.always_of_meets
    (I := fun s => AllMonitored s ∧ 0 < s.manager.offlineThreshold)
    (fun held _ stepped => held.1.step held.2 stepped) (fun _ held => held.1.tracked) every
    ⟨allMonitored_new interval threshold, above⟩

/-- A node that is late three times and then sends a heartbeat. -/
def lateBeats : List HeartbeatAction :=
  [.addNode (idOf 1) 0, .checkNodes fun _ => 11 * second, .checkNodes fun _ => 16 * second,
    .checkNodes fun _ => 21 * second, .handleHeartbeat ⟨.request, idOf 1, 0, 7⟩ (22 * second)]

/-- It goes offline at the third check, and comes back. -/
theorem heartbeats_tracked_three : (1 : UInt32) ≤ 3 ∧
    Runs.Always Monitor.step Tracked (.new (5 * second) 3) lateBeats ∧
    ((Runs.exec Monitor.step (.new (5 * second) 3) (lateBeats.take 3)).map fun s =>
      statuses (idOf 1) s.events) = some [] ∧
    ((Runs.exec Monitor.step (.new (5 * second) 3) (lateBeats.take 4)).map fun s =>
      statuses (idOf 1) s.events) = some [false] ∧
    ((Runs.exec Monitor.step (.new (5 * second) 3) lateBeats).map fun s =>
      statuses (idOf 1) s.events) = some [false, true] :=
  ⟨by decide, heartbeats_tracked _ 3 (by decide) _, by decide +kernel, by decide +kernel,
    by decide +kernel⟩

end LanLink.Vpn
