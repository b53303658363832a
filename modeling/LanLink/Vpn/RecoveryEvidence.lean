import LanLink.Vpn.FailedHops
import LanLink.Vpn.SelfHealLoop

/-! Recovery and its evidence: which nodes come back without a sign of life. -/
namespace LanLink.Vpn
open Words Maps Runs

namespace SelfHealManager
variable {h : SelfHealManager} {nodeId other : NodeID}

theorem isOffline_insert (h : SelfHealManager) (nodeId other : NodeID)
    (state : SelfHealNodeState) :
    isOffline { h with states := h.states.insert nodeId state } other =
      if other = nodeId then state.isOffline else h.isOffline other := by
  rw [isOffline]
  split
  case isTrue same => rw [same, AList.lookup_insert, Option.any_some]
  case isFalse different => rw [AList.lookup_insert_ne different, isOffline]

/-- A node that becomes known counts as it did before. -/
@[simp] theorem isOffline_addNode (h : SelfHealManager) (nodeId : NodeID) (nowSecs : UInt64)
    (other : NodeID) : (h.addNode nodeId nowSecs).isOffline other = h.isOffline other := by
  rw [addNode]
  split
  case isTrue => rfl
  case isFalse unknown =>
    rw [isOffline_insert]
    split
    case isTrue same =>
      subst other
      rw [isOffline, AList.lookup_eq_none.mpr unknown]
      rfl
    case isFalse => rfl

theorem isOffline_updateState_ne (different : other ≠ nodeId) (nowSecs : UInt64)
    (change : SelfHealNodeState → SelfHealNodeState) :
    (h.updateState nodeId nowSecs change).isOffline other = h.isOffline other := by
  rw [updateState, isOffline_insert, if_neg different]

theorem isOffline_changeState_ne (different : other ≠ nodeId)
    (change : SelfHealNodeState → SelfHealNodeState) :
    (h.changeState nodeId change).isOffline other = h.isOffline other := by
  rw [changeState]
  split
  · rw [isOffline_insert, if_neg different]
  · rfl

/-- A change that leaves the mark alone. -/
theorem isOffline_changeState {change : SelfHealNodeState → SelfHealNodeState}
    (keeps : ∀ state, (change state).isOffline = state.isOffline) (other : NodeID) :
    (h.changeState nodeId change).isOffline other = h.isOffline other := by
  by_cases same : other = nodeId
  · rw [changeState]
    split
    case h_1 state found =>
      rw [isOffline_insert, if_pos same, keeps, same, isOffline, found, Option.any_some]
    case h_2 => rfl
  · exact isOffline_changeState_ne same change

theorem isOffline_changeState_markOnline (h : SelfHealManager) (nodeId : NodeID)
    (nowSecs : UInt64) :
    (h.changeState nodeId (.markOnline · nowSecs)).isOffline nodeId = false := by
  rw [changeState]
  split
  case h_1 => rw [isOffline_insert, if_pos rfl, SelfHealNodeState.markOnline]
  case h_2 missing => rw [isOffline, missing, Option.any_none]

@[simp] theorem healPongs_addNode (h : SelfHealManager) (nodeId : NodeID) (nowSecs : UInt64) :
    (h.addNode nodeId nowSecs).healPongs = h.healPongs := by
  rw [addNode]
  split <;> rfl

@[simp] theorem healPongs_changeState (h : SelfHealManager) (nodeId : NodeID)
    (change : SelfHealNodeState → SelfHealNodeState) :
    (h.changeState nodeId change).healPongs = h.healPongs := by
  rw [changeState]
  split <;> rfl

/-- A handler concerns one node: no other one is marked, and only this one recovers. -/
structure Concerns (nodeId : NodeID) (h : SelfHealManager)
    (result : SelfHealManager × List HealEvent) : Prop where
  others : ∀ other, other ≠ nodeId → result.1.isOffline other = h.isOffline other
  pongs : result.1.healPongs = h.healPongs
  recovers : ∀ other timestamp, .nodeRecovered other timestamp ∈ result.2 → other = nodeId

theorem Concerns.of_same {before : SelfHealManager} (concerns : Concerns nodeId before result)
    (marks : ∀ other, other ≠ nodeId → before.isOffline other = h.isOffline other)
    (pongs : before.healPongs = h.healPongs) : Concerns nodeId h result where
  others other different := (concerns.others other different).trans (marks other different)
  pongs := concerns.pongs.trans pongs
  recovers := concerns.recovers

theorem onNodeRecovered_concerns (h : SelfHealManager) (nodeId : NodeID) (now : Int)
    (nowSecs : UInt64) : Concerns nodeId h (h.onNodeRecovered nodeId now nowSecs) where
  others other different :=
    isOffline_updateState_ne (h := h) different nowSecs (.markOnline · nowSecs)
  pongs := rfl
  recovers other timestamp member := by
    cases List.mem_singleton.mp member
    rfl

theorem onNodeOnline_concerns (h : SelfHealManager) (nodeId : NodeID) (now : Int)
    (nowSecs : UInt64) : Concerns nodeId h (h.onNodeOnline nodeId now nowSecs) := by
  rw [onNodeOnline]
  split
  · apply (onNodeRecovered_concerns _ nodeId now nowSecs).of_same
    · intro other _
      exact isOffline_addNode h nodeId nowSecs other
    · exact healPongs_addNode h nodeId nowSecs
  · exact ⟨by simp, by simp, by simp⟩

theorem onHeartbeatReceived_concerns (h : SelfHealManager) (nodeId : NodeID) (now : Int)
    (nowSecs : UInt64) : Concerns nodeId h (h.onHeartbeatReceived nodeId now nowSecs) := by
  rw [onHeartbeatReceived]
  split
  · apply (onNodeRecovered_concerns _ nodeId now nowSecs).of_same
    · intro other different
      rw [isOffline_changeState_ne different, isOffline_addNode]
    · rw [healPongs_changeState, healPongs_addNode]
  · refine ⟨fun other different => ?_, by simp, by simp⟩
    rw [isOffline_changeState_ne different, isOffline_addNode]

theorem partitionSync_concerns (h : SelfHealManager) {msg : SelfHealMessage}
    (sync : msg.msgType = .partitionSync) (now : Int) (nowSecs : UInt64) :
    Concerns msg.senderId h
      ((h.processHealMessage msg now nowSecs).1, (h.processHealMessage msg now nowSecs).2.2) := by
  have known : Concerns msg.senderId h (h.addNode msg.senderId nowSecs, []) :=
    ⟨by simp, by simp, by simp⟩
  rw [processHealMessage, sync]
  dsimp only
  split
  · split
    · apply (onNodeRecovered_concerns _ msg.senderId now nowSecs).of_same
      · intro other _
        exact isOffline_addNode h msg.senderId nowSecs other
      · exact healPongs_addNode h msg.senderId nowSecs
    · exact known
  · exact known

end SelfHealManager

theorem restored_no_recovery (m : MultihopManager) (target : NodeID) (now : Int)
    (other : NodeID) (timestamp : UInt64) :
    .nodeRecovered other timestamp ∉ restored m target now := by
  rw [restored]
  split <;> simp

theorem healRoute_no_recovery (dht : Option DhtManager) (nodeId : NodeID) (m : MultihopManager)
    (target : NodeID) (now : Int) (other : NodeID) (timestamp : UInt64) :
    .nodeRecovered other timestamp ∉ (healRoute dht nodeId m target now).2 := by
  simp only [healRoute]
  split
  · simpa using restored_no_recovery _ target now other timestamp
  · split
    · split <;> simp
    · simp

theorem foldl_healRoute_no_recovery (dht : Option DhtManager) (nodeId : NodeID)
    (clock : NodeID → Int) (targets : List NodeID) (other : NodeID) (timestamp : UInt64)
    (m : MultihopManager) {events : List HealEvent}
    (before : .nodeRecovered other timestamp ∉ events) :
    .nodeRecovered other timestamp ∉ (targets.foldl (fun (m, events) target =>
      let (m, emitted) := healRoute dht nodeId m target (clock target)
      (m, events ++ emitted)) (m, events)).2 := by
  induction targets generalizing m events with
  | nil => exact before
  | cons target rest ih =>
    apply ih
    rw [List.mem_append, not_or]
    exact ⟨before, healRoute_no_recovery dht nodeId m target (clock target) other timestamp⟩

/-- A table of nodes that is not empty has a next hop for every node but the local one. -/
theorem MultihopManager.exists_discovers (m : MultihopManager) (target : NodeID) :
    (∃ hop, m.Discovers target hop) ↔
      ¬ (target = m.localId ∨ ∀ dht ∈ m.dht, dht.allNodes = []) := by
  rw [not_or]
  constructor
  · rintro ⟨hop, foreign, dht, bound, stored, -⟩
    refine ⟨foreign, fun empty => ?_⟩
    rw [empty dht bound] at stored
    cases stored
  · rintro ⟨foreign, full⟩
    rw [not_forall] at full
    obtain ⟨dht, full⟩ := full
    rw [Classical.not_imp] at full
    obtain ⟨bound, full⟩ := full
    cases sorted : dht.byDistance target with
    | nil =>
      rw [DhtManager.byDistance, ← List.length_eq_zero_iff, List.length_mergeSort,
        List.length_eq_zero_iff] at sorted
      exact absurd sorted full
    | cons node rest =>
      exact ⟨node.1, foreign, dht, bound, nearest_of_byDistance sorted⟩

namespace SelfHealManager
variable {h : SelfHealManager} {nodeId other : NodeID}

theorem onNodeOffline_isOffline (h : SelfHealManager) (nodeId : NodeID) (clock : NodeID → Int)
    (nowSecs : UInt64) (other : NodeID) :
    (h.onNodeOffline nodeId clock nowSecs).1.isOffline other =
      if other = nodeId then true else h.isOffline other := by
  have marked : (h.updateState nodeId nowSecs .markOffline).isOffline other =
      if other = nodeId then true else h.isOffline other := isOffline_insert h nodeId other _
  rw [onNodeOffline]
  dsimp only
  split
  · exact marked
  · exact marked

theorem onNodeOffline_healPongs (h : SelfHealManager) (nodeId : NodeID) (clock : NodeID → Int)
    (nowSecs : UInt64) : (h.onNodeOffline nodeId clock nowSecs).1.healPongs = h.healPongs := by
  rw [onNodeOffline]
  dsimp only
  split <;> rfl

theorem onNodeOffline_no_recovery (h : SelfHealManager) (nodeId : NodeID) (clock : NodeID → Int)
    (nowSecs : UInt64) (other : NodeID) (timestamp : UInt64) :
    .nodeRecovered other timestamp ∉ (h.onNodeOffline nodeId clock nowSecs).2 := by
  rw [onNodeOffline]
  dsimp only
  split
  · simp
  · rw [List.mem_append, not_or]
    refine ⟨foldl_healRoute_no_recovery _ nodeId clock _ other timestamp _ ?_, by simp⟩
    exact List.not_mem_nil

theorem handlePathFailure_same (h : SelfHealManager) (target : NodeID) (now : Int) :
    (h.handlePathFailure target now).1.states = h.states ∧
    (h.handlePathFailure target now).1.healPongs = h.healPongs ∧
    ∀ other timestamp, .nodeRecovered other timestamp ∉ (h.handlePathFailure target now).2 := by
  have quiet := restored_no_recovery
  rw [handlePathFailure]
  split
  · exact ⟨rfl, rfl, by simp⟩
  · dsimp only
    split
    · exact ⟨rfl, rfl, quiet _ target now⟩
    · split
      · split
        · exact ⟨rfl, rfl, quiet _ target now⟩
        · exact ⟨rfl, rfl, by simp⟩
      · exact ⟨rfl, rfl, by simp⟩

/-- A lookup for the node finds no next hop: a manager is not bound, the node is the
local one, or the table of nodes is empty. -/
def Unfindable (h : SelfHealManager) (nodeId : NodeID) : Prop :=
  h.dht.isNone ∨ ∀ m ∈ h.multihop, nodeId = m.localId ∨ ∀ dht ∈ m.dht, dht.allNodes = []

instance (h : SelfHealManager) (nodeId : NodeID) : Decidable (h.Unfindable nodeId) :=
  inferInstanceAs (Decidable (_ ∨ _))

theorem probe_eq_none (h : SelfHealManager) (nodeId : NodeID) (now : Int) :
    h.probe nodeId now = none ↔ h.Unfindable nodeId := by
  rw [probe, Unfindable]
  cases h.dht with
  | none => simp
  | some _ =>
    cases h.multihop with
    | none => simp
    | some m =>
      have findable := MultihopManager.exists_discovers m nodeId
      simp only [Option.isNone_some, Bool.false_eq_true, false_or, Option.mem_some_iff, forall_eq']
      rcases discoverRoute_spec m nodeId now with ⟨e, failed, never⟩ | ⟨entry, found, -, -, hop⟩
      · rw [failed]
        apply iff_of_true rfl
        by_contra full
        obtain ⟨hop, found⟩ := findable.mpr full
        exact never hop found
      · rw [found]
        exact iff_of_false (Option.some_ne_none _) (findable.mp ⟨_, hop⟩)

theorem probe_same (probed : h.probe nodeId now = some after) :
    after.states = h.states ∧ after.healPongs = h.healPongs := by
  rw [probe] at probed
  split at probed
  · split at probed
    · cases Option.some.inj probed
      exact ⟨rfl, rfl⟩
    · cases probed
  · cases probed

end SelfHealManager

/-- The node that an operation is about to bring back or to announce. -/
def HealOp.returning : HealOp → Option NodeID
  | .checkPong nodeId | .markPong nodeId | .announce nodeId | .markProbed nodeId => some nodeId
  | .takePongs | .rebuild _ | .recoveryCheck | .recordAttempt _ | .probe _ | .checked _ => none

namespace Healing

/-- A silent node is marked offline, and the last step did not say otherwise. -/
def Evidenced (s : Healing) : Prop :=
  ∀ nodeId ∈ s.silent, s.manager.isOffline nodeId = true ∧
    ∀ timestamp, .nodeRecovered nodeId timestamp ∉ s.events

/-- The node that the loop is about to look up. -/
def probing (s : Healing) : Option NodeID :=
  match s.todo with
  | .probe nodeId :: _ => some nodeId
  | _ => none

/-- A node goes offline while no pong of it waits and the loop is not bringing it back;
the lookup for a silent node finds nothing. -/
def Unmistaken (s : Healing) : HealInput → Prop
  | .nodeOffline nodeId _ _ =>
    nodeId ∉ s.manager.healPongs ∧ ∀ op ∈ s.todo, op.returning ≠ some nodeId
  | .loop _ _ => ∀ nodeId ∈ s.probing, nodeId ∈ s.silent → s.manager.Unfindable nodeId
  | .nodeOnline _ _ _ | .heartbeatReceived _ _ _ | .healMessage _ _ _ | .pathFailure _ _
  | .network _ _ => True

instance (s : Healing) (input : HealInput) : Decidable (Unmistaken s input) :=
  match input with
  | .nodeOffline _ _ _ => inferInstanceAs (Decidable (_ ∧ _))
  | .loop _ _ => Option.decidableForallMem s.probing
  | .nodeOnline _ _ _ | .heartbeatReceived _ _ _ | .healMessage _ _ _ | .pathFailure _ _
  | .network _ _ => isTrue trivial

/-- Nothing is under way that would bring a silent node back. -/
structure Quiet (s : Healing) : Prop where
  offline : ∀ nodeId ∈ s.silent, s.manager.isOffline nodeId = true
  unheard : ∀ nodeId ∈ s.silent, nodeId ∉ s.manager.healPongs
  away : ∀ nodeId ∈ s.silent, ∀ op ∈ s.todo, op.returning ≠ some nodeId
  unannounced : ∀ nodeId ∈ s.silent, ∀ timestamp, .nodeRecovered nodeId timestamp ∉ s.events

variable {s : Healing}

/-- What keeps the marks and the pongs of silent nodes, and says nothing new. -/
theorem Quiet.keep (quiet : Quiet s) {next : Healing} (silent : next.silent ⊆ s.silent)
    (marks : ∀ nodeId ∈ next.silent, next.manager.isOffline nodeId = s.manager.isOffline nodeId)
    (pongs : ∀ nodeId ∈ next.silent, nodeId ∈ next.manager.healPongs →
      nodeId ∈ s.manager.healPongs)
    (todo : ∀ nodeId ∈ next.silent, ∀ op ∈ next.todo, op.returning = some nodeId →
      op ∈ s.todo ∨ nodeId ∈ s.manager.healPongs)
    (events : ∀ nodeId ∈ next.silent, ∀ timestamp,
      .nodeRecovered nodeId timestamp ∉ next.events) : Quiet next where
  offline nodeId member := (marks nodeId member).trans (quiet.offline nodeId (silent member))
  unheard nodeId member waiting :=
    quiet.unheard nodeId (silent member) (pongs nodeId member waiting)
  away nodeId member op there back := by
    rcases todo nodeId member op there back with before | waiting
    · exact quiet.away nodeId (silent member) op before back
    · exact quiet.unheard nodeId (silent member) waiting
  unannounced := events

/-- A sign of a node ends its silence and concerns no other node. -/
theorem Quiet.sign (quiet : Quiet s) (concerns : SelfHealManager.Concerns nodeId s.manager result) :
    Quiet (s.handled result (s.without nodeId)) := by
  have other {x : NodeID} (member : x ∈ s.without nodeId) : x ≠ nodeId :=
    of_decide_eq_true (List.mem_filter.mp member).2
  apply quiet.keep List.filter_sublist.subset
  · intro x member
    exact concerns.others x (other member)
  · intro x _ waiting
    exact concerns.pongs ▸ waiting
  · intro x _ op there _
    exact .inl there
  · intro x member timestamp announced
    exact other member (concerns.recovers x timestamp announced)

theorem Quiet.offline_notice (quiet : Quiet s) (clock : NodeID → Int) (nowSecs : UInt64)
    (unheard : nodeId ∉ s.manager.healPongs)
    (away : ∀ op ∈ s.todo, op.returning ≠ some nodeId) :
    Quiet (s.handled (s.manager.onNodeOffline nodeId clock nowSecs) (nodeId :: s.silent)) := by
  have marks := SelfHealManager.onNodeOffline_isOffline s.manager nodeId clock nowSecs
  have pongs := SelfHealManager.onNodeOffline_healPongs s.manager nodeId clock nowSecs
  constructor
  · intro x member
    rw [handled, marks]
    split
    case isTrue => rfl
    case isFalse other =>
      exact quiet.offline x ((List.mem_cons.mp member).resolve_left other)
  · intro x member
    rw [handled, pongs]
    rcases List.mem_cons.mp member with rfl | old
    · exact unheard
    · exact quiet.unheard x old
  · intro x member
    rcases List.mem_cons.mp member with rfl | old
    · exact away
    · exact quiet.away x old
  · intro x _ timestamp
    exact SelfHealManager.onNodeOffline_no_recovery s.manager nodeId clock nowSecs x timestamp

theorem Quiet.message (quiet : Quiet s) (msg : SelfHealMessage) (now : Int) (nowSecs : UInt64) :
    Quiet (s.next (.healMessage msg now nowSecs)) := by
  rw [next]
  cases type : msg.msgType with
  | healPing =>
    have same : s.manager.processHealMessage msg now nowSecs = (s.manager, some
        ⟨.healPong, s.manager.localId, nowSecs, msg.senderId.toList⟩, []) := by
      rw [SelfHealManager.processHealMessage, type]
    rw [same]
    exact quiet.keep (List.Subset.refl _) (fun _ _ => rfl) (fun _ _ waiting => waiting)
      (fun _ _ _ there _ => .inl there) (fun _ _ _ => List.not_mem_nil)
  | healPong =>
    have buffered : s.manager.processHealMessage msg now nowSecs =
        (s.manager.handleHealPong msg.senderId, none, []) := by
      rw [SelfHealManager.processHealMessage, type]
    rw [buffered]
    refine quiet.keep List.filter_sublist.subset (fun _ _ => rfl) ?_ ?_ ?_
    · intro x member waiting
      have other : x ≠ msg.senderId := of_decide_eq_true (List.mem_filter.mp member).2
      rcases List.mem_append.mp waiting with before | new
      · exact before
      · exact absurd (List.mem_singleton.mp new) other
    · intro x _ op there _
      exact .inl there
    · intro x _ timestamp
      exact List.not_mem_nil
  | partitionSync => exact quiet.sign (SelfHealManager.partitionSync_concerns _ type now nowSecs)

/-- A silent node is not the one that the next operation brings back. -/
theorem Quiet.other (quiet : Quiet s) (todo : s.todo = op :: rest)
    (back : op.returning = some nodeId) (member : x ∈ s.silent) : x ≠ nodeId := by
  rintro rfl
  exact quiet.away x member op (todo ▸ List.mem_cons_self) back

/-- The loop goes on: the operation is replaced by others, which bring back no silent node
but one whose pong was waiting. -/
theorem Quiet.advance (quiet : Quiet s) (todo : s.todo = op :: rest) (new : List HealOp)
    {next : Healing} (silent : next.silent = s.silent) (ops : next.todo = new ++ rest)
    (harmless : ∀ x ∈ s.silent, ∀ later ∈ new, later.returning = some x →
      x ∈ s.manager.healPongs)
    (marks : ∀ x ∈ s.silent, next.manager.isOffline x = s.manager.isOffline x)
    (pongs : next.manager.healPongs ⊆ s.manager.healPongs)
    (events : ∀ x ∈ s.silent, ∀ timestamp, .nodeRecovered x timestamp ∉ next.events) :
    Quiet next := by
  apply quiet.keep
  · rw [silent]
    exact List.Subset.refl _
  · rwa [silent]
  · intro x _ waiting
    exact pongs waiting
  · intro x member later there back
    rw [silent] at member
    rw [ops] at there
    rcases List.mem_append.mp there with added | old
    · exact .inr (harmless x member later added back)
    · exact .inl (todo ▸ List.mem_cons_of_mem op old)
  · rwa [silent]

/-- An operation that adds no other and announces nothing. -/
theorem Quiet.advance_silently (quiet : Quiet s) (todo : s.todo = op :: rest) {next : Healing}
    (silent : next.silent = s.silent) (ops : next.todo = rest) (events : next.events = [])
    (marks : ∀ x ∈ s.silent, next.manager.isOffline x = s.manager.isOffline x)
    (pongs : next.manager.healPongs ⊆ s.manager.healPongs) : Quiet next := by
  refine quiet.advance todo [] silent ops ?_ marks pongs ?_
  · intro x _ later there
    cases there
  · rw [events]
    intro x _ timestamp
    exact List.not_mem_nil

theorem Quiet.takePongs (quiet : Quiet s) (todo : s.todo = .takePongs :: rest) (now : Int)
    (secs : NodeID → UInt64) : Quiet (s.runOp rest now secs .takePongs) := by
  refine quiet.advance todo (s.manager.healPongs.map HealOp.checkPong) rfl rfl ?_
    (fun _ _ => rfl) (List.nil_subset _) (fun _ _ _ => List.not_mem_nil)
  intro x _ later added back
  obtain ⟨sender, waiting, rfl⟩ := List.mem_map.mp added
  cases back
  exact waiting

theorem Quiet.checkPong (quiet : Quiet s) (todo : s.todo = .checkPong sender :: rest) (now : Int)
    (secs : NodeID → UInt64) : Quiet (s.runOp rest now secs (.checkPong sender)) := by
  rw [Healing.runOp]
  split
  · refine quiet.advance todo [.markPong sender, .rebuild sender, .announce sender] rfl rfl ?_
      (fun _ _ => rfl) (List.Subset.refl _) (fun _ _ _ => List.not_mem_nil)
    intro x member later added back
    have different : x ≠ sender := quiet.other todo rfl member
    simp only [List.mem_cons, List.not_mem_nil, or_false] at added
    rcases added with rfl | rfl | rfl
    · exact absurd (Option.some.inj back).symm different
    · cases back
    · exact absurd (Option.some.inj back).symm different
  · exact quiet.advance_silently todo rfl rfl rfl (fun _ _ => rfl) (List.Subset.refl _)

theorem Quiet.recoveryCheck (quiet : Quiet s) (todo : s.todo = .recoveryCheck :: rest) (now : Int)
    (secs : NodeID → UInt64) : Quiet (s.runOp rest now secs .recoveryCheck) := by
  rw [Healing.runOp]
  split
  · refine quiet.advance todo ((s.manager.recoveryDue s.maxFailed secs).flatMap
      (fun nodeId => [.recordAttempt nodeId, .probe nodeId]) ++ [.checked now]) rfl (by simp) ?_
      (fun _ _ => rfl) (List.Subset.refl _) (fun _ _ _ => List.not_mem_nil)
    intro x _ later added back
    rcases List.mem_append.mp added with tried | last
    · obtain ⟨nodeId, -, tried⟩ := List.mem_flatMap.mp tried
      rcases List.mem_pair.mp tried with rfl | rfl
      · cases back
      · cases back
    · cases List.mem_singleton.mp last
      cases back
  · exact quiet.advance_silently todo rfl rfl rfl (fun _ _ => rfl) (List.Subset.refl _)

/-- Only a lookup that finds nothing leaves a silent node alone. -/
theorem Quiet.probe (quiet : Quiet s) (todo : s.todo = .probe nodeId :: rest)
    (unfindable : nodeId ∈ s.silent → s.manager.Unfindable nodeId) (now : Int)
    (secs : NodeID → UInt64) : Quiet (s.runOp rest now secs (.probe nodeId)) := by
  rw [Healing.runOp]
  split
  case h_1 manager probed =>
    obtain ⟨states, pongs⟩ := SelfHealManager.probe_same probed
    have known : nodeId ∉ s.silent := by
      intro member
      rw [(SelfHealManager.probe_eq_none s.manager nodeId now).mpr (unfindable member)] at probed
      cases probed
    refine quiet.advance todo [.markProbed nodeId, .announce nodeId] rfl rfl ?_ ?_
      (pongs ▸ List.Subset.refl _) (fun _ _ _ => List.not_mem_nil)
    · intro x member later added back
      rcases List.mem_pair.mp added with rfl | rfl
      · exact absurd (Option.some.inj back ▸ member) known
      · exact absurd (Option.some.inj back ▸ member) known
    · intro x _
      rw [SelfHealManager.isOffline, states, SelfHealManager.isOffline]
  case h_2 =>
    exact quiet.advance_silently todo rfl rfl rfl (fun _ _ => rfl) (List.Subset.refl _)

theorem Quiet.runOp (quiet : Quiet s) (todo : s.todo = op :: rest)
    (unfindable : ∀ nodeId ∈ s.silent, op = .probe nodeId → s.manager.Unfindable nodeId)
    (now : Int) (secs : NodeID → UInt64) : Quiet (s.runOp rest now secs op) := by
  cases op with
  | takePongs => exact quiet.takePongs todo now secs
  | checkPong sender => exact quiet.checkPong todo now secs
  | markPong sender =>
    refine quiet.advance_silently todo rfl rfl rfl ?_ (List.Subset.refl _)
    intro x member
    exact SelfHealManager.isOffline_updateState_ne (quiet.other todo rfl member) _ _
  | announce nodeId =>
    refine quiet.advance todo [] rfl rfl (fun _ _ _ there => by cases there) (fun _ _ => rfl)
      (List.Subset.refl _) ?_
    intro x member timestamp announced
    cases List.mem_singleton.mp announced
    exact quiet.other todo rfl member rfl
  | recoveryCheck => exact quiet.recoveryCheck todo now secs
  | recordAttempt nodeId =>
    have keeps (state : SelfHealNodeState) :
        (state.recordFailedAttempt (secs nodeId)).isOffline = state.isOffline := rfl
    refine quiet.advance_silently todo rfl rfl rfl ?_ ?_
    · intro x _
      exact SelfHealManager.isOffline_changeState keeps x
    · intro x waiting
      exact SelfHealManager.healPongs_changeState s.manager nodeId _ ▸ waiting
  | probe nodeId => exact quiet.probe todo (fun member => unfindable nodeId member rfl) now secs
  | markProbed nodeId =>
    refine quiet.advance_silently todo rfl rfl rfl ?_ ?_
    · intro x member
      exact SelfHealManager.isOffline_changeState_ne (quiet.other todo rfl member) _
    · intro x waiting
      exact SelfHealManager.healPongs_changeState s.manager nodeId _ ▸ waiting
  | rebuild _ | checked _ =>
    exact quiet.advance_silently todo rfl rfl rfl (fun _ _ => rfl) (List.Subset.refl _)

theorem step_quiet (quiet : Quiet s) (unmistaken : Unmistaken s input)
    (stepped : step s input = some t) : Quiet t := by
  cases Option.some.inj stepped
  cases input with
  | nodeOffline nodeId clock nowSecs =>
    exact quiet.offline_notice clock nowSecs unmistaken.1 unmistaken.2
  | nodeOnline nodeId now nowSecs =>
    exact quiet.sign (SelfHealManager.onNodeOnline_concerns s.manager nodeId now nowSecs)
  | heartbeatReceived nodeId now nowSecs =>
    exact quiet.sign (SelfHealManager.onHeartbeatReceived_concerns s.manager nodeId now nowSecs)
  | healMessage msg now nowSecs => exact quiet.message msg now nowSecs
  | pathFailure target now =>
    obtain ⟨states, pongs, events⟩ := SelfHealManager.handlePathFailure_same s.manager target now
    refine quiet.keep (List.Subset.refl _) ?_ (fun _ _ waiting => pongs ▸ waiting)
      (fun _ _ _ there _ => .inl there) (fun x _ => events x)
    intro x _
    rw [SelfHealManager.isOffline, next, handled, states, SelfHealManager.isOffline]
  | network multihop dht =>
    exact quiet.keep (List.Subset.refl _) (fun _ _ => rfl) (fun _ _ waiting => waiting)
      (fun _ _ _ there _ => .inl there) (fun _ _ _ => List.not_mem_nil)
  | loop now secs =>
    rw [next]
    split
    case h_1 empty =>
      refine quiet.keep (List.Subset.refl _) (fun _ _ => rfl) (fun _ _ waiting => waiting) ?_
        (fun _ _ _ => List.not_mem_nil)
      intro x _ op there back
      rcases List.mem_pair.mp there with rfl | rfl
      · cases back
      · cases back
    case h_2 op rest todo =>
      apply quiet.runOp todo
      intro nodeId member probed
      refine unmistaken nodeId ?_ member
      rw [probing, todo, probed]
      rfl

/-- As long as no node goes offline with a pong of it under way and no lookup for a
silent node finds a next hop, a node recovers only after a sign of it. -/
theorem recovery_evidenced (h : SelfHealManager) (maxFailed : UInt32) (now : Int)
    (inputs : List HealInput)
    (unmistaken : Meets step Unmistaken (start h maxFailed now) inputs) :
    Always step Evidenced (start h maxFailed now) inputs := by
  have quiet : Quiet (start h maxFailed now) := ⟨by simp [start], by simp [start], by simp [start],
    by simp [start]⟩
  apply always_of_meets step_quiet _ unmistaken quiet
  intro s quiet nodeId member
  exact ⟨quiet.offline nodeId member, quiet.unannounced nodeId member⟩

/-- A node that answers to the loop after its offline notice is back. -/
def answered : List HealInput := [
  .nodeOffline (fill 32 [5]) (fun _ => 0) 100,
  .healMessage ⟨.healPong, fill 32 [5], 101, []⟩ 0 101,
  .loop 0 fun _ => 102, .loop 0 fun _ => 102, .loop 0 fun _ => 102,
  .loop 0 fun _ => 102, .loop 0 fun _ => 102, .loop 0 fun _ => 102]

theorem recovery_evidenced_answered :
    ((exec step (start (.new (fill 32 [1])) 5 0) answered).map fun s =>
      (s.manager.isOffline (fill 32 [5]), s.events)) =
        some (false, [.nodeRecovered (fill 32 [5]) 102]) ∧
      Always step Evidenced (start (.new (fill 32 [1])) 5 0) answered :=
  ⟨by decide +kernel, recovery_evidenced _ 5 0 answered (by decide +kernel)⟩

/-- A lookup that finds any next hop brings the node back, without a sign of it. -/
theorem probed_returns (todo : s.todo = .probe nodeId :: rest)
    (findable : ¬ s.manager.Unfindable nodeId) (now : Int) (secs : NodeID → UInt64) :
    ∃ t, exec step s [.loop now secs, .loop now secs, .loop now secs] = some t ∧
      t.silent = s.silent ∧ t.manager.isOffline nodeId = false ∧
      t.events = [.nodeRecovered nodeId (secs nodeId)] := by
  rw [← SelfHealManager.probe_eq_none s.manager nodeId now] at findable
  obtain ⟨manager, probed⟩ := Option.ne_none_iff_exists'.mp findable
  have first : s.next (.loop now secs) =
      { s with manager, todo := .markProbed nodeId :: .announce nodeId :: rest, events := [] } := by
    rw [next, todo]
    simp only [runOp, probed]
  refine ⟨_, exec_cons.mpr ⟨_, congrArg some first, rfl⟩, rfl, ?_, rfl⟩
  exact SelfHealManager.isOffline_changeState_markOnline manager nodeId (secs nodeId)

/-- A network whose table of nodes has one node. -/
def oneNode : SelfHealManager :=
  let localId := fill 32 [1]
  let dht := ((DhtManager.new localId).insertNode (fill 32 [3]) "10.0.0.3:9876" 0).1
  let multihop := { MultihopManager.new localId with dht := some dht }
  { SelfHealManager.new localId with multihop := some multihop, dht := some dht }

/-- A node that nobody has heard of since is back after the next recovery check: some
other node is found as a next hop for it. -/
theorem recovered_unheard : ∃ s, exec step (start oneNode 5 0) [
      .nodeOffline (fill 32 [5]) (fun _ => 0) 100,
      .loop (seconds 30) fun _ => 130, .loop (seconds 30) fun _ => 130,
      .loop (seconds 30) fun _ => 130, .loop (seconds 30) fun _ => 130,
      .loop (seconds 30) fun _ => 130, .loop (seconds 30) fun _ => 130,
      .loop (seconds 30) fun _ => 130] = some s ∧
    fill 32 [5] ∈ s.silent ∧ s.manager.isOffline (fill 32 [5]) = false ∧
    s.events = [.nodeRecovered (fill 32 [5]) 130] := by
  have front : ∃ t, exec step (start oneNode 5 0) [
      .nodeOffline (fill 32 [5]) (fun _ => 0) 100,
      .loop (seconds 30) fun _ => 130, .loop (seconds 30) fun _ => 130,
      .loop (seconds 30) fun _ => 130, .loop (seconds 30) fun _ => 130] = some t ∧
      (∃ rest, t.todo = .probe (fill 32 [5]) :: rest) ∧ fill 32 [5] ∈ t.silent ∧
      ¬ t.manager.Unfindable (fill 32 [5]) := by
    refine ⟨_, rfl, ⟨_, rfl⟩, List.mem_cons_self, ?_⟩
    decide +kernel
  obtain ⟨t, run, ⟨rest, todo⟩, silent, findable⟩ := front
  obtain ⟨s, probed, same, online, events⟩ :=
    probed_returns todo findable (seconds 30) fun _ => 130
  exact ⟨s, exec_append.mpr ⟨t, run, probed⟩, same ▸ silent, online, events⟩

end Healing
end LanLink.Vpn
