import LanLink.Vpn.Heartbeat

/-! Heartbeats as a failure detector. For each node it is enough to know its last sign of life
and how many checks were late since. Silence is noticed after a bounded number of checks, and a
node whose heartbeats are punctual is never given up. -/
namespace LanLink.FailureDetector
open Words Maps Runs LanLink.Vpn

def removeNode (m : HeartbeatManager) (nodeId : NodeID) : HeartbeatManager :=
  { m with nodes := m.nodes.erase nodeId }

inductive Action where
  | monitor (action : HeartbeatAction)
  | removeNode (nodeId : NodeID)

def step (s : Monitor) : Action → Option Monitor
  | .monitor action => s.step action
  | .removeNode nodeId => some { s with manager := removeNode s.manager nodeId }

/-- The last sign of life of a node, and the late checks since then. -/
structure Watch where
  last : Nat
  late : Nat

/-- What an action means for a node. A sign of life is a heartbeat of the node, or its entry
among the nodes. -/
def Watch.after (limit : Nat) (nodeId : NodeID) (w : Option Watch) : Action → Option Watch
  | .monitor (.addNode other now) => if other = nodeId then some (w.getD ⟨now, 0⟩) else w
  | .monitor (.handleHeartbeat msg now) => if msg.senderId = nodeId then some ⟨now, 0⟩ else w
  | .monitor (.checkNodes clock) => w.map fun v =>
    if limit < clock nodeId - v.last then ⟨v.last, v.late + 1⟩ else v
  | .removeNode other => if other = nodeId then none else w
  | _ => w

def watch (limit : Nat) (nodeId : NodeID) (actions : List Action) : Option Watch :=
  actions.foldl (Watch.after limit nodeId) none

/-- A threshold of zero is as good as one. -/
def Watch.alive (threshold : UInt32) (w : Watch) : Prop := w.late < max 1 threshold.toNat

instance (threshold : UInt32) (w : Watch) : Decidable (w.alive threshold) := Nat.decLt _ _

/-- The entry of a node has what the watch has. -/
structure Agrees (threshold : UInt32) (nodeId : NodeID) (state : NodeHeartbeatState) (w : Watch) :
    Prop where
  named : state.nodeId = nodeId
  last : state.lastHeartbeat = w.last
  online : state.isOnline = true ↔ w.alive threshold
  missed : state.isOnline = true → state.missedCount.toNat = w.late

inductive Matches (threshold : UInt32) (nodeId : NodeID) :
    Option NodeHeartbeatState → Option Watch → Prop
  | absent : Matches threshold nodeId none none
  | present (agrees : Agrees threshold nodeId state w) : Matches threshold nodeId (some state) (some w)

section
variable {threshold : UInt32} {nodeId : NodeID} {state : NodeHeartbeatState} {w : Watch}

theorem alive_heard (threshold : UInt32) (now : Nat) : Watch.alive threshold ⟨now, 0⟩ :=
  Nat.lt_of_lt_of_le Nat.zero_lt_one (Nat.le_max_left 1 threshold.toNat)

theorem agrees_new (threshold : UInt32) (nodeId : NodeID) (now : Nat) :
    Agrees threshold nodeId (.new nodeId now) ⟨now, 0⟩ where
  named := rfl
  last := rfl
  online := iff_of_true rfl (alive_heard threshold now)
  missed _ := rfl

theorem Agrees.heartbeat (agrees : Agrees threshold nodeId state w) (now : Nat) (sequence : UInt64) :
    Agrees threshold nodeId { state with
      lastHeartbeat := now, missedCount := 0, isOnline := true, recvSequence := sequence }
      ⟨now, 0⟩ where
  named := agrees.named
  last := rfl
  online := iff_of_true rfl (alive_heard threshold now)
  missed _ := rfl

theorem Agrees.sent (agrees : Agrees threshold nodeId state w) (sequence : UInt64) :
    Agrees threshold nodeId { state with sendSequence := sequence } w :=
  ⟨agrees.named, agrees.last, agrees.online, agrees.missed⟩

/-- One check of the loop is one step of the watch; a node that is offline stays so. -/
theorem Agrees.check (agrees : Agrees threshold nodeId state w) (limit now : Nat) :
    Agrees threshold nodeId (state.check threshold limit now).1
      (if limit < now - w.last then ⟨w.last, w.late + 1⟩ else w) := by
  rw [NodeHeartbeatState.check, ← agrees.last]
  by_cases late : limit < now - state.lastHeartbeat
  · rw [if_pos late]
    by_cases online : state.isOnline = true
    · have alive : w.late < max 1 threshold.toNat := agrees.online.mp online
      have bound := threshold.toNat_lt
      have count : (state.missedCount + 1).toNat = w.late + 1 := by
        rw [UInt32.toNat_add, agrees.missed online]
        exact Nat.mod_eq_of_lt (by simp; omega)
      have reached : threshold ≤ state.missedCount + 1 ↔ ¬ w.late + 1 < max 1 threshold.toNat := by
        rw [UInt32.le_iff_toNat_le, count]
        omega
      rw [if_pos ⟨online, late⟩]
      by_cases enough : threshold ≤ state.missedCount + 1
      · simp only [NodeHeartbeatState.shouldBeOffline, enough, decide_true, if_true]
        exact ⟨agrees.named, rfl, iff_of_false Bool.false_ne_true (reached.mp enough),
          fun contrary => absurd contrary Bool.false_ne_true⟩
      · simp only [NodeHeartbeatState.shouldBeOffline, enough, decide_false, Bool.false_eq_true, if_false]
        have below := not_not.mp (mt reached.mpr enough)
        exact ⟨agrees.named, rfl, iff_of_true online below, fun _ => count⟩
    · have gone : ¬ w.alive threshold := mt agrees.online.mpr online
      rw [if_neg (fun both => online both.1)]
      refine ⟨agrees.named, rfl, iff_of_false online fun alive => gone ?_,
        fun contrary => absurd contrary online⟩
      exact Nat.lt_of_succ_lt alive
  · rw [if_neg late, if_neg (fun both => late both.2)]
    exact agrees

end

/-- The manager's table is what the watches of all nodes say. -/
structure Watching (interval : Nat) (threshold : UInt32) (w : NodeID → Option Watch) (s : Monitor) :
    Prop where
  period : s.manager.interval = interval
  limit : s.manager.offlineThreshold = threshold
  nodes : ∀ nodeId, Matches threshold nodeId (s.manager.nodes.lookup nodeId) (w nodeId)

section
variable {interval : Nat} {threshold : UInt32} {w : NodeID → Option Watch} {s t : Monitor}
  {nodeId : NodeID}

theorem new_watching (interval : Nat) (threshold : UInt32) :
    Watching interval threshold (fun _ => none) (.new interval threshold) :=
  ⟨rfl, rfl, fun _ => .absent⟩

theorem Watching.addNode (watching : Watching interval threshold w s) (nodeId : NodeID) (now : Nat) :
    Watching interval threshold
      (fun n => Watch.after (interval * 2) n (w n) (.monitor (.addNode nodeId now)))
      { s with manager := s.manager.addNode nodeId now } := by
  by_cases there : nodeId ∈ s.manager.nodes
  · rw [HeartbeatManager.addNode, if_pos there]
    refine ⟨watching.period, watching.limit, fun other => ?_⟩
    have before := watching.nodes other
    dsimp only [Watch.after]
    split
    · rename_i same
      subst same
      obtain ⟨state, found⟩ := exists_lookup there
      rw [found] at before ⊢
      generalize w nodeId = v at before ⊢
      cases before with
      | present agrees => exact .present agrees
    · exact before
  · rw [HeartbeatManager.addNode, if_neg there]
    refine ⟨watching.period, watching.limit, fun other => ?_⟩
    have before := watching.nodes other
    dsimp only [Watch.after]
    split
    · rename_i same
      subst same
      rw [AList.lookup_eq_none.mpr there] at before
      rw [AList.lookup_insert]
      generalize w nodeId = v at before ⊢
      cases before
      exact .present (agrees_new threshold nodeId now)
    · rename_i other
      rw [AList.lookup_insert_ne (Ne.symm other)]
      exact before

theorem Watching.handleHeartbeat (watching : Watching interval threshold w s)
    (msg : HeartbeatMessage) (now : Nat) (events : List HeartbeatEvent) :
    Watching interval threshold
      (fun n => Watch.after (interval * 2) n (w n) (.monitor (.handleHeartbeat msg now)))
      ⟨(s.manager.handleHeartbeat msg now).1, events⟩ := by
  refine ⟨watching.period, watching.limit, fun other => ?_⟩
  have before := watching.nodes other
  dsimp only [Watch.after, HeartbeatManager.handleHeartbeat]
  split
  · rename_i same
    subst same
    rw [AList.lookup_insert]
    generalize w msg.senderId = v at before
    generalize s.manager.nodes.lookup msg.senderId = entry at before ⊢
    cases before with
    | absent => exact .present ((agrees_new threshold msg.senderId now).heartbeat now msg.sequence)
    | present agrees => exact .present (agrees.heartbeat now msg.sequence)
  · rename_i other
    rw [AList.lookup_insert_ne (Ne.symm other)]
    exact before

theorem Watching.setSendSequence (watching : Watching interval threshold w s) (nodeId : NodeID)
    (sequence : UInt64) : Watching interval threshold w
      { s with manager := s.manager.setSendSequence nodeId sequence } := by
  rw [HeartbeatManager.setSendSequence]
  split
  · rename_i state found
    refine ⟨watching.period, watching.limit, fun other => ?_⟩
    have before := watching.nodes other
    by_cases same : other = nodeId
    · subst same
      dsimp only
      rw [AList.lookup_insert]
      rw [found] at before
      generalize w other = v at before ⊢
      cases before with
      | present agrees => exact .present (agrees.sent sequence)
    · dsimp only
      rw [AList.lookup_insert_ne same]
      exact before
  · exact watching

theorem Watching.checkNodes (watching : Watching interval threshold w s)
    (checked : s.manager.checkNodes clock = some (manager, events)) (told : List HeartbeatEvent) :
    Watching interval threshold
      (fun n => Watch.after (interval * 2) n (w n) (.monitor (.checkNodes clock))) ⟨manager, told⟩ := by
  rw [HeartbeatManager.checkNodes, watching.period, watching.limit] at checked
  split at checked
  · obtain ⟨limit, twice, done⟩ := Option.bind_eq_some_iff.mp checked
    obtain rfl := Option.some.inj (Option.ite_none_right_eq_some.mp twice).2
    cases done
    refine ⟨rfl, rfl, fun other => ?_⟩
    have before := watching.nodes other
    dsimp only [Watch.after]
    rw [lookup_mapValues]
    generalize w other = v at before ⊢
    generalize s.manager.nodes.lookup other = entry at before ⊢
    cases before with
    | absent => exact .absent
    | present agrees =>
      have checked := agrees.check (interval * 2) (clock other)
      rw [← agrees.named] at checked ⊢
      exact .present checked
  · rename_i idle
    cases checked
    refine ⟨watching.period, watching.limit, fun other => ?_⟩
    have before := watching.nodes other
    dsimp only [Watch.after]
    cases found : s.manager.nodes.lookup other with
    | none =>
      rw [found] at before
      generalize w other = v at before ⊢
      cases before
      exact .absent
    | some state =>
      -- nobody is online, and a check changes nothing for who is not
      have offline : ¬ state.isOnline = true := by
        intro online
        refine idle (List.any_eq_true.mpr ⟨⟨other, state⟩, ?_, online⟩)
        exact AList.mem_lookup_iff.mp found
      rw [found] at before
      generalize w other = v at before ⊢
      cases before with
      | present agrees =>
        have checked := agrees.check (interval * 2) (clock other)
        rw [NodeHeartbeatState.check, if_neg (fun both => offline both.1)] at checked
        exact .present checked

theorem Watching.removeNode (watching : Watching interval threshold w s) (nodeId : NodeID) :
    Watching interval threshold
      (fun n => Watch.after (interval * 2) n (w n) (.removeNode nodeId))
      { s with manager := FailureDetector.removeNode s.manager nodeId } := by
  refine ⟨watching.period, watching.limit, fun other => ?_⟩
  have before := watching.nodes other
  dsimp only [Watch.after, FailureDetector.removeNode]
  split
  · rename_i same
    rw [← same, AList.lookup_erase]
    exact .absent
  · rename_i other
    rw [AList.lookup_erase_ne (Ne.symm other)]
    exact before

theorem step_watching (watching : Watching interval threshold w s) (stepped : step s a = some t) :
    Watching interval threshold (fun n => Watch.after (interval * 2) n (w n) a) t := by
  cases a with
  | removeNode nodeId =>
    cases stepped
    exact watching.removeNode nodeId
  | monitor action =>
    cases action with
    | addNode nodeId now =>
      cases stepped
      exact watching.addNode nodeId now
    | heartbeatSent nodeId sequence =>
      cases stepped
      exact ⟨watching.period, watching.limit, watching.nodes⟩
    | setSendSequence nodeId sequence =>
      cases stepped
      exact watching.setSendSequence nodeId sequence
    | checkNodes clock =>
      obtain ⟨⟨manager, events⟩, checked, done⟩ := Option.bind_eq_some_iff.mp stepped
      cases done
      exact watching.checkNodes checked _
    | handleHeartbeat msg now =>
      cases stepped
      exact watching.handleHeartbeat msg now _

theorem run_watching (watching : Watching interval threshold w s)
    (run : exec step s actions = some t) :
    Watching interval threshold (fun n => actions.foldl (Watch.after (interval * 2) n) (w n)) t := by
  induction actions generalizing s w with
  | nil =>
    cases run
    exact watching
  | cons a rest ih =>
    obtain ⟨u, stepped, run⟩ := exec_cons.mp run
    exact ih (step_watching watching stepped) run

/-- Whether the manager knows a node, and whether it counts it as online, is what the watch of
this node alone says, in every run and with any clocks. -/
theorem status_watch (interval : Nat) (threshold : UInt32) (actions : List Action)
    (run : exec step (.new interval threshold) actions = some s) (nodeId : NodeID) :
    (s.manager.nodes.lookup nodeId).map (·.isOnline) =
      (watch (interval * 2) nodeId actions).map fun w => decide (w.alive threshold) := by
  have found := (run_watching (new_watching interval threshold) run).nodes nodeId
  rw [watch]
  generalize actions.foldl (Watch.after (interval * 2) nodeId) none = v at found ⊢
  generalize s.manager.nodes.lookup nodeId = entry at found ⊢
  cases found with
  | absent => rfl
  | @present state w agrees =>
    have same : state.isOnline = decide (w.alive threshold) :=
      Bool.eq_iff_iff.mpr (agrees.online.trans decide_eq_true_iff.symm)
    exact congrArg some same

theorem status_watch_back : ∃ s, exec step (.new (5 * second) 1)
      [.monitor (.addNode (idOf 1) 0), .monitor (.checkNodes fun _ => 11 * second),
        .monitor (.handleHeartbeat ⟨.request, idOf 1, 0, 7⟩ (12 * second)),
        .monitor (.checkNodes fun _ => 16 * second)] = some s ∧
    (s.manager.nodes.lookup (idOf 1)).map (·.isOnline) = some true := by
  obtain ⟨s, run⟩ := Option.isSome_iff_exists.mp (show (exec step (.new (5 * second) 1)
    [.monitor (.addNode (idOf 1) 0), .monitor (.checkNodes fun _ => 11 * second),
      .monitor (.handleHeartbeat ⟨.request, idOf 1, 0, 7⟩ (12 * second)),
      .monitor (.checkNodes fun _ => 16 * second)]).isSome from by decide)
  exact ⟨s, run, (status_watch (5 * second) 1 _ run (idOf 1)).trans (by decide)⟩

/-- No sign of life of the node, and no word that it is to be forgotten. -/
def Silent (nodeId : NodeID) : Action → Prop
  | .monitor (.handleHeartbeat msg _) => msg.senderId ≠ nodeId
  | .removeNode other => other ≠ nodeId
  | _ => True

/-- When the node was checked. -/
def checks (nodeId : NodeID) (actions : List Action) : List Nat :=
  actions.filterMap fun
    | .monitor (.checkNodes clock) => some (clock nodeId)
    | _ => none

/-- In silence only the late checks count. -/
theorem silent_watch {actions : List Action} {w : Watch} (silent : ∀ a ∈ actions, Silent nodeId a) :
    actions.foldl (Watch.after limit nodeId) (some w) =
      some ⟨w.last, w.late + (checks nodeId actions).countP fun now => limit < now - w.last⟩ := by
  induction actions generalizing w with
  | nil => rfl
  | cons a rest ih =>
    rw [List.foldl_cons]
    have here := silent a List.mem_cons_self
    have later {v : Watch} := ih (w := v) fun b member => silent b (List.mem_cons_of_mem a member)
    cases a with
    | removeNode other =>
      rw [Watch.after, if_neg here, later]
      rfl
    | monitor action =>
      cases action with
      | checkNodes clock =>
        have first : checks nodeId (.monitor (.checkNodes clock) :: rest) =
            clock nodeId :: checks nodeId rest := rfl
        rw [Watch.after, Option.map_some, later, first, List.countP_cons]
        by_cases late : limit < clock nodeId - w.last
        · simp only [late, if_true, decide_true]
          congr 2
          omega
        · simp only [late, if_false, decide_false, Bool.false_eq_true, Nat.add_zero]
      | addNode other now =>
        have kept : Watch.after limit nodeId (some w) (.monitor (.addNode other now)) = some w :=
          ite_self _
        rw [kept, later]
        rfl
      | handleHeartbeat msg now =>
        rw [Watch.after, if_neg here, later]
        rfl
      | heartbeatSent | setSendSequence =>
        rw [Watch.after, later]
        · rfl
        all_goals nofun

/-- Of checks that are an interval apart, all are late but those of the first intervals. -/
theorem late_checks (positive : 0 < interval) (start : Nat) {times : List Nat} (n : Nat)
    (first : ∀ t ∈ times.head?, start + n * interval ≤ t)
    (spaced : times.IsChain fun a b => a + interval ≤ b) :
    times.length ≤ (times.countP fun now => interval * 2 < now - start) + (3 - n) := by
  induction times generalizing n with
  | nil => exact Nat.zero_le _
  | cons t rest ih =>
    have here := first t rfl
    obtain ⟨apart, spaced⟩ := List.isChain_cons.mp spaced
    have later := ih (n + 1) (fun u next => by
      have gap := apart u next
      rw [Nat.succ_mul]
      omega) spaced
    rw [List.countP_cons, List.length_cons]
    by_cases early : n < 3
    · omega
    · have late : interval * 2 < t - start := by
        have enough : 3 * interval ≤ n * interval := Nat.mul_le_mul_right interval (Nat.not_lt.mp early)
        omega
      simp only [late, decide_true, if_true]
      omega

/-- A node that the manager knows and that falls silent counts as offline after the threshold and
three more checks, if these are an interval apart or more. A threshold of 0 counts as 1. -/
theorem silent_detected (interval : Nat) (threshold : UInt32) (positive : 0 < interval)
    (nodeId : NodeID) (actions silence : List Action) (before : exec step (.new interval threshold) actions = some s)
    (run : exec step s silence = some t) (known : s.manager.nodes.lookup nodeId = some state)
    (silent : ∀ a ∈ silence, Silent nodeId a)
    (later : ∀ time ∈ checks nodeId silence, state.lastHeartbeat ≤ time)
    (spaced : (checks nodeId silence).IsChain fun a b => a + interval ≤ b)
    (enough : max 1 threshold.toNat + 3 ≤ (checks nodeId silence).length) :
    ∃ gone, t.manager.nodes.lookup nodeId = some gone ∧ gone.isOnline = false ∧
      gone.lastHeartbeat = state.lastHeartbeat := by
  have watching := run_watching (new_watching interval threshold) before
  have found := (run_watching watching run).nodes nodeId
  have start := watching.nodes nodeId
  rw [known] at start
  generalize actions.foldl (Watch.after (interval * 2) nodeId) none = w at start found
  cases start with
  | @present _ w agrees =>
    rw [silent_watch silent] at found
    generalize t.manager.nodes.lookup nodeId = entry at found
    cases found with
    | @present gone _ after =>
      refine ⟨gone, rfl, ?_, after.last.trans agrees.last.symm⟩
      have counted := late_checks positive w.last 0 (fun time head => by
        have reached := later time (List.mem_of_mem_head? head)
        rw [agrees.last] at reached
        omega) spaced
      have dead : ¬ Watch.alive threshold ⟨w.last, w.late +
          (checks nodeId silence).countP fun now => interval * 2 < now - w.last⟩ := by
        dsimp only [Watch.alive]
        omega
      exact Bool.eq_false_iff.mpr (mt after.online.mp dead)

/-- The only heartbeat of a sender. -/
def lastWord : Action := .monitor (.handleHeartbeat ⟨.request, idOf 1, 0, 7⟩ (10 * second))

def heardOnce : Monitor :=
  ⟨((Monitor.new (5 * second) 3).manager.handleHeartbeat ⟨.request, idOf 1, 0, 7⟩ (10 * second)).1,
    [.onHeartbeatReceived (idOf 1) 7]⟩

def silence : List Action :=
  [11, 16, 21, 26, 31, 36].map fun t => .monitor (.checkNodes fun _ => t * second)

theorem silent_detected_six : ∃ t gone, exec step heardOnce silence = some t ∧
    t.manager.nodes.lookup (idOf 1) = some gone ∧ gone.isOnline = false := by
  have before : exec step (.new (5 * second) 3) [lastWord] = some heardOnce := rfl
  obtain ⟨t, run⟩ : ∃ t, exec step heardOnce silence = some t :=
    Option.isSome_iff_exists.mp (by decide)
  obtain ⟨gone, found, offline, -⟩ := silent_detected (5 * second) 3 (by decide) (idOf 1) _ silence
    before run rfl (by simp [silence, Silent]) (by decide) (by decide) (by decide)
  exact ⟨t, gone, run, found, offline⟩

end

/-- The manager of one node and the heartbeats of a peer, on one clock. The loops sleep for their
interval between two rounds, and may take longer. -/
structure Net where
  monitor : Monitor
  now : Nat
  /-- The next check may not come before. -/
  nextCheck : Nat
  /-- The peer's counter, and its last round whose message got out. -/
  sequence : UInt64
  lastRound : Nat
  /-- The messages of the peer with the times when they were sent. -/
  inFlight : List (HeartbeatMessage × Nat)

inductive NetAction where
  | wait (time : Nat)
  | round (timestamp : UInt64) (lost : Bool)
  | deliver (i : Nat)
  | duplicate (i : Nat)
  | check
  | other (action : Action)

/-- The manager has just been told of the peer. -/
def Net.start (interval : Nat) (threshold : UInt32) (peer : NodeID) : Net :=
  ⟨⟨(Monitor.new interval threshold).manager.addNode peer 0, []⟩, 0, 0, 0, 0, []⟩

def Net.step (interval : Nat) (peer : NodeID) (s : Net) : NetAction → Option Net
  | .wait time => some { s with now := s.now + time }
  | .round timestamp lost =>
    let msg : HeartbeatMessage := ⟨.request, peer, timestamp, s.sequence⟩
    if s.sequence.toNat + 1 < 2 ^ 64 then
      if lost then some { s with sequence := s.sequence + 1 }
      else some { s with
        sequence := s.sequence + 1, lastRound := s.now, inFlight := s.inFlight ++ [(msg, s.now)] }
    else none
  | .deliver i =>
    match s.inFlight[i]? with
    | some (msg, _) =>
      (FailureDetector.step s.monitor (.monitor (.handleHeartbeat msg s.now))).map fun monitor =>
        { s with monitor, inFlight := s.inFlight.eraseIdx i }
    | none => none
  | .duplicate i => s.inFlight[i]?.map fun entry => { s with inFlight := s.inFlight ++ [entry] }
  | .check =>
    if s.nextCheck ≤ s.now then
      (FailureDetector.step s.monitor (.monitor (.checkNodes fun _ => s.now))).map fun monitor =>
        { s with monitor, nextCheck := s.now + interval }
    else none
  | .other action => (FailureDetector.step s.monitor action).map fun monitor => { s with monitor }

/-- What happens besides does not concern the peer, and is no check. -/
def Aside (peer : NodeID) : Action → Prop
  | .monitor (.checkNodes _) => False
  | action => Silent peer action

/-- Rounds of the peer whose messages get out are at most `gap` apart, and no message takes
longer than `delay`. -/
def Timely (gap delay : Nat) (peer : NodeID) (s : Net) : NetAction → Prop
  | .wait time => s.now + time ≤ s.lastRound + gap ∧
    ∀ entry ∈ s.inFlight, s.now + time ≤ entry.2 + delay
  | .other action => Aside peer action
  | _ => True

instance (peer : NodeID) : (action : Action) → Decidable (Aside peer action)
  | .monitor (.handleHeartbeat msg _) => inferInstanceAs (Decidable (msg.senderId ≠ peer))
  | .monitor (.checkNodes _) => isFalse id
  | .monitor (.addNode ..) | .monitor (.heartbeatSent ..) | .monitor (.setSendSequence ..) =>
    isTrue trivial
  | .removeNode other => inferInstanceAs (Decidable (other ≠ peer))

instance (gap delay : Nat) (peer : NodeID) (s : Net) :
    (action : NetAction) → Decidable (Timely gap delay peer s action)
  | .wait _ => inferInstanceAs (Decidable (_ ∧ _))
  | .other action => inferInstanceAs (Decidable (Aside peer action))
  | .round .. | .deliver _ | .duplicate _ | .check => isTrue trivial

/-- The peer has been heard lately: since its last round, or a message is on its way that was
sent soon after. Late checks since then are an interval apart. -/
structure Punctual (interval : Nat) (threshold : UInt32) (gap delay : Nat) (peer : NodeID) (s : Net)
    (w : Watch) : Prop where
  heard : w.last ≤ s.now
  rounds : s.lastRound ≤ s.now ∧ s.now ≤ s.lastRound + gap
  messages : ∀ entry ∈ s.inFlight,
    entry.1.senderId = peer ∧ entry.2 ≤ s.now ∧ s.now ≤ entry.2 + delay
  fresh : s.lastRound ≤ w.last ∨ ∃ entry ∈ s.inFlight, entry.2 ≤ w.last + gap
  checked : s.nextCheck ≤ s.now + interval
  late : w.late = 0 ∨ w.last + (w.late + 2) * interval < s.nextCheck

def Heard (interval : Nat) (threshold : UInt32) (gap delay : Nat) (peer : NodeID) (s : Net) : Prop :=
  ∃ w v, Watching interval threshold w s.monitor ∧ w peer = some v ∧
    Punctual interval threshold gap delay peer s v

section
variable {interval gap delay : Nat} {threshold : UInt32} {peer : NodeID} {s t : Net} {v : Watch}

theorem Punctual.bound (punctual : Punctual interval threshold gap delay peer s v) :
    s.now ≤ v.last + gap + delay := by
  rcases punctual.fresh with recent | ⟨entry, member, soon⟩
  · have rounds := punctual.rounds
    omega
  · have arrives := punctual.messages entry member
    omega

theorem Punctual.alive (punctual : Punctual interval threshold gap delay peer s v)
    (tolerant : gap + delay ≤ (max 1 threshold.toNat + 1) * interval) : v.alive threshold := by
  rcases punctual.late with none | late
  · rw [Watch.alive, none]
    omega
  · by_contra past
    have many : (max 1 threshold.toNat + 2) * interval ≤ (v.late + 2) * interval :=
      Nat.mul_le_mul_right interval (Nat.add_le_add_right (Nat.not_lt.mp past) 2)
    have bound := punctual.bound
    have checked := punctual.checked
    rw [Nat.succ_mul] at many
    omega

theorem start_heard (interval : Nat) (threshold : UInt32) (gap delay : Nat) (peer : NodeID) :
    Heard interval threshold gap delay peer (.start interval threshold peer) := by
  refine ⟨_, ⟨0, 0⟩, (new_watching interval threshold).addNode peer 0, if_pos rfl, ?_⟩
  exact ⟨le_rfl, ⟨le_rfl, Nat.zero_le _⟩, fun _ member => absurd member List.not_mem_nil,
    .inl le_rfl, Nat.zero_le _, .inl rfl⟩

/-- Between the manager's steps only the clock and the messages change. -/
theorem Punctual.wait (punctual : Punctual interval threshold gap delay peer s v) (time : Nat)
    (timely : Timely gap delay peer s (.wait time)) :
    Punctual interval threshold gap delay peer { s with now := s.now + time } v where
  heard := Nat.le_add_right_of_le punctual.heard
  rounds := ⟨Nat.le_add_right_of_le punctual.rounds.1, timely.1⟩
  messages entry member := by
    obtain ⟨own, sent, -⟩ := punctual.messages entry member
    exact ⟨own, Nat.le_add_right_of_le sent, timely.2 entry member⟩
  fresh := punctual.fresh
  checked := by
    have checked := punctual.checked
    dsimp only
    omega
  late := punctual.late

theorem Punctual.round (punctual : Punctual interval threshold gap delay peer s v)
    (msg : HeartbeatMessage) (own : msg.senderId = peer) (sequence : UInt64) :
    Punctual interval threshold gap delay peer { s with
      sequence, lastRound := s.now, inFlight := s.inFlight ++ [(msg, s.now)] } v where
  heard := punctual.heard
  rounds := ⟨le_rfl, Nat.le_add_right _ _⟩
  messages entry member := by
    rcases List.mem_append.mp member with old | new
    · exact punctual.messages entry old
    · rw [List.mem_singleton.mp new]
      exact ⟨own, le_rfl, Nat.le_add_right _ _⟩
  fresh := by
    rcases punctual.fresh with recent | ⟨entry, member, soon⟩
    · have rounds := punctual.rounds
      exact .inr ⟨(msg, s.now), List.mem_append_right _ List.mem_cons_self, by dsimp only; omega⟩
    · exact .inr ⟨entry, List.mem_append_left _ member, soon⟩
  checked := punctual.checked
  late := punctual.late

theorem Punctual.deliver (punctual : Punctual interval threshold gap delay peer s v)
    (monitor : Monitor) (i : Nat) : Punctual interval threshold gap delay peer
      { s with monitor, inFlight := s.inFlight.eraseIdx i } ⟨s.now, 0⟩ where
  heard := le_rfl
  rounds := punctual.rounds
  messages entry member := punctual.messages entry (List.mem_of_mem_eraseIdx member)
  fresh := .inl punctual.rounds.1
  checked := punctual.checked
  late := .inl rfl

theorem Punctual.duplicate (punctual : Punctual interval threshold gap delay peer s v)
    (member : entry ∈ s.inFlight) : Punctual interval threshold gap delay peer
      { s with inFlight := s.inFlight ++ [entry] } v where
  heard := punctual.heard
  rounds := punctual.rounds
  messages other there := by
    rcases List.mem_append.mp there with old | new
    · exact punctual.messages other old
    · rw [List.mem_singleton.mp new]
      exact punctual.messages entry member
  fresh := punctual.fresh.imp_right fun ⟨other, there, soon⟩ =>
    ⟨other, List.mem_append_left _ there, soon⟩
  checked := punctual.checked
  late := punctual.late

theorem Punctual.check (punctual : Punctual interval threshold gap delay peer s v)
    (due : s.nextCheck ≤ s.now) (monitor : Monitor) : Punctual interval threshold gap delay peer
      { s with monitor, nextCheck := s.now + interval }
      (if interval * 2 < s.now - v.last then ⟨v.last, v.late + 1⟩ else v) := by
  by_cases late : interval * 2 < s.now - v.last
  · rw [if_pos late]
    refine ⟨punctual.heard, punctual.rounds, punctual.messages, punctual.fresh, le_rfl, .inr ?_⟩
    -- a late check before was an interval earlier
    rcases punctual.late with none | before
    · dsimp only
      rw [none]
      omega
    · dsimp only
      rw [show v.late + 1 + 2 = (v.late + 2) + 1 from rfl, Nat.succ_mul]
      omega
  · rw [if_neg late]
    refine ⟨punctual.heard, punctual.rounds, punctual.messages, punctual.fresh, le_rfl, ?_⟩
    rcases punctual.late with none | before
    · exact .inl none
    · exact .inr (by dsimp only; omega)

theorem step_heard (heard : Heard interval threshold gap delay peer s)
    (timely : Timely gap delay peer s a) (stepped : s.step interval peer a = some t) :
    Heard interval threshold gap delay peer t := by
  obtain ⟨w, v, watching, known, punctual⟩ := heard
  cases a with
  | wait time =>
    cases stepped
    exact ⟨w, v, watching, known, punctual.wait time timely⟩
  | round timestamp lost =>
    rw [Net.step] at stepped
    split at stepped
    · split at stepped
      · cases stepped
        exact ⟨w, v, watching, known, punctual.heard, punctual.rounds, punctual.messages,
          punctual.fresh, punctual.checked, punctual.late⟩
      · cases stepped
        exact ⟨w, v, watching, known, punctual.round _ rfl _⟩
    · cases stepped
  | deliver i =>
    rw [Net.step] at stepped
    split at stepped
    · rename_i msg sent found
      obtain ⟨monitor, handled, rfl⟩ := Option.map_eq_some_iff.mp stepped
      have own := (punctual.messages _ (List.mem_of_getElem? found)).1
      exact ⟨_, ⟨s.now, 0⟩, step_watching watching handled, if_pos own, punctual.deliver monitor i⟩
    · cases stepped
  | duplicate i =>
    obtain ⟨entry, found, rfl⟩ := Option.map_eq_some_iff.mp stepped
    exact ⟨w, v, watching, known, punctual.duplicate (List.mem_of_getElem? found)⟩
  | check =>
    rw [Net.step] at stepped
    split at stepped
    · rename_i due
      obtain ⟨monitor, checked, rfl⟩ := Option.map_eq_some_iff.mp stepped
      refine ⟨_, _, step_watching watching checked, ?_, punctual.check due monitor⟩
      simp only [Watch.after, known, Option.map_some]
    · cases stepped
  | other action =>
    obtain ⟨monitor, done, rfl⟩ := Option.map_eq_some_iff.mp stepped
    refine ⟨_, v, step_watching watching done, ?_, punctual.heard, punctual.rounds, punctual.messages,
      punctual.fresh, punctual.checked, punctual.late⟩
    rw [known]
    have aside : Aside peer action := timely
    cases action with
    | removeNode other => exact if_neg aside
    | monitor action =>
      cases action with
      | checkNodes clock => exact aside.elim
      | handleHeartbeat msg now => exact if_neg aside
      | addNode other now => exact ite_self _
      | heartbeatSent | setSendSequence => rfl

/-- A peer is never given up whose heartbeats that get out are at most `gap` apart and at most
`delay` under way, if the two together are no longer than the threshold and one more interval. -/
theorem punctual_online (interval : Nat) (threshold : UInt32) (gap delay : Nat) (peer : NodeID)
    (tolerant : gap + delay ≤ (max 1 threshold.toNat + 1) * interval) (actions : List NetAction)
    (timely : Meets (Net.step interval peer) (Timely gap delay peer) (.start interval threshold peer)
      actions) :
    Always (Net.step interval peer)
      (fun s => ∃ state, s.monitor.manager.nodes.lookup peer = some state ∧ state.isOnline = true)
      (.start interval threshold peer) actions := by
  refine always_of_meets step_heard (fun s heard => ?_) timely (start_heard interval threshold gap delay peer)
  obtain ⟨w, v, watching, known, punctual⟩ := heard
  have found := watching.nodes peer
  rw [known] at found
  generalize s.monitor.manager.nodes.lookup peer = entry at found ⊢
  cases found with
  | @present state _ agrees => exact ⟨state, rfl, agrees.online.mpr (punctual.alive tolerant)⟩

/-- A peer that is heard after 19 seconds of silence, with three late checks in between. -/
theorem punctual_online_twenty : Always (Net.step (5 * second) (idOf 1))
    (fun s => ∃ state, s.monitor.manager.nodes.lookup (idOf 1) = some state ∧ state.isOnline = true)
    (.start (5 * second) 3 (idOf 1))
    [.check, .wait (12 * second), .check, .round 0 true, .wait (5 * second), .round 0 false, .check,
      .wait (2 * second), .deliver 0, .wait (3 * second), .check] := by
  refine punctual_online (5 * second) 3 (17 * second) (3 * second) (idOf 1) (by decide) _ ?_
  decide

end

end LanLink.FailureDetector
