import LanLink.Vpn.RouteTable

/-! The fields of a route that depend on each other. A direct route that is switched
to another hop keeps its count of one hop. -/
namespace LanLink.Vpn
open Words Maps

variable {localId : NodeID}

def MultiHopEntry.isDirect (entry : MultiHopEntry) : Bool := entry.hopCount = 1

/-- All calls but the one that inserts a route as it is given. -/
def RouteCall.learns : RouteCall localId → Bool
  | .insertRoute _ => false
  | _ => true

def Routing.learn (s : Routing)
    (action : { call : RouteCall localId // call.learns = true } × Timing) : Option Routing :=
  s.step (action.1.val, action.2)

structure Coherent (localId : NodeID) (entry : MultiHopEntry) : Prop where
  direct : entry.isDirect = true ↔ entry.nextHop = entry.target
  metric : entry.metric = calculateMetric entry.hopCount entry.connectionType
  foreign : entry.nextHop ≠ localId

def AllCoherent (localId : NodeID) (s : Routing) : Prop :=
  ∀ target entry, s.manager.routes.lookup target = some entry → Coherent localId entry

/-- A direct route is switched only if it has nowhere else to go. -/
def KeepsDirect (s : Routing)
    (action : { call : RouteCall localId // call.learns = true } × Timing) : Prop :=
  match action.1.val with
  | .findAlternative target =>
    ∀ entry, s.manager.routes.lookup target = some entry → entry.isDirect = true →
      ∀ node ∈ entry.candidates, node.1 = target ∨ node.1 = localId
  | _ => True

/-- Where the route to a target after a call comes from. -/
inductive Origin (m : MultihopManager) (call : RouteCall localId) (target : NodeID) :
    MultiHopEntry → Prop
  | kept (found : m.routes.lookup target = some entry) (expiresAt : Int) :
      Origin m call target { entry with expiresAt }
  | discovered (found : discovered m.localId m.dht target now = some entry) :
      Origin m call target entry
  | direct (foreign : target ≠ m.localId) (addr : String) (now : Int) :
      Origin m call target (.new target target 1 .lan [(target, addr)] now)
  | switched (named : call = .findAlternative target)
      (found : m.routes.lookup target = some entry)
      (switch : entry.alternative m.localId = some node) (now : Int) :
      Origin m call target (entry.switched target node.1 now)

theorem Origin.same {m : MultihopManager} {call : RouteCall localId}
    (found : m.routes.lookup target = some entry) : Origin m call target entry :=
  .kept found entry.expiresAt

theorem origin_of_call {m : MultihopManager} {call : RouteCall localId}
    (learns : call.learns = true)
    (found : (m.call now seen turn call).routes.lookup target = some entry) :
    Origin m call target entry := by
  cases call with
  | discoverRoute other =>
    simp only [MultihopManager.call] at found
    rcases discoverRoute_cases m other now with ⟨-, error, failed⟩ | ⟨new, known, installed⟩
    · rw [failed] at found
      exact .same found
    · rw [installed] at found
      by_cases same : target = new.target
      · subst same
        cases (insertOrEvict_lookup m new).symm.trans found
        exact .discovered (discovered_target known ▸ known)
      · exact .same (insertOrEvict_other same found)
  | addDirectRoute other addr =>
    simp only [MultihopManager.call, MultihopManager.addDirectRoute] at found
    split at found
    · exact .same found
    · rename_i foreign
      by_cases same : target = other
      · subst same
        cases (insertOrEvict_lookup m (.new target target 1 .lan [(target, addr)] now)).symm.trans
          found
        exact .direct foreign addr now
      · exact .same (insertOrEvict_other same found)
  | insertRoute entry => cases learns
  | findAlternative other =>
    simp only [MultihopManager.call] at found
    rcases findAlternative_cases m other now with ⟨error, failed⟩ | ⟨old, node, known, switch, changed⟩
    · rw [failed] at found
      exact .same found
    · rw [changed] at found
      by_cases same : target = other
      · subst same
        cases (AList.lookup_insert m.routes).symm.trans found
        exact .switched rfl known switch now
      · exact .same ((AList.lookup_insert_ne same).symm.trans found)
  | markInvalid other =>
    simp only [MultihopManager.call, MultihopManager.markInvalid] at found
    split at found
    · rename_i old known
      by_cases same : target = other
      · subst same
        cases (AList.lookup_insert m.routes).symm.trans found
        exact .kept known _
      · exact .same ((AList.lookup_insert_ne same).symm.trans found)
    · exact .same found
  | removeRoute other => exact .same (lookup_of_lookup_erase found).2
  | refreshStaleRoutes =>
    obtain ⟨routes, run, -, all⟩ := refreshStaleRoutes_spec m seen turn
    simp only [MultihopManager.call] at found
    rw [run] at found
    obtain ⟨old, known, rfl⟩ := Option.map_eq_some_iff.mp ((all target).symm.trans found)
    split
    · rw [MultihopManager.renewed]
      cases new : discovered m.localId m.dht target (turn target) with
      | none => exact .kept known _
      | some route => exact .discovered new
    · exact .same known
  | cleanupExpired =>
    exact .same (Option.filter_eq_some_iff.mp ((lookup_retain _ _ _).symm.trans found)).1
  | setDht directory => exact .same found

/-- What holds of every route, also of one that is not coherent. A route over a relay
never goes back to its target. -/
structure Relaying (localId : NodeID) (entry : MultiHopEntry) : Prop where
  metric : entry.metric = calculateMetric entry.hopCount entry.connectionType
  foreign : entry.nextHop ≠ localId
  relayed : entry.hopCount ≠ 1 → entry.nextHop ≠ entry.target ∧
    ∀ node ∈ entry.candidates, node.1 ≠ entry.target

theorem relaying_discovered (directory : Directory localId)
    (found : discovered localId (some directory.dht) target now = some entry) :
    Relaying localId entry := by
  have nearest := discovered_nearest directory found
  have named := discovered_target found
  constructor
  · obtain ⟨-, table, first, rest, -, -, rfl⟩ := discovered_routeOver found
    rfl
  · exact nearest.foreign
  · rw [named]
    intro hops
    have relay : entry.nextHop ≠ target := fun same => hops (nearest.direct.mpr same)
    refine ⟨relay, fun node member same => relay (nearest.stored ?_)⟩
    rw [← same, ← allNodes_ids]
    exact List.mem_map_of_mem (nearest.known node member).1

/-- The routes of a node that only learns routes. -/
structure Learned (localId : NodeID) (m : MultihopManager) : Prop where
  own : m.localId = localId
  bound : ∀ dht, m.dht = some dht → ∃ directory : Directory localId, directory.dht = dht
  keys : ∀ target entry, m.routes.lookup target = some entry → entry.target = target
  relaying : ∀ target entry, m.routes.lookup target = some entry → Relaying localId entry

section
variable {m : MultihopManager}

theorem Learned.discovered (learned : Learned localId m)
    (found : discovered m.localId m.dht target now = some entry) :
    ∃ directory : Directory localId,
      Vpn.discovered localId (some directory.dht) target now = some entry := by
  obtain ⟨-, table, first, rest, bound, -⟩ := discovered_routeOver found
  obtain ⟨directory, rfl⟩ := learned.bound table bound
  rw [learned.own, bound] at found
  exact ⟨directory, found⟩

theorem Origin.keyed {call : RouteCall localId} (origin : Origin m call target entry)
    (learned : Learned localId m) : entry.target = target := by
  cases origin with
  | @kept old found expiresAt => exact learned.keys target old found
  | discovered found => exact discovered_target found
  | direct foreign addr now => rfl
  | switched named found switch now => rfl

/-- The hop of a switch is a candidate other than the hop before and the local node. -/
theorem alternative_some {entry : MultiHopEntry}
    (switch : entry.alternative localId = some node) :
    node ∈ entry.candidates ∧ node.1 ≠ entry.nextHop ∧ node.1 ≠ localId := by
  have other := List.find?_some switch
  exact ⟨List.mem_of_find?_eq_some switch, of_decide_eq_true other⟩

theorem Origin.relaying {call : RouteCall localId} (origin : Origin m call target entry)
    (learned : Learned localId m) : Relaying localId entry := by
  cases origin with
  | kept found expiresAt =>
    have relaying := learned.relaying target _ found
    exact ⟨relaying.metric, relaying.foreign, relaying.relayed⟩
  | discovered found =>
    obtain ⟨directory, found⟩ := learned.discovered found
    exact relaying_discovered directory found
  | direct foreign addr now =>
    exact ⟨rfl, learned.own ▸ foreign, fun hops => absurd rfl hops⟩
  | @switched old node named found switch now =>
    obtain ⟨member, -, other⟩ := alternative_some switch
    have relaying := learned.relaying target old found
    have known := learned.keys target old found
    refine ⟨rfl, learned.own ▸ other, fun hops => ?_⟩
    have apart := (relaying.relayed hops).2
    rw [known] at apart
    exact ⟨apart node member, apart⟩

theorem insertOrEvict_frame (m : MultihopManager) (entry : MultiHopEntry) :
    ∃ routes, m.insertOrEvict entry = { m with routes } := by
  rw [MultihopManager.insertOrEvict]
  split
  · exact ⟨_, rfl⟩
  · split
    · exact ⟨_, rfl⟩
    · split
      · exact ⟨_, rfl⟩
      · exact ⟨_, rfl⟩

/-- A call changes the routes, or which table of nodes is bound. -/
theorem call_frame (m : MultihopManager) (now : Int) (seen turn : NodeID → Int)
    (call : RouteCall localId) :
    ∃ routes dht, m.call now seen turn call = { m with routes, dht } ∧
      (dht = m.dht ∨ ∃ directory : Option (Directory localId),
        dht = directory.map Directory.dht) := by
  cases call with
  | discoverRoute target =>
    simp only [MultihopManager.call]
    rcases discoverRoute_cases m target now with ⟨-, error, failed⟩ | ⟨entry, -, installed⟩
    · rw [failed]
      exact ⟨_, _, rfl, .inl rfl⟩
    · obtain ⟨routes, changed⟩ := insertOrEvict_frame m entry
      rw [installed]
      exact ⟨routes, _, changed, .inl rfl⟩
  | addDirectRoute target addr =>
    simp only [MultihopManager.call, MultihopManager.addDirectRoute]
    split
    · exact ⟨_, _, rfl, .inl rfl⟩
    · obtain ⟨routes, changed⟩ := insertOrEvict_frame m (.new target target 1 .lan [(target, addr)] now)
      exact ⟨routes, _, changed, .inl rfl⟩
  | insertRoute entry =>
    obtain ⟨routes, changed⟩ := insertOrEvict_frame m entry
    exact ⟨routes, _, changed, .inl rfl⟩
  | findAlternative target =>
    simp only [MultihopManager.call]
    rcases findAlternative_cases m target now with ⟨error, failed⟩ | ⟨entry, node, -, -, changed⟩
    · rw [failed]
      exact ⟨_, _, rfl, .inl rfl⟩
    · rw [changed]
      exact ⟨_, _, rfl, .inl rfl⟩
  | markInvalid target =>
    simp only [MultihopManager.call, MultihopManager.markInvalid]
    split
    · exact ⟨_, _, rfl, .inl rfl⟩
    · exact ⟨_, _, rfl, .inl rfl⟩
  | removeRoute target => exact ⟨_, _, rfl, .inl rfl⟩
  | refreshStaleRoutes =>
    obtain ⟨routes, run, -⟩ := refreshStaleRoutes_spec m seen turn
    exact ⟨routes, _, run, .inl rfl⟩
  | cleanupExpired => exact ⟨_, _, rfl, .inl rfl⟩
  | setDht directory => exact ⟨_, _, rfl, .inr ⟨directory, rfl⟩⟩

theorem Learned.call {call : RouteCall localId} (learned : Learned localId m)
    (learns : call.learns = true) (now : Int) (seen turn : NodeID → Int) :
    Learned localId (m.call now seen turn call) := by
  obtain ⟨routes, dht, changed, bound⟩ := call_frame m now seen turn call
  constructor
  · rw [changed]
    exact learned.own
  · rw [changed]
    intro table present
    rcases bound with same | ⟨directory, given⟩
    · exact learned.bound table (same.symm.trans present)
    · obtain ⟨directory, -, same⟩ := Option.map_eq_some_iff.mp (given.symm.trans present)
      exact ⟨directory, same⟩
  · intro target entry found
    exact (origin_of_call learns found).keyed learned
  · intro target entry found
    exact (origin_of_call learns found).relaying learned

theorem Learned.step {s t : Routing} (learned : Learned localId s.manager)
    (action : { call : RouteCall localId // call.learns = true } × Timing) (stepped : s.learn action = some t) :
    Learned localId t.manager := by
  cases Option.some.inj stepped
  unfold Routing.next
  dsimp only
  split
  · exact learned
  · exact learned.call action.1.property _ _ _

theorem next_lookup {s : Routing} {timing : Timing} {call : RouteCall localId}
    (learns : call.learns = true)
    (found : (s.next call timing).manager.routes.lookup target = some entry) :
    Origin s.manager call target entry := by
  unfold Routing.next at found
  dsimp only at found
  split at found
  · exact .same found
  · exact origin_of_call learns found

/-- A route over a relay stays coherent when it is switched. -/
theorem Origin.coherent {call : RouteCall localId} (origin : Origin m call target entry)
    (learned : Learned localId m)
    (before : ∀ entry, m.routes.lookup target = some entry → Coherent localId entry)
    (relayed : call = .findAlternative target → ∀ entry, m.routes.lookup target = some entry →
      entry.isDirect = true → ∀ node ∈ entry.candidates, node.1 = target ∨ node.1 = localId) :
    Coherent localId entry := by
  have relaying := origin.relaying learned
  refine ⟨?_, relaying.metric, relaying.foreign⟩
  cases origin with
  | kept found expiresAt => exact (before _ found).direct
  | discovered found =>
    have named := discovered_target found
    obtain ⟨directory, found⟩ := learned.discovered found
    rw [named, ← (discovered_nearest directory found).direct]
    exact decide_eq_true_iff
  | direct foreign addr now => exact iff_of_true rfl rfl
  | @switched old node named found switch now =>
    obtain ⟨member, different, other⟩ := alternative_some switch
    have hop := (before old found).direct
    rw [learned.keys target old found] at hop
    by_cases direct : old.isDirect = true
    · -- a candidate that is neither the target nor the local node cannot be there
      rcases relayed named old found direct node member with same | own
      · exact absurd (same.trans (hop.mp direct).symm) different
      · exact absurd (own.trans learned.own.symm) other
    · have hops : old.hopCount ≠ 1 := fun one => direct (decide_eq_true one)
      exact iff_of_false direct (relaying.relayed hops).1

/-- A direct route that is switched still counts one hop. -/
theorem switched_incoherent {entry : MultiHopEntry} (coherent : Coherent localId entry)
    (named : entry.target = target) (direct : entry.isDirect = true)
    (switch : entry.alternative localId = some node) (now : Int) :
    ¬ Coherent localId (entry.switched target node.1 now) := by
  intro after
  have hop := (coherent.direct.mp direct).trans named
  obtain ⟨-, different, -⟩ := alternative_some switch
  exact different ((after.direct.mp direct).trans hop.symm)

theorem allCoherent_step {s t : Routing} (learned : Learned localId s.manager)
    (coherent : AllCoherent localId s)
    (action : { call : RouteCall localId // call.learns = true } × Timing)
    (stepped : s.learn action = some t) : AllCoherent localId t ↔ KeepsDirect s action := by
  obtain ⟨⟨call, learns⟩, timing⟩ := action
  cases Option.some.inj stepped
  constructor
  · intro after
    cases call with
    | findAlternative target =>
      intro entry found direct
      have known := learned.keys target entry found
      by_contra open_candidate
      cases switch : entry.alternative s.manager.localId with
      | none =>
        have exhausted := alternative_none.mp switch
        rw [(coherent target entry found).direct.mp direct, known, learned.own] at exhausted
        exact open_candidate exhausted
      | some node =>
        have changed := findAlternative_switch found switch (timing.start s.clock)
        rw [learned.own] at switch
        refine switched_incoherent (coherent target entry found) known direct switch _
          (after target (entry.switched target node.1 (timing.start s.clock)) ?_)
        change (orSame s.manager (s.manager.findAlternative target (timing.start s.clock))).routes.lookup
          target = _
        rw [changed]
        exact AList.lookup_insert _
    | _ => trivial
  · intro guarded target entry found
    have origin := next_lookup learns found
    apply origin.coherent learned (coherent target)
    rintro rfl
    exact guarded

theorem learned_new (localId : NodeID) : Learned localId (.new localId) := by
  constructor
  · rfl
  · intro dht bound
    cases bound
  · intro target entry found
    cases found
  · intro target entry found
    cases found

end

/-- In every run of calls that learn routes, every route is coherent exactly when no
call switches a direct route to another hop. -/
theorem coherent_iff (localId : NodeID) (now : Int)
    (actions : List ({ call : RouteCall localId // call.learns = true } × Timing)) :
    Runs.Always Routing.learn (AllCoherent localId) (.new localId now) actions ↔
      Runs.Meets Routing.learn KeepsDirect (.new localId now) actions := by
  have total (s : Routing)
      (action : { call : RouteCall localId // call.learns = true } × Timing) :
      ∃ t, s.learn action = some t := ⟨_, rfl⟩
  obtain ⟨t, run⟩ := Runs.exec_total total (.new localId now) actions
  apply Runs.always_iff (I := fun s => Learned localId s.manager)
    (fun learned stepped => learned.step _ stepped)
    (fun learned coherent stepped => allCoherent_step learned coherent _ stepped) run
    (learned_new localId)
  intro target entry found
  cases found

/-- The table of a node that knows two others. -/
def twoNodes : Directory (idOf 0) :=
  let placed := ((placed_new (idOf 0)).insertNode (idOf 1) "10.0.0.1:9876" 0).insertNode (idOf 2)
    "10.0.0.2:9876" 0
  ⟨_, placed.table, placed.own⟩

def promptly : Timing := ⟨0, 0, fun _ => 0, fun _ => 0⟩

/-- The direct route to one of the two, with the other in reserve. -/
def routeToTwo : MultiHopEntry :=
  routeOver (idOf 2) (idOf 2, "10.0.0.2:9876") [(idOf 1, "10.0.0.1:9876")] 0

theorem twoNodes_sorted : twoNodes.dht.byDistance (idOf 2) =
    [(idOf 2, "10.0.0.2:9876"), (idOf 1, "10.0.0.1:9876")] := by
  have listed : twoNodes.dht.allNodes =
      [(idOf 2, "10.0.0.2:9876"), (idOf 1, "10.0.0.1:9876")] := by decide +kernel
  rw [DhtManager.byDistance, listed]
  apply List.mergeSort_of_pairwise
  decide +kernel

/-- The direct route to a known node is switched to the other one, and still counts
as direct. -/
theorem direct_route_switched :
    ¬ ∀ actions : List ({ call : RouteCall (idOf 0) // call.learns = true } × Timing),
      Runs.Always Routing.learn (AllCoherent (idOf 0)) (.new (idOf 0) 0) actions := by
  intro always
  have bound := (always [(⟨.setDht (some twoNodes), rfl⟩, promptly),
    (⟨.discoverRoute (idOf 2), rfl⟩, promptly), (⟨.findAlternative (idOf 2), rfl⟩, promptly)]).2 _ rfl
  have routed := bound.2 _ rfl
  have learned := (Learned.step (s := .new (idOf 0) 0) (learned_new (idOf 0))
    (⟨.setDht (some twoNodes), rfl⟩, promptly) rfl).step
    (⟨.discoverRoute (idOf 2), rfl⟩, promptly) rfl
  have kept := (allCoherent_step learned routed.1
    (⟨.findAlternative (idOf 2), rfl⟩, promptly) rfl).mp (routed.2 _ rfl)
  have known : discovered (idOf 0) (some twoNodes.dht) (idOf 2) 0 = some routeToTwo :=
    discovered_sorted twoNodes.table.distinct (by decide) twoNodes_sorted 0
  have found := discoverRoute_discovered (m := ⟨idOf 0, ∅, some twoNodes.dht, 1000⟩) known
  have there : (orSame ⟨idOf 0, ∅, some twoNodes.dht, 1000⟩
      (MultihopManager.discoverRoute ⟨idOf 0, ∅, some twoNodes.dht, 1000⟩ (idOf 2) 0)).routes.lookup
        (idOf 2) = some routeToTwo := by
    rw [found]
    rfl
  exact absurd (kept routeToTwo there rfl (idOf 1, "10.0.0.1:9876") List.mem_cons_self) (by decide)

end LanLink.Vpn
