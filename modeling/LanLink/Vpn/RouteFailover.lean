import LanLink.Vpn.RouteCoherence

/-! The hops that a route is switched to when one after the other fails. A switch
takes the first candidate that is not the hop before, from a list that does not
change, so it comes back to the first one. -/
namespace LanLink.Vpn
open Words Maps

variable {localId : NodeID}

def RouteCall.switches (target : NodeID) : RouteCall localId → Bool
  | .findAlternative other => other = target
  | _ => false

/-- The next hop that each switch of a run installs, if it succeeds. -/
def Routing.tried (target : NodeID) :
    Routing → List (RouteCall localId × Timing) → List (Option NodeID)
  | _, [] => []
  | s, action :: rest =>
    let after := s.next action.1 action.2
    if action.1.switches target then
      (match s.manager.findAlternative target (action.2.start s.clock) with
        | .ok m => (m.routes.lookup target).map MultiHopEntry.nextHop
        | .error _ => none) :: tried target after rest
    else tried target after rest

/-- The hop and the candidates of a route. -/
def MultihopManager.choices (m : MultihopManager) (target : NodeID) :
    Option (NodeID × List (NodeID × String)) :=
  (m.routes.lookup target).map fun entry => (entry.nextHop, entry.candidates)

/-- Only switches change the hop or the candidates of the route. -/
def Settled (target : NodeID) (s : Routing) (action : RouteCall localId × Timing) : Prop :=
  action.1.switches target = true ∨
    (s.next action.1 action.2).manager.choices target = s.manager.choices target

/-- Every switch succeeds, no two take the same hop, and all candidates are taken. -/
def TriesEvery (candidates : List (NodeID × String)) (tried : List (Option NodeID)) : Prop :=
  ∃ hops : List NodeID, tried = hops.map some ∧ hops.Nodup ∧ ∀ node ∈ candidates, node.1 ∈ hops

/-- The hop after the failure of another one. -/
def hopAfter (localId : NodeID) (candidates : List (NodeID × String)) (hop : NodeID) :
    Option NodeID :=
  (candidates.find? fun node => node.1 ≠ hop ∧ node.1 ≠ localId).map Prod.fst

/-- The hops of successive switches; one that fails leaves the hop. -/
def failover (localId : NodeID) (candidates : List (NodeID × String)) :
    NodeID → Nat → List (Option NodeID)
  | _, 0 => []
  | hop, n + 1 =>
    let next := hopAfter localId candidates hop
    next :: failover localId candidates (next.getD hop) n

theorem next_findAlternative (s : Routing) (target : NodeID) (timing : Timing) :
    (s.next (.findAlternative target : RouteCall localId) timing).manager =
      orSame s.manager (s.manager.findAlternative target (timing.start s.clock)) := rfl

/-- One switch takes the next hop and keeps the candidates. -/
theorem choices_switched {s : Routing} (known : s.manager.choices target = some (hop, candidates))
    (localId : NodeID) (timing : Timing) :
    (s.next (.findAlternative target : RouteCall localId) timing).manager.choices target =
        some ((hopAfter s.manager.localId candidates hop).getD hop, candidates) ∧
      (match s.manager.findAlternative target (timing.start s.clock) with
        | .ok m => (m.routes.lookup target).map MultiHopEntry.nextHop
        | .error _ => none) = hopAfter s.manager.localId candidates hop := by
  obtain ⟨entry, found, same⟩ := Option.map_eq_some_iff.mp known
  cases same
  have after : hopAfter s.manager.localId entry.candidates entry.nextHop =
      (entry.alternative s.manager.localId).map Prod.fst := rfl
  rw [next_findAlternative, after]
  cases switch : entry.alternative s.manager.localId with
  | none =>
    have failed : s.manager.findAlternative target (timing.start s.clock) =
        .error (.noRoute target) := by
      simp only [MultihopManager.findAlternative, found, switch]
    rw [failed]
    exact ⟨known, rfl⟩
  | some node =>
    have changed := findAlternative_switch found switch (timing.start s.clock)
    rw [changed]
    constructor
    · simp [orSame, MultihopManager.choices, MultiHopEntry.switched]
    · simp [MultiHopEntry.switched]

theorem next_localId (s : Routing) (call : RouteCall localId) (timing : Timing) :
    (s.next call timing).manager.localId = s.manager.localId := by
  unfold Routing.next
  dsimp only
  split
  · rfl
  · obtain ⟨routes, dht, changed, -⟩ := call_frame s.manager (timing.start s.clock)
      (timing.seen s.clock) (timing.turn s.clock) call
    rw [changed]

theorem switches_eq {call : RouteCall localId} (switches : call.switches target = true) :
    call = .findAlternative target := by
  cases call with
  | findAlternative other => rw [of_decide_eq_true switches]
  | _ => cases switches

/-- A run switches the route as often as it says, whatever else it does. -/
theorem tried_eq {s : Routing} {actions : List (RouteCall localId × Timing)}
    (known : s.manager.choices target = some (hop, candidates))
    (settled : Runs.Meets Routing.step (Settled target) s actions) :
    s.tried target actions = failover s.manager.localId candidates hop
      (actions.countP fun action => action.1.switches target) := by
  induction actions generalizing s hop with
  | nil => rfl
  | cons action rest ih =>
    obtain ⟨call, timing⟩ := action
    have later := settled.2 _ rfl
    rw [Routing.tried, List.countP_cons]
    by_cases switches : call.switches target = true
    · rw [if_pos switches, if_pos switches, failover]
      cases switches_eq switches
      obtain ⟨after, taken⟩ := choices_switched known localId timing
      rw [taken, ih after later, next_localId]
    · have kept := settled.1.resolve_left switches
      rw [if_neg switches, if_neg switches, ih (kept.trans known) later, next_localId]
      rfl

theorem hopAfter_first {first : NodeID × String} (other : first.1 ≠ hop)
    (foreign : first.1 ≠ localId) (rest : List (NodeID × String)) :
    hopAfter localId (first :: rest) hop = some first.1 := by
  simp [hopAfter, other, foreign]

theorem hopAfter_second {first second : NodeID × String} (other : second.1 ≠ first.1)
    (foreign : second.1 ≠ localId) (rest : List (NodeID × String)) :
    hopAfter localId (first :: second :: rest) first.1 = some second.1 := by
  simp [hopAfter, other, foreign]

/-- The third switch takes the first hop again. -/
theorem triesEvery_failover_iff {candidates : List (NodeID × String)}
    (distinct : (candidates.map Prod.fst).Nodup) (apart : ∀ node ∈ candidates, node.1 ≠ hop)
    (foreign : ∀ node ∈ candidates, node.1 ≠ localId) :
    TriesEvery candidates (failover localId candidates hop candidates.length) ↔
      candidates.length ≤ 2 := by
  match candidates with
  | [] => exact iff_of_true ⟨[], rfl, List.nodup_nil, by simp⟩ (by simp)
  | [first] =>
    have one := hopAfter_first (apart first (by simp)) (foreign first (by simp)) []
    refine iff_of_true ⟨[first.1], ?_, List.nodup_singleton _, by simp⟩ (by simp)
    simp [failover, one]
  | first :: second :: rest =>
    have one := hopAfter_first (apart first (by simp)) (foreign first (by simp)) (second :: rest)
    have different : second.1 ≠ first.1 := by
      have ids := (List.nodup_cons.mp distinct).1
      exact fun same => ids (same ▸ List.mem_cons_self)
    have two := hopAfter_second different (foreign second (by simp)) rest
    have again : hopAfter localId (first :: second :: rest) second.1 = some first.1 :=
      hopAfter_first different.symm (foreign first (by simp)) (second :: rest)
    cases rest with
    | nil =>
      refine iff_of_true ⟨[first.1, second.1], ?_, ?_, by simp⟩ (by simp)
      · simp [failover, one, two]
      · simpa using distinct
    | cons third rest =>
      refine iff_of_false ?_ (by simp)
      rintro ⟨hops, same, nodup, -⟩
      simp only [List.length_cons, failover, one, two, again, Option.getD_some] at same
      match hops with
      | a :: b :: c :: others =>
        simp only [List.map_cons, List.cons.injEq, Option.some.injEq] at same
        obtain ⟨rfl, rfl, rfl, -⟩ := same
        simp at nodup
      | [] | [_] | [_, _] => simp at same

/-- What a discovery promises about its candidates. -/
theorem discovered_candidates (directory : Directory localId)
    (found : discovered localId (some directory.dht) target now = some entry) :
    (entry.candidates.map Prod.fst).Nodup ∧ (∀ node ∈ entry.candidates, node.1 ≠ entry.nextHop) ∧
      ∀ node ∈ entry.candidates, node.1 ≠ localId := by
  have nearest := discovered_nearest directory found
  refine ⟨?_, fun node member => (nearest.known node member).2, fun node member own => ?_⟩
  · apply List.pairwise_map.mpr
    apply nearest.increasing.imp
    intro a b farther same
    rw [same] at farther
    exact Nat.lt_irrefl _ farther
  · have stored := List.mem_map_of_mem (f := Prod.fst) (nearest.known node member).1
    rw [allNodes_ids, own] at stored
    exact directory.foreign stored

/-- A route that a discovery has installed, and as many switches as it has candidates,
whatever else happens that leaves the route as it is: all succeed and try every
candidate exactly when there are at most two. -/
theorem failover_tries_every_iff {s : Routing} {timing : Timing}
    (directory : Directory s.manager.localId) (bound : s.manager.dht = some directory.dht)
    (installed : s.manager.discoverRoute target (timing.start s.clock) = .ok after)
    (found : after.routes.lookup target = some entry)
    (actions : List (RouteCall localId × Timing))
    (settled : Runs.Meets Routing.step (Settled target)
      (s.next (.discoverRoute target : RouteCall localId) timing) actions)
    (often : (actions.countP fun action => action.1.switches target) = entry.candidates.length) :
    TriesEvery entry.candidates
        ((s.next (.discoverRoute target : RouteCall localId) timing).tried target actions) ↔
      entry.candidates.length ≤ 2 := by
  have reached : (s.next (.discoverRoute target : RouteCall localId) timing).manager = after := by
    change orSame s.manager (s.manager.discoverRoute target (timing.start s.clock)) = after
    rw [installed]
    rfl
  have known : (s.next (.discoverRoute target : RouteCall localId) timing).manager.choices target =
      some (entry.nextHop, entry.candidates) := by
    rw [reached, MultihopManager.choices, found]
    rfl
  rw [tried_eq known settled, often, next_localId]
  rcases discoverRoute_cases s.manager target (timing.start s.clock) with
    ⟨-, error, failed⟩ | ⟨route, discovered, changed⟩
  · cases failed.symm.trans installed
  · cases Except.ok.inj (changed.symm.trans installed)
    have there := insertOrEvict_lookup s.manager route
    rw [discovered_target discovered] at there
    cases Option.some.inj (there.symm.trans found)
    rw [bound] at discovered
    obtain ⟨distinct, apart, foreign⟩ := discovered_candidates directory discovered
    exact triesEvery_failover_iff distinct apart foreign

/-- A node with a table of nodes and no routes. -/
def unrouted (directory : Directory (idOf 0)) : Routing :=
  ⟨⟨idOf 0, ∅, some directory.dht, 1000⟩, 0, 0⟩

theorem unrouted_discovers (directory : Directory (idOf 0)) (other : target ≠ idOf 0)
    (sorted : directory.dht.byDistance target = first :: rest) :
    (unrouted directory).manager.discoverRoute target (promptly.start (unrouted directory).clock) =
      .ok ((unrouted directory).manager.insertOrEvict (routeOver target first rest 0)) :=
  discoverRoute_discovered (discovered_sorted directory.table.distinct other sorted 0)

/-- With one candidate the switch takes it. -/
theorem failover_one_candidate :
    TriesEvery [(idOf 1, "10.0.0.1:9876")]
      (((unrouted twoNodes).next (.discoverRoute (idOf 2) : RouteCall (idOf 0)) promptly).tried
        (idOf 2) [((.findAlternative (idOf 2) : RouteCall (idOf 0)), promptly)]) := by
  have settled : Runs.Meets Routing.step (Settled (idOf 2))
      ((unrouted twoNodes).next (.discoverRoute (idOf 2) : RouteCall (idOf 0)) promptly)
      [((.findAlternative (idOf 2) : RouteCall (idOf 0)), promptly)] :=
    ⟨.inl (by decide), fun _ _ => trivial⟩
  have there : ((unrouted twoNodes).manager.insertOrEvict routeToTwo).routes.lookup (idOf 2) =
      some routeToTwo := insertOrEvict_lookup _ routeToTwo
  exact (failover_tries_every_iff twoNodes rfl
    (unrouted_discovers twoNodes (by decide) twoNodes_sorted) there _ settled (by decide)).mpr
    (by decide)

/-- The table of a node that knows four others. -/
def fourNodes : Directory (idOf 0) :=
  let placed := ((((placed_new (idOf 0)).insertNode (idOf 8) "10.0.0.8:9876" 0).insertNode (idOf 9)
    "10.0.0.9:9876" 0).insertNode (idOf 10) "10.0.0.10:9876" 0).insertNode (idOf 11)
    "10.0.0.11:9876" 0
  ⟨_, placed.table, placed.own⟩

def threeCandidates : List (NodeID × String) :=
  [(idOf 9, "10.0.0.9:9876"), (idOf 10, "10.0.0.10:9876"), (idOf 11, "10.0.0.11:9876")]

theorem fourNodes_sorted : fourNodes.dht.byDistance (idOf 8) =
    (idOf 8, "10.0.0.8:9876") :: threeCandidates := by
  have listed : fourNodes.dht.allNodes = (idOf 8, "10.0.0.8:9876") :: threeCandidates := by
    decide +kernel
  rw [DhtManager.byDistance, listed]
  apply List.mergeSort_of_pairwise
  decide +kernel

/-- Of three candidates the last is not tried by three switches. -/
theorem failover_misses_third :
    ∃ after entry,
      (unrouted fourNodes).manager.discoverRoute (idOf 8) 0 = .ok after ∧
      after.routes.lookup (idOf 8) = some entry ∧ entry.candidates.length = 3 ∧
      ¬ TriesEvery entry.candidates
        (((unrouted fourNodes).next (.discoverRoute (idOf 8) : RouteCall (idOf 0)) promptly).tried
          (idOf 8) (List.replicate 3 ((.findAlternative (idOf 8) : RouteCall (idOf 0)), promptly))) := by
  have installed := unrouted_discovers fourNodes (by decide) fourNodes_sorted
  have there := insertOrEvict_lookup (unrouted fourNodes).manager
    (routeOver (idOf 8) (idOf 8, "10.0.0.8:9876") threeCandidates 0)
  refine ⟨_, _, installed, there, rfl, ?_⟩
  have known : ((unrouted fourNodes).next (.discoverRoute (idOf 8) : RouteCall (idOf 0))
      promptly).manager.choices (idOf 8) = some (idOf 8, threeCandidates) := by
    change (orSame _ ((unrouted fourNodes).manager.discoverRoute (idOf 8)
      (promptly.start (unrouted fourNodes).clock))).choices (idOf 8) = _
    rw [installed]
    rfl
  have settled : Runs.Meets Routing.step (Settled (idOf 8))
      ((unrouted fourNodes).next (.discoverRoute (idOf 8) : RouteCall (idOf 0)) promptly)
      (List.replicate 3 ((.findAlternative (idOf 8) : RouteCall (idOf 0)), promptly)) := by
    apply Runs.meets_of_forall
    intro action member s
    rw [List.eq_of_mem_replicate member]
    exact .inl (by decide)
  rw [tried_eq known settled, next_localId]
  intro every
  have few : threeCandidates.length ≤ 2 :=
    (triesEvery_failover_iff (by decide) (by decide) (by decide)).mp every
  exact absurd few (by decide)

end LanLink.Vpn
