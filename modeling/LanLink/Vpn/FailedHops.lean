import LanLink.Vpn.SelfHeal

/-! What a failed node leaves in the table of routes. -/
namespace LanLink.Vpn
open Words Bits Maps

/-- The prefix of a nearer node is not larger. -/
theorem xorDistanceU128_mono (nearer : distance target a ≤ distance target b) :
    xorDistanceU128 a target ≤ xorDistanceU128 b target := by
  have prefix_eq (nodeId : NodeID) :
      xorDistanceU128 nodeId target = distance target nodeId / 256 ^ 16 := by
    rw [xorDistanceU128, xorBytes_comm, ofBigEndian_take]
    rw [show (xorBytes target.toList nodeId.toList).length = 32 from xorDistance_length ..]
    rfl
  rw [prefix_eq, prefix_eq]
  exact Nat.div_le_div_right nearer

/-- Sorting by the prefix again keeps the order of the search. -/
theorem resorted (dht : DhtManager) (target : NodeID) :
    ((dht.findNode target).mergeSort fun a b =>
      xorDistanceU128 a.1 target ≤ xorDistanceU128 b.1 target) = dht.findNode target := by
  apply List.mergeSort_of_pairwise
  rw [DhtManager.findNode, findNearest_eq]
  apply ((byDistance_pairwise dht target).sublist (List.take_sublist ..)).imp
  intro a b nearer
  exact decide_eq_true (xorDistanceU128_mono nearer)

/-- The hop that a discovery chooses. -/
def MultihopManager.Discovers (m : MultihopManager) (target hop : NodeID) : Prop :=
  target ≠ m.localId ∧ ∃ dht, m.dht = some dht ∧ dht.Nearest target hop

theorem MultihopManager.Discovers.unique {m : MultihopManager} (first : m.Discovers target a)
    (second : m.Discovers target b) : a = b := by
  obtain ⟨-, dht, bound, nearest⟩ := first
  obtain ⟨-, other, same, also⟩ := second
  cases Option.some.inj (bound.symm.trans same)
  exact nearest.unique also

theorem discoverRoute_spec (m : MultihopManager) (target : NodeID) (now : Int) :
    (∃ error, m.discoverRoute target now = .error error ∧ ∀ hop, ¬ m.Discovers target hop) ∨
      ∃ entry, m.discoverRoute target now = .ok (m.insertOrEvict entry) ∧
        entry.target = target ∧ entry.expiresAt = now + seconds defaultRouteTimeoutSecs ∧
        m.Discovers target entry.nextHop := by
  rw [MultihopManager.discoverRoute]
  by_cases own : target = m.localId
  · exact .inl ⟨_, if_pos own, fun hop found => found.1 own⟩
  rw [if_neg own]
  cases bound : m.dht with
  | none =>
    refine .inl ⟨_, rfl, ?_⟩
    rintro hop ⟨-, dht, present, -⟩
    simp [bound] at present
  | some dht =>
    have front := findNode_head dht target
    dsimp only
    rw [resorted]
    cases nodes : dht.findNode target with
    | nil =>
      refine .inl ⟨_, rfl, ?_⟩
      rintro hop ⟨-, other, present, nearest⟩
      cases Option.some.inj (bound.symm.trans present)
      have missing := (front hop).mpr nearest
      simp [nodes] at missing
    | cons node others =>
      have nearest := (front node.1).mp (by simp [nodes])
      exact .inr ⟨_, rfl, rfl, rfl, own, dht, bound, nearest⟩

/-- The new route of a target that has one takes its place. -/
theorem insertOrEvict_present {m : MultihopManager} {entry : MultiHopEntry}
    (present : entry.target ∈ m.routes) :
    m.insertOrEvict entry = { m with routes := m.routes.insert entry.target entry } :=
  if_pos present

/-- The route through the failed node has no other candidate, and the node is
still the nearest one to the target. -/
def MultihopManager.Reinstalls (m : MultihopManager) (dht : Option DhtManager) (nodeId : NodeID)
    (target : NodeID) (entry : MultiHopEntry) : Prop :=
  (∀ node ∈ entry.candidates, node.1 = nodeId ∨ node.1 = m.localId) ∧ dht.isSome ∧
    m.Discovers target nodeId

/-- A route after the healing of the route `entry`. -/
def MultihopManager.Healed (m : MultihopManager) (dht : Option DhtManager) (nodeId : NodeID)
    (target : NodeID) (now : Int) (entry healed : MultiHopEntry) : Prop :=
  (m.Reinstalls dht nodeId target entry ∧ healed.nextHop = nodeId ∧
      healed.expiresAt = now + seconds defaultRouteTimeoutSecs) ∨
    (¬ m.Reinstalls dht nodeId target entry ∧
      (healed.nextHop ≠ nodeId ∨ healed.expiresAt = now - seconds 1))

theorem markInvalid_found {m : MultihopManager} (found : m.routes.lookup target = some entry)
    (now : Int) :
    m.markInvalid target now =
      { m with routes := m.routes.insert target { entry with expiresAt := now - seconds 1 } } := by
  rw [MultihopManager.markInvalid, found]

theorem alternative_none {entry : MultiHopEntry} :
    entry.alternative localId = none ↔
      ∀ node ∈ entry.candidates, node.1 = entry.nextHop ∨ node.1 = localId := by
  simp only [MultiHopEntry.alternative, List.find?_eq_none, decide_eq_true_eq, not_and_or, not_not]

theorem healRoute_spec {m : MultihopManager} (found : m.routes.lookup target = some entry)
    (through : entry.nextHop = nodeId) (dht : Option DhtManager) (now : Int) :
    ∃ healed, (healRoute dht nodeId m target now).1 =
        { m with routes := m.routes.insert target healed } ∧
      m.Healed dht nodeId target now entry healed := by
  rw [healRoute]
  rw [markInvalid_found found]
  generalize invalidated : { entry with expiresAt := now - seconds 1 } = invalid
  have same : invalid.alternative m.localId = entry.alternative m.localId := by
    rw [← invalidated]
    rfl
  simp only [MultihopManager.findAlternative, AList.lookup_insert, same]
  cases switch : entry.alternative m.localId with
  | some node =>
    have other := List.find?_some switch
    simp only [decide_eq_true_eq] at other
    refine ⟨invalid.switched target node.1 now, by simp only [AList.insert_insert], .inr ⟨?_, ?_⟩⟩
    · rintro ⟨exhausted, -⟩
      have missing := alternative_none.mpr (through ▸ exhausted)
      simp [switch] at missing
    · exact .inl (through ▸ other.1)
  | none =>
    have exhausted := alternative_none.mp switch
    rw [through] at exhausted
    have expired : invalid.expiresAt = now - seconds 1 := by rw [← invalidated]
    dsimp only
    split
    · rename_i bound
      rcases discoverRoute_spec { m with routes := m.routes.insert target invalid } target now with
        ⟨error, failed, nothing⟩ | ⟨route, installed, named, expires, discovered⟩
      · rw [failed]
        exact ⟨invalid, rfl, .inr ⟨fun again => nothing nodeId again.2.2, .inr expired⟩⟩
      · have present : route.target ∈ m.routes.insert target invalid := by simp [named]
        refine ⟨route, ?_, ?_⟩
        · rw [installed, insertOrEvict_present present, named]
          simp only [AList.insert_insert]
        · by_cases same : route.nextHop = nodeId
          · exact .inl ⟨⟨exhausted, bound, same ▸ discovered⟩, same, expires⟩
          · refine .inr ⟨fun again => same ?_, .inl same⟩
            exact discovered.unique (b := nodeId) again.2.2
    · rename_i unbound
      exact ⟨invalid, rfl, .inr ⟨fun again => unbound again.2.1, .inr expired⟩⟩

/-- The routes of a manager after the healing of some of them. -/
def MultihopManager.HealedAll (m : MultihopManager) (dht : Option DhtManager) (nodeId : NodeID)
    (clock : NodeID → Int) (targets : List NodeID) (routes : Map NodeID MultiHopEntry) : Prop :=
  ∀ target, (target ∉ targets → routes.lookup target = m.routes.lookup target) ∧
    (target ∈ targets → ∃ entry healed, m.routes.lookup target = some entry ∧
      routes.lookup target = some healed ∧
      m.Healed dht nodeId target (clock target) entry healed)

/-- The routes that are healed later do not see the first one. -/
theorem MultihopManager.HealedAll.cons {m : MultihopManager} {dht : Option DhtManager}
    {routes : Map NodeID MultiHopEntry} (apart : target ∉ rest)
    (found : m.routes.lookup target = some entry)
    (first : m.Healed dht nodeId target (clock target) entry healed)
    (all : HealedAll { m with routes := m.routes.insert target healed } dht nodeId clock rest
      routes) :
    m.HealedAll dht nodeId clock (target :: rest) routes := by
  intro other
  by_cases same : other = target
  · subst same
    refine ⟨fun absent => absurd List.mem_cons_self absent, fun _ => ?_⟩
    have last := ((all other).1 apart).trans (AList.lookup_insert m.routes)
    exact ⟨entry, healed, found, last, first⟩
  · have kept : (m.routes.insert target healed).lookup other = m.routes.lookup other :=
      AList.lookup_insert_ne same
    constructor
    · intro absent
      have absent : other ∉ rest := fun member => absent (List.mem_cons_of_mem _ member)
      exact ((all other).1 absent).trans kept
    · intro member
      have member := (List.mem_cons.mp member).resolve_left same
      obtain ⟨before, new, was, now, healing⟩ := (all other).2 member
      exact ⟨before, new, kept.symm.trans was, now, healing⟩

theorem foldl_healRoute {m : MultihopManager} {targets : List NodeID} (distinct : targets.Nodup)
    (through : ∀ target ∈ targets, ∃ entry, m.routes.lookup target = some entry ∧
      entry.nextHop = nodeId)
    (dht : Option DhtManager) (clock : NodeID → Int) (events : List HealEvent) :
    ∃ routes, (targets.foldl (fun (m, events) target =>
        let (m, emitted) := healRoute dht nodeId m target (clock target)
        (m, events ++ emitted)) (m, events)).1 = { m with routes } ∧
      m.HealedAll dht nodeId clock targets routes := by
  induction targets generalizing m events with
  | nil => exact ⟨m.routes, rfl, fun target => ⟨fun _ => rfl, by simp⟩⟩
  | cons target rest ih =>
    obtain ⟨entry, found, hop⟩ := through target List.mem_cons_self
    obtain ⟨healed, changed, first⟩ := healRoute_spec found hop dht (clock target)
    obtain ⟨apart, distinct⟩ := List.nodup_cons.mp distinct
    have later : ∀ other ∈ rest, ∃ entry,
        (m.routes.insert target healed).lookup other = some entry ∧ entry.nextHop = nodeId := by
      intro other member
      have different : other ≠ target := fun same => apart (same ▸ member)
      rw [AList.lookup_insert_ne different]
      exact through other (List.mem_cons_of_mem _ member)
    generalize step : healRoute dht nodeId m target (clock target) = result at changed
    obtain ⟨after, emitted⟩ := result
    cases changed
    obtain ⟨routes, run, all⟩ := ih distinct
      (m := { m with routes := m.routes.insert target healed }) later (events ++ emitted)
    rw [List.foldl_cons]
    dsimp only
    rw [step]
    exact ⟨routes, run, all.cons apart found first⟩

theorem mem_findRoutesByNextHop {m : MultihopManager} :
    target ∈ m.findRoutesByNextHop nodeId ↔
      ∃ entry, m.routes.lookup target = some entry ∧ entry.nextHop = nodeId := by
  simp only [MultihopManager.findRoutesByNextHop, List.mem_map, List.mem_filter, decide_eq_true_eq]
  constructor
  · rintro ⟨route, ⟨member, hop⟩, rfl⟩
    exact ⟨route.2, AList.mem_lookup_iff.mpr member, hop⟩
  · rintro ⟨entry, found, hop⟩
    exact ⟨⟨target, entry⟩, ⟨AList.mem_lookup_iff.mp found, hop⟩, rfl⟩

theorem findRoutesByNextHop_nodup (m : MultihopManager) (nodeId : NodeID) :
    (m.findRoutesByNextHop nodeId).Nodup := by
  have keys : (m.routes.entries.map Sigma.fst).Nodup := m.routes.nodupKeys
  exact keys.sublist (List.filter_sublist.map _)

/-- The route of a target, if a table of routes is bound. -/
def SelfHealManager.findRoute (h : SelfHealManager) (target : NodeID) (now : Int) :
    Option MultiHopEntry :=
  h.multihop.bind fun m => m.findRoute target now

/-- From then on no route that is valid goes through the node. -/
def SelfHealManager.Abandons (h : SelfHealManager) (nodeId : NodeID) (finish : Int) : Prop :=
  ∀ later, finish ≤ later → ∀ target entry, h.findRoute target later = some entry →
    entry.nextHop ≠ nodeId

/-- The healing of this target would choose the failed node again. -/
def SelfHealManager.Reinstalls (h : SelfHealManager) (nodeId target : NodeID) : Prop :=
  ∃ m entry, h.multihop = some m ∧ target ≠ nodeId ∧ m.routes.lookup target = some entry ∧
    entry.nextHop = nodeId ∧ m.Reinstalls h.dht nodeId target entry

/-- The routes after the failure: those through the node are healed and its own
is gone. -/
theorem onNodeOffline_routes {h : SelfHealManager} (bound : h.multihop = some m) (nodeId : NodeID)
    (clock : NodeID → Int) (nowSecs : UInt64) :
    ∃ routes, (h.onNodeOffline nodeId clock nowSecs).1.multihop = some { m with routes } ∧
      MultihopManager.HealedAll { m with routes := m.routes.erase nodeId } h.dht nodeId clock
        (MultihopManager.findRoutesByNextHop { m with routes := m.routes.erase nodeId } nodeId)
        routes := by
  obtain ⟨routes, run, all⟩ := foldl_healRoute (findRoutesByNextHop_nodup _ nodeId)
    (fun _ member => mem_findRoutesByNextHop.mp member) h.dht clock []
  refine ⟨routes, ?_, all⟩
  simp only [SelfHealManager.onNodeOffline, SelfHealManager.updateState, bound]
  exact congrArg some run

theorem findRoute_eq_some {m : MultihopManager} :
    m.findRoute target now = some entry ↔
      m.routes.lookup target = some entry ∧ now < entry.expiresAt := by
  simp only [MultihopManager.findRoute, Option.filter_eq_some_iff, MultiHopEntry.isExpired,
    Bool.not_eq_true', decide_eq_false_iff_not, Int.not_le]

theorem reinstalled_findRoute {h : SelfHealManager} (clock : NodeID → Int) (nowSecs : UInt64)
    (again : h.Reinstalls nodeId target)
    (early : now < clock target + seconds defaultRouteTimeoutSecs) :
    ∃ entry, (h.onNodeOffline nodeId clock nowSecs).1.findRoute target now = some entry ∧
      entry.nextHop = nodeId := by
  obtain ⟨m, entry, bound, different, found, hop, again⟩ := again
  obtain ⟨routes, after, all⟩ := onNodeOffline_routes bound nodeId clock nowSecs
  have kept : (m.routes.erase nodeId).lookup target = some entry :=
    (AList.lookup_erase_ne different).trans found
  obtain ⟨before, healed, was, changed, healing⟩ :=
    (all target).2 (mem_findRoutesByNextHop.mpr ⟨entry, kept, hop⟩)
  cases Option.some.inj (kept.symm.trans was)
  rcases healing with ⟨-, through, expires⟩ | ⟨never, -⟩
  · refine ⟨healed, ?_, through⟩
    rw [SelfHealManager.findRoute, after, Option.bind_some]
    exact findRoute_eq_some.mpr ⟨changed, expires ▸ early⟩
  · exact absurd again never

theorem reinstalls_of_findRoute {h : SelfHealManager} (started : clock target ≤ now)
    (found : (h.onNodeOffline nodeId clock nowSecs).1.findRoute target now = some entry)
    (through : entry.nextHop = nodeId) :
    h.Reinstalls nodeId target ∧ now < clock target + seconds defaultRouteTimeoutSecs := by
  cases bound : h.multihop with
  | none => simp [SelfHealManager.findRoute, SelfHealManager.onNodeOffline,
      SelfHealManager.updateState, bound] at found
  | some m =>
    obtain ⟨routes, after, all⟩ := onNodeOffline_routes bound nodeId clock nowSecs
    rw [SelfHealManager.findRoute, after, Option.bind_some, findRoute_eq_some] at found
    obtain ⟨present, valid⟩ := found
    by_cases member : target ∈
        MultihopManager.findRoutesByNextHop { m with routes := m.routes.erase nodeId } nodeId
    · obtain ⟨before, healed, was, changed, healing⟩ := (all target).2 member
      obtain ⟨other, found, hop⟩ := mem_findRoutesByNextHop.mp member
      cases Option.some.inj (found.symm.trans was)
      cases Option.some.inj (present.symm.trans changed)
      have different : target ≠ nodeId := by
        rintro rfl
        simp at found
      rw [AList.lookup_erase_ne different] at found
      rcases healing with ⟨again, -, expires⟩ | ⟨-, elsewhere | expired⟩
      · exact ⟨⟨m, before, bound, different, found, hop, again⟩, expires ▸ valid⟩
      · exact absurd through elsewhere
      · have positive : 0 ≤ seconds 1 := by decide
        omega
    · -- A route that is not healed was there before and goes elsewhere.
      rw [(all target).1 member] at present
      exact absurd (mem_findRoutesByNextHop.mpr ⟨entry, present, through⟩) member

/-- The failed node is given up exactly when no route is healed through it, or the
call outlasts such a route. -/
theorem abandons_iff (h : SelfHealManager) (nodeId : NodeID) (clock : NodeID → Int)
    (nowSecs : UInt64) (finish : Int) (ordered : ∀ target, clock target ≤ finish) :
    (h.onNodeOffline nodeId clock nowSecs).1.Abandons nodeId finish ↔
      ∀ target, h.Reinstalls nodeId target →
        clock target + seconds defaultRouteTimeoutSecs ≤ finish := by
  constructor
  · intro abandons target again
    by_contra early
    obtain ⟨entry, found, through⟩ :=
      reinstalled_findRoute clock nowSecs again (Int.not_le.mp early)
    exact abandons finish (Int.le_refl _) target entry found through
  · intro gone later after target entry found through
    have started : clock target ≤ later := Int.le_trans (ordered target) after
    obtain ⟨again, valid⟩ := reinstalls_of_findRoute started found through
    have := gone target again
    omega

/-- A network with one route, through the only node of the table of nodes. -/
def relayedNetwork (candidates : List (NodeID × String)) : SelfHealManager :=
  let localId := fill 32 [1]
  let relay := fill 32 [3]
  let dht := ((DhtManager.new localId).insertNode relay "10.0.0.3:9876" 0).1
  let route := .new (fill 32 [2]) relay 2 .relay candidates 0
  let multihop := { MultihopManager.new localId with dht := some dht }.insertOrEvict route
  { SelfHealManager.new localId with multihop := some multihop, dht := some dht }

/-- With another candidate the route leaves the node that failed. -/
theorem abandons_iff_candidate : (∀ _ : NodeID, (0 : Int) ≤ 0) ∧
    ((relayedNetwork [(fill 32 [4], "10.0.0.4:9876")]).onNodeOffline (fill 32 [3])
      (fun _ => 0) 0).1.Abandons (fill 32 [3]) 0 := by
  refine ⟨fun _ => Int.le_refl 0, (abandons_iff _ _ _ _ _ fun _ => Int.le_refl 0).mpr ?_⟩
  rintro target ⟨m, entry, bound, -, found, -, exhausted, -⟩
  cases bound
  have route := List.mem_singleton.mp (AList.mem_lookup_iff.mp found)
  cases route
  exact absurd (exhausted _ List.mem_cons_self) (by decide)

/-- Without one the same node is found again and the route stays on it. -/
theorem failed_relay_reinstalled :
    ¬ ((relayedNetwork []).onNodeOffline (fill 32 [3]) (fun _ => 0) 0).1.Abandons
      (fill 32 [3]) 0 := by
  intro abandons
  have again : (relayedNetwork []).Reinstalls (fill 32 [3]) (fill 32 [2]) := by
    refine ⟨_, _, rfl, by decide, rfl, rfl, by decide, rfl, by decide, _, rfl, ?_⟩
    have stored : ((DhtManager.new (fill 32 [1])).insertNode (fill 32 [3])
        "10.0.0.3:9876" 0).1.allNodes = [(fill 32 [3], "10.0.0.3:9876")] := by decide +kernel
    simp [DhtManager.Nearest, stored]
  have early : (0 : Int) < 0 + seconds defaultRouteTimeoutSecs := by decide
  obtain ⟨entry, found, through⟩ := reinstalled_findRoute (fun _ => 0) 0 again early
  exact abandons 0 (Int.le_refl 0) _ entry found through

end LanLink.Vpn
