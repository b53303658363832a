import LanLink.Vpn.RouteDiscovery

/-! The table of routes over whole runs. The clock does not go back: every call says
how long after the one before it starts, how long it takes, and how much of this time
has passed when it reads the clock for a single target. The table of nodes behind the
routes may be another one at any time, as other components change it. -/
namespace LanLink.Vpn
open Words Maps

def cleanupIntervalSecs : Nat := 60

def MultihopManager.nextHop (m : MultihopManager) (target : NodeID) (now : Int) :
    Except RouterError NodeID :=
  match m.findRoute target now with
  | some entry => .ok entry.nextHop
  | none => .error (.noRoute target)

/-- The route of the target, if there is one, is valid for as long as a new one. -/
def MultihopManager.extend (m : MultihopManager) (target : NodeID) (now : Int) :
    MultihopManager :=
  match m.routes.lookup target with
  | some entry =>
    let extended := { entry with expiresAt := now + seconds defaultRouteTimeoutSecs }
    { m with routes := m.routes.insert target extended }
  | none => m

def MultihopManager.staleTargets (m : MultihopManager) (clock : NodeID → Int) : List NodeID :=
  (m.routes.entries.filter fun route => route.2.isExpired (clock route.1)).map Sigma.fst

/-- A route that cannot be discovered again is extended. -/
def MultihopManager.refreshRoute (m : MultihopManager) (target : NodeID) (now : Int) :
    MultihopManager × Nat :=
  match m.discoverRoute target now with
  | .ok m => (m, 1)
  | .error _ => (m.extend target now, 0)

/-- `seen` is the time when a route is looked at, `clock` the time when it is its turn. -/
def MultihopManager.refreshStaleRoutes (m : MultihopManager) (seen clock : NodeID → Int) :
    MultihopManager × Nat :=
  (m.staleTargets seen).foldl (fun (m, refreshed) target =>
    let (m, one) := m.refreshRoute target (clock target)
    (m, refreshed + one)) (m, 0)

/-- The times of a call. -/
structure Timing where
  elapsed : Nat
  duration : Nat
  first : NodeID → Nat
  second : NodeID → Nat

section
variable (timing : Timing) (clock : Int)

def Timing.start : Int := clock + timing.elapsed

def Timing.seen (target : NodeID) : Int :=
  timing.start clock + (min (timing.first target) timing.duration : Nat)

def Timing.turn (target : NodeID) : Int :=
  timing.start clock + (min (timing.second target) timing.duration : Nat)

def Timing.finish : Int := timing.start clock + timing.duration

end

/-- The manager with the time of its last cleanup. -/
structure Routing where
  manager : MultihopManager
  lastCleanup : Int
  clock : Int

def Routing.new (localId : NodeID) (now : Int) : Routing := ⟨.new localId, now, now⟩

inductive RouteCall (localId : NodeID) where
  | discoverRoute (target : NodeID)
  | addDirectRoute (target : NodeID) (addr : String)
  | insertRoute (entry : MultiHopEntry)
  | findAlternative (target : NodeID)
  | markInvalid (target : NodeID)
  | removeRoute (target : NodeID)
  | refreshStaleRoutes
  | cleanupExpired
  | setDht (directory : Option (Directory localId))

/-- A failed operation leaves the routes as they are. -/
def orSame (m : MultihopManager) : Except RouterError MultihopManager → MultihopManager
  | .ok after => after
  | .error _ => m

/-- The table of routes after a call; `now` is the time when it starts. -/
def MultihopManager.call {localId : NodeID} (m : MultihopManager) (now : Int)
    (seen turn : NodeID → Int) : RouteCall localId → MultihopManager
  | .discoverRoute target => orSame m (m.discoverRoute target now)
  | .addDirectRoute target addr => m.addDirectRoute target addr now
  | .insertRoute entry => m.insertOrEvict entry
  | .findAlternative target => orSame m (m.findAlternative target now)
  | .markInvalid target => m.markInvalid target now
  | .removeRoute target => (m.removeRoute target).1
  | .refreshStaleRoutes => (m.refreshStaleRoutes seen turn).1
  | .cleanupExpired =>
    { m with routes := retain (fun target entry => !entry.isExpired (seen target)) m.routes }
  | .setDht directory => { m with dht := directory.map Directory.dht }

/-- The cleanup is skipped when the last one is less than a minute ago. -/
def Routing.skips (s : Routing) (timing : Timing) : RouteCall localId → Bool
  | .cleanupExpired => timing.start s.clock - s.lastCleanup < seconds cleanupIntervalSecs
  | _ => false

def Routing.next (s : Routing) (call : RouteCall localId) (timing : Timing) : Routing :=
  let now := timing.start s.clock
  if s.skips timing call then { s with clock := timing.finish s.clock }
  else
    { manager := s.manager.call now (timing.seen s.clock) (timing.turn s.clock) call
      lastCleanup := match call with
        | .cleanupExpired => now
        | _ => s.lastCleanup
      clock := timing.finish s.clock }

def Routing.step (s : Routing) (action : RouteCall localId × Timing) : Option Routing :=
  some (s.next action.1 action.2)

/-- Every key is the target of its route, and the table is not too large. -/
structure Filed (m : MultihopManager) : Prop where
  keys : ∀ target entry, m.routes.lookup target = some entry → entry.target = target
  bounded : m.routes.entries.length ≤ m.maxEntries
  positive : 0 < m.maxEntries

/-- What an insert does to a table: it evicts nothing for a target that has a route
or where there is room, and else one route, of those active least recently. -/
structure Inserted (before after : MultihopManager) (entry : MultiHopEntry) : Prop where
  there : after.routes.lookup entry.target = some entry
  kept : (entry.target ∈ before.routes ∨ before.routes.entries.length < before.maxEntries) →
    ∀ other ≠ entry.target, after.routes.lookup other = before.routes.lookup other
  evicted : entry.target ∉ before.routes → before.maxEntries ≤ before.routes.entries.length →
    ∃ victim oldest, before.routes.lookup victim = some oldest ∧
      (∀ other route, before.routes.lookup other = some route →
        oldest.lastActive ≤ route.lastActive) ∧
      after.routes.lookup victim = none ∧
      ∀ other, other ≠ entry.target → other ≠ victim →
        after.routes.lookup other = before.routes.lookup other

theorem leastActive_none (none_found : leastActive routes = none) : routes = [] := by
  cases routes with
  | nil => rfl
  | cons route rest =>
    rw [leastActive] at none_found
    split at none_found
    · split at none_found
      · cases none_found
      · cases none_found
    · cases none_found

theorem leastActive_some (found : leastActive routes = some oldest) :
    oldest ∈ routes ∧ ∀ route ∈ routes, oldest.2.lastActive ≤ route.2.lastActive := by
  induction routes generalizing oldest with
  | nil => cases found
  | cons route rest ih =>
    rw [leastActive] at found
    split at found
    · rename_i other behind
      obtain ⟨member, least⟩ := ih behind
      split at found
      · rename_i older
        cases found
        refine ⟨List.mem_cons_of_mem _ member, fun another listed => ?_⟩
        rcases List.mem_cons.mp listed with rfl | listed
        · exact Int.le_of_lt older
        · exact least another listed
      · rename_i younger
        cases found
        refine ⟨List.mem_cons_self, fun another listed => ?_⟩
        rcases List.mem_cons.mp listed with rfl | listed
        · exact Int.le_refl _
        · exact Int.le_trans (Int.not_lt.mp younger) (least another listed)
    · rename_i alone
      cases found
      rw [leastActive_none alone]
      refine ⟨List.mem_cons_self, fun another listed => ?_⟩
      rw [List.mem_singleton.mp listed]

/-- The three ways of an insert. -/
theorem insertOrEvict_cases (m : MultihopManager) (entry : MultiHopEntry)
    (positive : 0 < m.maxEntries) :
    ((entry.target ∈ m.routes ∨ m.routes.entries.length < m.maxEntries) ∧
        m.insertOrEvict entry = { m with routes := m.routes.insert entry.target entry }) ∨
      (entry.target ∉ m.routes ∧ m.maxEntries ≤ m.routes.entries.length ∧
        ∃ oldest, leastActive m.routes.entries = some oldest ∧ m.insertOrEvict entry =
          { m with routes := (m.routes.erase oldest.1).insert entry.target entry }) := by
  rw [MultihopManager.insertOrEvict]
  by_cases there : entry.target ∈ m.routes
  · exact .inl ⟨.inl there, if_pos there⟩
  rw [if_neg there]
  by_cases room : m.routes.entries.length < m.maxEntries
  · exact .inl ⟨.inr room, if_pos room⟩
  rw [if_neg room]
  cases found : leastActive m.routes.entries with
  | none =>
    rw [leastActive_none found] at room
    exact absurd positive room
  | some oldest => exact .inr ⟨there, Nat.le_of_not_lt room, oldest, rfl, rfl⟩

theorem inserted (m : MultihopManager) (entry : MultiHopEntry) (positive : 0 < m.maxEntries) :
    Inserted m (m.insertOrEvict entry) entry := by
  rcases insertOrEvict_cases m entry positive with
    ⟨free, changed⟩ | ⟨absent, full, oldest, found, changed⟩
  · rw [changed]
    constructor
    · exact AList.lookup_insert _
    · intro _ other different
      exact AList.lookup_insert_ne different
    · intro absent full
      exact absurd full (Nat.not_le_of_lt (free.resolve_left absent))
  · obtain ⟨member, least⟩ := leastActive_some found
    have listed : m.routes.lookup oldest.1 = some oldest.2 := AList.mem_lookup_iff.mpr member
    have different : oldest.1 ≠ entry.target := by
      intro same
      rw [same] at listed
      exact absent (mem_of_lookup listed)
    rw [changed]
    constructor
    · exact AList.lookup_insert _
    · rintro (there | room)
      · exact absurd there absent
      · exact absurd full (Nat.not_le_of_lt room)
    · intro _ _
      refine ⟨oldest.1, oldest.2, listed, ?_, ?_, ?_⟩
      · intro other route known
        exact least ⟨other, route⟩ (AList.mem_lookup_iff.mp known)
      · dsimp only
        rw [AList.lookup_insert_ne different, AList.lookup_erase]
      · intro other apart spared
        dsimp only
        rw [AList.lookup_insert_ne apart, AList.lookup_erase_ne spared]

/-- An insert for another target keeps the route or evicts it. -/
theorem insertOrEvict_other {m : MultihopManager} (other : target ≠ entry.target)
    (found : (m.insertOrEvict entry).routes.lookup target = some route) :
    m.routes.lookup target = some route := by
  rw [MultihopManager.insertOrEvict] at found
  split at found
  · rwa [AList.lookup_insert_ne other] at found
  · split at found
    · rwa [AList.lookup_insert_ne other] at found
    · split at found
      · rename_i oldest _
        rw [AList.lookup_insert_ne other] at found
        exact (lookup_of_lookup_erase found).2
      · rwa [AList.lookup_insert_ne other] at found

section
variable {m : MultihopManager}

/-- A table from which routes are taken away. -/
theorem Filed.fewer (filed : Filed m) {routes : Map NodeID MultiHopEntry}
    (known : ∀ target entry, routes.lookup target = some entry →
      m.routes.lookup target = some entry)
    (shorter : routes.entries.length ≤ m.routes.entries.length) :
    Filed { m with routes } where
  keys target entry found := filed.keys target entry (known target entry found)
  bounded := shorter.trans filed.bounded
  positive := filed.positive

theorem Filed.erase (filed : Filed m) (target : NodeID) :
    Filed { m with routes := m.routes.erase target } := by
  apply filed.fewer
  · intro other entry found
    exact (lookup_of_lookup_erase found).2
  · by_cases there : target ∈ m.routes
    · have shorter := length_erase there
      omega
    · rw [erase_of_not_mem there]

theorem Filed.insert_keys (filed : Filed m) (named : entry.target = target) (other : NodeID)
    (route : MultiHopEntry) (found : (m.routes.insert target entry).lookup other = some route) :
    route.target = other := by
  by_cases same : other = target
  · rw [same, AList.lookup_insert] at found
    cases found
    exact named.trans same.symm
  · rw [AList.lookup_insert_ne same] at found
    exact filed.keys other route found

/-- The route of a target that has one is replaced. -/
theorem Filed.replace (filed : Filed m) (there : target ∈ m.routes)
    (named : entry.target = target) :
    Filed { m with routes := m.routes.insert target entry } where
  keys := filed.insert_keys named
  bounded := (length_insert_of_mem there entry).trans_le filed.bounded
  positive := filed.positive

theorem Filed.add (filed : Filed m) (absent : entry.target ∉ m.routes)
    (room : m.routes.entries.length < m.maxEntries) :
    Filed { m with routes := m.routes.insert entry.target entry } where
  keys := filed.insert_keys rfl
  bounded := (length_insert_of_not_mem absent entry).trans_le room
  positive := filed.positive

theorem Filed.insertOrEvict (filed : Filed m) (entry : MultiHopEntry) :
    Filed (m.insertOrEvict entry) := by
  rcases insertOrEvict_cases m entry filed.positive with
    ⟨free, changed⟩ | ⟨absent, full, oldest, found, changed⟩
  · rw [changed]
    by_cases there : entry.target ∈ m.routes
    · exact filed.replace there rfl
    · exact filed.add there (free.resolve_left there)
  · rw [changed]
    have member := List.mem_map_of_mem (f := Sigma.fst) (leastActive_some found).1
    have shorter := length_erase (m := m.routes) (k := oldest.1) member
    apply (filed.erase oldest.1).add
    · intro there
      exact absent (AList.mem_erase.mp there).2
    · have bounded := filed.bounded
      change (m.routes.erase oldest.1).entries.length < m.maxEntries
      omega

theorem Filed.discoverRoute (filed : Filed m) (target : NodeID) (now : Int) :
    Filed (orSame m (m.discoverRoute target now)) := by
  rcases discoverRoute_cases m target now with ⟨-, error, failed⟩ | ⟨entry, -, installed⟩
  · rw [failed]
    exact filed
  · rw [installed]
    exact filed.insertOrEvict entry

theorem Filed.addDirectRoute (filed : Filed m) (target : NodeID) (addr : String) (now : Int) :
    Filed (m.addDirectRoute target addr now) := by
  rw [MultihopManager.addDirectRoute]
  split
  · exact filed
  · exact filed.insertOrEvict _

/-- A switch to another hop is an update of a route that is there. -/
theorem findAlternative_cases (m : MultihopManager) (target : NodeID) (now : Int) :
    (∃ error, m.findAlternative target now = .error error) ∨
      ∃ entry node, m.routes.lookup target = some entry ∧
        entry.alternative m.localId = some node ∧ m.findAlternative target now =
          .ok { m with routes := m.routes.insert target (entry.switched target node.1 now) } := by
  rw [MultihopManager.findAlternative]
  cases found : m.routes.lookup target with
  | none => exact .inl ⟨_, rfl⟩
  | some entry =>
    dsimp only
    cases switch : entry.alternative m.localId with
    | none => exact .inl ⟨_, rfl⟩
    | some node => exact .inr ⟨entry, node, rfl, switch, rfl⟩

theorem findAlternative_switch (found : m.routes.lookup target = some entry)
    (switch : entry.alternative m.localId = some node) (now : Int) :
    m.findAlternative target now =
      .ok { m with routes := m.routes.insert target (entry.switched target node.1 now) } := by
  simp only [MultihopManager.findAlternative, found, switch]

theorem Filed.findAlternative (filed : Filed m) (target : NodeID) (now : Int) :
    Filed (orSame m (m.findAlternative target now)) := by
  rcases findAlternative_cases m target now with ⟨error, failed⟩ | ⟨entry, node, found, -, changed⟩
  · rw [failed]
    exact filed
  · rw [changed]
    exact filed.replace (mem_of_lookup found) rfl

theorem Filed.markInvalid (filed : Filed m) (target : NodeID) (now : Int) :
    Filed (m.markInvalid target now) := by
  rw [MultihopManager.markInvalid]
  split
  · rename_i entry found
    exact filed.replace (mem_of_lookup found) (filed.keys target entry found)
  · exact filed

/-- The route of a target after its turn in a refresh. -/
def MultihopManager.renewed (m : MultihopManager) (target : NodeID) (now : Int)
    (entry : MultiHopEntry) : MultiHopEntry :=
  (discovered m.localId m.dht target now).getD
    { entry with expiresAt := now + seconds defaultRouteTimeoutSecs }

theorem renewed_target (m : MultihopManager) (now : Int) (named : entry.target = target) :
    (m.renewed target now entry).target = target := by
  rw [MultihopManager.renewed]
  cases found : discovered m.localId m.dht target now with
  | none => exact named
  | some new => exact discovered_target found

theorem refreshRoute_found (found : m.routes.lookup target = some entry) (now : Int) :
    (m.refreshRoute target now).1 =
      { m with routes := m.routes.insert target (m.renewed target now entry) } := by
  rw [MultihopManager.refreshRoute, MultihopManager.renewed]
  rcases discoverRoute_cases m target now with ⟨missing, error, failed⟩ | ⟨new, known, installed⟩
  · rw [failed, missing]
    dsimp only
    rw [MultihopManager.extend, found]
    rfl
  · have named := discovered_target known
    rw [installed, known, insertOrEvict_present (named ▸ mem_of_lookup found), named]
    rfl

/-- The targets of a refresh are renewed one after the other, and the other routes
stay. -/
theorem foldl_refreshRoute {targets : List NodeID} (distinct : targets.Nodup)
    (there : ∀ target ∈ targets, target ∈ m.routes) (clock : NodeID → Int) (refreshed : Nat) :
    ∃ routes, (targets.foldl (fun (m, refreshed) target =>
        let (m, one) := m.refreshRoute target (clock target)
        (m, refreshed + one)) (m, refreshed)).1 = { m with routes } ∧
      routes.entries.length = m.routes.entries.length ∧
      ∀ target, routes.lookup target =
        if target ∈ targets then (m.routes.lookup target).map (m.renewed target (clock target))
        else m.routes.lookup target := by
  induction targets generalizing m refreshed with
  | nil => exact ⟨m.routes, rfl, rfl, by simp⟩
  | cons target rest ih =>
    obtain ⟨apart, distinct⟩ := List.nodup_cons.mp distinct
    obtain ⟨entry, found⟩ := exists_lookup (there target List.mem_cons_self)
    have changed := refreshRoute_found found (clock target)
    generalize stepped : m.refreshRoute target (clock target) = result at changed
    obtain ⟨after, one⟩ := result
    cases changed
    have still : ∀ other ∈ rest,
        other ∈ m.routes.insert target (m.renewed target (clock target) entry) := by
      intro other member
      exact (AList.mem_insert _).mpr (.inr (there other (List.mem_cons_of_mem _ member)))
    obtain ⟨routes, run, same, all⟩ := ih distinct
      (m := { m with routes := m.routes.insert target (m.renewed target (clock target) entry) })
      still (refreshed + one)
    refine ⟨routes, ?_, same.trans (length_insert_of_mem (mem_of_lookup found) _), ?_⟩
    · rw [List.foldl_cons]
      dsimp only
      rw [stepped]
      exact run
    · intro other
      rw [all other]
      by_cases this : other = target
      · subst this
        rw [if_neg apart, if_pos List.mem_cons_self, AList.lookup_insert, found]
        rfl
      · rw [AList.lookup_insert_ne this]
        simp only [List.mem_cons, this, false_or]
        rfl

theorem mem_staleTargets {seen : NodeID → Int} :
    target ∈ m.staleTargets seen ↔
      ∃ entry, m.routes.lookup target = some entry ∧ entry.isExpired (seen target) := by
  simp only [MultihopManager.staleTargets, List.mem_map, List.mem_filter]
  constructor
  · rintro ⟨route, ⟨member, expired⟩, rfl⟩
    exact ⟨route.2, AList.mem_lookup_iff.mpr member, expired⟩
  · rintro ⟨entry, found, expired⟩
    exact ⟨⟨target, entry⟩, ⟨AList.mem_lookup_iff.mp found, expired⟩, rfl⟩

/-- A refresh renews the routes that it sees expired. -/
theorem refreshStaleRoutes_spec (m : MultihopManager) (seen clock : NodeID → Int) :
    ∃ routes, (m.refreshStaleRoutes seen clock).1 = { m with routes } ∧
      routes.entries.length = m.routes.entries.length ∧
      ∀ target, routes.lookup target = (m.routes.lookup target).map fun entry =>
        if entry.isExpired (seen target) then m.renewed target (clock target) entry else entry := by
  have keys : (m.routes.entries.map Sigma.fst).Nodup := m.routes.nodupKeys
  have distinct : (m.staleTargets seen).Nodup := keys.sublist (List.filter_sublist.map _)
  have there : ∀ target ∈ m.staleTargets seen, target ∈ m.routes := by
    intro target member
    obtain ⟨entry, found, -⟩ := mem_staleTargets.mp member
    exact mem_of_lookup found
  obtain ⟨routes, run, same, all⟩ := foldl_refreshRoute distinct there clock 0
  refine ⟨routes, run, same, fun target => ?_⟩
  rw [all target]
  cases found : m.routes.lookup target with
  | none => simp
  | some entry =>
    have stale : target ∈ m.staleTargets seen ↔ entry.isExpired (seen target) = true := by
      rw [mem_staleTargets, found]
      simp
    by_cases expired : entry.isExpired (seen target) = true
    · simp [stale, expired]
    · simp [stale, expired]

theorem Filed.refreshStaleRoutes (filed : Filed m) (seen clock : NodeID → Int) :
    Filed (m.refreshStaleRoutes seen clock).1 := by
  obtain ⟨routes, run, same, all⟩ := refreshStaleRoutes_spec m seen clock
  rw [run]
  constructor
  · intro target entry found
    dsimp only at found
    rw [all target] at found
    obtain ⟨before, known, rfl⟩ := Option.map_eq_some_iff.mp found
    have named := filed.keys target before known
    split
    · exact renewed_target m _ named
    · exact named
  · exact same.trans_le filed.bounded
  · exact filed.positive

theorem Filed.call {localId : NodeID} (filed : Filed m) (now : Int) (seen turn : NodeID → Int)
    (call : RouteCall localId) : Filed (m.call now seen turn call) := by
  cases call with
  | discoverRoute target => exact filed.discoverRoute target now
  | addDirectRoute target addr => exact filed.addDirectRoute target addr now
  | insertRoute entry => exact filed.insertOrEvict entry
  | findAlternative target => exact filed.findAlternative target now
  | markInvalid target => exact filed.markInvalid target now
  | removeRoute target => exact filed.erase target
  | refreshStaleRoutes => exact filed.refreshStaleRoutes seen turn
  | cleanupExpired =>
    apply filed.fewer
    · intro target entry found
      rw [lookup_retain] at found
      exact (Option.filter_eq_some_iff.mp found).1
    · exact length_retain_le _ _
  | setDht directory => exact ⟨filed.keys, filed.bounded, filed.positive⟩

theorem Filed.step {localId : NodeID} {s t : Routing} {action : RouteCall localId × Timing}
    (filed : Filed s.manager) (stepped : s.step action = some t) : Filed t.manager := by
  cases Option.some.inj stepped
  unfold Routing.next
  dsimp only
  split
  · exact filed
  · exact filed.call _ _ _ action.1

/-- How a call inserts routes. A switch is an insert for a target that has a route,
and so is each discovery of a refresh. -/
def MultihopManager.Inserts {localId : NodeID} (before after : MultihopManager) (now : Int) :
    RouteCall localId → Prop
  | .discoverRoute target =>
    match before.discoverRoute target now with
    | .ok _ => ∃ entry, entry.target = target ∧ Inserted before after entry
    | .error _ => after = before
  | .addDirectRoute target _ =>
    if target = before.localId then after = before
    else ∃ entry, entry.target = target ∧ Inserted before after entry
  | .insertRoute entry => Inserted before after entry
  | .findAlternative target =>
    match before.findAlternative target now with
    | .ok _ => target ∈ before.routes ∧ ∃ entry, entry.target = target ∧
        Inserted before after entry
    | .error _ => after = before
  | .refreshStaleRoutes => ∀ target, target ∈ after.routes ↔ target ∈ before.routes
  | _ => True

theorem Filed.inserts {localId : NodeID} (filed : Filed m) (now : Int) (seen turn : NodeID → Int)
    (call : RouteCall localId) : m.Inserts (m.call now seen turn call) now call := by
  cases call with
  | discoverRoute target =>
    simp only [MultihopManager.Inserts, MultihopManager.call]
    rcases discoverRoute_cases m target now with ⟨-, error, failed⟩ | ⟨entry, known, installed⟩
    · rw [failed]
      rfl
    · rw [installed]
      exact ⟨entry, discovered_target known, inserted m entry filed.positive⟩
  | addDirectRoute target addr =>
    simp only [MultihopManager.Inserts, MultihopManager.call, MultihopManager.addDirectRoute]
    split
    · rfl
    · exact ⟨_, rfl, inserted m _ filed.positive⟩
  | insertRoute entry => exact inserted m entry filed.positive
  | findAlternative target =>
    simp only [MultihopManager.Inserts, MultihopManager.call]
    rcases findAlternative_cases m target now with
      ⟨error, failed⟩ | ⟨entry, node, found, -, changed⟩
    · rw [failed]
      rfl
    · rw [changed]
      have there := mem_of_lookup found
      have same : m.insertOrEvict (entry.switched target node.1 now) =
          { m with routes := m.routes.insert target (entry.switched target node.1 now) } :=
        insertOrEvict_present there
      exact ⟨there, _, rfl, same ▸ inserted m (entry.switched target node.1 now) filed.positive⟩
  | refreshStaleRoutes =>
    intro target
    obtain ⟨routes, run, -, all⟩ := refreshStaleRoutes_spec m seen turn
    simp only [MultihopManager.call]
    rw [run, ← AList.lookup_isSome, ← AList.lookup_isSome, all target, Option.isSome_map]
  | markInvalid target => trivial
  | removeRoute target => trivial
  | cleanupExpired => trivial
  | setDht directory => trivial

/-- The call of a step inserts as it should. -/
def Inserts {localId : NodeID} (s : Routing) (action : RouteCall localId × Timing) : Prop :=
  s.manager.Inserts (s.next action.1 action.2).manager (action.2.start s.clock) action.1

theorem inserts_of_filed {localId : NodeID} {s : Routing} (filed : Filed s.manager)
    (action : RouteCall localId × Timing) : Inserts s action := by
  unfold Inserts Routing.next
  dsimp only
  split
  · rename_i skipped
    obtain ⟨call, timing⟩ := action
    cases call with
    | cleanupExpired => trivial
    | _ => cases skipped
  · exact filed.inserts _ _ _ action.1

theorem filed_new (localId : NodeID) (now : Int) : Filed (Routing.new localId now).manager := by
  constructor
  · intro target entry found
    cases found
  · exact Nat.zero_le _
  · exact Nat.zero_lt_succ 999

/-- In every run the table of routes is filed by its targets and not too large, and
every insert evicts as it should. -/
theorem route_table_bounded (localId : NodeID) (now : Int)
    (actions : List (RouteCall localId × Timing)) :
    Runs.Always Routing.step (fun s => Filed s.manager) (.new localId now) actions ∧
      Runs.Meets Routing.step Inserts (.new localId now) actions := by
  have every : Runs.Meets Routing.step (fun _ _ => True) (.new localId now) actions :=
    Runs.meets_of_forall fun _ _ _ => trivial
  constructor
  · exact Runs.always_of_meets (I := fun s => Filed s.manager)
      (fun filed _ stepped => filed.step stepped) (fun _ filed => filed) every (filed_new localId now)
  · exact Runs.meets_mono (P := fun s => Filed s.manager)
      (fun filed stepped => filed.step stepped) (fun filed _ => inserts_of_filed filed _) every
      (filed_new localId now)

end

end LanLink.Vpn
