import LanLink.Vpn.DhtSearch
import LanLink.Vpn.FailedHops

/-! The route that a discovery installs. The nodes come from the search sorted by all
256 bits of their distances and are sorted again by the first 128. -/
namespace LanLink.Vpn
open Words Maps

/-- A table of nodes as the operations of the local node build it. -/
structure Directory (localId : NodeID) where
  dht : DhtManager
  table : Table dht
  own : dht.localId = localId

theorem Directory.foreign (directory : Directory localId) :
    localId ∉ directory.dht.nodeIds := by
  have foreign := directory.table.foreign
  rwa [directory.own] at foreign

/-- The route to take to a target: over the nearest stored node, with the next
nearest ones in reserve. -/
structure NearestRoute (dht : DhtManager) (localId target : NodeID) (entry : MultiHopEntry) :
    Prop where
  nearest : dht.Nearest target entry.nextHop
  stored : target ∈ dht.nodeIds → entry.nextHop = target
  direct : entry.hopCount = 1 ↔ entry.nextHop = target
  foreign : entry.nextHop ≠ localId
  reserve : entry.candidates.length = min kCandidatesMax (dht.nodeIds.length - 1)
  known : ∀ node ∈ entry.candidates, node ∈ dht.allNodes ∧ node.1 ≠ entry.nextHop
  increasing : entry.candidates.Pairwise fun a b => distance target a.1 < distance target b.1
  next : ∀ other ∈ dht.allNodes, other.1 ≠ entry.nextHop → other ∉ entry.candidates →
    ∀ node ∈ entry.candidates, distance target node.1 < distance target other.1

/-- The route over the first of some nodes. -/
def routeOver (target : NodeID) (first : NodeID × String) (rest : List (NodeID × String))
    (now : Int) : MultiHopEntry :=
  .new target first.1 (if first.1 = target then 1 else 2)
    (if first.1 = target then .lan else .relay) (rest.take kCandidatesMax) now

/-- The route that a discovery installs. -/
def discovered (localId : NodeID) (dht : Option DhtManager) (target : NodeID) (now : Int) :
    Option MultiHopEntry :=
  if target = localId then none
  else
    match dht.map (DhtManager.findNode · target) with
    | some (first :: others) =>
      some (routeOver target first (others.filter fun node => node.1 ≠ first.1) now)
    | _ => none

theorem distance_self (target : NodeID) : distance target target = 0 := by
  have zero : ofBigEndian (xorDistance target target) = ofBigEndian (List.replicate 32 0) := by
    congr 1
    apply List.ext_getElem (by simp [xorDistance_length])
    intro i _ _
    simp [xorDistance, Bits.xorBytes]
  rw [distance, zero]
  decide

@[simp] theorem insertOrEvict_lookup (m : MultihopManager) (entry : MultiHopEntry) :
    (m.insertOrEvict entry).routes.lookup entry.target = some entry := by
  rw [MultihopManager.insertOrEvict]
  split
  · exact AList.lookup_insert _
  · split
    · exact AList.lookup_insert _
    · split
      · exact AList.lookup_insert _
      · exact AList.lookup_insert _

theorem byDistance_distinct {dht : DhtManager} (distinct : dht.nodeIds.Nodup) (target : NodeID) :
    ((dht.byDistance target).map Prod.fst).Nodup :=
  (byDistance_ids dht target).nodup_iff.mpr distinct

theorem byDistance_length (dht : DhtManager) (target : NodeID) :
    (dht.byDistance target).length = dht.nodeIds.length := by
  have lengths := (byDistance_ids dht target).length_eq
  rwa [List.length_map] at lengths

/-- What is discovered does not depend on the routes that are there. -/
theorem discoverRoute_cases (m : MultihopManager) (target : NodeID) (now : Int) :
    (discovered m.localId m.dht target now = none ∧
        ∃ error, m.discoverRoute target now = .error error) ∨
      ∃ entry, discovered m.localId m.dht target now = some entry ∧
        m.discoverRoute target now = .ok (m.insertOrEvict entry) := by
  rw [MultihopManager.discoverRoute, discovered]
  by_cases own : target = m.localId
  · exact .inl ⟨if_pos own, _, if_pos own⟩
  rw [if_neg own, if_neg own]
  cases m.dht with
  | none => exact .inl ⟨rfl, _, rfl⟩
  | some dht =>
    dsimp only [Option.map_some]
    rw [resorted]
    cases dht.findNode target with
    | nil => exact .inl ⟨rfl, _, rfl⟩
    | cons first others => exact .inr ⟨_, rfl, rfl⟩

theorem discoverRoute_discovered {m : MultihopManager}
    (found : discovered m.localId m.dht target now = some entry) :
    m.discoverRoute target now = .ok (m.insertOrEvict entry) := by
  rcases discoverRoute_cases m target now with ⟨missing, -⟩ | ⟨other, same, installed⟩
  · rw [found] at missing
    cases missing
  · cases Option.some.inj (found.symm.trans same)
    exact installed

theorem discovered_routeOver (found : discovered localId dht target now = some entry) :
    target ≠ localId ∧ ∃ table first rest, dht = some table ∧ table.nodeIds ≠ [] ∧
      entry = routeOver target first rest now := by
  rw [discovered] at found
  split at found
  · cases found
  rename_i other
  split at found
  · rename_i first others searched
    obtain ⟨table, rfl, nodes⟩ := Option.map_eq_some_iff.mp searched
    refine ⟨other, table, first, _, rfl, fun empty => ?_, (Option.some.inj found).symm⟩
    have short : (table.findNode target).length ≤ table.nodeIds.length := by
      rw [DhtManager.findNode, findNearest_eq, ← byDistance_length table target]
      exact List.length_take_le' _ _
    rw [nodes, empty] at short
    exact absurd short (Nat.not_succ_le_zero _)
  · cases found

theorem discovered_target (found : discovered localId dht target now = some entry) :
    entry.target = target := by
  obtain ⟨-, table, first, rest, -, -, rfl⟩ := discovered_routeOver found
  rfl

/-- The discovery goes over the nearest node. -/
theorem discovered_sorted {dht : DhtManager} (distinct : dht.nodeIds.Nodup)
    (other : target ≠ localId) (sorted : dht.byDistance target = first :: rest) (now : Int) :
    discovered localId (some dht) target now = some (routeOver target first rest now) := by
  have ids := byDistance_distinct distinct target
  rw [sorted, List.map_cons, List.nodup_cons] at ids
  have found : dht.findNode target = first :: rest.take 19 := by
    rw [DhtManager.findNode, findNearest_eq, sorted]
    rfl
  have apart : (rest.take 19).filter (fun node => node.1 ≠ first.1) = rest.take 19 := by
    apply List.filter_eq_self.mpr
    intro node member
    have different : node.1 ≠ first.1 := by
      intro same
      exact ids.1 (same ▸ List.mem_map_of_mem (List.mem_of_mem_take member))
    exact decide_eq_true different
  have reserve : (rest.take 19).take kCandidatesMax = rest.take kCandidatesMax := by
    rw [List.take_take]
    rfl
  rw [discovered, if_neg other, Option.map_some, found]
  dsimp only
  rw [apart, routeOver, reserve]
  rfl

theorem routeOver_nearest {localId : NodeID} (directory : Directory localId)
    (sorted : directory.dht.byDistance target = first :: rest) (now : Int) :
    NearestRoute directory.dht localId target (routeOver target first rest now) := by
  have strict := byDistance_strict directory.table.distinct target
  have listed : ∀ node, node ∈ directory.dht.allNodes ↔ node ∈ first :: rest := by
    intro node
    rw [← sorted]
    exact (byDistance_perm directory.dht target).mem_iff.symm
  have ids : ∀ node ∈ directory.dht.allNodes, node.1 ∈ directory.dht.nodeIds := by
    intro node member
    rw [← allNodes_ids]
    exact List.mem_map_of_mem member
  have nearest := nearest_of_byDistance sorted
  rw [sorted, List.pairwise_cons] at strict
  obtain ⟨least, strict⟩ := strict
  constructor
  · exact nearest
  · intro known
    rw [← allNodes_ids] at known
    have zero : distance target first.1 ≤ distance target target := nearest.2 target known
    rw [distance_self] at zero
    exact distance_injective ((Nat.le_zero.mp zero).trans (distance_self target).symm)
  · change (if first.1 = target then (1 : UInt8) else 2) = 1 ↔ first.1 = target
    split
    · rename_i same
      exact iff_of_true rfl same
    · rename_i different
      exact iff_of_false (by decide) different
  · intro same
    exact directory.foreign (same ▸ ids first ((listed first).mpr List.mem_cons_self))
  · have size := byDistance_length directory.dht target
    rw [sorted, List.length_cons] at size
    change (rest.take kCandidatesMax).length = _
    rw [List.length_take]
    omega
  · intro node member
    have behind : node ∈ rest := List.mem_of_mem_take member
    refine ⟨(listed node).mpr (List.mem_cons_of_mem _ behind), fun same => ?_⟩
    have farther := least node behind
    rw [show node.1 = first.1 from same] at farther
    exact Nat.lt_irrefl _ farther
  · exact strict.sublist (List.take_sublist _ _)
  · intro other known different missing node member
    have behind : other ∈ rest := by
      rcases List.mem_cons.mp ((listed other).mp known) with rfl | behind
      · exact absurd rfl different
      · exact behind
    -- a node that is not in reserve stands behind those that are
    rw [← List.take_append_drop kCandidatesMax rest] at strict behind
    have late := (List.mem_append.mp behind).resolve_left missing
    exact (List.pairwise_append.mp strict).2.2 node member other late

theorem Directory.discovers {localId : NodeID} (directory : Directory localId)
    (stored : directory.dht.nodeIds ≠ []) (other : target ≠ localId) (now : Int) :
    ∃ entry, discovered localId (some directory.dht) target now = some entry ∧
      NearestRoute directory.dht localId target entry := by
  cases sorted : directory.dht.byDistance target with
  | nil =>
    have empty := byDistance_length directory.dht target
    rw [sorted, List.length_nil] at empty
    exact absurd (List.length_eq_zero_iff.mp empty.symm) stored
  | cons first rest =>
    have found := discovered_sorted directory.table.distinct other sorted now
    exact ⟨_, found, routeOver_nearest directory sorted now⟩

theorem discovered_nearest {localId : NodeID} (directory : Directory localId)
    (found : discovered localId (some directory.dht) target now = some entry) :
    NearestRoute directory.dht localId target entry := by
  obtain ⟨other, table, first, rest, same, stored, -⟩ := discovered_routeOver found
  cases same
  obtain ⟨route, known, nearest⟩ := directory.discovers stored other now
  cases Option.some.inj (found.symm.trans known)
  exact nearest

/-- Over the table that any operations have built, unless it is empty, a discovery
installs the route over the nearest node. In every table sorting by the prefix
changes nothing. -/
theorem discoverRoute_nearest (sha256 : Bytes → NodeID) (m : MultihopManager)
    (actions : List DhtAction) (target : NodeID) (other : target ≠ m.localId) (now : Int) :
    (∃ dht, Runs.exec (DhtManager.step sha256) (.new m.localId) actions = some dht ∧
      (dht.nodeIds ≠ [] → ∃ after entry,
        MultihopManager.discoverRoute { m with dht := some dht } target now = .ok after ∧
        after.findRoute target now = some entry ∧ NearestRoute dht m.localId target entry)) ∧
    ∀ dht : DhtManager, ((dht.findNode target).mergeSort fun a b =>
      xorDistanceU128 a.1 target ≤ xorDistanceU128 b.1 target) = dht.findNode target := by
  obtain ⟨dht, run, own, table⟩ := table_of_operations sha256 m.localId actions
  refine ⟨⟨dht, run, fun stored => ?_⟩, fun dht => resorted dht target⟩
  obtain ⟨entry, found, nearest⟩ :=
    Directory.discovers ⟨dht, table, own⟩ stored other now
  have installed := discoverRoute_discovered (m := { m with dht := some dht }) found
  refine ⟨_, entry, installed, findRoute_eq_some.mpr ⟨?_, ?_⟩, nearest⟩
  · have there := insertOrEvict_lookup { m with dht := some dht } entry
    rwa [discovered_target found] at there
  · obtain ⟨-, table, first, rest, -, -, rfl⟩ := discovered_routeOver found
    have later : 0 < seconds defaultRouteTimeoutSecs := by decide
    change now < now + seconds defaultRouteTimeoutSecs
    omega

/-- Two nodes are enough for a route with one candidate. -/
theorem discoverRoute_nearest_two :
    idOf 3 ≠ (MultihopManager.new (idOf 0)).localId ∧
      ∃ dht, Runs.exec (DhtManager.step fun _ => idOf 0) (.new (idOf 0))
          [.insertNode (idOf 1) "a" 0, .insertNode (idOf 2) "b" 1] = some dht ∧
        ∃ after entry, MultihopManager.discoverRoute
            { MultihopManager.new (idOf 0) with dht := some dht } (idOf 3) 0 = .ok after ∧
          after.findRoute (idOf 3) 0 = some entry ∧
          NearestRoute dht (idOf 0) (idOf 3) entry := by
  have other : idOf 3 ≠ (MultihopManager.new (idOf 0)).localId := by decide
  obtain ⟨⟨dht, run, found⟩, -⟩ := discoverRoute_nearest (fun _ => idOf 0)
    (.new (idOf 0)) [.insertNode (idOf 1) "a" 0, .insertNode (idOf 2) "b" 1] (idOf 3) other 0
  refine ⟨other, dht, run, found ?_⟩
  have ids : dht.nodeIds = [idOf 2, idOf 1] := by
    cases run
    decide +kernel
  rw [ids]
  exact List.cons_ne_nil _ _

end LanLink.Vpn
