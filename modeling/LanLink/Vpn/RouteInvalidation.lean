import LanLink.Vpn.RouteTable

/-! A route that was marked invalid. Its only mark is that its time is over, and a
refresh gives every such route in the table time again. -/
namespace LanLink.Vpn
open Words Maps

variable {localId : NodeID}

/-- A call that puts a route to the target into the table: a discovery or a switch
that succeeds, or an insert. -/
def Installs (target : NodeID) (s : Routing) (action : RouteCall localId × Timing) : Prop :=
  let now := action.2.start s.clock
  match action.1 with
  | .discoverRoute other =>
    other = target ∧ ∃ after, s.manager.discoverRoute target now = .ok after
  | .findAlternative other =>
    other = target ∧ ∃ after, s.manager.findAlternative target now = .ok after
  | .addDirectRoute other _ => other = target ∧ target ≠ s.manager.localId
  | .insertRoute entry => entry.target = target
  | _ => False

/-- A refresh while the table still has the route. -/
def Refreshes (target : NodeID) (s : Routing) (action : RouteCall localId × Timing) : Prop :=
  match action.1 with
  | .refreshStaleRoutes => target ∈ s.manager.routes
  | _ => False

/-- From now on neither query returns a route to the target. -/
def Unroutable (target : NodeID) (s : Routing) : Prop :=
  ∀ later, s.clock ≤ later → s.manager.findRoute target later = none ∧
    s.manager.nextHop target later = .error (.noRoute target)

/-- The time of the route, if it is still there, is over. -/
def Lapsed (target : NodeID) (m : MultihopManager) (now : Int) : Prop :=
  ∀ entry, m.routes.lookup target = some entry → entry.expiresAt ≤ now

theorem Lapsed.unroutable {s : Routing} (lapsed : Lapsed target s.manager s.clock) :
    Unroutable target s := by
  intro later after
  have nothing : s.manager.findRoute target later = none := by
    apply Option.eq_none_iff_forall_ne_some.mpr
    intro entry found
    obtain ⟨present, valid⟩ := findRoute_eq_some.mp found
    have expired := lapsed entry present
    omega
  exact ⟨nothing, by rw [MultihopManager.nextHop, nothing]⟩

theorem Lapsed.later (lapsed : Lapsed target m now) (later : now ≤ clock) : Lapsed target m clock :=
  fun entry found => Int.le_trans (lapsed entry found) later

/-- A call that leaves the route as it is or removes it. -/
theorem Lapsed.of_lookup {m after : MultihopManager} (lapsed : Lapsed target m now)
    (kept : ∀ entry, after.routes.lookup target = some entry →
      m.routes.lookup target = some entry) : Lapsed target after now :=
  fun entry found => lapsed entry (kept entry found)

theorem markInvalid_lookup_ne {m : MultihopManager} (other : target ≠ marked) (now : Int) :
    (m.markInvalid marked now).routes.lookup target = m.routes.lookup target := by
  rw [MultihopManager.markInvalid]
  split
  · exact AList.lookup_insert_ne other
  · rfl

theorem lapsed_markInvalid (m : MultihopManager) (target : NodeID) (now : Int) :
    Lapsed target (m.markInvalid target now) now := by
  intro entry found
  rw [MultihopManager.markInvalid] at found
  split at found
  · rw [AList.lookup_insert] at found
    cases found
    have ago : 0 ≤ seconds 1 := by decide
    change now - seconds 1 ≤ now
    omega
  · rename_i missing
    rw [missing] at found
    cases found

theorem Timing.start_le (timing : Timing) (clock : Int) : clock ≤ timing.start clock := by
  rw [Timing.start]
  omega

theorem Timing.start_le_finish (timing : Timing) (clock : Int) :
    timing.start clock ≤ timing.finish clock := by
  rw [Timing.finish]
  omega

/-- Only a call that installs or refreshes the route gives it time. -/
theorem Lapsed.call {s : Routing} {call : RouteCall localId} {timing : Timing}
    (lapsed : Lapsed target s.manager (timing.start s.clock))
    (silent : ¬ Installs target s (call, timing)) (unrefreshed : ¬ Refreshes target s (call, timing))
    (seen turn : NodeID → Int) :
    Lapsed target (s.manager.call (timing.start s.clock) seen turn call) (timing.start s.clock) := by
  cases call with
  | discoverRoute other =>
    simp only [MultihopManager.call]
    rcases discoverRoute_cases s.manager other (timing.start s.clock) with
      ⟨-, error, failed⟩ | ⟨entry, known, installed⟩
    · rw [failed]
      exact lapsed
    · rw [installed]
      have named := discovered_target known
      have different : target ≠ entry.target := by
        intro same
        have this : other = target := named.symm.trans same.symm
        exact silent ⟨this, _, this ▸ installed⟩
      exact lapsed.of_lookup fun route => insertOrEvict_other different
  | addDirectRoute other addr =>
    simp only [MultihopManager.call, MultihopManager.addDirectRoute]
    split
    · exact lapsed
    · rename_i foreign
      have different : target ≠ other := by
        intro same
        exact silent ⟨same.symm, same ▸ foreign⟩
      exact lapsed.of_lookup fun route => insertOrEvict_other different
  | insertRoute entry =>
    have different : target ≠ entry.target := fun same => silent same.symm
    exact lapsed.of_lookup fun route => insertOrEvict_other different
  | findAlternative other =>
    simp only [MultihopManager.call]
    rcases findAlternative_cases s.manager other (timing.start s.clock) with
      ⟨error, failed⟩ | ⟨entry, node, found, -, changed⟩
    · rw [failed]
      exact lapsed
    · rw [changed]
      have different : target ≠ other := by
        rintro rfl
        exact silent ⟨rfl, _, changed⟩
      apply lapsed.of_lookup
      intro route found
      exact (AList.lookup_insert_ne different).symm.trans found
  | markInvalid other =>
    by_cases same : target = other
    · subst same
      exact lapsed_markInvalid s.manager target (timing.start s.clock)
    · apply lapsed.of_lookup
      intro route found
      exact (markInvalid_lookup_ne same _).symm.trans found
  | removeRoute other =>
    apply lapsed.of_lookup
    intro route found
    exact (lookup_of_lookup_erase found).2
  | refreshStaleRoutes =>
    obtain ⟨routes, run, -, all⟩ := refreshStaleRoutes_spec s.manager seen turn
    simp only [MultihopManager.call]
    rw [run]
    intro entry found
    have missing : s.manager.routes.lookup target = none := AList.lookup_eq_none.mpr unrefreshed
    rw [show routes.lookup target = none by rw [all target, missing]; rfl] at found
    cases found
  | cleanupExpired =>
    apply lapsed.of_lookup
    intro route found
    exact (Option.filter_eq_some_iff.mp ((lookup_retain _ _ _).symm.trans found)).1
  | setDht directory => exact lapsed

theorem Lapsed.step {s t : Routing} {action : RouteCall localId × Timing}
    (lapsed : Lapsed target s.manager s.clock)
    (silent : ¬ Installs target s action ∧ ¬ Refreshes target s action)
    (stepped : s.step action = some t) : Lapsed target t.manager t.clock := by
  obtain ⟨call, timing⟩ := action
  cases Option.some.inj stepped
  have started := lapsed.later (timing.start_le s.clock)
  have ordered := timing.start_le_finish s.clock
  unfold Routing.next
  dsimp only
  split
  · exact started.later ordered
  · exact (started.call silent.1 silent.2 _ _).later ordered

/-- After any state in which a target is marked invalid, no query returns a route to
it until a call installs one or a refresh finds the old one in the table. -/
theorem unroutable_until_renewed (s : Routing) (target : NodeID) (timing : Timing)
    (actions : List (RouteCall localId × Timing))
    (silent : Runs.Meets Routing.step
      (fun s action => ¬ Installs target s action ∧ ¬ Refreshes target s action)
      (s.next (.markInvalid target : RouteCall localId) timing) actions) :
    Runs.Always Routing.step (Unroutable target)
      (s.next (.markInvalid target : RouteCall localId) timing) actions := by
  have marked := lapsed_markInvalid s.manager target (timing.start s.clock)
  exact Runs.always_of_meets (I := fun s => Lapsed target s.manager s.clock)
    (fun lapsed silent stepped => lapsed.step silent stepped) (fun _ lapsed => lapsed.unroutable) silent
    (marked.later (timing.start_le_finish s.clock))

/-- A call that takes a second and no time before it. -/
def oneSecond : Timing := ⟨0, second, fun _ => 0, fun _ => 0⟩

/-- A node with a direct route to another. -/
def routedOnce : Routing :=
  (Routing.new (idOf 1) 0).next
    (.addDirectRoute (idOf 2) "10.0.0.2:9876" : RouteCall (idOf 1)) oneSecond

/-- Discoveries that fail, and routes to other nodes, do not bring the route back. -/
theorem unroutable_after_failed_discovery :
    Runs.Always Routing.step (Unroutable (idOf 2))
      (routedOnce.next (.markInvalid (idOf 2) : RouteCall (idOf 1)) oneSecond)
      ([(.discoverRoute (idOf 2), oneSecond), (.addDirectRoute (idOf 3) "10.0.0.3:9876", oneSecond),
        (.cleanupExpired, oneSecond)] : List (RouteCall (idOf 1) × Timing)) := by
  apply unroutable_until_renewed
  refine ⟨⟨?_, id⟩, fun t stepped => ⟨⟨?_, id⟩, fun u _ => ⟨⟨id, id⟩, fun _ _ => trivial⟩⟩⟩
  · rintro ⟨-, after, found⟩
    cases found
  · rintro ⟨same, -⟩
    exact absurd same (by decide)

/-- A refresh without a table of nodes brings the route back that was marked. -/
theorem refresh_returns_invalid_route :
    ¬ ∀ (s : Routing) (target : NodeID) (timing : Timing)
      (actions : List (RouteCall (idOf 1) × Timing)),
      Runs.Meets Routing.step (fun s action => ¬ Installs target s action)
        (s.next (.markInvalid target : RouteCall (idOf 1)) timing) actions →
      Runs.Always Routing.step (Unroutable target)
        (s.next (.markInvalid target : RouteCall (idOf 1)) timing) actions := by
  intro claim
  have always := claim routedOnce (idOf 2) oneSecond [(.refreshStaleRoutes, oneSecond)]
    ⟨id, fun _ _ => trivial⟩
  have last := (always.2 _ rfl) (3 * second) (by decide)
  exact absurd last.1 (by decide +kernel)

end LanLink.Vpn
