import LanLink.Registry.CenterConsistency

/-! Calls that run at the same time. A call is begun by its first critical section
and finished by its second one; in between any other section may run. -/
namespace LanLink.Center
open Words Maps Runs
open LanLink.Election (NodeID)

structure Interleaved where
  server : RegistryServer
  pending : List Pending

inductive Turn where
  | beginRegister (name : String) (nodeId : NodeID) (now : UInt64)
  | beginUpsert (name : String) (nodeId : NodeID) (now : UInt64)
  /-- The pending call at a position finishes. -/
  | finish (i : Nat) (fault : Option String)
  | updateHeartbeat (name : String) (now : UInt64) (fault : Option String)

namespace Interleaved

/-- A registration of a name that is taken is over after its first section. -/
def step (json : SerdeJson) (s : Interleaved) : Turn → Option Interleaved
  | .beginRegister name nodeId now =>
    match s.server.registerNames name nodeId now with
    | .error _ => some s
    | .ok server => some ⟨server, s.pending ++ [⟨name, nodeId, none⟩]⟩
  | .beginUpsert name nodeId now =>
    let begun := s.server.upsertNames name nodeId now
    some ⟨begun.1, s.pending ++ [⟨name, nodeId, begun.2⟩]⟩
  | .finish i fault => s.pending[i]?.map fun p =>
    ⟨(s.server.updateReverse p.old p.name p.nodeId).persist json fault, s.pending.eraseIdx i⟩
  | .updateHeartbeat name now fault =>
    some { s with server := (s.server.updateHeartbeat json name now fault).2 }

/-- A call that finishes writes the entry of a name that is still its own, and takes
away no entry that is still needed; other pending calls may make up for either. -/
def Undisturbed (s : Interleaved) : Turn → Prop
  | .finish i _ => ∀ p, s.pending[i]? = some p →
    InsertsCurrent s.server (s.pending.eraseIdx i) p ∧
    RemovesUnused s.server (s.pending.eraseIdx i) p
  | .beginRegister _ _ _ | .beginUpsert _ _ _ | .updateHeartbeat _ _ _ => True

/-- The two maps agree up to the pending calls. -/
def Linked (s : Interleaved) : Prop := Backed s.server s.pending ∧ Covered s.server s.pending

end Interleaved

/-- Every id of a name leads back to a name of that id, and every reverse entry to a name
that has its id. -/
structure Consistent (s : RegistryServer) : Prop where
  returns : ∀ name id, s.lookup name = some id →
    ∃ other, s.reverseLookup id = some other ∧ s.lookup other = some id
  current : ∀ id name, s.reverseLookup id = some name → s.lookup name = some id

theorem consistent_of_linked (linked : Interleaved.Linked ⟨s, []⟩) : Consistent s := by
  obtain ⟨backed, covered⟩ := linked
  have current : ∀ id name, s.reverseLookup id = some name → s.lookup name = some id := by
    intro id name found
    rcases backed id name found with current | ⟨q, waiting, -⟩
    · exact current
    · cases waiting
  refine ⟨?_, current⟩
  intro name id found
  rcases covered name id found with ⟨q, waiting, -⟩ | ⟨other, entry⟩
  · cases waiting
  · exact ⟨other, entry, current id other entry⟩

namespace Interleaved
variable {json : SerdeJson} {s t : Interleaved}

theorem mem_iff_of_getElem? {pending : List Pending} (there : pending[i]? = some p)
    (q : Pending) : q ∈ pending ↔ q = p ∨ q ∈ pending.eraseIdx i := by
  rw [List.mem_eraseIdx_iff_getElem?, List.mem_iff_getElem?]
  constructor
  · rintro ⟨j, found⟩
    by_cases same : j = i
    · rw [same, there] at found
      exact .inl (Option.some.inj found).symm
    · exact .inr ⟨j, same, found⟩
  · rintro (rfl | ⟨j, -, found⟩)
    · exact ⟨i, there⟩
    · exact ⟨j, found⟩

theorem finishes (json : SerdeJson) (there : s.pending[i]? = some p) (fault : Option String) :
    Finishes s.server s.pending p
      ((s.server.updateReverse p.old p.name p.nodeId).persist json fault) (s.pending.eraseIdx i) :=
  ⟨fun n => by rw [RegistryServer.lookup_persist, RegistryServer.lookup_updateReverse],
    fun id => by
      rw [RegistryServer.reverseLookup_persist, RegistryServer.reverseLookup_updateReverse],
    mem_iff_of_getElem? there⟩

/-- The maps stay linked exactly as long as no call that finishes is disturbed. -/
theorem step_linked_iff (linked : s.Linked) (stepped : step json s turn = some t) :
    t.Linked ↔ s.Undisturbed turn := by
  obtain ⟨backed, covered⟩ := linked
  cases turn with
  | beginRegister name nodeId now =>
    rw [step] at stepped
    split at stepped
    · cases stepped
      exact iff_of_true ⟨backed, covered⟩ trivial
    · rename_i server done
      cases stepped
      have begins := begins_register done
      exact iff_of_true ⟨begins.backed backed, begins.covered covered⟩ trivial
  | beginUpsert name nodeId now =>
    cases stepped
    have begins := begins_upsert s.server name nodeId now
    exact iff_of_true ⟨begins.backed backed, begins.covered covered⟩ trivial
  | finish i fault =>
    obtain ⟨p, there, rfl⟩ := Option.map_eq_some_iff.mp stepped
    have done := finishes json there fault
    rw [Linked, done.backed_iff backed, done.covered_iff covered, Undisturbed]
    simp [there]
  | updateHeartbeat name now fault =>
    cases stepped
    refine iff_of_true ?_ trivial
    simp only [Linked, Backed, Covered, RegistryServer.lookup_heartbeat,
      RegistryServer.reverseLookup_heartbeat]
    exact ⟨backed, covered⟩

/-- Once all calls have finished the two maps are consistent, in every run in which no
call that finishes is disturbed. -/
theorem consistent_of_undisturbed (json : SerdeJson) (file : Option String) (turns : List Turn)
    (undisturbed : Meets (step json) Undisturbed ⟨.new file, []⟩ turns)
    (run : exec (step json) ⟨.new file, []⟩ turns = some t) (finished : t.pending = []) :
    Consistent t.server := by
  have empty : Linked ⟨.new file, []⟩ := ⟨nofun, nofun⟩
  have linked : t.Linked := guarded_invariant
    (fun held guarded stepped => (step_linked_iff held stepped).mpr guarded) undisturbed run empty
  obtain ⟨server, pending⟩ := t
  cases finished
  exact consistent_of_linked linked

/-- Two calls cross, each on a name and an id of its own. -/
def crossing : List Turn :=
  [.beginRegister "alpha" (idOf 1) 0, .beginUpsert "beta" (idOf 2) 0, .finish 1 none,
    .finish 0 none]

theorem crossing_undisturbed :
    Meets (step (serdeOf [])) Undisturbed ⟨.new none, []⟩ crossing := by
  refine ⟨trivial, ?_⟩
  rintro _ ⟨⟩
  refine ⟨trivial, ?_⟩
  rintro _ ⟨⟩
  constructor
  · rintro p ⟨⟩
    exact ⟨.inl (by decide), nofun⟩
  · rintro _ ⟨⟩
    refine ⟨?_, fun _ _ => trivial⟩
    rintro p ⟨⟩
    exact ⟨.inl (by decide), nofun⟩

theorem consistent_of_undisturbed_crossing : ∃ t,
    exec (step (serdeOf [])) ⟨.new none, []⟩ crossing = some t ∧ Consistent t.server :=
  ⟨_, rfl, consistent_of_undisturbed (serdeOf []) none crossing crossing_undisturbed rfl rfl⟩

/-- Two names share an id; when one of them moves, the other one has no way back, even
when the calls follow one another. -/
theorem shared_id_lost : ∃ t, exec (step (serdeOf [])) ⟨.new none, []⟩
    [.beginRegister "alpha" (idOf 1) 0, .finish 0 none, .beginRegister "beta" (idOf 1) 0,
      .finish 0 none, .beginUpsert "alpha" (idOf 2) 0, .finish 0 none] = some t ∧
    t.pending = [] ∧ ¬ Consistent t.server := by
  refine ⟨_, rfl, rfl, ?_⟩
  intro consistent
  obtain ⟨other, back, -⟩ := consistent.returns "beta" (idOf 1) (by decide)
  change none = some other at back
  cases back

end Interleaved

end LanLink.Center
