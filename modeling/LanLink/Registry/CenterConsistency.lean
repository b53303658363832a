import LanLink.Registry.Center

/-! The two maps of the registry. Between its two critical sections a call is
pending: the names already show it and the reverse map does not. -/
namespace LanLink.Center
open Words Maps Runs
open LanLink.Election (NodeID)

namespace RegistryServer
variable {s t : RegistryServer} {json : SerdeJson}

theorem lookup_insert (s : RegistryServer) (name : String) (entry : RegistryEntry) (n : String) :
    lookup { s with names := s.names.insert name entry } n =
      if n = name then some entry.nodeId else s.lookup n := by
  unfold lookup
  split
  · rename_i same
    rw [same, AList.lookup_insert]
    rfl
  · rename_i other
    rw [AList.lookup_insert_ne other]

theorem reverseLookup_updateReverse (s : RegistryServer) (old : Option NodeID) (name : String)
    (nodeId j : NodeID) : (s.updateReverse old name nodeId).reverseLookup j =
      if j = nodeId then some name else if old = some j then none else s.reverseLookup j := by
  unfold updateReverse reverseLookup
  by_cases same : j = nodeId
  · rw [if_pos same, same, AList.lookup_insert]
  · rw [if_neg same, AList.lookup_insert_ne same]
    cases old with
    | none => simp
    | some oldId =>
      by_cases removed : oldId = j
      · simp [removed]
      · simp [removed, AList.lookup_erase_ne (Ne.symm removed)]

theorem lookup_updateReverse (s : RegistryServer) (old : Option NodeID) (name : String)
    (nodeId : NodeID) (n : String) : (s.updateReverse old name nodeId).lookup n = s.lookup n := rfl

/-- Saving touches neither map. -/
theorem persist_maps (s : RegistryServer) (fault : Option String) :
    (s.persist json fault).names = s.names ∧ (s.persist json fault).reverse = s.reverse := by
  cases fault with
  | none => exact ⟨rfl, rfl⟩
  | some msg => exact ⟨rfl, rfl⟩

@[simp] theorem lookup_persist (s : RegistryServer) (fault : Option String) (n : String) :
    (s.persist json fault).lookup n = s.lookup n := by
  rw [lookup, (s.persist_maps fault).1, lookup]

@[simp] theorem reverseLookup_persist (s : RegistryServer) (fault : Option String) (id : NodeID) :
    (s.persist json fault).reverseLookup id = s.reverseLookup id := by
  rw [reverseLookup, (s.persist_maps fault).2, reverseLookup]

/-- A heartbeat leaves every name and every reverse entry as it is. -/
theorem lookup_heartbeat (s : RegistryServer) (name : String) (now : UInt64)
    (fault : Option String) (n : String) :
    (s.updateHeartbeat json name now fault).2.lookup n = s.lookup n := by
  rw [updateHeartbeat]
  split
  · rfl
  · rename_i entry found
    rw [lookup_persist, s.lookup_insert]
    split
    · rename_i same
      rw [same, lookup, found]
      rfl
    · rfl

theorem reverseLookup_heartbeat (s : RegistryServer) (name : String) (now : UInt64)
    (fault : Option String) (id : NodeID) :
    (s.updateHeartbeat json name now fault).2.reverseLookup id = s.reverseLookup id := by
  rw [updateHeartbeat]
  split
  · rfl
  · rw [reverseLookup_persist]
    rfl

end RegistryServer

/-- A call between its two sections, with the id that its name had before. -/
structure Pending where
  name : String
  nodeId : NodeID
  old : Option NodeID

/-- The reverse entry of a name that has moved on is about to be removed. -/
def Backed (s : RegistryServer) (pending : List Pending) : Prop :=
  ∀ id name, s.reverseLookup id = some name →
    s.lookup name = some id ∨ ∃ q ∈ pending, q.old = some id ∧ q.nodeId ≠ id

/-- The id of every name has a reverse entry, or one is about to be made. -/
def Covered (s : RegistryServer) (pending : List Pending) : Prop :=
  ∀ name id, s.lookup name = some id →
    (∃ q ∈ pending, q.nodeId = id) ∨ ∃ other, s.reverseLookup id = some other

/-- The first section of a call on a name: `old` is the id that the name had. -/
structure Begins (s : RegistryServer) (p : Pending) (t : RegistryServer) : Prop where
  names : ∀ n, t.lookup n = if n = p.name then some p.nodeId else s.lookup n
  reverse : ∀ id, t.reverseLookup id = s.reverseLookup id
  old : s.lookup p.name = p.old

theorem begins_register (done : s.registerNames name nodeId now = .ok t) :
    Begins s ⟨name, nodeId, none⟩ t := by
  rw [RegistryServer.registerNames] at done
  split at done
  · cases done
  · rename_i absent
    cases done
    refine ⟨fun n => s.lookup_insert name _ n, fun _ => rfl, ?_⟩
    rw [RegistryServer.lookup, AList.lookup_eq_none.mpr absent]
    rfl

theorem begins_upsert (s : RegistryServer) (name : String) (nodeId : NodeID) (now : UInt64) :
    Begins s ⟨name, nodeId, s.lookup name⟩ (s.upsertNames name nodeId now).1 :=
  ⟨fun n => s.lookup_insert name _ n, fun _ => rfl, rfl⟩

theorem Begins.backed (begins : Begins s p t) (backed : Backed s pending) :
    Backed t (pending ++ [p]) := by
  intro id name found
  rw [begins.reverse] at found
  rw [begins.names]
  rcases backed id name found with current | ⟨q, waiting, removes⟩
  · by_cases same : name = p.name
    · -- The name moves to the id of the call, whose second section removes this entry.
      by_cases kept : p.nodeId = id
      · rw [if_pos same, kept]
        exact .inl rfl
      · refine .inr ⟨p, by simp, ?_, kept⟩
        rw [← begins.old, ← same, current]
    · rw [if_neg same]
      exact .inl current
  · exact .inr ⟨q, List.mem_append_left _ waiting, removes⟩

theorem Begins.covered (begins : Begins s p t) (covered : Covered s pending) :
    Covered t (pending ++ [p]) := by
  intro name id found
  rw [begins.names] at found
  by_cases same : name = p.name
  · rw [if_pos same] at found
    exact .inl ⟨p, by simp, Option.some.inj found⟩
  · rw [if_neg same] at found
    rcases covered name id found with ⟨q, waiting, makes⟩ | entry
    · exact .inl ⟨q, List.mem_append_left _ waiting, makes⟩
    · rw [begins.reverse]
      exact .inr entry

/-- The entry that the call writes is right, or about to be removed again. -/
def InsertsCurrent (s : RegistryServer) (rest : List Pending) (p : Pending) : Prop :=
  s.lookup p.name = some p.nodeId ∨ ∃ q ∈ rest, q.old = some p.nodeId ∧ q.nodeId ≠ p.nodeId

/-- No name keeps the id that the call removes, unless another call is about to write an
entry for it. -/
def RemovesUnused (s : RegistryServer) (rest : List Pending) (p : Pending) : Prop :=
  ∀ id, p.old = some id → id ≠ p.nodeId → ∀ name, s.lookup name = some id →
    ∃ q ∈ rest, q.nodeId = id

/-- The second section of a pending call; `rest` are the other calls that are pending. -/
structure Finishes (s : RegistryServer) (pending : List Pending) (p : Pending)
    (t : RegistryServer) (rest : List Pending) : Prop where
  names : ∀ n, t.lookup n = s.lookup n
  reverse : ∀ id, t.reverseLookup id =
    if id = p.nodeId then some p.name else if p.old = some id then none else s.reverseLookup id
  waiting : ∀ q, q ∈ pending ↔ q = p ∨ q ∈ rest

theorem Finishes.backed_iff (finishes : Finishes s pending p t rest)
    (backed : Backed s pending) : Backed t rest ↔ InsertsCurrent s rest p := by
  constructor
  · intro after
    have written := after p.nodeId p.name (by rw [finishes.reverse, if_pos rfl])
    rwa [finishes.names] at written
  · intro inserts id name found
    rw [finishes.reverse] at found
    rw [finishes.names]
    split at found
    · rename_i same
      cases found
      rw [same]
      exact inserts
    · rename_i other
      split at found
      · cases found
      · rename_i kept
        rcases backed id name found with current | ⟨q, waiting, removes, moved⟩
        · exact .inl current
        · rcases (finishes.waiting q).mp waiting with rfl | waiting
          · exact absurd removes kept
          · exact .inr ⟨q, waiting, removes, moved⟩

theorem Finishes.covered_iff (finishes : Finishes s pending p t rest)
    (covered : Covered s pending) : Covered t rest ↔ RemovesUnused s rest p := by
  constructor
  · intro after id removed moved name found
    rcases after name id (by rwa [finishes.names]) with makes | ⟨other, entry⟩
    · exact makes
    · rw [finishes.reverse, if_neg moved, if_pos removed] at entry
      cases entry
  · intro removes name id found
    rw [finishes.names] at found
    rw [finishes.reverse]
    by_cases own : id = p.nodeId
    · rw [if_pos own]
      exact .inr ⟨p.name, rfl⟩
    · rw [if_neg own]
      by_cases removed : p.old = some id
      · exact .inl (removes id removed own name found)
      · rw [if_neg removed]
        rcases covered name id found with ⟨q, waiting, makes⟩ | entry
        · rcases (finishes.waiting q).mp waiting with rfl | waiting
          · exact absurd makes.symm own
          · exact .inl ⟨q, waiting, makes⟩
        · exact .inr entry

/-- A call that nobody interrupts. -/
theorem Begins.alone (begins : Begins s p t) (backed : Backed s []) :
    Backed (t.updateReverse p.old p.name p.nodeId) [] := by
  have finishes : Finishes t [p] p (t.updateReverse p.old p.name p.nodeId) [] :=
    ⟨t.lookup_updateReverse p.old p.name p.nodeId,
      t.reverseLookup_updateReverse p.old p.name p.nodeId, fun q => by simp⟩
  apply (finishes.backed_iff (begins.backed backed)).mpr
  rw [InsertsCurrent, begins.names, if_pos rfl]
  exact .inl rfl

theorem backed_persist : Backed (s.persist json fault) pending ↔ Backed s pending := by
  simp [Backed]

theorem backed_heartbeat (backed : Backed s []) (name : String) (now : UInt64)
    (fault : Option String) : Backed (s.updateHeartbeat json name now fault).2 [] := by
  simp only [Backed, RegistryServer.lookup_heartbeat, RegistryServer.reverseLookup_heartbeat]
  exact backed

theorem backed_register (backed : Backed s []) (name : String) (nodeId : NodeID) (now : UInt64)
    (fault : Option String) : Backed (s.register json name nodeId now fault).2 [] := by
  rw [RegistryServer.register]
  split
  · exact backed
  · rename_i t done
    rw [backed_persist]
    exact (begins_register done).alone backed

theorem backed_upsert (backed : Backed s []) (name : String) (nodeId : NodeID) (now : UInt64)
    (fault : Option String) : Backed (s.upsert json name nodeId now fault).2 [] := by
  rw [RegistryServer.upsert]
  rw [backed_persist]
  exact (begins_upsert s name nodeId now).alone backed

/-- A message changes the server through a registration only. -/
theorem backed_processMessage (backed : Backed s []) (payload : Bytes) (now : UInt64)
    (fault : Option String) : Backed (s.processMessage json payload now fault).2 [] := by
  unfold RegistryServer.processMessage
  split
  · exact backed
  · split
    case h_2 =>
      split
      · exact backed
      · exact backed_register backed _ _ now fault
    case h_3 =>
      split
      · exact backed
      · exact backed
    case h_4 =>
      split
      · exact backed
      · exact backed
    all_goals exact backed

inductive Call where
  | register (name : String) (nodeId : NodeID) (now : UInt64) (fault : Option String)
  | upsert (name : String) (nodeId : NodeID) (now : UInt64) (fault : Option String)
  | updateHeartbeat (name : String) (now : UInt64) (fault : Option String)
  | processMessage (payload : Bytes) (now : UInt64) (fault : Option String)

def RegistryServer.call (json : SerdeJson) (s : RegistryServer) : Call → RegistryServer
  | .register name nodeId now fault => (s.register json name nodeId now fault).2
  | .upsert name nodeId now fault => (s.upsert json name nodeId now fault).2
  | .updateHeartbeat name now fault => (s.updateHeartbeat json name now fault).2
  | .processMessage payload now fault => (s.processMessage json payload now fault).2

theorem backed_call (backed : Backed s []) (call : Call) : Backed (s.call json call) [] := by
  cases call with
  | register name nodeId now fault => exact backed_register backed name nodeId now fault
  | upsert name nodeId now fault => exact backed_upsert backed name nodeId now fault
  | updateHeartbeat name now fault => exact backed_heartbeat backed name now fault
  | processMessage payload now fault => exact backed_processMessage backed payload now fault

theorem backed_calls (calls : List Call) (backed : Backed s []) :
    Backed (calls.foldl (RegistryServer.call json) s) [] := by
  induction calls generalizing s with
  | nil => exact backed
  | cons call rest ih => exact ih (backed_call backed call)

/-- Calls that follow one another keep the reverse map sound: a name found for an id is
registered under that id. -/
theorem reverseLookup_sound (json : SerdeJson) (file : Option String) (calls : List Call)
    (id : NodeID) (name : String)
    (found : (calls.foldl (RegistryServer.call json) (.new file)).reverseLookup id = some name) :
    (calls.foldl (RegistryServer.call json) (.new file)).lookup name = some id := by
  have empty : Backed (.new file) [] := by
    intro id name found
    cases found
  rcases backed_calls calls empty id name found with current | ⟨q, waiting, -⟩
  · exact current
  · cases waiting

/-- The library on the values that are given. -/
def serdeOf (values : List Json.Value) : SerdeJson where
  toVec value := value.text.flatMap String.utf8EncodeChar
  fromSlice bytes := values.find? fun value => value.text.flatMap String.utf8EncodeChar = bytes
  toStringPretty value := .ofList (value.pretty 0)
  fromStr text := values.find? fun value => String.ofList (value.pretty 0) = text
  error _ := "expected value at line 1 column 1"

def idOf (byte : UInt8) : NodeID := List.Vector.replicate 32 byte

/-- Two names share an id, and then one of them moves away. -/
def sharedId : List Call :=
  [.register "alpha" (idOf 1) 0 none, .register "beta" (idOf 1) 0 none,
    .upsert "alpha" (idOf 2) 0 none]

theorem reverseLookup_sound_shared :
    (sharedId.foldl (RegistryServer.call (serdeOf [])) (.new none)).reverseLookup (idOf 2) =
      some "alpha" ∧
    (sharedId.foldl (RegistryServer.call (serdeOf [])) (.new none)).lookup "alpha" =
      some (idOf 2) :=
  ⟨by decide, reverseLookup_sound (serdeOf []) none sharedId (idOf 2) "alpha" (by decide)⟩

end LanLink.Center
