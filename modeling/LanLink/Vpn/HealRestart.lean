import LanLink.Registry.CenterFile
import LanLink.Vpn.RecoveryTiming

/-! The file of the healing states, and what a node knows after it was started again. -/
namespace LanLink.Vpn
open Words Json Maps Runs
open LanLink.Center (SerdeJson nodeIdToHex nodeIdToHex_injective serdeOf)

def SelfHealNodeState.value (s : SelfHealNodeState) : Value := .object
  [("node_id", ofVector s.nodeId), ("last_seen", ofU64 s.lastSeen),
    ("failed_attempts", .number s.failedAttempts.toNat), ("is_offline", .bool s.isOffline),
    ("last_recovery_attempt", ofU64 s.lastRecoveryAttempt)]

def asU32 (value : Value) : Option UInt32 := (asNat (2 ^ 32) value).map UInt32.ofNat

def selfHealNodeStateOf (value : Value) : Option SelfHealNodeState := do
  match ← record ["node_id", "last_seen", "failed_attempts", "is_offline", "last_recovery_attempt"]
      value with
  | [id, seen, failed, offline, attempt] =>
    return ⟨← asVector 32 id, ← asU64 seen, ← asU32 failed, ← asBool offline, ← asU64 attempt⟩
  | _ => none

/-- Ids are keys of a JSON object and so written in hexadecimal. -/
structure PersistedHealState where
  states : Map String SelfHealNodeState
  lastSaved : UInt64

def PersistedHealState.value (p : PersistedHealState) : Value := .object
  [("states", ofFields SelfHealNodeState.value (pairs p.states)), ("last_saved", ofU64 p.lastSaved)]

def persistedHealStateOf (value : Value) : Option PersistedHealState := do
  match ← record ["states", "last_saved"] value with
  | [states, saved] =>
    return ⟨insertAll ∅ (← asFields selfHealNodeStateOf states), ← asU64 saved⟩
  | _ => none

namespace SelfHealManager

def persisted (h : SelfHealManager) (now : UInt64) : PersistedHealState :=
  ⟨insertAll ∅ ((pairs h.states).map fun entry => (nodeIdToHex entry.1, entry.2)), now⟩

/-- The text that the file holds afterwards; `fault` is the error of writing it. -/
def saveState (json : SerdeJson) (h : SelfHealManager) (now : UInt64) (fault : Option String) :
    Except String String :=
  match fault with
  | some msg => .error ("write error: " ++ msg)
  | none => .ok (json.toStringPretty (h.persisted now).value)

/-- `file` is the file of the path, if there is one, with its text or the error of reading it. -/
def loadFile (json : SerdeJson) (h : SelfHealManager) (path : String)
    (file : Option (Except String String)) : Except String Nat × SelfHealManager × List HealEvent :=
  match file with
  | none => (.error ("file not found: " ++ path), h, [])
  | some (.error e) => (.error ("read error: " ++ e), h, [])
  | some (.ok text) =>
    match (json.fromStr text).bind persistedHealStateOf with
    | none => (.error ("deserialize error: " ++ json.error text), h, [])
    | some persisted =>
      let states := (pairs persisted.states).map (·.2)
      let loaded := h.loadState states
      (.ok states.length, loaded.1, loaded.2)

/-- Every state is that of its node. -/
def Keyed (h : SelfHealManager) : Prop :=
  ∀ nodeId state, h.states.lookup nodeId = some state → state.nodeId = nodeId

theorem keyed_iff (h : SelfHealManager) : Keyed h ↔
    ∀ nodeId known, h.attempt nodeId = some known → known.1 = nodeId := by
  constructor
  · intro keyed nodeId known found
    obtain ⟨state, there, rfl⟩ := Option.map_eq_some_iff.mp found
    exact keyed nodeId state there
  · intro keyed nodeId state there
    exact keyed nodeId (state.nodeId, state.lastRecoveryAttempt) (by rw [attempt, there]; rfl)

theorem Keyed.keeps {before after : SelfHealManager} (keyed : Keyed before)
    (kept : Keeps before after) : Keyed after := by
  rw [keyed_iff] at keyed ⊢
  intro nodeId known found
  rcases kept nodeId with same | ⟨-, new⟩
  · exact keyed nodeId known (same ▸ found)
  · rw [new] at found
    cases found
    rfl

theorem Keyed.loadState {h : SelfHealManager} (keyed : Keyed h) (file : List SelfHealNodeState) :
    Keyed (h.loadState file).1 := by
  intro nodeId state found
  rcases mem_of_lookup_insertAll found with member | old
  · obtain ⟨other, -, same⟩ := List.mem_map.mp member
    cases same
    rfl
  · exact keyed nodeId state old

theorem Keyed.next {s : Healing} (keyed : Keyed s.manager) (input : HealInput) :
    Keyed (s.next input).manager := by
  cases records : s.records input with
  | none => exact keyed.keeps (s.keeps_next input records)
  | some record =>
    obtain ⟨target, now⟩ := record
    rw [keyed_iff] at keyed ⊢
    intro nodeId known found
    rw [s.attempt_recorded input records] at found
    split at found
    · rename_i same
      obtain ⟨old, there, rfl⟩ := Option.map_eq_some_iff.mp found
      rw [same]
      exact keyed target old there
    · exact keyed nodeId known found

/-- In every run, files of any states that are loaded included. -/
theorem keyed_run {id : NodeID}
    (run : exec (Probing.step checks) (.new id maxFailed now) inputs = some s) :
    Keyed s.healing.manager := by
  refine Runs.invariant (P := fun s => Keyed s.healing.manager) ?_ run nofun
  intro s input t keyed stepped
  unfold Probing.step at stepped
  split at stepped
  · cases stepped
  · cases input with
    | heal input =>
      cases stepped
      exact keyed.next input
    | saveState =>
      cases stepped
      exact keyed
    | loadState file =>
      cases stepped
      exact keyed.loadState file

theorem asU32_number (word : UInt32) : asU32 (.number word.toNat) = some word := by
  rw [asU32, asNat_number word.toNat_lt, Option.map_some, UInt32.ofNat_toNat]

theorem selfHealNodeStateOf_value (s : SelfHealNodeState) :
    selfHealNodeStateOf s.value = some s := by
  simp [selfHealNodeStateOf, SelfHealNodeState.value, record, field, asU32_number]

theorem persistedHealStateOf_value (p : PersistedHealState) :
    persistedHealStateOf p.value = some ⟨insertAll ∅ (pairs p.states), p.lastSaved⟩ := by
  have states := asFields_ofFields selfHealNodeStateOf_value (pairs p.states)
  simp [persistedHealStateOf, PersistedHealState.value, record, field, states]

/-- The file has the states of the table, each under its node. -/
theorem mem_persisted (h : SelfHealManager) (now : UInt64) (text : String)
    (state : SelfHealNodeState) : (text, state) ∈ pairs (h.persisted now).states ↔
      ∃ id, nodeIdToHex id = text ∧ h.states.lookup id = some state := by
  have written (text : String) (state : SelfHealNodeState) :
      (text, state) ∈ (pairs h.states).map (fun entry => (nodeIdToHex entry.1, entry.2)) ↔
        ∃ id, nodeIdToHex id = text ∧ h.states.lookup id = some state := by
    simp only [List.mem_map, Prod.exists, Prod.mk.injEq, mem_pairs]
    constructor
    · rintro ⟨id, _, found, hex, rfl⟩
      exact ⟨id, hex, found⟩
    · rintro ⟨id, hex, found⟩
      exact ⟨id, state, found, hex, rfl⟩
  rw [persisted, mem_pairs_insertAll, written]
  intro text first second one two
  obtain ⟨id, rfl, found⟩ := (written text first).mp one
  obtain ⟨id', hex, again⟩ := (written _ second).mp two
  cases nodeIdToHex_injective hex
  exact Option.some.inj (found.symm.trans again)

theorem length_insertAll [DecidableEq K] {m : Map K V} {entries : List (K × V)}
    (distinct : (entries.map Prod.fst).Nodup) (new : ∀ k ∈ entries.map Prod.fst, k ∉ m) :
    (insertAll m entries).entries.length = m.entries.length + entries.length := by
  induction entries generalizing m with
  | nil => rfl
  | cons entry rest ih =>
    rw [List.map_cons, List.nodup_cons] at distinct
    have grown := length_insert_of_not_mem (new entry.1 List.mem_cons_self) entry.2
    have later := ih (m := m.insert entry.1 entry.2) distinct.2 fun k member there => by
      rcases (AList.mem_insert m).mp there with rfl | old
      · exact distinct.1 member
      · exact new k (List.mem_cons_of_mem _ member) old
    rw [insertAll, List.foldl_cons, ← insertAll, later, grown, List.length_cons]
    omega

theorem length_pairs [DecidableEq K] (m : Map K V) : (pairs m).length = m.entries.length :=
  List.length_map _

theorem pairs_keys [DecidableEq K] (m : Map K V) : (pairs m).map Prod.fst = m.keys := by
  rw [pairs, List.map_map]
  rfl

theorem length_persisted (h : SelfHealManager) (now : UInt64) :
    (h.persisted now).states.entries.length = h.states.entries.length := by
  have keys : ((pairs h.states).map fun entry => (nodeIdToHex entry.1, entry.2)).map Prod.fst =
      h.states.keys.map nodeIdToHex := by
    rw [← pairs_keys, List.map_map, List.map_map]
    rfl
  rw [persisted, length_insertAll _ fun k _ => AList.notMem_empty k]
  · simp [length_pairs]
  · rw [keys]
    exact h.states.keys_nodup.map fun _ _ => nodeIdToHex_injective

/-- A node that is started again, and was up for any run before it saved, has the saved state of
every node, and its own state of the others. -/
theorem heal_restart {id : NodeID}
    (run : exec (Probing.step checks) (.new id maxFailed start) inputs = some s)
    (trips : json.fromStr (json.toStringPretty (s.healing.manager.persisted now).value) =
      some (s.healing.manager.persisted now).value) (h : SelfHealManager) (path : String) :
    let saved := s.healing.manager
    let count := saved.states.entries.length
    ∃ text, saved.saveState json now none = .ok text ∧
      ∃ next, h.loadFile json path (some (.ok text)) = (.ok count, next, [.stateRestored count]) ∧
        (∀ nodeId, next.states.lookup nodeId =
          (saved.states.lookup nodeId).or (h.states.lookup nodeId)) ∧
        { next with states := h.states } = h := by
  have keyed := keyed_run run
  generalize s.healing.manager = saved at keyed trips ⊢
  refine ⟨_, rfl, ?_⟩
  let states := (pairs (insertAll ∅ (pairs (saved.persisted now).states))).map (·.2)
  have count : states.length = saved.states.entries.length := by
    rw [List.length_map, length_pairs, length_insertAll _ fun k _ => AList.notMem_empty k,
      length_pairs, length_persisted]
    · exact Nat.zero_add _
    · rw [pairs_keys]
      exact AList.keys_nodup _
  have loads : h.loadFile json path (some (.ok (json.toStringPretty (saved.persisted now).value))) =
      (.ok states.length, (h.loadState states).1, [.stateRestored states.length]) := by
    simp only [loadFile, trips, Option.bind_some, persistedHealStateOf_value]
    rfl
  refine ⟨(h.loadState states).1, count ▸ loads, ?_, rfl⟩
  refine lookup_insertAll fun nodeId state => ?_
  rw [List.map_map, List.mem_map]
  have inside (text : String) (state : SelfHealNodeState) :
      (text, state) ∈ pairs (insertAll ∅ (pairs (saved.persisted now).states)) ↔
        ∃ id, nodeIdToHex id = text ∧ saved.states.lookup id = some state := by
    rw [mem_pairs, lookup_insertAll_pairs, ← mem_pairs, mem_persisted]
  constructor
  · rintro ⟨⟨text, other⟩, member, same⟩
    obtain ⟨id, -, found⟩ := (inside text other).mp member
    cases same
    rwa [keyed id other found]
  · intro found
    refine ⟨(nodeIdToHex nodeId, state), (inside _ _).mpr ⟨nodeId, rfl, found⟩, ?_⟩
    exact Prod.ext (keyed nodeId state found) rfl

/-- A peer failed before the node was stopped. -/
def peerFailed : Probing :=
  ⟨(Healing.start (.new (idOf 9)) 5 0).next (.nodeOffline (idOf 1) (fun _ => 0) 7), fun _ => none⟩

def peerFailedJson : SerdeJson := serdeOf [(peerFailed.healing.manager.persisted 8).value]

theorem heal_restart_failed :
    ∃ text, peerFailed.healing.manager.saveState peerFailedJson 8 none = .ok text ∧
      ∃ next, (SelfHealManager.new (idOf 9)).loadFile peerFailedJson "heal.json" (some (.ok text)) =
          (.ok 1, next, [.stateRestored 1]) ∧
        (∀ nodeId, next.states.lookup nodeId =
          (peerFailed.healing.manager.states.lookup nodeId).or
            ((SelfHealManager.new (idOf 9)).states.lookup nodeId)) ∧
        { next with states := (SelfHealManager.new (idOf 9)).states } = .new (idOf 9) := by
  have run : exec (Probing.step true) (.new (idOf 9) 5 0)
      [.heal (.nodeOffline (idOf 1) (fun _ => 0) 7)] = some peerFailed := rfl
  exact heal_restart run (by simp [peerFailedJson, serdeOf]) (.new (idOf 9)) "heal.json"

end SelfHealManager

end LanLink.Vpn
