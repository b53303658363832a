import LanLink.Registry.CenterConsistency

/-! The file of the registry: what a server holds after it has loaded what another
server saved. -/
namespace LanLink.Center
open Words Json Maps
open LanLink.Election (NodeID)

theorem nodeIdFromHex_toHex (nodeId : NodeID) : nodeIdFromHex (nodeIdToHex nodeId) = some nodeId := by
  simp only [nodeIdFromHex, nodeIdToHex, String.toList_ofList, Hex.decode_encode,
    Option.bind_eq_bind, Option.bind_some, nodeId.toList_length, dite_true]
  rfl

theorem nodeIdToHex_injective (same : nodeIdToHex a = nodeIdToHex b) : a = b := by
  have read := congrArg nodeIdFromHex same
  rwa [nodeIdFromHex_toHex, nodeIdFromHex_toHex, Option.some.injEq] at read

theorem registryEntryOf_value (entry : RegistryEntry) :
    registryEntryOf entry.value = some entry := by
  simp [registryEntryOf, RegistryEntry.value, record, field]

/-- The names and the hexadecimal ids are read back as they were written. -/
theorem registryDataOf_value (data : RegistryData) : registryDataOf data.value =
    some ⟨insertAll ∅ (pairs data.names), insertAll ∅ (pairs data.reverse)⟩ := by
  have names := asFields_ofFields registryEntryOf_value (pairs data.names)
  have reverse := asFields_ofFields asString_string (pairs data.reverse)
  simp [registryDataOf, RegistryData.value, record, field, names, reverse]

/-- The library reads back the text of the value, which is not blank. -/
structure RoundTrips (json : SerdeJson) (value : Value) : Prop where
  reads : json.fromStr (json.toStringPretty value) = some value
  visible : (json.toStringPretty value).toList.all isWhitespace = false

namespace RegistryServer
variable {s : RegistryServer} {json : SerdeJson}

theorem mem_data_reverse (text name : String) : (text, name) ∈ pairs s.data.reverse ↔
    ∃ id, nodeIdToHex id = text ∧ s.reverse.lookup id = some name := by
  have written (text name : String) :
      (text, name) ∈ (pairs s.reverse).map (fun entry => (nodeIdToHex entry.1, entry.2)) ↔
        ∃ id, nodeIdToHex id = text ∧ s.reverse.lookup id = some name := by
    simp only [List.mem_map, Prod.exists, Prod.mk.injEq, mem_pairs]
    constructor
    · rintro ⟨id, _, found, hex, rfl⟩
      exact ⟨id, hex, found⟩
    · rintro ⟨id, hex, found⟩
      exact ⟨id, name, found, hex, rfl⟩
  rw [data, mem_pairs_insertAll, written]
  intro text first second one other
  obtain ⟨id, rfl, found⟩ := (written text first).mp one
  obtain ⟨id', hex, again⟩ := (written _ second).mp other
  cases nodeIdToHex_injective hex
  exact Option.some.inj (found.symm.trans again)

/-- The entries that are added to the reverse map are those that were saved. -/
theorem mem_loaded (id : NodeID) (name : String) :
    (id, name) ∈ (pairs (insertAll ∅ (pairs s.data.reverse))).filterMap (fun entry =>
      (nodeIdFromHex entry.1).map fun nodeId => (nodeId, entry.2)) ↔
    s.reverse.lookup id = some name := by
  have same (text name : String) : (text, name) ∈ pairs (insertAll ∅ (pairs s.data.reverse)) ↔
      ∃ id, nodeIdToHex id = text ∧ s.reverse.lookup id = some name := by
    rw [mem_pairs, lookup_insertAll_pairs, ← mem_pairs, mem_data_reverse]
  simp only [List.mem_filterMap, Option.map_eq_some_iff, Prod.mk.injEq, Prod.exists]
  constructor
  · rintro ⟨text, _, entry, id', read, rfl, rfl⟩
    obtain ⟨saved, rfl, found⟩ := (same text _).mp entry
    rw [nodeIdFromHex_toHex] at read
    cases read
    exact found
  · intro found
    exact ⟨nodeIdToHex id, name, (same _ _).mpr ⟨id, rfl, found⟩, id, nodeIdFromHex_toHex id, rfl, rfl⟩

/-- What a server holds after it has loaded a file: the saved names, and the saved
reverse entries over its own. -/
theorem loadFromFile_saved (trips : RoundTrips json s.data.value) {prior : RegistryServer}
    (path : prior.file = some (json.toStringPretty s.data.value)) :
    (prior.loadFromFile json none).1 = .ok () ∧
    (∀ n, (prior.loadFromFile json none).2.names.lookup n = s.names.lookup n) ∧
    ∀ id, (prior.loadFromFile json none).2.reverse.lookup id =
      (s.reverse.lookup id).or (prior.reverse.lookup id) := by
  have parsed : (json.fromStr (json.toStringPretty s.data.value)).bind registryDataOf =
      some ⟨insertAll ∅ (pairs s.data.names), insertAll ∅ (pairs s.data.reverse)⟩ := by
    rw [trips.reads, Option.bind_some, registryDataOf_value]
  simp only [loadFromFile, path, trips.visible, Bool.false_eq_true, if_false, parsed]
  exact ⟨trivial, lookup_insertAll_pairs s.data.names, lookup_insertAll mem_loaded⟩

/-- Loading leaves exactly what was saved when the loading server has reverse entries
for ids of the saved state only. -/
theorem loadFromFile_exact_iff (json : SerdeJson) (s saved prior : RegistryServer)
    (fault : Option String) (saves : s.saveToFile json fault = (.ok (), saved))
    (path : prior.file = saved.file) (trips : RoundTrips json s.data.value) :
    (prior.loadFromFile json none).1 = .ok () ∧
    ((∀ n, (prior.loadFromFile json none).2.names.lookup n = s.names.lookup n) ∧
      (∀ id, (prior.loadFromFile json none).2.reverse.lookup id = s.reverse.lookup id) ↔
    ∀ id, id ∈ prior.reverse → id ∈ s.reverse) := by
  have written : prior.file = some (json.toStringPretty s.data.value) := by
    cases fault with
    | none =>
      cases saves
      exact path
    | some msg => cases saves
  obtain ⟨done, names, reverse⟩ := loadFromFile_saved trips written
  refine ⟨done, ?_⟩
  constructor
  · rintro ⟨-, same⟩ id there
    obtain ⟨name, found⟩ := Maps.exists_lookup there
    have merged := (reverse id).symm.trans (same id)
    rw [found] at merged
    apply AList.lookup_isSome.mp
    cases saved : s.reverse.lookup id with
    | some => rfl
    | none =>
      rw [saved] at merged
      cases merged
  · intro covers
    refine ⟨names, fun id => ?_⟩
    rw [reverse]
    cases saved : s.reverse.lookup id with
    | some => rfl
    | none =>
      rw [Option.none_or, AList.lookup_eq_none]
      intro there
      exact AList.lookup_eq_none.mp saved (covers id there)

/-- The text of registry data begins with a brace. -/
theorem roundTrips_serdeOf (data : RegistryData) : RoundTrips (serdeOf [data.value]) data.value where
  reads := by simp [serdeOf]
  visible := by
    simp only [serdeOf, RegistryData.value, Value.pretty, String.toList_ofList, List.cons_append,
      List.all_cons]
    rfl

/-- A server with one name. -/
def oneName (name : String) (nodeId : NodeID) : RegistryServer :=
  (RegistryServer.register (serdeOf []) (.new none) name nodeId 0 (some "read-only")).2

def alphaServer : RegistryServer := oneName "alpha" (idOf 1)

def alphaJson : SerdeJson := serdeOf [alphaServer.data.value]

/-- The file after `alphaServer` has been saved. -/
def alphaFile : Option String := (alphaServer.saveToFile alphaJson none).2.file

theorem loadFromFile_exact_iff_fresh :
    (∀ n, ((RegistryServer.new alphaFile).loadFromFile alphaJson none).2.names.lookup n =
      alphaServer.names.lookup n) ∧
    ∀ id, ((RegistryServer.new alphaFile).loadFromFile alphaJson none).2.reverse.lookup id =
      alphaServer.reverse.lookup id :=
  (loadFromFile_exact_iff alphaJson alphaServer (alphaServer.saveToFile alphaJson none).2
    (.new alphaFile) none rfl rfl (roundTrips_serdeOf _)).2.mpr
    fun id there => absurd there (AList.notMem_empty id)

/-- A server keeps the reverse entry of an id that the file does not know. -/
theorem loadFromFile_keeps_stale :
    ¬ ∀ id, ({ oneName "beta" (idOf 2) with file := alphaFile }.loadFromFile alphaJson
      none).2.reverse.lookup id = alphaServer.reverse.lookup id := by
  intro exact_load
  have trips : RoundTrips alphaJson alphaServer.data.value := roundTrips_serdeOf alphaServer.data
  have path : { oneName "beta" (idOf 2) with file := alphaFile }.file =
      some (alphaJson.toStringPretty alphaServer.data.value) := rfl
  have merged := (loadFromFile_saved trips path).2.2 (idOf 2)
  rw [exact_load] at merged
  exact absurd merged (by decide)

end RegistryServer

end LanLink.Center
