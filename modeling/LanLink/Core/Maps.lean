import Mathlib.Algebra.GroupWithZero.Nat
import Mathlib.Data.List.AList

/-! Finite maps and the sums over their entries. -/
namespace Maps
variable {K V : Type}

abbrev Map (K V : Type) := AList fun _ : K => V

/-- The sum of a weight over the entries of a map. -/
def total (w : K → V → Nat) (m : Map K V) : Nat := (m.entries.map fun e => w e.1 e.2).sum

variable [DecidableEq K]

@[simp] theorem total_insert (w : K → V → Nat) (m : Map K V) (k : K) (v : V) :
    total w (m.insert k v) = w k v + total w (m.erase k) := by
  rw [total, AList.entries_insert, List.map_cons, List.sum_cons]
  rfl

theorem erase_of_not_mem {m : Map K V} {k : K} (missing : k ∉ m) : m.erase k = m :=
  AList.ext (List.kerase_of_notMem_keys missing)

/-- An entry counts once, an absent one not at all. -/
theorem total_erase (w : K → V → Nat) (m : Map K V) (k : K) :
    (m.lookup k).elim 0 (w k) + total w (m.erase k) = total w m := by
  cases found : m.lookup k with
  | none =>
    have absent : k ∉ m := AList.lookup_eq_none.mp found
    rw [erase_of_not_mem absent, Option.elim_none, Nat.zero_add]
  | some v =>
    have member : k ∈ m := AList.lookup_isSome.mp (by simp [found])
    obtain ⟨other, before, after, missing, split, rest⟩ := List.exists_of_kerase member
    have same : other = v := by
      have entry : ⟨k, other⟩ ∈ m.entries := by simp [split]
      exact Option.some.inj ((AList.mem_lookup_iff.mpr entry).symm.trans found)
    have erased : (m.erase k).entries = before ++ after := rest
    simp only [total, erased, Option.elim_some]
    simp only [split, same, List.map_append, List.map_cons, List.sum_append, List.sum_cons]
    omega

theorem mem_of_lookup {m : Map K V} {k : K} {v : V} (found : m.lookup k = some v) : k ∈ m :=
  AList.lookup_isSome.mp (Option.isSome_of_eq_some found)

theorem exists_lookup {m : Map K V} {k : K} (there : k ∈ m) : ∃ v, m.lookup k = some v :=
  Option.isSome_iff_exists.mp (AList.lookup_isSome.mpr there)

theorem length_erase {m : Map K V} {k : K} (there : k ∈ m) :
    (m.erase k).entries.length + 1 = m.entries.length := by
  obtain ⟨v, before, after, -, split, rest⟩ := List.exists_of_kerase there
  change (List.kerase k m.entries).length + 1 = m.entries.length
  rw [rest, split, List.length_append, List.length_append, List.length_cons]
  rfl

theorem lookup_of_lookup_erase {m : Map K V} {k other : K} {v : V}
    (kept : (m.erase other).lookup k = some v) : k ≠ other ∧ m.lookup k = some v := by
  by_cases same : k = other
  · rw [same, AList.lookup_erase] at kept
    cases kept
  · rw [AList.lookup_erase_ne same] at kept
    exact ⟨same, kept⟩

theorem length_insert_of_mem {m : Map K V} {k : K} (there : k ∈ m) (v : V) :
    (m.insert k v).entries.length = m.entries.length := by
  rw [AList.entries_insert, List.length_cons]
  exact length_erase there

theorem length_insert_of_not_mem {m : Map K V} {k : K} (missing : k ∉ m) (v : V) :
    (m.insert k v).entries.length = m.entries.length + 1 := by
  rw [AList.entries_insert_of_notMem missing, List.length_cons]

/-- The entries that pass a test stay. -/
def retain (p : K → V → Bool) (m : Map K V) : Map K V :=
  ⟨m.entries.filter fun e => p e.1 e.2, m.nodupKeys.sublist List.filter_sublist⟩

omit [DecidableEq K] in
theorem length_retain_le (p : K → V → Bool) (m : Map K V) :
    (retain p m).entries.length ≤ m.entries.length :=
  List.length_filter_le _ _

@[simp] theorem lookup_retain (p : K → V → Bool) (m : Map K V) (k : K) :
    (retain p m).lookup k = (m.lookup k).filter (p k) := by
  ext v
  rw [← Option.mem_def, AList.mem_lookup_iff, Option.filter_eq_some_iff, ← Option.mem_def,
    AList.mem_lookup_iff]
  exact List.mem_filter

/-- Every value of a map is changed in place. -/
def mapValues (f : V → V) (m : Map K V) : Map K V :=
  ⟨m.entries.map fun e => ⟨e.1, f e.2⟩, by
    have keys : (m.entries.map fun e => (⟨e.1, f e.2⟩ : Σ _ : K, V)).keys = m.entries.keys := by
      simp [List.keys, Function.comp_def]
    rw [List.NodupKeys, keys]
    exact m.nodupKeys⟩

@[simp] theorem lookup_mapValues (f : V → V) (m : Map K V) (k : K) :
    (mapValues f m).lookup k = (m.lookup k).map f :=
  List.dlookup_map₂ (f := fun _ => f) k

/-- Where only the entry of one key gives something, all entries give what it gives. -/
theorem flatMap_entries {m : Map K V} {k : K} {f : K → V → List T}
    (others : ∀ k' v, k' ≠ k → m.lookup k' = some v → f k' v = []) :
    (m.entries.flatMap fun e => f e.1 e.2) = (m.lookup k).elim [] (f k) := by
  have silent (e : Σ _ : K, V) (member : e ∈ m.entries) (other : e.1 ≠ k) : f e.1 e.2 = [] :=
    others e.1 e.2 other (AList.mem_lookup_iff.mpr member)
  cases found : m.lookup k with
  | none =>
    apply List.flatMap_eq_nil_iff.mpr
    intro e member
    apply silent e member
    intro same
    exact AList.lookup_eq_none.mp found (same ▸ List.mem_map_of_mem member)
  | some v =>
    obtain ⟨before, after, split⟩ := List.append_of_mem (AList.mem_lookup_iff.mp found)
    have keys := m.nodupKeys
    rw [List.NodupKeys, split, List.keys, List.map_append, List.map_cons] at keys
    have middle := List.nodup_middle.mp keys
    have apart := (List.nodup_cons.mp middle).1
    rw [← List.map_append] at apart
    have rest (e : Σ _ : K, V) (member : e ∈ before ++ after) : f e.1 e.2 = [] := by
      apply silent e
      · rw [split]
        simp only [List.mem_append, List.mem_cons] at member ⊢
        tauto
      · intro same
        have known : e.1 ∈ (before ++ after).map Sigma.fst := List.mem_map_of_mem member
        rw [same] at known
        exact apart known
    have front : before.flatMap (fun e => f e.1 e.2) = [] :=
      List.flatMap_eq_nil_iff.mpr fun e member => rest e (List.mem_append_left _ member)
    have back : after.flatMap (fun e => f e.1 e.2) = [] :=
      List.flatMap_eq_nil_iff.mpr fun e member => rest e (List.mem_append_right _ member)
    rw [split, List.flatMap_append, List.flatMap_cons, front, back]
    simp

/-- The entries of a map, in some order. -/
def pairs (m : Map K V) : List (K × V) := m.entries.map fun e => (e.1, e.2)

theorem mem_pairs {m : Map K V} {k : K} {v : V} : (k, v) ∈ pairs m ↔ m.lookup k = some v := by
  rw [pairs, List.mem_map]
  constructor
  · rintro ⟨⟨k', v'⟩, member, same⟩
    cases same
    exact AList.mem_lookup_iff.mpr member
  · intro found
    exact ⟨⟨k, v⟩, AList.mem_lookup_iff.mp found, rfl⟩

/-- Entries are put into a map one after the other. -/
def insertAll (m : Map K V) (entries : List (K × V)) : Map K V :=
  entries.foldl (fun m e => m.insert e.1 e.2) m

theorem lookup_insertAll_of_not_mem {m : Map K V} {entries : List (K × V)} {k : K}
    (absent : k ∉ entries.map Prod.fst) : (insertAll m entries).lookup k = m.lookup k := by
  induction entries generalizing m with
  | nil => rfl
  | cons entry rest ih =>
    rw [List.map_cons, List.mem_cons, not_or] at absent
    rw [insertAll, List.foldl_cons, ← insertAll, ih absent.2, AList.lookup_insert_ne absent.1]

/-- Entries that agree on a key give their value to it. -/
theorem lookup_insertAll_of_mem {m : Map K V} {entries : List (K × V)} {k : K} {v : V}
    (agree : ∀ w, (k, w) ∈ entries → w = v) (member : (k, v) ∈ entries) :
    (insertAll m entries).lookup k = some v := by
  induction entries generalizing m with
  | nil => cases member
  | cons entry rest ih =>
    rw [insertAll, List.foldl_cons, ← insertAll]
    by_cases later : k ∈ rest.map Prod.fst
    · obtain ⟨⟨k', w⟩, found, same⟩ := List.mem_map.mp later
      cases same
      cases agree w (List.mem_cons_of_mem _ found)
      exact ih (fun w found => agree w (List.mem_cons_of_mem _ found)) found
    · rcases List.mem_cons.mp member with rfl | found
      · rw [lookup_insertAll_of_not_mem later, AList.lookup_insert]
      · exact absurd (List.mem_map_of_mem found) later

theorem mem_of_lookup_insertAll {base : Map K V} {entries : List (K × V)} {k : K} {v : V}
    (found : (insertAll base entries).lookup k = some v) :
    (k, v) ∈ entries ∨ base.lookup k = some v := by
  induction entries generalizing base with
  | nil => exact .inr found
  | cons entry rest ih =>
    have front : insertAll base (entry :: rest) = insertAll (base.insert entry.1 entry.2) rest := rfl
    rw [front] at found
    rcases ih found with later | here
    · exact .inl (List.mem_cons_of_mem _ later)
    · by_cases same : k = entry.1
      · subst same
        cases (AList.lookup_insert base).symm.trans here
        exact .inl List.mem_cons_self
      · exact .inr ((AList.lookup_insert_ne same).symm.trans here)

/-- What entries give to a key does not depend on the map they are put into. -/
theorem lookup_insertAll_or (base : Map K V) (entries : List (K × V)) (k : K) :
    (insertAll base entries).lookup k = ((insertAll ∅ entries).lookup k).or (base.lookup k) := by
  induction entries generalizing base with
  | nil => rfl
  | cons entry rest ih =>
    have front (base : Map K V) :
        insertAll base (entry :: rest) = insertAll (base.insert entry.1 entry.2) rest := rfl
    rw [front, ih, front, ih (AList.insert entry.1 entry.2 ∅), Option.or_assoc]
    by_cases same : k = entry.1
    · rw [same, AList.lookup_insert, AList.lookup_insert]
      rfl
    · rw [AList.lookup_insert_ne same, AList.lookup_insert_ne same]
      rfl

/-- Entries that are those of a map win where the map has a value. -/
theorem lookup_insertAll {base m : Map K V} {entries : List (K × V)}
    (same : ∀ k v, (k, v) ∈ entries ↔ m.lookup k = some v) (k : K) :
    (insertAll base entries).lookup k = (m.lookup k).or (base.lookup k) := by
  cases found : m.lookup k with
  | some v =>
    apply lookup_insertAll_of_mem _ ((same k v).mpr found)
    intro w member
    exact Option.some.inj (((same k w).mp member).symm.trans found)
  | none =>
    apply lookup_insertAll_of_not_mem
    intro member
    obtain ⟨⟨k', v⟩, entry, rfl⟩ := List.mem_map.mp member
    rw [(same k' v).mp entry] at found
    cases found

/-- Entries that agree on every key are the entries of the map they make. -/
theorem mem_pairs_insertAll {entries : List (K × V)}
    (agree : ∀ k v w, (k, v) ∈ entries → (k, w) ∈ entries → v = w) (k : K) (v : V) :
    (k, v) ∈ pairs (insertAll ∅ entries) ↔ (k, v) ∈ entries := by
  have found (w : V) (member : (k, w) ∈ entries) : (insertAll ∅ entries).lookup k = some w :=
    lookup_insertAll_of_mem (fun v other => agree k v w other member) member
  rw [mem_pairs]
  constructor
  · intro read
    by_cases there : k ∈ entries.map Prod.fst
    · obtain ⟨⟨k', w⟩, member, same⟩ := List.mem_map.mp there
      cases same
      rw [found w member] at read
      cases read
      exact member
    · rw [lookup_insertAll_of_not_mem there] at read
      cases read
  · exact found v

theorem lookup_insertAll_pairs (m : Map K V) (k : K) :
    (insertAll ∅ (pairs m)).lookup k = m.lookup k := by
  rw [lookup_insertAll (m := m) fun k v => mem_pairs]
  exact Option.or_none

end Maps
