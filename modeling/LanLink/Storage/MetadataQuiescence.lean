import LanLink.Storage.MetadataMerge

/-! Two stores with the same content that synchronize with each other. The hashes
of equal contents tie, so only the times of the entries can make a call merge
anything; the store that has the older time then takes the entry of the other one
and the time of the merge. -/
namespace LanLink.Metadata.Merge
open LanLink.Chunk Runs

/-- `merged` is the sum of what the calls returned. -/
structure Pair where
  left : MetadataStore
  right : MetadataStore
  clock : Nat
  merged : Nat

/-- A call on one of the stores with all entries of the other one. -/
inductive Round where
  | intoLeft (listed : List MetadataEntry) (now : Nat)
  | intoRight (listed : List MetadataEntry) (now : Nat)

def Pair.step (hasher : String → Hash → UInt64) (p : Pair) : Round → Option Pair
  | .intoLeft listed now =>
    if p.clock ≤ now ∧ AllEntries p.right listed then
      let synced := syncFrom hasher p.left listed now
      some { p with left := synced.1, clock := now, merged := p.merged + synced.2 }
    else none
  | .intoRight listed now =>
    if p.clock ≤ now ∧ AllEntries p.left listed then
      let synced := syncFrom hasher p.right listed now
      some { p with right := synced.1, clock := now, merged := p.merged + synced.2 }
    else none

/-- The same names with the same hashes, blocks and manifests. -/
def SameContent (left right : MetadataStore) : Prop :=
  ∀ name : String, left.entries[name]?.map MetadataEntry.content =
    right.entries[name]?.map MetadataEntry.content

/-- The two times of a name are within the window of each other. -/
def Close (left right : MetadataStore) : Prop :=
  ∀ (name : String) (a b : MetadataEntry), left.entries[name]? = some a →
    right.entries[name]? = some b →
    b.info.updatedAt ≤ (a.info.updatedAt + conflictWindowSecs) % 2 ^ 64 ∧
      a.info.updatedAt ≤ (b.info.updatedAt + conflictWindowSecs) % 2 ^ 64

section
variable {hasher : String → Hash → UInt64} {left right store : MetadataStore}

theorem SameContent.symm (same : SameContent left right) : SameContent right left :=
  fun name => (same name).symm

theorem Close.symm (near : Close left right) : Close right left :=
  fun name a b here there => (near name b a there here).symm

/-- Different names of a map are at most as many as its entries. -/
theorem length_le_size {m : Std.ExtHashMap String MetadataEntry} {names : List String}
    (distinct : names.Nodup) (present : ∀ name ∈ names, name ∈ m) : names.length ≤ m.size := by
  induction names generalizing m with
  | nil => exact Nat.zero_le _
  | cons first rest ih =>
    obtain ⟨notIn, distinct⟩ := List.nodup_cons.mp distinct
    have there : first ∈ m := present first List.mem_cons_self
    have others (name : String) (member : name ∈ rest) : name ∈ m.erase first := by
      rw [Std.ExtHashMap.mem_erase]
      refine ⟨?_, present name (List.mem_cons_of_mem _ member)⟩
      simpa using fun same : first = name => notIn (same ▸ member)
    have fewer := ih distinct others
    have nonempty : m.size ≠ 0 := by
      intro empty
      rw [Std.ExtHashMap.eq_empty_iff_size_eq_zero.mpr empty] at there
      simp at there
    rw [Std.ExtHashMap.size_erase, if_pos there] at fewer
    rw [List.length_cons]
    omega

/-- A list of all entries has every entry, under its own name. -/
theorem listed_entry {name : String} (all : AllEntries store listed)
    (found : store.entries[name]? = some e) : e ∈ listed ∧ e.info.name = name := by
  have known : name ∈ listed.map fun e => e.info.name := by
    by_contra missing
    have present (other : String) (member : other ∈ name :: listed.map fun e => e.info.name) :
        other ∈ store.entries := by
      rw [Std.ExtHashMap.mem_iff_isSome_getElem?]
      rcases List.mem_cons.mp member with rfl | old
      · simp [found]
      · obtain ⟨entry, listed, rfl⟩ := List.mem_map.mp old
        simp [all.present entry listed]
    have few := length_le_size (List.nodup_cons.mpr ⟨missing, all.distinct⟩) present
    rw [List.length_cons, List.length_map, all.whole] at few
    omega
  obtain ⟨other, member, rfl⟩ := List.mem_map.mp known
  cases Option.some.inj ((all.present other member).symm.trans found)
  exact ⟨member, rfl⟩

/-- Equal contents are compared by their times only. -/
theorem merges_same {name : String} (named : e.info.name = name) (known : here.info.name = name)
    (found : store.entries[name]? = some here) (same : here.content = e.content) :
    merges hasher store e ↔
      (here.info.updatedAt + conflictWindowSecs) % 2 ^ 64 < e.info.updatedAt := by
  subst named
  have files : here.info.fileHash = e.info.fileHash := congrArg Prod.fst same
  have hashes : hashEntry hasher here = hashEntry hasher e := by
    rw [hashEntry, hashEntry, known, files]
  rw [merges, found]
  simp only [shouldMerge, wins, hashes]
  split
  · simp_all
  · split
    · simp_all
    · simp_all

/-- A call that finds nothing to merge changes nothing. -/
theorem syncFrom_nothing (nothing : ∀ e ∈ remote, ¬ merges hasher store e) :
    syncFrom hasher store remote now = (store, 0) := by
  rw [syncFrom]
  induction remote with
  | nil => rfl
  | cons e rest ih =>
    rw [List.foldl_cons, mergeEntry, if_neg (nothing e List.mem_cons_self)]
    exact ih fun e member => nothing e (List.mem_cons_of_mem _ member)

theorem merged_le (hasher : String → Hash → UInt64) (now : Nat) (remote : List MetadataEntry)
    (acc : MetadataStore × Nat) :
    acc.2 ≤ (remote.foldl (mergeEntry hasher now) acc).2 := by
  induction remote generalizing acc with
  | nil => exact Nat.le_refl _
  | cons e rest ih =>
    refine Nat.le_trans ?_ (ih _)
    rw [mergeEntry]
    split
    · exact Nat.le_succ _
    · exact Nat.le_refl _

/-- A call that returns zero has merged nothing. -/
theorem nothing_of_zero (zero : (syncFrom hasher store remote now).2 = 0) :
    ∀ e ∈ remote, ¬ merges hasher store e := by
  rw [syncFrom] at zero
  induction remote with
  | nil => exact fun e member => absurd member List.not_mem_nil
  | cons first rest ih =>
    rw [List.foldl_cons] at zero
    by_cases merged : merges hasher store first
    · have count : (mergeEntry hasher now (store, 0) first).2 = 1 := by
        rw [mergeEntry, if_pos merged]
      have most := merged_le hasher now rest (mergeEntry hasher now (store, 0) first)
      omega
    · rw [mergeEntry, if_neg merged] at zero
      intro e member
      rcases List.mem_cons.mp member with rfl | later
      · exact merged
      · exact ih zero e later

/-- Where contents are the same, a call merges nothing exactly when no offered
entry is newer than the window allows. -/
theorem nothing_iff (hasher : String → Hash → UInt64) (same : SameContent left right)
    (own : AllEntries left mine) (all : AllEntries right listed) :
    (∀ e ∈ listed, ¬ merges hasher left e) ↔
      ∀ (name : String) (a b : MetadataEntry), left.entries[name]? = some a →
        right.entries[name]? = some b →
        b.info.updatedAt ≤ (a.info.updatedAt + conflictWindowSecs) % 2 ^ 64 := by
  constructor
  · intro nothing name a b here there
    obtain ⟨member, named⟩ := listed_entry all there
    have contents := same name
    rw [here, there] at contents
    have kept := nothing b member
    rw [merges_same named (listed_entry own here).2 here (Option.some.inj contents)] at kept
    exact Nat.not_lt.mp kept
  · intro near e member
    have there := all.present e member
    have contents := same e.info.name
    rw [there] at contents
    obtain ⟨a, here, content⟩ := Option.map_eq_some_iff.mp contents
    rw [merges_same rfl (listed_entry own here).2 here content]
    exact Nat.not_lt.mpr (near e.info.name a e here there)

/-- A round between close stores with the same content changes nothing. -/
theorem step_quiet {p q : Pair} (same : SameContent p.left p.right) (near : Close p.left p.right)
    (first : AllEntries p.left ll) (second : AllEntries p.right lr)
    (stepped : p.step hasher turn = some q) :
    q.left = p.left ∧ q.right = p.right ∧ q.merged = p.merged := by
  cases turn with
  | intoLeft listed now =>
    rw [Pair.step, Option.ite_none_right_eq_some] at stepped
    obtain ⟨⟨-, all⟩, moved⟩ := stepped
    have nothing := (nothing_iff hasher same first all).mpr
      fun name a b here there => (near name a b here there).1
    rw [syncFrom_nothing nothing] at moved
    cases moved
    exact ⟨rfl, rfl, rfl⟩
  | intoRight listed now =>
    rw [Pair.step, Option.ite_none_right_eq_some] at stepped
    obtain ⟨⟨-, all⟩, moved⟩ := stepped
    have nothing := (nothing_iff hasher same.symm second all).mpr
      fun name a b here there => (near.symm name a b here there).1
    rw [syncFrom_nothing nothing] at moved
    cases moved
    exact ⟨rfl, rfl, rfl⟩

end

/-- Two stores with the same content leave each other alone, in every alternation
of calls and at all later times, exactly when the times of their entries are
close. -/
theorem quiesces_iff (hasher : String → Hash → UInt64) (left right : MetadataStore) (clock : Nat)
    (ll lr : List MetadataEntry) (first : AllEntries left ll) (second : AllEntries right lr)
    (same : SameContent left right) :
    (∀ rounds t, exec (Pair.step hasher) ⟨left, right, clock, 0⟩ rounds = some t →
      t.left = left ∧ t.right = right ∧ t.merged = 0) ↔ Close left right := by
  constructor
  · intro quiet name a b here there
    have intoLeft : (syncFrom hasher left lr clock).2 = 0 := by
      have run : exec (Pair.step hasher) ⟨left, right, clock, 0⟩ [.intoLeft lr clock] = some
          ⟨(syncFrom hasher left lr clock).1, right, clock, 0 + (syncFrom hasher left lr clock).2⟩ :=
        exec_cons.mpr ⟨_, if_pos ⟨Nat.le_refl _, second⟩, rfl⟩
      simpa using (quiet _ _ run).2.2
    have intoRight : (syncFrom hasher right ll clock).2 = 0 := by
      have run : exec (Pair.step hasher) ⟨left, right, clock, 0⟩ [.intoRight ll clock] = some
          ⟨left, (syncFrom hasher right ll clock).1, clock, 0 + (syncFrom hasher right ll clock).2⟩ :=
        exec_cons.mpr ⟨_, if_pos ⟨Nat.le_refl _, first⟩, rfl⟩
      simpa using (quiet _ _ run).2.2
    exact ⟨(nothing_iff hasher same first second).mp (nothing_of_zero intoLeft) name a b here there,
      (nothing_iff hasher same.symm second first).mp (nothing_of_zero intoRight) name b a there here⟩
  · intro near rounds t run
    refine invariant (P := fun p => p.left = left ∧ p.right = right ∧ p.merged = 0) ?_ run
      ⟨rfl, rfl, rfl⟩
    rintro p turn q ⟨rfl, rfl, none⟩ stepped
    obtain ⟨sameLeft, sameRight, count⟩ := step_quiet same near first second stepped
    exact ⟨sameLeft, sameRight, count.trans none⟩

theorem single_sameContent (e : MetadataEntry) (now : Nat) :
    SameContent (single e) (single (restamp e now)) := by
  intro name
  simp only [single, restamp, Std.ExtHashMap.getElem?_insert]
  split
  · rfl
  · rfl

/-- One entry in two stores, with times three seconds apart. -/
theorem quiesces_within_window : ∃ t,
    exec (Pair.step reportHash) ⟨single olderEntry, single (restamp olderEntry 3), 3, 0⟩
      [.intoLeft [restamp olderEntry 3] 5] = some t ∧
    t.left = single olderEntry ∧ t.right = single (restamp olderEntry 3) ∧ t.merged = 0 := by
  have near : Close (single olderEntry) (single (restamp olderEntry 3)) := by
    intro name a b here there
    obtain ⟨first, -⟩ := listed_entry (single_allEntries _) here
    obtain ⟨second, -⟩ := listed_entry (single_allEntries _) there
    cases List.mem_singleton.mp first
    cases List.mem_singleton.mp second
    decide
  have quiet := (quiesces_iff reportHash (single olderEntry) (single (restamp olderEntry 3)) 3
    [olderEntry] [restamp olderEntry 3] (single_allEntries _) (single_allEntries _)
    (single_sameContent olderEntry 3)).mpr near
  have run : exec (Pair.step reportHash) ⟨single olderEntry, single (restamp olderEntry 3), 3, 0⟩
      [.intoLeft [restamp olderEntry 3] 5] = some _ :=
    exec_cons.mpr ⟨_, if_pos ⟨by decide, single_allEntries _⟩, rfl⟩
  exact ⟨_, run, quiet _ _ run⟩

/-- A newer entry takes the only place. -/
theorem syncFrom_single (hasher : String → Hash → UInt64) (here remote : MetadataEntry)
    (same : remote.info.name = here.info.name) (better : shouldMerge hasher here remote) (now : Nat) :
    syncFrom hasher (single here) [remote] now = (single (restamp remote now), 1) := by
  have won : merges hasher (single here) remote := by
    rw [merges, same, single_entry]
    exact better
  have replaced : (⟨(single here).entries.insert remote.info.name (restamp remote now)⟩ :
      MetadataStore) = single (restamp remote now) := by
    refine congrArg MetadataStore.mk (Std.ExtHashMap.ext_getElem? fun name => ?_)
    simp only [single, restamp, same, Std.ExtHashMap.getElem?_insert]
    split
    · rfl
    · rfl
  rw [syncFrom, List.foldl_cons, List.foldl_nil, mergeEntry, if_pos won, replaced]

/-- One entry in two stores, with times ten seconds apart: the first call takes the newer one,
though it has the same content. -/
theorem equal_content_merged : SameContent (single olderEntry) (single (restamp olderEntry 10)) ∧
    ∃ t, exec (Pair.step reportHash) ⟨single olderEntry, single (restamp olderEntry 10), 10, 0⟩
        [.intoLeft [restamp olderEntry 10] 20] = some t ∧
      t.merged = 1 ∧ t.left ≠ single olderEntry := by
  have taken := syncFrom_single reportHash olderEntry (restamp olderEntry 10) rfl (by decide) 20
  have stepped : Pair.step reportHash ⟨single olderEntry, single (restamp olderEntry 10), 10, 0⟩
      (.intoLeft [restamp olderEntry 10] 20) =
      some ⟨single (restamp olderEntry 20), single (restamp olderEntry 10), 20, 1⟩ := by
    rw [Pair.step, if_pos ⟨by decide, single_allEntries _⟩, taken]
    rfl
  refine ⟨single_sameContent olderEntry 10, _, exec_cons.mpr ⟨_, stepped, rfl⟩, rfl, fun same => ?_⟩
  have here : (single olderEntry).entries["report"]? = some olderEntry := single_entry olderEntry
  have merged : (single (restamp olderEntry 20)).entries["report"]? = some (restamp olderEntry 20) :=
    single_entry (restamp olderEntry 20)
  rw [show single (restamp olderEntry 20) = single olderEntry from same, here] at merged
  exact absurd (Option.some.inj merged) (by decide)

end LanLink.Metadata.Merge
