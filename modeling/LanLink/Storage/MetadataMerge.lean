import LanLink.Core.Contests
import LanLink.Storage.Metadata

/-! Merging remote entries for all times of 64 bits. The sums with the conflict
window wrap, as in a release build. An entry that is merged takes the time of the
merge, so the entries of one name contest the place in the store: how an entry
compares with a merged one depends only on its own time, its hash, and the clock. -/
namespace LanLink.Metadata.Merge
open LanLink.Chunk Contests

def wins (localTime remoteTime : Nat) (localHash remoteHash : UInt64) : Bool :=
  if (localTime + conflictWindowSecs) % 2 ^ 64 < remoteTime then true
  else if (remoteTime + conflictWindowSecs) % 2 ^ 64 < localTime then false
  else localHash < remoteHash

section
variable (hasher : String → Hash → UInt64)

def shouldMerge (here remote : MetadataEntry) : Bool :=
  wins here.info.updatedAt remote.info.updatedAt (hashEntry hasher here) (hashEntry hasher remote)

def merges (store : MetadataStore) (remote : MetadataEntry) : Bool :=
  match store.entries[remote.info.name]? with
  | some here => shouldMerge hasher here remote
  | none => true

def mergeEntry (now : Nat) (acc : MetadataStore × Nat) (remote : MetadataEntry) :
    MetadataStore × Nat :=
  if merges hasher acc.1 remote then
    (⟨acc.1.entries.insert remote.info.name (restamp remote now)⟩, acc.2 + 1)
  else acc

def syncFrom (store : MetadataStore) (remote : List MetadataEntry) (now : Nat) :
    MetadataStore × Nat :=
  remote.foldl (mergeEntry hasher now) (store, 0)

/-- Several calls at one clock value. -/
def syncCalls (now : Nat) (store : MetadataStore) (calls : List (List MetadataEntry)) :
    MetadataStore :=
  calls.foldl (fun store remote => (syncFrom hasher store remote now).1) store

/-- The content left for a name after some calls. -/
def contentAfter (now : Nat) (store : MetadataStore) (name : String)
    (calls : List (List MetadataEntry)) : Option (Hash × List BlockLocation × Option FileManifest) :=
  (syncCalls hasher now store calls).entries[name]?.map MetadataEntry.content

end

section
variable {hasher : String → Hash → UInt64}

/-- The store does not depend on how many entries were merged before. -/
theorem foldl_fst (remote : List MetadataEntry) (store : MetadataStore) (n m : Nat) :
    (remote.foldl (mergeEntry hasher now) (store, n)).1 =
      (remote.foldl (mergeEntry hasher now) (store, m)).1 := by
  induction remote generalizing store n m with
  | nil => rfl
  | cons e rest ih =>
    rw [List.foldl_cons, List.foldl_cons, mergeEntry, mergeEntry]
    dsimp only
    split
    · exact ih _ _ _
    · exact ih _ _ _

/-- Calls at one clock value are one call with all of their entries. -/
theorem syncCalls_eq (store : MetadataStore) (calls : List (List MetadataEntry)) :
    syncCalls hasher now store calls = (syncFrom hasher store calls.flatten now).1 := by
  induction calls generalizing store with
  | nil => rfl
  | cons remote rest ih =>
    rw [syncCalls, List.foldl_cons, ← syncCalls, ih, syncFrom, syncFrom, syncFrom,
      List.flatten_cons, List.foldl_append]
    exact foldl_fst _ _ _ _

end

section
variable (hasher : String → Hash → UInt64) (now : Nat) (store : MetadataStore)

/-- The entries of a name contest its place; nobody holds it while the entry of
the store itself is there. -/
def contest : Contest MetadataEntry Nat where
  grade e :=
    if (now + conflictWindowSecs) % 2 ^ 64 < e.info.updatedAt then .wins
    else if (e.info.updatedAt + conflictWindowSecs) % 2 ^ 64 < now then .loses
    else .ties
  key e := (hashEntry hasher e).toNat
  enters := merges hasher store

/-- What the store has for a name under a holder of the contest. -/
def held (name : String) : Option MetadataEntry → Option MetadataEntry
  | none => store.entries[name]?
  | some e => some (restamp e now)

end

section
variable {hasher : String → Hash → UInt64} {store : MetadataStore}

theorem contest_beats (store : MetadataStore) (holder e : MetadataEntry) :
    (contest hasher now store).beats holder e = shouldMerge hasher (restamp holder now) e := by
  have stamped : shouldMerge hasher (restamp holder now) e =
      wins now e.info.updatedAt (hashEntry hasher holder) (hashEntry hasher e) := rfl
  have graded : (contest hasher now store).grade e =
      if (now + conflictWindowSecs) % 2 ^ 64 < e.info.updatedAt then .wins
      else if (e.info.updatedAt + conflictWindowSecs) % 2 ^ 64 < now then .loses
      else .ties := rfl
  rw [stamped, wins, Contest.beats, graded]
  by_cases later : (now + conflictWindowSecs) % 2 ^ 64 < e.info.updatedAt
  · rw [if_pos later, if_pos later]
  · rw [if_neg later, if_neg later]
    by_cases earlier : (e.info.updatedAt + conflictWindowSecs) % 2 ^ 64 < now
    · rw [if_pos earlier, if_pos earlier]
    · rw [if_neg earlier, if_neg earlier]
      exact decide_eq_decide.mpr UInt64.lt_iff_toNat_lt.symm

/-- Merging an entry is a challenge. -/
theorem mergeEntry_challenge {acc : MetadataStore × Nat} (named : e.info.name = name)
    (view : acc.1.entries[name]? = held now store name holder) :
    (mergeEntry hasher now acc e).1.entries[name]? =
      held now store name ((contest hasher now store).challenge holder e) := by
  subst named
  cases holder with
  | none =>
    have decided : merges hasher acc.1 e = merges hasher store e := by
      rw [merges, view]
      rfl
    rw [mergeEntry, decided, Contest.challenge]
    by_cases entered : merges hasher store e
    · simp [entered, contest, held]
    · simp [entered, contest, held, view]
  | some h =>
    have decided : merges hasher acc.1 e = (contest hasher now store).beats h e := by
      rw [merges, view, contest_beats]
      rfl
    rw [mergeEntry, decided, Contest.challenge]
    by_cases beaten : (contest hasher now store).beats h e
    · simp [beaten, held]
    · simp [beaten, view]

theorem syncFrom_winner (remote : List MetadataEntry) (named : ∀ e ∈ remote, e.info.name = name) :
    (syncFrom hasher store remote now).1.entries[name]? =
      held now store name ((contest hasher now store).winner remote) := by
  induction remote using List.reverseRecOn with
  | nil => rfl
  | append_singleton earlier e ih =>
    have before := ih fun e member => named e (by simp [member])
    rw [syncFrom, Contest.winner, List.foldl_append, List.foldl_append, ← syncFrom, ← Contest.winner]
    exact mergeEntry_challenge (named e (by simp)) before

/-- An entry that is more than the window newer than the other ones and than the
one in the store. -/
def Newest (store : MetadataStore) (name : String) (all : List MetadataEntry) (e : MetadataEntry) :
    Prop :=
  (∀ other ∈ all, other ≠ e → other.info.updatedAt + conflictWindowSecs < e.info.updatedAt) ∧
  ∀ here : MetadataEntry, store.entries[name]? = some here →
    here.info.updatedAt + conflictWindowSecs < e.info.updatedAt

/-- The content left for a name does not depend on the order of the entries or on
their division among calls, and the newest entry is kept. -/
structure OrderIndependent (hasher : String → Hash → UInt64) (now : Nat) (store : MetadataStore)
    (name : String) (all : List MetadataEntry) : Prop where
  same : ∀ first second : List (List MetadataEntry), first.flatten.Perm all →
    second.flatten.Perm all →
    contentAfter hasher now store name first = contentAfter hasher now store name second
  newest : ∀ e ∈ all, Newest store name all e → ∀ calls : List (List MetadataEntry),
    calls.flatten.Perm all → contentAfter hasher now store name calls = some e.content

theorem contentAfter_winner {all : List MetadataEntry} {calls : List (List MetadataEntry)}
    (named : ∀ e ∈ all, e.info.name = name) (perm : calls.flatten.Perm all) :
    contentAfter hasher now store name calls =
      (held now store name ((contest hasher now store).winner calls.flatten)).map
        MetadataEntry.content := by
  have ofName (e : MetadataEntry) (member : e ∈ calls.flatten) : e.info.name = name :=
    named e (perm.mem_iff.mp member)
  rw [contentAfter, syncCalls_eq, syncFrom_winner calls.flatten ofName]

theorem newest_merges (newest : Newest store name all e) (named : e.info.name = name) :
    merges hasher store e := by
  subst named
  rw [merges]
  cases found : store.entries[e.info.name]? with
  | none => rfl
  | some here =>
    have later := newest.2 here found
    have sum := Nat.mod_le (here.info.updatedAt + conflictWindowSecs) (2 ^ 64)
    simp only [shouldMerge]
    rw [wins, if_pos (Nat.lt_of_le_of_lt sum later)]

/-- Entries of one name with different hashes have different contents. -/
theorem content_injective {all : List MetadataEntry} (named : ∀ e ∈ all, e.info.name = name)
    (distinct : (all.map (hashEntry hasher)).Nodup) (first : a ∈ all) (second : b ∈ all)
    (same : a.content = b.content) : a = b := by
  apply List.inj_on_of_nodup_map distinct first second
  have files : a.info.fileHash = b.info.fileHash := congrArg Prod.fst same
  rw [hashEntry, hashEntry, named a first, named b second, files]

/-- Equal contents after two orders mean equal winners. -/
theorem winner_of_content {all : List MetadataEntry} (named : ∀ e ∈ all, e.info.name = name)
    (distinct : (all.map (hashEntry hasher)).Nodup) (firstPerm : first.Perm all)
    (secondPerm : second.Perm all)
    (same : (held now store name ((contest hasher now store).winner first)).map
        MetadataEntry.content =
      (held now store name ((contest hasher now store).winner second)).map MetadataEntry.content) :
    (contest hasher now store).winner first = (contest hasher now store).winner second := by
  have nobody : (contest hasher now store).winner first = none ↔
      (contest hasher now store).winner second = none := by
    rw [Contest.winner_eq_none, Contest.winner_eq_none]
    exact forall_congr' fun e => by rw [firstPerm.mem_iff, secondPerm.mem_iff]
  cases won : (contest hasher now store).winner first with
  | none => exact (nobody.mp won).symm
  | some a =>
    cases other : (contest hasher now store).winner second with
    | none =>
      rw [nobody.mpr other] at won
      cases won
    | some b =>
      rw [won, other] at same
      have contents : a.content = b.content := Option.some.inj same
      rw [content_injective named distinct (firstPerm.mem_iff.mp (Contest.winner_mem won))
        (secondPerm.mem_iff.mp (Contest.winner_mem other)) contents]

/-- A champion of the contest in terms of the store. -/
theorem champion_iff {all : List MetadataEntry} {c : MetadataEntry} :
    (contest hasher now store).Champion all c ↔
      c ∈ all ∧ merges hasher store c ∧
        (∀ a ∈ all, merges hasher store a → a ≠ c → shouldMerge hasher (restamp a now) c) ∧
        ∀ e ∈ all, e ≠ c → ¬ shouldMerge hasher (restamp c now) e := by
  simp only [← contest_beats store]
  constructor
  · intro champion
    exact ⟨champion.member, champion.enters, champion.beats, champion.unbeaten⟩
  · rintro ⟨member, entered, beats, unbeaten⟩
    exact ⟨member, entered, beats, unbeaten⟩

/-- The content left for a name is the same for all orders, and the newest entry
is kept, exactly when no entry wins against the one in the store, or one of those
that win is merged over each of the others once they are stamped, loses its place
to none, and is the newest where there is a newest. -/
theorem order_independent_iff (hasher : String → Hash → UInt64) (now : Nat) (store : MetadataStore)
    (name : String) (all : List MetadataEntry) (named : ∀ e ∈ all, e.info.name = name)
    (distinct : (all.map (hashEntry hasher)).Nodup) :
    OrderIndependent hasher now store name all ↔
      (∀ e ∈ all, ¬ merges hasher store e) ∨
      ∃ c ∈ all, merges hasher store c ∧
        (∀ a ∈ all, merges hasher store a → a ≠ c → shouldMerge hasher (restamp a now) c) ∧
        (∀ e ∈ all, e ≠ c → ¬ shouldMerge hasher (restamp c now) e) ∧
        ∀ e ∈ all, Newest store name all e → e = c := by
  have nodup : all.Nodup := distinct.of_map
  have keys (a : MetadataEntry) (first : a ∈ all) (b : MetadataEntry) (second : b ∈ all)
      (same : (contest hasher now store).key a = (contest hasher now store).key b) : a = b :=
    List.inj_on_of_nodup_map distinct first second (UInt64.toNat_inj.mp same)
  have single (list : List MetadataEntry) : [list].flatten = list := List.flatten_singleton
  constructor
  · intro independent
    have winners (first second : List MetadataEntry) (firstPerm : first.Perm all)
        (secondPerm : second.Perm all) : (contest hasher now store).winner first =
          (contest hasher now store).winner second := by
      have same := independent.same [first] [second] (by rwa [single]) (by rwa [single])
      rw [contentAfter_winner named (by rwa [single]), contentAfter_winner named (by rwa [single]),
        single, single] at same
      exact winner_of_content named distinct firstPerm secondPerm same
    refine ((Contest.winner_same_iff nodup keys).mp winners).imp_right fun ⟨c, champion⟩ => ?_
    obtain ⟨own, entered, beats, unbeaten⟩ := champion_iff.mp champion
    refine ⟨c, own, entered, beats, unbeaten, ?_⟩
    intro e member newest
    have kept := independent.newest e member newest [all] (by rw [single])
    rw [contentAfter_winner named (by rw [single]), single,
      champion.winner keys nodup (List.Perm.refl all)] at kept
    exact (content_injective named distinct own member (Option.some.inj kept)).symm
  · rintro (nobody | ⟨c, member, entered, beats, unbeaten, newest⟩)
    · have winners := (Contest.winner_same_iff nodup keys).mpr (Or.inl nobody)
      constructor
      · intro first second firstPerm secondPerm
        rw [contentAfter_winner named firstPerm, contentAfter_winner named secondPerm,
          winners _ _ firstPerm secondPerm]
      · intro e member newest
        exact absurd (newest_merges newest (named e member)) (nobody e member)
    · have champion : (contest hasher now store).Champion all c :=
        champion_iff.mpr ⟨member, entered, beats, unbeaten⟩
      constructor
      · intro first second firstPerm secondPerm
        rw [contentAfter_winner named firstPerm, contentAfter_winner named secondPerm,
          champion.winner keys nodup firstPerm, champion.winner keys nodup secondPerm]
      · intro e known isNewest calls perm
        rw [contentAfter_winner named perm, champion.winner keys nodup perm,
          newest e known isNewest]
        rfl

end

/-- The values of the library's hasher for the two versions of the report. -/
def reportHash (_ : String) (fileHash : Hash) : UInt64 :=
  if fileHash = List.Vector.replicate 32 1 then 0x839009405d8f0c1 else 0xd30f949fe3ee89b4

theorem merges_new (hasher : String → Hash → UInt64) (e : MetadataEntry) :
    merges hasher .new e := by
  simp [merges, MetadataStore.new]

/-- The two versions come to an empty store within the window. -/
theorem order_independent_ties :
    OrderIndependent reportHash 5 .new "report" [olderEntry, newerEntry] := by
  refine (order_independent_iff reportHash 5 .new "report" _ (by decide) (by decide)).mpr
    (Or.inr ⟨newerEntry, by simp, merges_new _ _, ?_, by decide, ?_⟩)
  · have taken : ∀ a ∈ [olderEntry, newerEntry], a ≠ newerEntry →
        shouldMerge reportHash (restamp a 5) newerEntry := by decide
    exact fun a member _ other => taken a member other
  · intro e member newest
    rcases List.mem_pair.mp member with rfl | rfl
    · exact absurd (newest.1 newerEntry (by simp) (by decide)) (by decide)
    · rfl

/-- The two versions come to an empty store long after they were made: the one
that comes first is kept, in either order. -/
theorem order_decides :
    ([olderEntry, newerEntry].map (hashEntry reportHash)).Nodup ∧
    Newest .new "report" [olderEntry, newerEntry] newerEntry ∧
    contentAfter reportHash 100 .new "report" [[olderEntry, newerEntry]] =
      some olderEntry.content ∧
    contentAfter reportHash 100 .new "report" [[newerEntry, olderEntry]] =
      some newerEntry.content ∧
    ¬ OrderIndependent reportHash 100 .new "report" [olderEntry, newerEntry] := by
  have named : ∀ e ∈ [olderEntry, newerEntry], e.info.name = "report" := by decide
  have swapped : [newerEntry, olderEntry].Perm [olderEntry, newerEntry] := .swap _ _ _
  have first : contentAfter reportHash 100 .new "report" [[olderEntry, newerEntry]] =
      some olderEntry.content := by
    rw [contentAfter_winner named (.refl _), List.flatten_singleton,
      Contest.winner_enter (merges_new _ _), Contest.holder_stays]
    · rfl
    · simp only [contest_beats]
      decide
  have second : contentAfter reportHash 100 .new "report" [[newerEntry, olderEntry]] =
      some newerEntry.content := by
    have perm : [[newerEntry, olderEntry]].flatten.Perm [olderEntry, newerEntry] := swapped
    rw [contentAfter_winner named perm, List.flatten_singleton,
      Contest.winner_enter (merges_new _ _), Contest.holder_stays]
    · rfl
    · simp only [contest_beats]
      decide
  refine ⟨by decide, ⟨by decide, by simp [MetadataStore.new]⟩, first, second, fun independent => ?_⟩
  have same := independent.same [[olderEntry, newerEntry]] [[newerEntry, olderEntry]] (.refl _) swapped
  rw [first, second] at same
  exact absurd same (by decide)

end LanLink.Metadata.Merge
