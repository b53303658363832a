import LanLink.Vpn.DhtTable

/-! The order of a bucket and the nodes a refresh removes. A bucket is driven by
a clock that does not go back: every call says how much time has passed since
the one before it. -/
namespace LanLink.Vpn

/-- The node in front. -/
def KBucket.leastRecentlySeen (b : KBucket) : Option BucketEntry := b.entries.head?

def KBucket.isFull (b : KBucket) : Bool := b.capacity ≤ b.entries.length

section Order

structure Timed where
  bucket : KBucket
  clock : Nat

inductive BucketCall where
  | insert (nodeId : NodeID) (addr : String) (elapsed : Nat)
  | touch (nodeId : NodeID) (elapsed : Nat)
  | remove (nodeId : NodeID) (elapsed : Nat)

def Timed.step (s : Timed) : BucketCall → Option Timed
  | .insert nodeId addr elapsed =>
    let now := s.clock + elapsed
    some ⟨(s.bucket.insert nodeId addr now).1, now⟩
  | .touch nodeId elapsed =>
    let now := s.clock + elapsed
    some ⟨(s.bucket.touch nodeId now).1, now⟩
  | .remove nodeId elapsed => some ⟨(s.bucket.remove nodeId).1, s.clock + elapsed⟩

def ByRecency (entries : List BucketEntry) : Prop :=
  entries.Pairwise fun a b => a.lastSeen ≤ b.lastSeen

/-- The entries go from the oldest to the newest, and the node in front is an
oldest one. -/
structure Timed.Ordered (s : Timed) : Prop where
  sorted : ByRecency s.bucket.entries
  oldest : ∀ front, s.bucket.leastRecentlySeen = some front →
    ∀ entry ∈ s.bucket.entries, front.lastSeen ≤ entry.lastSeen

/-- A full bucket refuses a new node with the node in front and stays as it is. -/
def Timed.Answers (s : Timed) : BucketCall → Prop
  | .insert nodeId addr elapsed =>
    s.bucket.isFull = true → nodeId ∉ s.bucket.entries.map BucketEntry.nodeId →
      ∃ front, s.bucket.leastRecentlySeen = some front ∧
        s.bucket.insert nodeId addr (s.clock + elapsed) = (s.bucket, .error front)
  | _ => True

/-- The entries behind the first one of a node. -/
def behind (nodeId : NodeID) (entries : List BucketEntry) : List BucketEntry :=
  (entries.dropWhile fun entry => entry.nodeId ≠ nodeId).tail

/-- A node that is inserted again has nodes behind it only if they were seen at
this very moment. -/
def Timed.RenewsLast (s : Timed) : BucketCall → Prop
  | .insert nodeId _ elapsed =>
    ∀ entry ∈ behind nodeId s.bucket.entries, s.clock + elapsed ≤ entry.lastSeen
  | _ => True

/-- No new node comes to a full bucket. -/
def Timed.HasPlace (s : Timed) : BucketCall → Prop
  | .insert nodeId _ _ =>
    nodeId ∈ s.bucket.entries.map BucketEntry.nodeId ∨ s.bucket.isFull = false
  | _ => True

/-- No entry is from the future. -/
def Timed.Past (s : Timed) : Prop := ∀ entry ∈ s.bucket.entries, entry.lastSeen ≤ s.clock

theorem renew_mem (renewed : renew nodeId addr now entries = some after) (member : entry ∈ after) :
    entry ∈ entries ∨ entry.lastSeen = now := by
  induction entries generalizing after with
  | nil => simp [renew] at renewed
  | cons first rest ih =>
    rw [renew] at renewed
    split at renewed
    · cases renewed
      rcases List.mem_cons.mp member with rfl | later
      · exact .inr rfl
      · exact .inl (List.mem_cons_of_mem _ later)
    · obtain ⟨others, tail, rfl⟩ := Option.map_eq_some_iff.mp renewed
      rcases List.mem_cons.mp member with rfl | later
      · exact .inl List.mem_cons_self
      · exact (ih tail later).imp_left (List.mem_cons_of_mem _)

/-- The renewed entry keeps its place, so those behind it must be as new. -/
theorem renew_sorted (renewed : renew nodeId addr now entries = some after)
    (sorted : ByRecency entries) (past : ∀ entry ∈ entries, entry.lastSeen ≤ now) :
    ByRecency after ↔ ∀ entry ∈ behind nodeId entries, now ≤ entry.lastSeen := by
  induction entries generalizing after with
  | nil => simp [renew] at renewed
  | cons first rest ih =>
    obtain ⟨least, sortedRest⟩ := List.pairwise_cons.mp sorted
    rw [renew] at renewed
    split at renewed
    · rename_i named
      cases renewed
      simp only [behind, named, ne_eq, not_true, decide_false, List.dropWhile_cons,
        Bool.false_eq_true, if_false, List.tail_cons, ByRecency, List.pairwise_cons]
      exact and_iff_left sortedRest
    · rename_i other
      obtain ⟨others, tail, rfl⟩ := Option.map_eq_some_iff.mp renewed
      have pastRest : ∀ entry ∈ rest, entry.lastSeen ≤ now :=
        fun entry member => past entry (List.mem_cons_of_mem _ member)
      have here : ∀ entry ∈ others, first.lastSeen ≤ entry.lastSeen := by
        intro entry member
        rcases renew_mem tail member with old | new
        · exact least entry old
        · rw [new]
          exact past first List.mem_cons_self
      have skip : behind nodeId (first :: rest) = behind nodeId rest := by
        simp [behind, other]
      rw [skip, ← ih tail sortedRest pastRest, ByRecency, List.pairwise_cons]
      exact and_iff_right here

theorem sorted_append {entries : List BucketEntry} (sorted : ByRecency entries)
    (past : ∀ entry ∈ entries, entry.lastSeen ≤ last.lastSeen) : ByRecency (entries ++ [last]) := by
  refine List.pairwise_append.mpr ⟨sorted, List.pairwise_singleton _ _, ?_⟩
  intro entry member back here
  rw [List.mem_singleton.mp here]
  exact past entry member

/-- The front of an ordered bucket is an oldest entry. -/
theorem ordered_iff (s : Timed) : s.Ordered ↔ ByRecency s.bucket.entries := by
  refine ⟨Timed.Ordered.sorted, fun sorted => ⟨sorted, ?_⟩⟩
  intro front first entry member
  cases entries : s.bucket.entries with
  | nil => simp [entries] at member
  | cons head rest =>
    simp only [KBucket.leastRecentlySeen, entries, List.head?_cons, Option.some.injEq] at first
    subst first
    rw [entries] at sorted member
    rcases List.mem_cons.mp member with rfl | later
    · exact Nat.le_refl _
    · exact (List.pairwise_cons.mp sorted).1 entry later

/-- What an insertion does to the entries. -/
theorem insert_entries (b : KBucket) (nodeId : NodeID) (addr : String) (now : Nat) :
    renew nodeId addr now b.entries = some (b.insert nodeId addr now).1.entries ∨
      renew nodeId addr now b.entries = none ∧
        ((b.insert nodeId addr now).1.entries = b.entries ++ [⟨nodeId, addr, now⟩] ∨
          (b.insert nodeId addr now).1 = b) := by
  rw [KBucket.insert]
  cases renewed : renew nodeId addr now b.entries with
  | some entries => exact .inl rfl
  | none =>
    refine .inr ⟨rfl, ?_⟩
    dsimp only
    split
    · exact .inl rfl
    · exact .inr rfl

theorem touch_entries (b : KBucket) (nodeId : NodeID) (now : Nat) :
    (b.touch nodeId now).1 = b ∨ ∃ entry : BucketEntry, (b.touch nodeId now).1.entries =
      (b.remove nodeId).1.entries ++ [{ entry with lastSeen := now }] := by
  rw [KBucket.touch]
  split
  · rename_i entry found
    exact .inr ⟨entry, rfl⟩
  · exact .inl rfl

theorem renew_missing (missing : nodeId ∉ entries.map BucketEntry.nodeId) :
    renew nodeId addr now entries = none := by
  induction entries with
  | nil => rfl
  | cons first rest ih =>
    rw [List.map_cons, List.mem_cons, not_or] at missing
    rw [renew, if_neg (fun same => missing.1 same.symm), ih missing.2]
    rfl

theorem behind_missing {entries : List BucketEntry}
    (missing : nodeId ∉ entries.map BucketEntry.nodeId) : behind nodeId entries = [] := by
  induction entries with
  | nil => rfl
  | cons first rest ih =>
    rw [List.map_cons, List.mem_cons, not_or] at missing
    have other : first.nodeId ≠ nodeId := fun same => missing.1 same.symm
    simpa [behind, other] using ih missing.2

variable {s t : Timed} {call : BucketCall}

theorem Timed.Past.later (past : s.Past) (elapsed : Nat) :
    ∀ entry ∈ s.bucket.entries, entry.lastSeen ≤ s.clock + elapsed :=
  fun entry member => Nat.le_add_right_of_le (past entry member)

theorem step_past (past : s.Past) (stepped : s.step call = some t) : t.Past := by
  cases call with
  | insert nodeId addr elapsed =>
    cases stepped
    intro entry member
    rcases insert_entries s.bucket nodeId addr (s.clock + elapsed) with
      renewed | ⟨-, added | kept⟩
    · rcases renew_mem renewed member with old | new
      · exact past.later elapsed entry old
      · exact Nat.le_of_eq new
    · rw [added] at member
      rcases List.mem_append.mp member with old | new
      · exact past.later elapsed entry old
      · rw [List.mem_singleton.mp new]
    · rw [kept] at member
      exact past.later elapsed entry member
  | touch nodeId elapsed =>
    cases stepped
    intro entry member
    rcases touch_entries s.bucket nodeId (s.clock + elapsed) with kept | ⟨seen, moved⟩
    · rw [kept] at member
      exact past.later elapsed entry member
    · rw [moved] at member
      rcases List.mem_append.mp member with old | new
      · exact past.later elapsed entry (List.mem_of_mem_eraseP old)
      · rw [List.mem_singleton.mp new]
  | remove nodeId elapsed =>
    cases stepped
    exact fun entry member => past.later elapsed entry (List.mem_of_mem_eraseP member)

/-- A call keeps the order exactly when it renews no node in front of others. -/
theorem step_ordered (past : s.Past) (ordered : s.Ordered) (stepped : s.step call = some t) :
    t.Ordered ↔ s.RenewsLast call := by
  rw [ordered_iff]
  cases call with
  | insert nodeId addr elapsed =>
    cases stepped
    rcases insert_entries s.bucket nodeId addr (s.clock + elapsed) with
      renewed | ⟨missing, change⟩
    · exact renew_sorted renewed ordered.sorted (past.later elapsed)
    · have last : s.RenewsLast (.insert nodeId addr elapsed) := by
        rw [Timed.RenewsLast, behind_missing (renew_none missing)]
        simp
      refine iff_of_true ?_ last
      rcases change with added | kept
      · rw [added]
        exact sorted_append ordered.sorted (past.later elapsed)
      · rw [kept]
        exact ordered.sorted
  | touch nodeId elapsed =>
    cases stepped
    refine iff_of_true ?_ trivial
    rcases touch_entries s.bucket nodeId (s.clock + elapsed) with kept | ⟨seen, moved⟩
    · rw [kept]
      exact ordered.sorted
    · rw [moved]
      apply sorted_append (ordered.sorted.sublist List.eraseP_sublist)
      exact fun entry member => past.later elapsed entry (List.mem_of_mem_eraseP member)
  | remove nodeId elapsed =>
    cases stepped
    exact iff_of_true (ordered.sorted.sublist List.eraseP_sublist) trivial

/-- A full bucket returns the new node, which is not the one in front. -/
theorem answers_iff (s : Timed) (call : BucketCall) : s.Answers call ↔ s.HasPlace call := by
  cases call with
  | insert nodeId addr elapsed =>
    by_cases stored : nodeId ∈ s.bucket.entries.map BucketEntry.nodeId
    · exact iff_of_true (fun _ missing => absurd stored missing) (.inl stored)
    · cases full : s.bucket.isFull with
      | false =>
        refine iff_of_true (fun refused => ?_) (.inr full)
        simp [full] at refused
      | true =>
        refine iff_of_false ?_ (by simp [Timed.HasPlace, stored, full])
        intro answers
        obtain ⟨front, first, refused⟩ := answers full stored
        have crowded : ¬ s.bucket.entries.length < s.bucket.capacity := by
          simpa [KBucket.isFull] using full
        rw [KBucket.insert, renew_missing stored] at refused
        simp only [crowded, if_false, Prod.mk.injEq, true_and, Except.error.injEq] at refused
        subst refused
        exact stored (List.mem_map_of_mem (f := BucketEntry.nodeId) (List.mem_of_head? first))
  | touch nodeId elapsed => exact iff_of_true trivial trivial
  | remove nodeId elapsed => exact iff_of_true trivial trivial

theorem step_total (s : Timed) (call : BucketCall) : ∃ t, s.step call = some t := by
  cases call with
  | insert | touch | remove => exact ⟨_, rfl⟩

/-- Along every sequence of calls the bucket is ordered and answers as it should,
exactly when no stored node is inserted again in front of others and no new node
comes to a full bucket. -/
theorem recency_iff (capacity clock : Nat) (calls : List BucketCall) :
    (Runs.Always Timed.step Timed.Ordered ⟨.new capacity, clock⟩ calls ∧
      Runs.Meets Timed.step Timed.Answers ⟨.new capacity, clock⟩ calls) ↔
    Runs.Meets Timed.step (fun s call => s.RenewsLast call ∧ s.HasPlace call)
      ⟨.new capacity, clock⟩ calls := by
  obtain ⟨last, run⟩ := Runs.exec_total step_total (⟨.new capacity, clock⟩ : Timed) calls
  have past : Timed.Past ⟨.new capacity, clock⟩ := by simp [Timed.Past, KBucket.new]
  have ordered : Timed.Ordered ⟨.new capacity, clock⟩ :=
    (ordered_iff _).mpr List.Pairwise.nil
  have order := Runs.always_iff (fun past stepped => step_past past stepped)
    (fun past ordered stepped => step_ordered past ordered stepped) run past ordered
  have answers : Runs.Meets Timed.step Timed.Answers ⟨.new capacity, clock⟩ calls ↔
      Runs.Meets Timed.step Timed.HasPlace ⟨.new capacity, clock⟩ calls :=
    Runs.meets_congr (fun _ => answers_iff _ _)
      (Runs.meets_of_forall (g := fun _ _ => True) fun _ _ _ => trivial)
  rw [order, answers, Runs.meets_and]

def earlyNode : NodeID := List.Vector.replicate 32 1

def lateNode : NodeID := List.Vector.replicate 32 2

/-- The node inserted again stays in front of an older one; a full bucket
returns the new node. -/
theorem recency_lost :
    ¬ Runs.Always Timed.step Timed.Ordered ⟨.new kBucketSize, 0⟩
        [.insert earlyNode "a" 0, .insert lateNode "b" 1, .insert earlyNode "a" 1] ∧
      ¬ Runs.Meets Timed.step Timed.Answers ⟨.new 1, 0⟩
        [.insert earlyNode "a" 0, .insert lateNode "b" 1] := by
  constructor
  · rintro ⟨-, always⟩
    obtain ⟨-, always⟩ := always _ rfl
    obtain ⟨-, always⟩ := always _ rfl
    have sorted := (always _ rfl).sorted
    revert sorted
    rw [ByRecency]
    decide
  · rintro ⟨-, meets⟩
    obtain ⟨answers, -⟩ := meets _ rfl
    obtain ⟨front, first, refused⟩ := answers (by decide) (by decide)
    cases first
    revert refused
    decide

end Order

section Refresh

/-- In nanoseconds; a node seen in this time is live. -/
def liveTime : Nat := nodeTimeoutSecs / 2 * second

/-- A refresh keeps every live node and counts those it removes. -/
structure RefreshSpares (m : DhtManager) (now : Nat) : Prop where
  spared : ∀ i, ∀ entry ∈ (m.buckets i).entries, now - entry.lastSeen ≤ liveTime →
    entry ∈ ((m.refresh now).1.buckets i).entries
  counted : (m.refresh now).2 + (m.refresh now).1.nodeIds.length = m.nodeIds.length

/-- A bucket with a stale node in front has only stale nodes. -/
def StaleThroughout (m : DhtManager) (now : Nat) : Prop :=
  ∀ i front, (m.buckets i).leastRecentlySeen = some front → liveTime < now - front.lastSeen →
    ∀ entry ∈ (m.buckets i).entries, liveTime < now - entry.lastSeen

/-- Removing the nodes of a bucket one by one empties it. -/
theorem foldl_remove_entries (entries : List BucketEntry) (capacity : Nat) :
    entries.foldl (fun bucket stale => (bucket.remove stale.nodeId).1)
      (KBucket.mk entries capacity) = ⟨[], capacity⟩ := by
  induction entries with
  | nil => rfl
  | cons entry rest ih =>
    have removed : (KBucket.remove ⟨entry :: rest, capacity⟩ entry.nodeId).1 = ⟨rest, capacity⟩ := by
      simp [KBucket.remove]
    rw [List.foldl_cons, removed, ih]

/-- A refresh either empties a bucket or leaves it alone. -/
theorem refresh_cases (b : KBucket) (now : Nat) :
    (∃ front, b.leastRecentlySeen = some front ∧ liveTime < now - front.lastSeen ∧
      b.refresh now = (⟨[], b.capacity⟩, b.entries.length)) ∨
    (∀ front, b.leastRecentlySeen = some front → ¬ liveTime < now - front.lastSeen) ∧
      b.refresh now = (b, 0) := by
  rw [KBucket.refresh, KBucket.leastRecentlySeen]
  cases first : b.entries.head? with
  | none =>
    refine .inr ⟨?_, rfl⟩
    rintro front ⟨⟩
  | some front =>
    by_cases stale : liveTime < now - front.lastSeen
    · refine .inl ⟨front, rfl, stale, ?_⟩
      have emptied := foldl_remove_entries b.entries b.capacity
      simp only [liveTime] at stale
      simp only [if_pos stale, emptied]
    · refine .inr ⟨?_, ?_⟩
      · rintro other ⟨⟩
        exact stale
      · simp only [liveTime] at stale
        simp only [if_neg stale]

theorem refresh_counted (b : KBucket) (now : Nat) :
    (b.refresh now).2 + (b.refresh now).1.entries.length = b.entries.length := by
  rcases refresh_cases b now with ⟨front, -, -, emptied⟩ | ⟨-, kept⟩
  · rw [emptied]
    rfl
  · rw [kept, Nat.zero_add]

theorem nodeIds_length (m : DhtManager) :
    m.nodeIds.length = ((List.finRange bucketCount).map fun i => (m.buckets i).entries.length).sum := by
  simp [DhtManager.nodeIds, List.length_flatMap]

/-- A refresh always says how many nodes it removed. -/
theorem refresh_count (m : DhtManager) (now : Nat) :
    (m.refresh now).2 + (m.refresh now).1.nodeIds.length = m.nodeIds.length := by
  rw [nodeIds_length, nodeIds_length, DhtManager.refresh, ← List.sum_map_add]
  simp only [refresh_counted]

/-- Live nodes survive a refresh exactly when no bucket has one behind a stale front. -/
theorem refresh_spares_iff (m : DhtManager) (now : Nat) :
    RefreshSpares m now ↔ StaleThroughout m now := by
  constructor
  · intro spares i front first stale entry member
    by_contra live
    have kept := spares.spared i entry member (Nat.le_of_not_lt live)
    rcases refresh_cases (m.buckets i) now with ⟨other, -, -, emptied⟩ | ⟨fresh, -⟩
    · simp [DhtManager.refresh, emptied] at kept
    · exact fresh front first stale
  · intro throughout
    refine ⟨?_, refresh_count m now⟩
    intro i entry member live
    rcases refresh_cases (m.buckets i) now with ⟨front, first, stale, -⟩ | ⟨-, kept⟩
    · exact absurd (throughout i front first stale entry member) (Nat.not_lt.mpr live)
    · simpa [DhtManager.refresh, kept] using member

/-- A node seen 500 seconds ago and one seen 100 seconds ago, in one bucket. -/
def mixedTable : DhtManager :=
  (((DhtManager.new (List.Vector.replicate 32 0)).insertNode (List.Vector.replicate 32 2) "a" 0).1
    |>.insertNode (List.Vector.replicate 32 3) "b" (400 * second)).1

theorem live_node_removed : ¬ RefreshSpares mixedTable (500 * second) := by
  intro spares
  have kept := spares.spared ⟨6, by decide⟩ ⟨List.Vector.replicate 32 3, "b", 400 * second⟩
    (by decide) (by decide)
  revert kept
  decide

end Refresh

end LanLink.Vpn
