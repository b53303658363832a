import Mathlib.Algebra.Order.Field.Rat
import LanLink.Vpn.MultipathDelivery

/-! How the fragments of one call are spread over paths of weight one. The choice compares
a sum of weights, which starts anew in every call, with a sequence number, which does not. -/
namespace LanLink.Multipath
open Words Maps Blocks

section
variable {k n j F a : Nat}

/-- Weights as exact numbers. -/
def weightBelow (weight : ℚ) (seq : Nat) : Bool := weight < seq

/-- The position of the path for fragment `j` of a call, with `n` numbers used before it. -/
def pathOf (k n j : Nat) : Nat := min (k - 1) (min (n + j) (2 ^ 64 - 1) - 1)

/-- How many of `F` fragments go over the path at a position. -/
def load (k n F a : Nat) : Nat := ((List.range F).map (pathOf k n)).count a

theorem load_succ : load k n (F + 1) a = load k n F a + if pathOf k n F = a then 1 else 0 := by
  rw [load, List.range_succ, List.map_append, List.count_append, List.map_singleton,
    List.count_singleton]
  simp only [load, beq_iff_eq]

theorem load_le (k n F a : Nat) : load k n F a ≤ F := by
  have bound := List.count_le_length (a := a) (l := (List.range F).map (pathOf k n))
  rwa [List.length_map, List.length_range] at bound

/-- The paths before the last one get the numbers up to one more than their position, every
number once; the last path gets the rest. -/
theorem load_eq (several : 2 ≤ k) (inside : a < k) (small : n + F ≤ 2 ^ 64) :
    load k n F a + (if a = 0 then 0 else min F (a + 1 - n)) =
      if a + 1 = k then F else min F (a + 2 - n) := by
  induction F with
  | zero => simp [load]
  | succ F ih =>
    specialize ih (by omega)
    have place : pathOf k n F = min (k - 1) (n + F - 1) := by
      rw [pathOf, Nat.min_eq_left (by omega : n + F ≤ 2 ^ 64 - 1)]
    rw [load_succ, place]
    rcases Nat.eq_zero_or_pos a with rfl | later
    · have inner : ¬ 0 + 1 = k := by omega
      rw [if_pos rfl, if_neg inner] at ih ⊢
      split <;> omega
    · rw [if_neg (Nat.ne_of_gt later)] at ih ⊢
      by_cases last : a + 1 = k
      · rw [if_pos last] at ih ⊢
        split <;> omega
      · rw [if_neg last] at ih ⊢
        split <;> omega

/-- The numbers of fragments of any two paths differ by at most one. -/
def Balanced (k n F : Nat) : Prop := ∀ a < k, ∀ b < k, load k n F a ≤ load k n F b + 1

/-- One path or one fragment at most; or the first call of all, where the first path gets
two fragments and every other path has to get one; or the first number is one, and so is the
share of every path; or later numbers, all of them covered by the sum of the weights. -/
def Fair (k n F : Nat) : Prop :=
  k = 1 ∨ F ≤ 1 ∨ (n = 0 ∧ k + 1 ≤ F ∧ (F ≤ k + 2 ∨ k = 2 ∧ F = 5)) ∨ (n = 1 ∧ F ≤ k + 1) ∨
    (2 ≤ n ∧ n + F ≤ k + 1 ∧ n + F ≤ 2 ^ 64)

instance : Decidable (Fair k n F) := inferInstanceAs (Decidable (_ ∨ _))

theorem load_first (several : 2 ≤ k) (small : n + F ≤ 2 ^ 64) : load k n F 0 = min F (2 - n) := by
  have loads := load_eq several (show 0 < k by omega) small
  rwa [if_pos rfl, if_neg (by omega)] at loads

theorem load_inner (inner : a + 2 < k) (small : n + F ≤ 2 ^ 64) :
    load k n F (a + 1) + min F (a + 2 - n) = min F (a + 3 - n) := by
  have loads := load_eq (show 2 ≤ k by omega) (show a + 1 < k by omega) small
  rwa [if_neg (Nat.succ_ne_zero a), if_neg (by omega)] at loads

theorem load_last (small : n + F ≤ 2 ^ 64) :
    load (k + 2) n F (k + 1) + min F (k + 2 - n) = F := by
  have loads := load_eq (Nat.le_add_left 2 k) (Nat.lt_succ_self (k + 1)) small
  rwa [if_neg (Nat.succ_ne_zero k), if_pos rfl] at loads

theorem balanced_of_floor (floor : Nat)
    (within : ∀ a < k, floor ≤ load k n F a ∧ load k n F a ≤ floor + 1) : Balanced k n F := by
  intro a aInside b bInside
  exact (within a aInside).2.trans (Nat.succ_le_succ (within b bInside).1)

/-- A path is the first one, the last one or between them. -/
theorem positions {P : Nat → Prop} (first : P 0) (last : P (k + 1)) (inner : ∀ a < k, P (a + 1)) :
    ∀ a < k + 2, P a := by
  intro a inside
  cases a with
  | zero => exact first
  | succ a =>
    rcases Nat.lt_succ_iff_lt_or_eq.mp (Nat.lt_of_succ_lt_succ inside) with before | rfl
    · exact inner a before
    · exact last

theorem balanced_early (more : 2 ≤ F) (first : n ≤ 1) (small : F < 2 ^ 63) :
    Balanced (k + 2) n F ↔ Fair (k + 2) n F := by
  have fits : n + F ≤ 2 ^ 64 := by omega
  have front := load_first (Nat.le_add_left 2 k) fits
  have back := load_last (k := k) fits
  have middle (a : Nat) (inner : a < k) := load_inner (Nat.add_lt_add_right inner 2) fits
  constructor
  · intro balanced
    have up := balanced (k + 1) (by omega) 0 (by omega)
    have down := balanced 0 (by omega) (k + 1) (by omega)
    rw [Fair]
    cases k with
    | zero => omega
    | succ k =>
      have second := middle 0 (Nat.succ_pos k)
      have above := balanced (k + 1 + 1) (by omega) (0 + 1) (by omega)
      omega
  · rintro (one | one | ⟨rfl, enough, most⟩ | ⟨rfl, most⟩ | ⟨late, -⟩)
    · omega
    · omega
    · rcases most with most | ⟨two, five⟩
      · apply balanced_of_floor 1
        apply positions
        · omega
        · omega
        · intro a inner
          have := middle a inner
          omega
      · apply balanced_of_floor 2
        apply positions <;> omega
    · by_cases all : F ≤ k + 2
      · apply balanced_of_floor 0
        apply positions
        · omega
        · omega
        · intro a inner
          have := middle a inner
          omega
      · apply balanced_of_floor 1
        apply positions
        · omega
        · omega
        · intro a inner
          have := middle a inner
          omega
    · omega

/-- From the third number on the first path gets nothing, so that no path may get two
fragments. -/
theorem balanced_late (more : 2 ≤ F) (late : 2 ≤ n) :
    Balanced (k + 2) n F ↔ Fair (k + 2) n F := by
  obtain ⟨top, word⟩ : ∃ top, 2 ^ 64 = top + 1 := ⟨2 ^ 64 - 1, by decide⟩
  have same (i : Nat) : pathOf (k + 2) n i = min (k + 1) (min (n + i) top - 1) := by
    rw [pathOf, word]
    rfl
  have front : load (k + 2) n F 0 = 0 := by
    apply List.count_eq_zero.mpr
    intro member
    obtain ⟨i, -, chosen⟩ := List.mem_map.mp member
    rw [same] at chosen
    omega
  constructor
  · intro balanced
    obtain ⟨m, rfl⟩ : ∃ m, F = m + 2 := ⟨F - 2, by omega⟩
    have twice := balanced (pathOf (k + 2) n m) (by rw [same]; omega) 0 (by omega)
    rw [front, load_succ, load_succ, if_pos rfl] at twice
    have apart : pathOf (k + 2) n (m + 1) ≠ pathOf (k + 2) n m := by
      intro again
      rw [if_pos again] at twice
      omega
    rw [same, same] at apart
    have covered : n + (m + 2) ≤ k + 3 ∧ n + (m + 2) ≤ top + 1 := by omega
    rw [← word] at covered
    exact .inr (.inr (.inr (.inr ⟨late, covered⟩)))
  · intro fair
    have covered : n + F ≤ k + 3 ∧ n + F ≤ top + 1 := by
      rw [← word]
      rw [Fair] at fair
      omega
    have apart : ((List.range F).map (pathOf (k + 2) n)).Nodup := by
      apply List.nodup_range.map_on
      intro i iInside j jInside chosen
      rw [List.mem_range] at iInside jInside
      rw [same, same] at chosen
      omega
    apply balanced_of_floor 0
    intro a _
    exact ⟨Nat.zero_le _, List.nodup_iff_count_le_one.mp apart a⟩

theorem balanced_iff (k n : Nat) (some_path : 0 < k) (small : F < 2 ^ 63) :
    Balanced k n F ↔ Fair k n F := by
  by_cases few : F ≤ 1
  · refine iff_of_true ?_ (.inr (.inl few))
    intro a _ b _
    have := load_le k n F a
    omega
  · match k with
    | 1 =>
      refine iff_of_true ?_ (.inl rfl)
      intro a aInside b bInside
      obtain ⟨rfl, rfl⟩ : a = 0 ∧ b = 0 := by omega
      exact Nat.le_succ _
    | k + 2 =>
      rcases Nat.lt_or_ge n 2 with early | late
      · exact balanced_early (by omega) (by omega) small
      · exact balanced_late (by omega) late

end

section
variable {paths : List (PathInfo ℚ)} {i n j F : Nat}

/-- With weights of one the sum of the weights is one more than the position. -/
theorem choosePath_unit (unit : ∀ path ∈ paths, path.weight = 1) {seq c : Nat}
    {current : PathInfo ℚ} (here : paths[i]? = some current)
    (chosen : max i (min (paths.length - 1) (seq - 1)) = c) :
    ∃ path, paths[c]? = some path ∧
      choosePath weightBelow seq current (i + 1) (paths.drop (i + 1)) =
        (path, (c : ℚ) + 1, paths.drop (c + 1)) := by
  obtain ⟨inside, -⟩ := List.getElem?_eq_some_iff.mp here
  generalize rest : paths.drop (i + 1) = later
  induction later generalizing i current with
  | nil =>
    have last := List.drop_eq_nil_iff.mp rest
    obtain rfl : i = c := by omega
    rw [rest]
    exact ⟨current, here, rfl⟩
  | cons next later ih =>
    have more : i + 1 < paths.length := by
      have length := congrArg List.length rest
      rw [List.length_drop, List.length_cons] at length
      omega
    have split := rest
    rw [List.drop_eq_getElem_cons more] at split
    obtain ⟨same, behind⟩ := List.cons.inj split
    have there : paths[i + 1]? = some next := by rw [List.getElem?_eq_getElem more, same]
    have weight : next.weight = 1 := unit next (List.mem_of_getElem? there)
    rw [choosePath]
    by_cases below : i + 1 < seq
    · have less : weightBelow (i + 1) seq = true := by
        simp only [weightBelow, decide_eq_true_eq]
        exact_mod_cast below
      have result := ih there (by omega) more behind
      rw [if_pos less, weight]
      rwa [Nat.cast_succ] at result
    · have notLess : ¬ weightBelow (i + 1) seq = true := by
        simp only [weightBelow, decide_eq_true_eq]
        exact_mod_cast below
      obtain rfl : i = c := by omega
      rw [if_neg notLess, rest]
      exact ⟨current, here, rfl⟩

/-- The number of a fragment, which may have wrapped around, never leads back. -/
theorem pathOf_next (k : Nat) (reached : i ≤ pathOf k n j)
    (wrapped : 2 ^ 64 ≤ n + j → i = pathOf k n j) :
    max i (min (k - 1) ((n + j) % 2 ^ 64 - 1)) = pathOf k n j := by
  unfold pathOf at *
  omega

theorem pathOf_mono (k n j : Nat) : pathOf k n j ≤ pathOf k n (j + 1) ∧
    (2 ^ 64 ≤ n + (j + 1) → pathOf k n j = pathOf k n (j + 1)) := by
  unfold pathOf
  omega

/-- Every fragment goes over the path at its position. -/
theorem assignPaths_unit (unit : ∀ path ∈ paths, path.weight = 1) (streamId : UInt64)
    (total : Nat) (piece : Nat → Bytes) {current : PathInfo ℚ} (here : paths[i]? = some current)
    (reached : i ≤ pathOf paths.length n j)
    (wrapped : 2 ^ 64 ≤ n + j → i = pathOf paths.length n j) :
    (assignPaths weightBelow streamId total current (i + 1) (paths.drop (i + 1))
      ((List.range' j F).map fun j => ((n + j) % 2 ^ 64, piece j))).map (·.1) =
      (List.range' j F).map fun j => (paths.map (·.id)).getD (pathOf paths.length n j) 0 := by
  induction F generalizing i j current with
  | zero => rfl
  | succ F ih =>
    obtain ⟨path, there, chosen⟩ := choosePath_unit unit here
      (pathOf_next paths.length reached wrapped)
    obtain ⟨onward, settled⟩ := pathOf_mono paths.length n j
    have id : (paths.map (·.id)).getD (pathOf paths.length n j) 0 = path.id := by
      rw [List.getD_eq_getElem?_getD, List.getElem?_map, there]
      rfl
    rw [List.range'_succ, List.map_cons, List.map_cons, assignPaths, chosen, id]
    exact congrArg (path.id :: ·) (ih there onward settled)

end

theorem activePaths_nodup {W : Type} (m : MultiPathManager W) :
    (m.activePaths.map (·.id)).Nodup := by
  have keys : (pairs m.table.paths).map (fun entry => entry.2.id) = m.table.paths.keys := by
    rw [pairs, List.map_map]
    apply List.map_congr_left
    intro entry member
    exact m.table.keyed entry.1 entry.2 (AList.mem_lookup_iff.mpr member)
  have all : (((pairs m.table.paths).map (·.2)).map (·.id)).Nodup := by
    rw [List.map_map]
    exact keys ▸ m.table.paths.nodupKeys
  exact all.sublist (List.filter_sublist.map _)

/-- Entries that differ are found as often as their positions are drawn. -/
theorem count_positions (ids drawn : List Nat) (distinct : ids.Nodup) (inside : a < ids.length)
    (within : ∀ i ∈ drawn, i < ids.length) :
    (drawn.map (ids.getD · 0)).count ids[a] = drawn.count a := by
  rw [List.count, List.countP_map, List.count]
  apply List.countP_congr
  intro i member
  have there := within i member
  simp only [Function.comp_apply, beq_iff_eq, List.getD_eq_getElem?_getD,
    List.getElem?_eq_getElem there, Option.getD_some]
  exact distinct.getElem_inj_iff

section
variable (checks : Bool) {size : Nat} {data : Bytes}

/-- A slice is at most half as long as the largest word, so that no offset overflows. -/
theorem offsets_fit (word : size < 2 ^ 64) (length : data.length < 2 ^ 63) (k : Nat)
    (more : k * size < data.length) : k * size + size < 2 ^ 64 := by
  cases k with
  | zero => rwa [Nat.zero_mul, Nat.zero_add]
  | succ k =>
    rw [Nat.succ_mul] at more ⊢
    omega

/-- A build with checks aborts when the number after the last fragment is not a word. -/
theorem fragmentLoop_aborts (positive : 0 < size)
    (room : ∀ k, k * size < data.length → k * size + size < 2 ^ 64) {n : Nat} (k seq : Nat)
    (enough : count size data.length - k ≤ n) (word : seq < 2 ^ 64)
    (overflows : 2 ^ 64 ≤ seq + (count size data.length - k)) :
    fragmentLoop true data size n (min (k * size) data.length) seq = none := by
  induction n generalizing k seq with
  | zero => omega
  | succ n ih =>
    have more : k * size < data.length := (lt_count positive k data.length).mp (by omega)
    rw [fragmentLoop, Nat.min_eq_left (Nat.le_of_lt more), if_pos more, addWord_of_lt (room k more),
      Option.bind_eq_bind, Option.bind_some]
    by_cases last : seq + 1 = 2 ^ 64
    · rw [addWord_checked (Nat.le_of_eq last.symm)]
      rfl
    · have next : seq + 1 < 2 ^ 64 := by omega
      have later := ih (k + 1) (seq + 1) (by omega) next (by omega)
      rw [Nat.succ_mul] at later
      rw [addWord_of_lt next, Option.bind_eq_bind, Option.bind_some, later]
      rfl

theorem reserve_words (positive : 0 < size) (fits : checks → data.length + size < 2 ^ 64) :
    ∃ reserved, reserve checks size data.length = some reserved := by
  cases checks with
  | true => exact ⟨_, reserve_eq true positive (fits rfl)⟩
  | false =>
    have above : ∃ above, subWord false 64 ((data.length + size) % 2 ^ 64) 1 = some above := by
      rw [subWord]
      split <;> exact ⟨_, rfl⟩
    obtain ⟨above, rounded⟩ := above
    refine ⟨above / size, ?_⟩
    rw [reserve, addWord_unchecked, Option.bind_eq_bind, Option.bind_some, rounded,
      Option.bind_some, if_neg (Nat.ne_of_gt positive)]

theorem reserve_zero (length : Nat) : reserve checks 0 length = none := by
  simp [reserve]

end

section
variable {W : Type} (checks : Bool) (m : MultiPathManager W) {data : Bytes}

/-- The sums of a call are words. -/
def MultiPathManager.Adds (data : Bytes) : Prop :=
  data.length + m.fragmentSize < 2 ^ 64 ∧
    m.nextSeq + count m.fragmentSize data.length < 2 ^ 64

/-- The size of fragments is not zero and, in a build with checks, no sum overflows. -/
def MultiPathManager.Cuts (data : Bytes) : Prop := 0 < m.fragmentSize ∧ (checks → m.Adds data)

variable (seqWord : m.nextSeq < 2 ^ 64) (sizeWord : m.fragmentSize < 2 ^ 64)
  (length : data.length < 2 ^ 63)

include seqWord sizeWord length

theorem fragmentData_words (cuts : m.Cuts checks data) :
    ∃ next, m.fragmentData checks data = some
      ((List.range (count m.fragmentSize data.length)).map fun j =>
        ((m.nextSeq + j) % 2 ^ 64, block m.fragmentSize data j), next) := by
  obtain ⟨positive, adds⟩ := cuts
  obtain ⟨reserved, done⟩ := reserve_words checks positive fun checked => (adds checked).1
  have enough := count_le_length positive data.length
  have loop := fragmentLoop_words checks positive (offsets_fit sizeWord length) 0 m.nextSeq enough
    seqWord fun checked => (adds checked).2
  simp only [Nat.zero_mul, Nat.zero_min, Nat.sub_zero, Nat.zero_add] at loop
  refine ⟨{ m with nextSeq := (m.nextSeq + reserved) % 2 ^ 64 }, ?_⟩
  rw [MultiPathManager.fragmentData, done, Option.bind_eq_bind, Option.bind_some, loop]
  rfl

theorem fragmentData_aborts (fails : ¬ m.Cuts checks data) : m.fragmentData checks data = none := by
  rcases Nat.eq_zero_or_pos m.fragmentSize with zero | positive
  · rw [MultiPathManager.fragmentData, zero, reserve_zero]
    rfl
  · cases checks with
    | false => exact absurd ⟨positive, fun checked => absurd checked Bool.false_ne_true⟩ fails
    | true =>
      by_cases fits : data.length + m.fragmentSize < 2 ^ 64
      · have overflows : 2 ^ 64 ≤ m.nextSeq + count m.fragmentSize data.length := by
          apply Nat.not_lt.mp
          exact fun numbers => fails ⟨positive, fun _ => ⟨fits, numbers⟩⟩
        have enough := count_le_length positive data.length
        have loop := fragmentLoop_aborts positive (offsets_fit sizeWord length) 0 m.nextSeq enough
          seqWord overflows
        rw [Nat.zero_mul, Nat.zero_min] at loop
        rw [MultiPathManager.fragmentData, reserve_eq true positive fits, Option.bind_eq_bind,
          Option.bind_some, loop]
        rfl
      · rw [MultiPathManager.fragmentData, reserve, addWord_checked (Nat.not_lt.mp fits)]
        rfl

end

/-- A call succeeds, and the numbers of fragments it gives to any two paths differ by at most
one. -/
def MultiPathManager.SplitsEvenly (checks : Bool) (m : MultiPathManager ℚ) (data : Bytes)
    (streamId : UInt64) : Prop :=
  ∃ sent next, m.sendViaPaths checks weightBelow data streamId = some (sent, next) ∧
    ∀ p ∈ m.activePaths, ∀ q ∈ m.activePaths,
      (sent.map (·.1)).count p.id ≤ (sent.map (·.1)).count q.id + 1

/-- What a call sends over its paths, by their positions. -/
theorem sendViaPaths_loads {checks : Bool} {m : MultiPathManager ℚ} {data : Bytes}
    (streamId : UInt64) (some_path : 0 < m.activePaths.length)
    (unit : ∀ path ∈ m.activePaths, path.weight = 1) (seqWord : m.nextSeq < 2 ^ 64)
    (sizeWord : m.fragmentSize < 2 ^ 64) (length : data.length < 2 ^ 63)
    (cuts : m.Cuts checks data) :
    ∃ sent next, m.sendViaPaths checks weightBelow data streamId = some (sent, next) ∧
      ∀ (a : Nat) (inside : a < m.activePaths.length),
        (sent.map (·.1)).count m.activePaths[a].id =
          load m.activePaths.length m.nextSeq (count m.fragmentSize data.length) a := by
  obtain ⟨next, cut⟩ := fragmentData_words checks m seqWord sizeWord length cuts
  have distinct := activePaths_nodup m
  generalize F_eq : count m.fragmentSize data.length = F at cut ⊢
  generalize active : m.activePaths = paths at some_path unit distinct ⊢
  cases paths with
  | nil => cases some_path
  | cons first later =>
    let fragments := (List.range F).map fun j =>
      ((m.nextSeq + j) % 2 ^ 64, block m.fragmentSize data j)
    have weight : first.weight = ((0 : Nat) : ℚ) + 1 := by
      rw [unit first List.mem_cons_self, Nat.cast_zero, zero_add]
    have here : (first :: later)[0]? = some first := rfl
    have fresh : 2 ^ 64 ≤ m.nextSeq + 0 → 0 = pathOf (first :: later).length m.nextSeq 0 := by
      omega
    have ids := assignPaths_unit (F := F) unit streamId (fragments.length % 2 ^ 32)
      (block m.fragmentSize data) here (Nat.zero_le _) fresh
    rw [← weight, List.drop_one, List.tail_cons, ← List.range_eq_range'] at ids
    refine ⟨assignPaths weightBelow streamId (fragments.length % 2 ^ 32) first first.weight later
      fragments, next, ?_, ?_⟩
    · rw [MultiPathManager.sendViaPaths, active]
      simp only [cut]
      rfl
    · intro a inside
      have within (i : Nat)
          (member : i ∈ (List.range F).map (pathOf (first :: later).length m.nextSeq)) :
          i < ((first :: later).map (·.id)).length := by
        obtain ⟨j, -, rfl⟩ := List.mem_map.mp member
        rw [List.length_map, pathOf]
        omega
      have present : a < ((first :: later).map (·.id)).length := by rwa [List.length_map]
      have drawn := count_positions ((first :: later).map (·.id))
        ((List.range F).map (pathOf (first :: later).length m.nextSeq)) distinct present within
      rw [List.getElem_map, List.map_map] at drawn
      rw [ids]
      exact drawn

/-- With weights of one, a call spreads its fragments evenly exactly when it cuts the data and
its share of the numbers is fair. -/
theorem splits_evenly_iff (checks : Bool) {m : MultiPathManager ℚ} {data : Bytes}
    (streamId : UInt64) (some_path : 0 < m.activePaths.length)
    (unit : ∀ path ∈ m.activePaths, path.weight = 1) (seqWord : m.nextSeq < 2 ^ 64)
    (sizeWord : m.fragmentSize < 2 ^ 64) (length : data.length < 2 ^ 63) :
    m.SplitsEvenly checks data streamId ↔ m.Cuts checks data ∧
      Fair m.activePaths.length m.nextSeq (count m.fragmentSize data.length) := by
  by_cases cuts : m.Cuts checks data
  · obtain ⟨sent, next, done, loads⟩ := sendViaPaths_loads streamId some_path unit seqWord sizeWord
      length cuts
    have few := count_le_length cuts.1 data.length
    rw [← balanced_iff _ _ some_path (by omega), and_iff_right cuts]
    constructor
    · rintro ⟨other, after, same, even⟩ a aInside b bInside
      cases Option.some.inj (done.symm.trans same)
      have here := even _ (List.getElem_mem aInside) _ (List.getElem_mem bInside)
      rwa [loads a aInside, loads b bInside] at here
    · intro balanced
      refine ⟨sent, next, done, ?_⟩
      intro p pActive q qActive
      obtain ⟨a, aInside, rfl⟩ := List.getElem_of_mem pActive
      obtain ⟨b, bInside, rfl⟩ := List.getElem_of_mem qActive
      rw [loads a aInside, loads b bInside]
      exact balanced a aInside b bInside
  · refine iff_of_false ?_ fun both => cuts both.1
    rintro ⟨sent, next, done, -⟩
    have aborted := fragmentData_aborts checks m seqWord sizeWord length cuts
    rw [MultiPathManager.sendViaPaths] at done
    split at done
    · next nothing => simp [nothing] at some_path
    · rw [aborted] at done
      cases done

/-- A table with two paths, as they are added. -/
def twoPaths : PathTable ℚ := (PathTable.empty.addPath 1 1).addPath 2 1

/-- Three fragments of the first call: the first path gets two of them. -/
theorem splits_evenly_first :
    (MultiPathManager.mk twoPaths 0 1).SplitsEvenly true [1, 2, 3] 7 :=
  (splits_evenly_iff true 7 (by decide) (by decide) (by decide) (by decide) (by decide)).mpr
    ⟨⟨by decide, fun _ => ⟨by decide, by decide⟩⟩, by decide⟩

/-- Four fragments after four earlier ones: the last path gets all of them, in either build. -/
theorem splits_unevenly_later :
    ¬ (MultiPathManager.mk twoPaths 4 1).SplitsEvenly false [1, 2, 3, 4] 7 ∧
      ¬ (MultiPathManager.mk twoPaths 4 1).SplitsEvenly true [1, 2, 3, 4] 7 := by
  constructor
  · rintro ⟨sent, next, done, even⟩
    cases done
    exact absurd (even ⟨1, 1, .active, 0⟩ (mem_activePaths.mpr ⟨rfl, nofun⟩)
      ⟨2, 1, .active, 0⟩ (mem_activePaths.mpr ⟨rfl, nofun⟩)) (by decide)
  · rintro ⟨sent, next, done, even⟩
    cases done
    exact absurd (even ⟨1, 1, .active, 0⟩ (mem_activePaths.mpr ⟨rfl, nofun⟩)
      ⟨2, 1, .active, 0⟩ (mem_activePaths.mpr ⟨rfl, nofun⟩)) (by decide)

end LanLink.Multipath
