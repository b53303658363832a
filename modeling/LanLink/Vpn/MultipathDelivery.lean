import LanLink.Core.Runs
import LanLink.Vpn.Multipath

/-! What is sent over several paths arrives complete and in order. The items of the
sender are the blocks of all messages; the receiver has put out a prefix of them and
holds only items behind that prefix. -/
namespace LanLink.Multipath
open Words Maps Runs Blocks

section
variable (checks : Bool) {size : Nat} {data : Bytes}

theorem reserve_eq (positive : 0 < size) (fits : data.length + size < 2 ^ 64) :
    reserve checks size data.length = some (count size data.length) := by
  have one : 1 ≤ data.length + size := by omega
  rw [reserve, addWord_of_lt fits, Option.bind_eq_bind, Option.bind_some, subWord_of_le one,
    Option.bind_some, if_neg (Nat.ne_of_gt positive), count]

/-- From the block `k` on, the loop makes one fragment of every block, under numbers that
wrap around in a build without checks. -/
theorem fragmentLoop_words (positive : 0 < size)
    (room : ∀ k, k * size < data.length → k * size + size < 2 ^ 64) {n : Nat} (k seq : Nat)
    (enough : count size data.length - k ≤ n) (word : seq < 2 ^ 64)
    (numbers : checks → seq + (count size data.length - k) < 2 ^ 64) :
    fragmentLoop checks data size n (min (k * size) data.length) seq =
      some ((List.range (count size data.length - k)).map fun j =>
        ((seq + j) % 2 ^ 64, block size data (k + j))) := by
  induction n generalizing k seq with
  | zero =>
    rw [Nat.le_zero.mp enough]
    rfl
  | succ n ih =>
    have inside := lt_count positive k data.length
    by_cases more : k * size < data.length
    · have offset : min (k * size) data.length = k * size := Nat.min_eq_left (Nat.le_of_lt more)
      have left : count size data.length - k = (count size data.length - (k + 1)) + 1 := by
        have := inside.mpr more
        omega
      have piece : (data.take (min (k * size + size) data.length)).drop (k * size) =
          block size data k := by
        rw [← List.take_eq_take_min, List.drop_take, Nat.add_sub_cancel_left, block]
      have next : addWord checks 64 seq 1 = some ((seq + 1) % 2 ^ 64) := by
        cases checks with
        | false => exact addWord_unchecked 64 seq 1
        | true =>
          have small : seq + 1 < 2 ^ 64 := by
            have := numbers rfl
            omega
          rw [addWord_of_lt small, Nat.mod_eq_of_lt small]
      have later : checks → (seq + 1) % 2 ^ 64 + (count size data.length - (k + 1)) < 2 ^ 64 := by
        intro checked
        have := numbers checked
        rw [Nat.mod_eq_of_lt (by omega)]
        omega
      have step := ih (k + 1) ((seq + 1) % 2 ^ 64) (by omega) (Nat.mod_lt _ (by decide)) later
      rw [Nat.add_mul, Nat.one_mul] at step
      rw [fragmentLoop, offset, if_pos more, addWord_of_lt (room k more), next]
      simp only [Option.bind_eq_bind, Option.bind_some, piece, step, left, List.range_succ_eq_map,
        List.map_cons, List.map_map, Option.pure_def, Nat.add_zero, Nat.mod_eq_of_lt word]
      congr 2
      apply List.map_congr_left
      intro j _
      simp [Nat.add_assoc, Nat.add_comm 1 j]
    · have offset : min (k * size) data.length = data.length :=
        Nat.min_eq_right (Nat.not_lt.mp more)
      have none_left : count size data.length - k = 0 := by
        have := mt inside.mp more
        omega
      rw [fragmentLoop, offset, if_neg (Nat.lt_irrefl _), none_left]
      rfl

theorem fragmentLoop_eq (positive : 0 < size) (fits : data.length + size < 2 ^ 64)
    {n : Nat} (k seq : Nat) (enough : count size data.length - k ≤ n)
    (numbers : seq + (count size data.length - k) < 2 ^ 64) :
    fragmentLoop checks data size n (min (k * size) data.length) seq =
      some ((List.range (count size data.length - k)).map fun j =>
        (seq + j, block size data (k + j))) := by
  have room (k : Nat) (more : k * size < data.length) : k * size + size < 2 ^ 64 := by omega
  rw [fragmentLoop_words checks positive room k seq enough (by omega) fun _ => numbers]
  congr 1
  apply List.map_congr_left
  intro j member
  have inside := List.mem_range.mp member
  rw [Nat.mod_eq_of_lt (by omega)]

/-- The blocks of the data under the numbers from `n` on. -/
def numbered (size : Nat) (data : Bytes) (n : Nat) : List (Nat × Bytes) :=
  (List.range (count size data.length)).map fun j => (n + j, block size data j)

theorem numbered_seqs (size : Nat) (data : Bytes) (n : Nat) :
    (numbered size data n).map Prod.fst = List.range' n (count size data.length) := by
  rw [numbered, List.map_map, List.range'_eq_map_range]
  rfl

theorem numbered_data (size : Nat) (data : Bytes) (n : Nat) :
    (numbered size data n).map Prod.snd = blocks size data := by
  rw [numbered, List.map_map, blocks]
  rfl

theorem fragmentData_eq {W : Type} {m : MultiPathManager W} (positive : 0 < m.fragmentSize)
    (fits : data.length + m.fragmentSize < 2 ^ 64)
    (numbers : m.nextSeq + count m.fragmentSize data.length < 2 ^ 64) :
    m.fragmentData checks data = some (numbered m.fragmentSize data m.nextSeq,
      { m with nextSeq := m.nextSeq + count m.fragmentSize data.length }) := by
  have enough := count_le_length positive data.length
  have loop := fragmentLoop_eq checks positive fits 0 m.nextSeq enough numbers
  simp only [Nat.zero_mul, Nat.zero_min, Nat.sub_zero, Nat.zero_add] at loop
  rw [MultiPathManager.fragmentData, reserve_eq checks positive fits, Option.bind_eq_bind,
    Option.bind_some, loop, Nat.mod_eq_of_lt numbers]
  rfl

end

section
variable {W : Type} [Add W] (checks : Bool) (below : W → Nat → Bool)

/-- The choice stays among the paths it was given. -/
theorem choosePath_mem (seq : Nat) (current : PathInfo W) (accum : W)
    (later : List (PathInfo W)) :
    (choosePath below seq current accum later).1 ∈ current :: later ∧
    (choosePath below seq current accum later).2.2 ⊆ later := by
  induction later generalizing current accum with
  | nil => simp [choosePath]
  | cons next rest ih =>
    rw [choosePath]
    split
    · obtain ⟨member, behind⟩ := ih next (accum + next.weight)
      exact ⟨List.mem_cons_of_mem _ member, fun _ there => List.mem_cons_of_mem _ (behind there)⟩
    · exact ⟨List.mem_cons_self, fun _ there => there⟩

/-- Every fragment goes out once, in its place, over one of the paths. -/
theorem assignPaths_spec (streamId : UInt64) (total : Nat) (current : PathInfo W) (accum : W)
    (later : List (PathInfo W)) (fragments : List (Nat × Bytes)) :
    (assignPaths below streamId total current accum later fragments).map
      (fun sent => (sent.2.seq, sent.2.data)) = fragments ∧
    ∀ sent ∈ assignPaths below streamId total current accum later fragments,
      ∃ path ∈ current :: later, sent.1 = path.id := by
  induction fragments generalizing current accum later with
  | nil => exact ⟨rfl, nofun⟩
  | cons fragment rest ih =>
    obtain ⟨seq, data⟩ := fragment
    obtain ⟨chosen, behind⟩ := choosePath_mem below seq current accum later
    obtain ⟨same, among⟩ := ih (choosePath below seq current accum later).1
      (choosePath below seq current accum later).2.1
      (choosePath below seq current accum later).2.2
    rw [assignPaths]
    refine ⟨congrArg ((seq, data) :: ·) same, ?_⟩
    intro sent member
    rcases List.mem_cons.mp member with rfl | member
    · exact ⟨_, chosen, rfl⟩
    · obtain ⟨path, there, sameId⟩ := among sent member
      refine ⟨path, ?_, sameId⟩
      rcases List.mem_cons.mp there with rfl | there
      · exact chosen
      · exact List.mem_cons_of_mem _ (behind there)

/-- A path of the table that is not dead. -/
def PathTable.Alive (t : PathTable W) (id : Nat) : Prop :=
  ∃ path, t.paths.lookup id = some path ∧ path.state ≠ .dead

omit [Add W] in
theorem mem_activePaths {m : MultiPathManager W} {path : PathInfo W} :
    path ∈ m.activePaths ↔ m.table.paths.lookup path.id = some path ∧ path.state ≠ .dead := by
  simp only [MultiPathManager.activePaths, List.mem_filter, List.mem_map, Prod.exists,
    decide_eq_true_eq, mem_pairs]
  constructor
  · rintro ⟨⟨id, path, found, rfl⟩, alive⟩
    rw [m.table.keyed id path found]
    exact ⟨found, alive⟩
  · rintro ⟨found, alive⟩
    exact ⟨⟨path.id, path, found, rfl⟩, alive⟩

variable {checks below} in
/-- Fragments go over paths that are alive. -/
theorem sendViaPaths_alive {m : MultiPathManager W} {data : Bytes} {streamId : UInt64}
    (sends : m.sendViaPaths checks below data streamId = some (sent, next)) :
    ∀ entry ∈ sent, m.table.Alive entry.1 := by
  intro entry member
  rw [MultiPathManager.sendViaPaths] at sends
  split at sends
  · cases sends
    cases member
  · rename_i first later paths
    obtain ⟨⟨fragments, after⟩, -, same⟩ := Option.bind_eq_some_iff.mp sends
    cases same
    obtain ⟨chosen, there, sameId⟩ :=
      (assignPaths_spec below streamId _ first first.weight later fragments).2 entry member
    rw [← paths] at there
    rw [sameId]
    exact ⟨chosen, mem_activePaths.mp there⟩

/-- One call: the blocks of the data under consecutive numbers, over paths that are
alive, and the numbers behind them for the next call. -/
theorem sendViaPaths_spec {m : MultiPathManager W} {data : Bytes} (streamId : UInt64)
    (positive : 0 < m.fragmentSize) (fits : data.length + m.fragmentSize < 2 ^ 64)
    (alive : ∃ id, m.table.Alive id)
    (numbers : m.nextSeq + count m.fragmentSize data.length < 2 ^ 64) :
    ∃ sent, m.sendViaPaths checks below data streamId =
        some (sent, { m with nextSeq := m.nextSeq + count m.fragmentSize data.length }) ∧
      sent.map (·.2.seq) = List.range' m.nextSeq (count m.fragmentSize data.length) ∧
      sent.map (·.2.data) = blocks m.fragmentSize data ∧
      ∀ entry ∈ sent, m.table.Alive entry.1 := by
  obtain ⟨id, path, found, living⟩ := alive
  have active : path ∈ m.activePaths := by
    rw [mem_activePaths, m.table.keyed id path found]
    exact ⟨found, living⟩
  have cut := fragmentData_eq checks positive fits numbers
  cases paths : m.activePaths with
  | nil =>
    rw [paths] at active
    cases active
  | cons first later =>
    obtain ⟨same, -⟩ := assignPaths_spec below streamId
      ((numbered m.fragmentSize data m.nextSeq).length % 2 ^ 32) first first.weight later
      (numbered m.fragmentSize data m.nextSeq)
    have sends : m.sendViaPaths checks below data streamId =
        some (assignPaths below streamId ((numbered m.fragmentSize data m.nextSeq).length % 2 ^ 32)
          first first.weight later (numbered m.fragmentSize data m.nextSeq),
          { m with nextSeq := m.nextSeq + count m.fragmentSize data.length }) := by
      rw [MultiPathManager.sendViaPaths, paths]
      simp only [cut]
      rfl
    refine ⟨_, sends, ?_, ?_, sendViaPaths_alive sends⟩
    · rw [← numbered_seqs, ← congrArg (List.map Prod.fst) same, List.map_map]
      rfl
    · rw [← numbered_data m.fragmentSize data m.nextSeq, ← congrArg (List.map Prod.snd) same,
        List.map_map]
      rfl

/-- A call of the sender, with the paths and the size of fragments at that time: both may
change between two calls. -/
structure Request (W : Type) where
  table : PathTable W
  fragmentSize : Nat
  data : Bytes
  streamId : UInt64

/-- The sender as the call finds it. -/
def Request.sender (request : Request W) (m : MultiPathManager W) : MultiPathManager W :=
  { m with table := request.table, fragmentSize := request.fragmentSize }

/-- Calls one after the other, with what each of them sends. -/
def transmit (checks : Bool) (below : W → Nat → Bool) :
    MultiPathManager W → List (Request W) →
      Option (List (List (Nat × Fragment)) × MultiPathManager W)
  | m, [] => some ([], m)
  | m, request :: rest => do
    let (sent, m) ← (request.sender m).sendViaPaths checks below request.data request.streamId
    let (later, m) ← transmit checks below m rest
    return (sent :: later, m)

/-- The size of fragments is positive and a path is alive. -/
def Request.Ready (request : Request W) : Prop :=
  0 < request.fragmentSize ∧ ∃ id, request.table.Alive id

/-- The length and the size of fragments can be added. -/
def Request.Fits (request : Request W) : Prop :=
  request.data.length + request.fragmentSize < 2 ^ 64

def Request.fragments (request : Request W) : Nat :=
  count request.fragmentSize request.data.length

theorem Request.send_spec {request : Request W} {m : MultiPathManager W} (ready : request.Ready)
    (fits : request.Fits) (numbers : m.nextSeq + request.fragments < 2 ^ 64) :
    ∃ sent, (request.sender m).sendViaPaths checks below request.data request.streamId =
        some (sent, ⟨request.table, m.nextSeq + request.fragments, request.fragmentSize⟩) ∧
      sent.map (·.2.seq) = List.range' m.nextSeq request.fragments ∧
      sent.map (·.2.data) = blocks request.fragmentSize request.data ∧
      ∀ entry ∈ sent, request.table.Alive entry.1 :=
  sendViaPaths_spec checks below (m := request.sender m) request.streamId ready.1 fits ready.2 numbers

/-- All fragments of all calls, in the order they were made. -/
def allFragments (sent : List (List (Nat × Fragment))) : List Fragment :=
  sent.flatten.map (·.2)

theorem transmit_spec {m : MultiPathManager W} {requests : List (Request W)}
    (ready : ∀ request ∈ requests, request.Ready) (fits : ∀ request ∈ requests, request.Fits)
    (numbers : m.nextSeq + (requests.map Request.fragments).sum < 2 ^ 64) :
    ∃ sent next, transmit checks below m requests = some (sent, next) ∧
      (allFragments sent).map (·.seq) =
        List.range' m.nextSeq (requests.map Request.fragments).sum ∧
      (allFragments sent).map (·.data) =
        requests.flatMap (fun request => blocks request.fragmentSize request.data) ∧
      List.Forall₂ (fun request entries => ∀ entry ∈ entries, request.table.Alive entry.1)
        requests sent := by
  induction requests generalizing m with
  | nil => exact ⟨[], m, rfl, rfl, rfl, .nil⟩
  | cons request rest ih =>
    obtain ⟨readyHere, readyLater⟩ := List.forall_mem_cons.mp ready
    obtain ⟨fitsHere, fitsLater⟩ := List.forall_mem_cons.mp fits
    simp only [List.map_cons, List.sum_cons] at numbers
    have numbersHere : m.nextSeq + request.fragments < 2 ^ 64 := by omega
    have after : m.nextSeq + request.fragments + (rest.map Request.fragments).sum < 2 ^ 64 := by
      omega
    obtain ⟨entries, done, seqs, pieces, living⟩ := Request.send_spec checks below
      readyHere fitsHere numbersHere
    obtain ⟨sent, next, later, seqsLater, piecesLater, livingLater⟩ := ih
      (m := ⟨request.table, m.nextSeq + request.fragments, request.fragmentSize⟩) readyLater
      fitsLater after
    refine ⟨entries :: sent, next, ?_, ?_, ?_, .cons living livingLater⟩
    · simp only [transmit, done, Option.bind_eq_bind, Option.bind_some, later]
      rfl
    · rw [List.map_cons, List.sum_cons, ← List.range'_append_1, ← seqsLater, ← seqs]
      simp [allFragments]
    · rw [List.flatMap_cons, ← piecesLater, ← pieces]
      simp [allFragments]

end

/-- The receiver with everything its buffer has put out. -/
structure Receiver where
  buffer : ReorderBuffer
  outputs : List Bytes

def Receiver.step (checks : Bool) (r : Receiver) (fragment : Fragment) : Option Receiver :=
  (r.buffer.insert checks fragment.seq fragment.data).map fun (output, buffer) =>
    ⟨buffer, r.outputs ++ output.getD []⟩

/-- A fragment that has to wait finds room. -/
def Receiver.HasRoom (r : Receiver) (fragment : Fragment) : Prop :=
  r.buffer.expectedSeq < fragment.seq → r.buffer.buffer.entries.length < r.buffer.maxSize

instance (r : Receiver) (fragment : Fragment) : Decidable (r.HasRoom fragment) :=
  inferInstanceAs (Decidable (_ → _))

/-- A prefix of the items has been put out, and only items behind it are held. -/
structure InOrder (items : List Bytes) (r : Receiver) : Prop where
  outputs : r.outputs = items.take r.buffer.expectedSeq
  bounded : r.buffer.expectedSeq ≤ items.length
  held : ∀ k piece, r.buffer.buffer.lookup k = some piece →
    r.buffer.expectedSeq < k ∧ items[k]? = some piece

/-- The item has been put out or is held. -/
def Receiver.Seen (r : Receiver) (k : Nat) : Prop :=
  k < r.buffer.expectedSeq ∨ k ∈ r.buffer.buffer

section
variable (checks : Bool) {items : List Bytes}

/-- Without the item that is expected, the buffer holds items behind it. -/
theorem held_erase {buffer : Map Nat Bytes} {expected : Nat}
    (held : ∀ k piece, buffer.lookup k = some piece → expected ≤ k ∧ items[k]? = some piece)
    (k : Nat) (piece : Bytes) (kept : (buffer.erase expected).lookup k = some piece) :
    expected + 1 ≤ k ∧ items[k]? = some piece := by
  obtain ⟨other, found⟩ := lookup_of_lookup_erase kept
  obtain ⟨behind, value⟩ := held k piece found
  exact ⟨by omega, value⟩

/-- Draining goes on to the first number that is missing. -/
theorem drain_spec (small : items.length < 2 ^ 64) {n expected : Nat}
    {buffer : Map Nat Bytes} (enough : buffer.entries.length ≤ n)
    (held : ∀ k piece, buffer.lookup k = some piece → expected ≤ k ∧ items[k]? = some piece)
    (bounded : expected ≤ items.length) :
    ∃ later rest next, drain checks n buffer expected = some (later, rest, next) ∧
      items.take expected ++ later = items.take next ∧ expected ≤ next ∧ next ≤ items.length ∧
      (∀ k piece, rest.lookup k = some piece → next < k ∧ items[k]? = some piece) ∧
      ∀ k ∈ buffer, k < next ∨ k ∈ rest := by
  induction n generalizing expected buffer with
  | zero =>
    have none_held (k : Nat) : k ∉ buffer := by
      intro there
      have := length_erase there
      omega
    refine ⟨[], buffer, expected, rfl, by simp, Nat.le_refl _, bounded, ?_, fun k there => .inr there⟩
    intro k piece found
    exact absurd (mem_of_lookup found) (none_held k)
  | succ n ih =>
    cases found : buffer.lookup expected with
    | none =>
      refine ⟨[], buffer, expected, by rw [drain, found], by simp, Nat.le_refl _, bounded, ?_,
        fun k there => .inr there⟩
      intro k piece there
      obtain ⟨behind, same⟩ := held k piece there
      have other : k ≠ expected := by
        rintro rfl
        rw [found] at there
        cases there
      exact ⟨by omega, same⟩
    | some piece =>
      have item := (held expected piece found).2
      have inside : expected < items.length := (List.getElem?_eq_some_iff.mp item).1
      have there : expected ∈ buffer := mem_of_lookup found
      have shorter := length_erase there
      obtain ⟨later, rest, next, done, taken, forward, bound, behind, seen⟩ :=
        ih (by omega) (held_erase held) inside
      refine ⟨piece :: later, rest, next, ?_, ?_, by omega, bound, behind, ?_⟩
      · rw [drain, found]
        simp only [addWord_of_lt (show expected + 1 < 2 ^ 64 by omega), Option.bind_eq_bind,
          Option.bind_some, done]
        rfl
      · rw [← taken, List.take_add_one, item, List.append_assoc]
        rfl
      · intro k waiting
        by_cases same : k = expected
        · exact .inl (by omega)
        · exact seen k (AList.mem_erase.mpr ⟨same, waiting⟩)

/-- One arrival keeps the order, forgets no item, and the item that arrives is there
from then on. -/
theorem step_inOrder (small : items.length < 2 ^ 64) {r : Receiver} {fragment : Fragment}
    (inOrder : InOrder items r) (genuine : items[fragment.seq]? = some fragment.data)
    (room : r.HasRoom fragment) :
    ∃ t, r.step checks fragment = some t ∧ InOrder items t ∧ (∀ k, r.Seen k → t.Seen k) ∧
      t.Seen fragment.seq := by
  obtain ⟨outputs, bounded, held⟩ := inOrder
  rcases Nat.lt_trichotomy fragment.seq r.buffer.expectedSeq with old | now | early
  · refine ⟨r, ?_, ⟨outputs, bounded, held⟩, fun _ seen => seen, .inl old⟩
    rw [Receiver.step, ReorderBuffer.insert, if_pos old]
    simp
  · have inside := (List.getElem?_eq_some_iff.mp genuine).1
    have notOld : ¬ fragment.seq < r.buffer.expectedSeq := by omega
    have fits : r.buffer.expectedSeq + 1 < 2 ^ 64 := by omega
    obtain ⟨later, rest, next, drained, taken, forward, bound, behind, seen⟩ :=
      drain_spec checks small (Nat.le_refl _)
        (fun k piece found => ⟨(held k piece found).1, (held k piece found).2⟩)
        (show r.buffer.expectedSeq + 1 ≤ items.length by omega)
    refine ⟨⟨{ r.buffer with buffer := rest, expectedSeq := next },
      r.outputs ++ fragment.data :: later⟩, ?_, ⟨?_, bound, behind⟩, ?_, .inl ?_⟩
    · rw [Receiver.step, ReorderBuffer.insert, if_neg notOld, if_pos now, addWord_of_lt fits]
      simp only [Option.bind_eq_bind, Option.bind_some, drained]
      rfl
    · rw [← taken, outputs, List.take_add_one, ← now, genuine, List.append_assoc]
      rfl
    · rintro k (before | waiting)
      · exact .inl (by dsimp only; omega)
      · exact seen k waiting
    · dsimp only
      omega
  · have notOld : ¬ fragment.seq < r.buffer.expectedSeq := by omega
    have notNow : ¬ fragment.seq = r.buffer.expectedSeq := by omega
    refine ⟨⟨{ r.buffer with buffer := r.buffer.buffer.insert fragment.seq fragment.data },
      r.outputs⟩, ?_, ⟨outputs, bounded, ?_⟩, ?_, .inr (by simp)⟩
    · rw [Receiver.step, ReorderBuffer.insert, if_neg notOld, if_neg notNow, if_pos (room early)]
      simp
    · intro k piece found
      by_cases same : k = fragment.seq
      · rw [same, AList.lookup_insert] at found
        cases found
        rw [same]
        exact ⟨early, genuine⟩
      · rw [AList.lookup_insert_ne same] at found
        exact held k piece found
    · rintro k (before | waiting)
      · exact .inl before
      · exact .inr ((AList.mem_insert _).mpr (.inr waiting))

theorem run_inOrder (small : items.length < 2 ^ 64) {r : Receiver} {arrivals : List Fragment}
    (inOrder : InOrder items r)
    (genuine : ∀ fragment ∈ arrivals, items[fragment.seq]? = some fragment.data)
    (room : Meets (Receiver.step checks) Receiver.HasRoom r arrivals) :
    ∃ t, exec (Receiver.step checks) r arrivals = some t ∧ InOrder items t ∧
      (∀ k, r.Seen k → t.Seen k) ∧ ∀ fragment ∈ arrivals, t.Seen fragment.seq := by
  induction arrivals generalizing r with
  | nil => exact ⟨r, rfl, inOrder, fun _ seen => seen, nofun⟩
  | cons fragment rest ih =>
    obtain ⟨genuineHere, genuineLater⟩ := List.forall_mem_cons.mp genuine
    obtain ⟨s, stepped, next, keeps, here⟩ :=
      step_inOrder checks small inOrder genuineHere room.1
    obtain ⟨t, run, final, later, seen⟩ := ih next genuineLater (room.2 s stepped)
    refine ⟨t, exec_cons.mpr ⟨s, stepped, run⟩, final, fun k there => later k (keeps k there), ?_⟩
    exact List.forall_mem_cons.mpr ⟨later _ here, seen⟩

/-- When every item is there, all have been put out. -/
theorem InOrder.complete {r : Receiver} (inOrder : InOrder items r)
    (all : ∀ k < items.length, r.Seen k) : r.outputs = items := by
  have last : r.buffer.expectedSeq = items.length := by
    apply Nat.le_antisymm inOrder.bounded
    apply Nat.not_lt.mp
    intro missing
    rcases all _ missing with before | waiting
    · exact absurd before (Nat.lt_irrefl _)
    · obtain ⟨piece, found⟩ := exists_lookup waiting
      exact absurd (inOrder.held _ _ found).1 (Nat.lt_irrefl _)
  rw [inOrder.outputs, last, List.take_length]

theorem inOrder_new (items : List Bytes) (maxSize : Nat) :
    InOrder items ⟨.new maxSize, []⟩ :=
  ⟨rfl, Nat.zero_le _, nofun⟩

/-- Fragments numbered from zero on, in whatever order they arrive. -/
theorem receive_numbered {fragments arrivals : List Fragment}
    (numbers : fragments.map (·.seq) = List.range fragments.length)
    (small : fragments.length < 2 ^ 64) (same : ∀ f, f ∈ arrivals ↔ f ∈ fragments)
    (room : Meets (Receiver.step checks) Receiver.HasRoom ⟨.new maxSize, []⟩ arrivals) :
    ∃ r, exec (Receiver.step checks) ⟨.new maxSize, []⟩ arrivals = some r ∧
      r.outputs = fragments.map (·.data) := by
  have number {i : Nat} {f : Fragment} (found : fragments[i]? = some f) : f.seq = i := by
    have inside := (List.getElem?_eq_some_iff.mp found).1
    have entry := congrArg (·[i]?) numbers
    rw [List.getElem?_map, found, List.getElem?_range inside] at entry
    exact Option.some.inj entry
  have genuine : ∀ f ∈ arrivals, (fragments.map (·.data))[f.seq]? = some f.data := by
    intro f arrived
    obtain ⟨i, found⟩ := List.mem_iff_getElem?.mp ((same f).mp arrived)
    rw [number found, List.getElem?_map, found]
    rfl
  obtain ⟨r, run, inOrder, -, seen⟩ := run_inOrder checks
    (by rwa [List.length_map]) (inOrder_new (fragments.map (·.data)) maxSize) genuine room
  refine ⟨r, run, inOrder.complete fun k inside => ?_⟩
  rw [List.length_map] at inside
  have there := seen fragments[k] ((same _).mpr (List.getElem_mem inside))
  rwa [number (List.getElem?_eq_getElem inside)] at there

theorem flatten_pieces {W : Type} {requests : List (Request W)}
    (ready : ∀ request ∈ requests, request.Ready) :
    (requests.flatMap fun request => blocks request.fragmentSize request.data).flatten =
      requests.flatMap (·.data) := by
  induction requests with
  | nil => rfl
  | cons request rest ih =>
    obtain ⟨here, later⟩ := List.forall_mem_cons.mp ready
    rw [List.flatMap_cons, List.flatten_append, flatten_blocks here.1, ih later, List.flatMap_cons]

/-- Everything sent arrives, complete and in order, whatever the order of arrival and the
duplicates: as long as no addition overflows in the sender and no fragment finds the
buffer full. The fragments are numbered without a gap across the calls and go over
paths that are alive. -/
theorem transport_lossless {W : Type} [Add W] (checks : Bool) (below : W → Nat → Bool)
    (table : PathTable W) (fragmentSize : Nat) (requests : List (Request W))
    (ready : ∀ request ∈ requests, request.Ready) (fits : ∀ request ∈ requests, request.Fits)
    (numbers : (requests.map Request.fragments).sum < 2 ^ 64) :
    ∃ sent next, transmit checks below ⟨table, 0, fragmentSize⟩ requests = some (sent, next) ∧
      (allFragments sent).map (·.seq) = List.range (allFragments sent).length ∧
      List.Forall₂ (fun request entries => ∀ entry ∈ entries, request.table.Alive entry.1)
        requests sent ∧
      ∀ maxSize arrivals, (∀ fragment, fragment ∈ arrivals ↔ fragment ∈ allFragments sent) →
        Meets (Receiver.step checks) Receiver.HasRoom ⟨.new maxSize, []⟩ arrivals →
        ∃ r, exec (Receiver.step checks) ⟨.new maxSize, []⟩ arrivals = some r ∧
          r.outputs.flatten = requests.flatMap (·.data) := by
  obtain ⟨sent, next, done, seqs, pieces, living⟩ := transmit_spec checks below
    (m := ⟨table, 0, fragmentSize⟩) ready fits (by rwa [Nat.zero_add])
  have length : (allFragments sent).length = (requests.map Request.fragments).sum := by
    have lengths := congrArg List.length seqs
    rwa [List.length_map, List.length_range'] at lengths
  have numbered : (allFragments sent).map (·.seq) = List.range (allFragments sent).length := by
    rw [seqs, length, List.range_eq_range']
  refine ⟨sent, next, done, numbered, living, ?_⟩
  intro maxSize arrivals same room
  obtain ⟨r, run, outputs⟩ := receive_numbered checks numbered (by rwa [length]) same room
  refine ⟨r, run, ?_⟩
  rw [outputs, pieces, flatten_pieces ready]

/-- A table with one path. -/
def onePath : PathTable Nat := PathTable.empty.addPath 1 1

def request (fragmentSize : Nat) (data : Bytes) : Request Nat := ⟨onePath, fragmentSize, data, 7⟩

def lighter (weight seq : Nat) : Bool := weight < seq

theorem ready_request (positive : 0 < size) (data : Bytes) : (request size data).Ready :=
  ⟨positive, 1, ⟨1, 1, .active, 0⟩, rfl, nofun⟩

/-- What two calls send. -/
def twoSent : List (List (Nat × Fragment)) :=
  [[(1, ⟨0, 7, [1, 2], 2⟩), (1, ⟨1, 7, [3], 2⟩)], [(1, ⟨2, 7, [4], 1⟩)]]

/-- The last fragment arrives first, and the first one twice. -/
theorem transport_lossless_two : ∃ next r,
    transmit true lighter ⟨onePath, 0, 2⟩ [request 2 [1, 2, 3], request 2 [4]] =
      some (twoSent, next) ∧
    exec (Receiver.step true) ⟨.new 2, []⟩
      ((allFragments twoSent).reverse ++ (allFragments twoSent).take 1) = some r ∧
    r.outputs.flatten = [1, 2, 3, 4] := by
  obtain ⟨sent, next, done, -, -, delivered⟩ := transport_lossless true lighter onePath 2
    [request 2 [1, 2, 3], request 2 [4]]
    (List.forall_mem_cons.mpr ⟨ready_request (by decide) _,
      List.forall_mem_cons.mpr ⟨ready_request (by decide) _, nofun⟩⟩)
    (List.forall_mem_cons.mpr ⟨by unfold Request.Fits; decide,
      List.forall_mem_cons.mpr ⟨by unfold Request.Fits; decide, nofun⟩⟩)
    (by decide)
  have known : transmit true lighter ⟨onePath, 0, 2⟩ [request 2 [1, 2, 3], request 2 [4]] =
      some (twoSent, ⟨onePath, 3, 2⟩) := rfl
  obtain ⟨rfl, rfl⟩ := Prod.mk.inj (Option.some.inj (known.symm.trans done))
  have again (fragment : Fragment) : fragment ∈ (allFragments twoSent).reverse ++
      (allFragments twoSent).take 1 ↔ fragment ∈ allFragments twoSent := by
    rw [List.mem_append, List.mem_reverse, or_iff_left_of_imp List.mem_of_mem_take]
  obtain ⟨r, run, outputs⟩ := delivered 2 _ again (by decide)
  exact ⟨_, r, known, run, outputs⟩

/-- With the largest size of fragments, the sum that is rounded up wraps around in a build
without checks: no number is reserved, and the second message is taken for a repetition of
the first one. A build with checks aborts. -/
theorem transport_wraps :
    (∃ sent next r, transmit false lighter ⟨onePath, 0, 1⟩
        [request (2 ^ 64 - 1) [1, 2], request (2 ^ 64 - 1) [3, 4]] = some (sent, next) ∧
      exec (Receiver.step false) ⟨.new 1024, []⟩ (allFragments sent) = some r ∧
      r.outputs.flatten = [1, 2]) ∧
    transmit true lighter ⟨onePath, 0, 1⟩
      [request (2 ^ 64 - 1) [1, 2], request (2 ^ 64 - 1) [3, 4]] = none := by
  refine ⟨⟨_, _, _, rfl, rfl, rfl⟩, rfl⟩

end

end LanLink.Multipath
