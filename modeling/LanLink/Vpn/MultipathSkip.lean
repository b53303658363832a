import LanLink.Vpn.MultipathDelivery

/-! The receiver of a multipath transport gives up on fragments that are lost. Skipping
moves the number that is expected to the smallest one in the buffer, but takes nothing
out of the buffer. -/
namespace LanLink.Multipath
open Words Maps Runs

/-- The number of fragments that were given up. -/
def ReorderBuffer.skipLost (b : ReorderBuffer) : Nat × ReorderBuffer :=
  match b.buffer.keys.min? with
  | none => (0, b)
  | some minSeq =>
    if b.expectedSeq < minSeq then
      (minSeq - b.expectedSeq, { b with expectedSeq := minSeq })
    else (0, b)

def ReorderBuffer.clear (b : ReorderBuffer) : ReorderBuffer :=
  { b with buffer := ∅, expectedSeq := 0 }

inductive BufferAction where
  | insert (seq : UInt64) (data : Bytes)
  | skipLost
  | clear

def ReorderBuffer.step (checks : Bool) (b : ReorderBuffer) : BufferAction → Option ReorderBuffer
  | .insert seq data => (b.insert checks seq.toNat data).map Prod.snd
  | .skipLost => some b.skipLost.2
  | .clear => some b.clear

/-- Every fragment that is held lies ahead, and it is put out once the numbers before it
have come in, without coming in again itself. -/
structure ReorderBuffer.Alive (checks : Bool) (b : ReorderBuffer) : Prop where
  ahead : ∀ seq data, b.buffer.lookup seq = some data → b.expectedSeq < seq
  delivered : ∀ seq data, b.buffer.lookup seq = some data → ∀ missing : List Fragment,
    missing.map (·.seq) = List.range' b.expectedSeq (seq - b.expectedSeq) →
    ∃ r, exec (Receiver.step checks) ⟨b, []⟩ missing = some r ∧ data ∈ r.outputs

/-- What is expected and what is held are numbers of 64 bits. -/
structure ReorderBuffer.Bounded (b : ReorderBuffer) : Prop where
  expected : b.expectedSeq < 2 ^ 64
  held : ∀ seq data, b.buffer.lookup seq = some data → seq < 2 ^ 64

/-- Nothing is skipped while fragments are held, and a build with checks does not hold the
largest number. -/
def ReorderBuffer.Safe (checks : Bool) (b : ReorderBuffer) : BufferAction → Prop
  | .insert seq _ => checks → b.expectedSeq < seq.toNat →
      b.buffer.entries.length < b.maxSize → seq.toNat ≠ 2 ^ 64 - 1
  | .skipLost => b.buffer = ∅
  | .clear => True

section
variable {checks : Bool} {b : ReorderBuffer} {r : Receiver}

/-- What is held lies ahead of what is expected. -/
structure ReorderBuffer.Waiting (b : ReorderBuffer) : Prop where
  expected : b.expectedSeq < 2 ^ 64
  held : ∀ seq data, b.buffer.lookup seq = some data → b.expectedSeq < seq ∧ seq < 2 ^ 64

/-- After the number `e` the numbers up to `next` were put out, and `next` is missing. -/
structure Drained (e : Nat) (buffer : Map Nat Bytes) (later : List Bytes)
    (rest : Map Nat Bytes) (next : Nat) : Prop where
  forward : e < next
  bounded : next ≤ 2 ^ 64
  last : next = e + 1 ∨ next - 1 ∈ buffer
  kept : ∀ k data, rest.lookup k = some data → buffer.lookup k = some data ∧ next < k
  split : ∀ k data, buffer.lookup k = some data →
    k < next ∧ data ∈ later ∨ rest.lookup k = some data

theorem addWord_next (fits : e < 2 ^ 64) : addWord checks 64 e 1 =
    if checks ∧ e + 1 = 2 ^ 64 then none else some ((e + 1) % 2 ^ 64) := by
  cases checks with
  | false => exact addWord_unchecked 64 e 1
  | true =>
    by_cases top : e + 1 = 2 ^ 64
    · rw [if_pos ⟨rfl, top⟩]
      exact addWord_checked (Nat.le_of_eq top.symm)
    · have small : e + 1 < 2 ^ 64 := by omega
      rw [if_neg (fun both => top both.2), addWord_of_lt small, Nat.mod_eq_of_lt small]

theorem drain_missing {buffer : Map Nat Bytes} (missing : buffer.lookup e = none) (n : Nat) :
    drain checks n buffer e = some ([], buffer, e) := by
  cases n with
  | zero => rfl
  | succ n => rw [drain, missing]

/-- Draining stops at once. -/
theorem drained_stop {buffer : Map Nat Bytes} (fits : e < 2 ^ 64)
    (held : ∀ k data, buffer.lookup k = some data → e < k ∧ k < 2 ^ 64)
    (missing : buffer.lookup ((e + 1) % 2 ^ 64) = none) : Drained e buffer [] buffer (e + 1) := by
  refine ⟨Nat.lt_succ_self e, fits, .inl rfl, ?_, fun k data found => .inr found⟩
  intro k data there
  obtain ⟨ahead, word⟩ := held k data there
  rw [Nat.mod_eq_of_lt (by omega)] at missing
  have other : k ≠ e + 1 := by
    rintro rfl
    rw [missing] at there
    cases there
  exact ⟨there, by omega⟩

theorem next_missing {buffer : Map Nat Bytes} (fits : e < 2 ^ 64)
    (missing : buffer.lookup ((e + 1) % 2 ^ 64) = none) (n : Nat) :
    (addWord checks 64 e 1).bind (drain checks n buffer) =
      if checks ∧ e + 1 = 2 ^ 64 then none else some ([], buffer, (e + 1) % 2 ^ 64) := by
  rw [addWord_next fits]
  split
  · rfl
  · exact drain_missing missing n

/-- A number that is there is put out before all that follow it. -/
theorem Drained.cons {buffer : Map Nat Bytes} (found : buffer.lookup (e + 1) = some piece)
    (drained : Drained (e + 1) (buffer.erase (e + 1)) later rest next) :
    Drained e buffer (piece :: later) rest next := by
  refine ⟨Nat.lt_of_succ_lt drained.forward, drained.bounded, ?_, ?_, ?_⟩
  · right
    rcases drained.last with next_eq | before
    · rw [next_eq, Nat.add_sub_cancel]
      exact mem_of_lookup found
    · exact (AList.mem_erase.mp before).2
  · intro k data left
    obtain ⟨left, behind⟩ := drained.kept k data left
    exact ⟨(lookup_of_lookup_erase left).2, behind⟩
  · intro k data waiting
    by_cases same : k = e + 1
    · rw [same, found] at waiting
      cases waiting
      exact .inl ⟨same ▸ drained.forward, List.mem_cons_self⟩
    · rcases drained.split k data ((AList.lookup_erase_ne same).trans waiting) with out | left
      · exact .inl ⟨out.1, List.mem_cons_of_mem _ out.2⟩
      · exact .inr left

variable (checks) in
/-- Draining goes on to the first number that is missing; a build with checks aborts when
there is none below the largest word. -/
theorem drain_next {buffer : Map Nat Bytes} (enough : buffer.entries.length ≤ n)
    (fits : e < 2 ^ 64) (held : ∀ k data, buffer.lookup k = some data → e < k ∧ k < 2 ^ 64) :
    ∃ later rest next, Drained e buffer later rest next ∧
      (addWord checks 64 e 1).bind (drain checks n buffer) =
        if checks ∧ next = 2 ^ 64 then none else some (later, rest, next % 2 ^ 64) := by
  induction n generalizing e buffer with
  | zero =>
    have missing : buffer.lookup ((e + 1) % 2 ^ 64) = none := by
      apply AList.lookup_eq_none.mpr
      intro there
      have := length_erase there
      omega
    exact ⟨_, _, _, drained_stop fits held missing, next_missing fits missing _⟩
  | succ n ih =>
    cases found : buffer.lookup ((e + 1) % 2 ^ 64) with
    | none => exact ⟨_, _, _, drained_stop fits held found, next_missing fits found _⟩
    | some piece =>
      obtain ⟨ahead, -⟩ := held _ piece found
      have small : e + 1 < 2 ^ 64 := by omega
      rw [Nat.mod_eq_of_lt small] at found
      have shorter := length_erase (mem_of_lookup found)
      have room : (buffer.erase (e + 1)).entries.length ≤ n := by omega
      have behind (k : Nat) (data : Bytes) (left : (buffer.erase (e + 1)).lookup k = some data) :
          e + 1 < k ∧ k < 2 ^ 64 := by
        obtain ⟨other, there⟩ := lookup_of_lookup_erase left
        have := held k data there
        omega
      obtain ⟨later, rest, next, drained, result⟩ := ih room small behind
      refine ⟨piece :: later, rest, next, drained.cons found, ?_⟩
      rw [addWord_of_lt small, Option.bind_some, drain, found]
      change ((addWord checks 64 (e + 1) 1).bind fun next =>
        (drain checks n (buffer.erase (e + 1)) next).bind fun done =>
          some (piece :: done.1, done.2.1, done.2.2)) = _
      rw [← Option.bind_assoc, result]
      split <;> rfl

theorem insert_old (old : seq < b.expectedSeq) (data : Bytes) :
    b.insert checks seq data = some (none, b) := if_pos old

theorem drain_unchecked (n : Nat) (buffer : Map Nat Bytes) (e : Nat) :
    ∃ result, drain false n buffer e = some result := by
  induction n generalizing buffer e with
  | zero => exact ⟨_, rfl⟩
  | succ n ih =>
    cases found : buffer.lookup e with
    | none => exact ⟨_, drain_missing found _⟩
    | some piece =>
      obtain ⟨result, drained⟩ := ih (buffer.erase e) ((e + 1) % 2 ^ 64)
      refine ⟨(piece :: result.1, result.2.1, result.2.2), ?_⟩
      rw [drain, found]
      simp only [addWord_unchecked, drained, Option.bind_eq_bind, Option.bind_some]
      rfl

theorem insert_early (early : b.expectedSeq < seq) (data : Bytes) :
    b.insert checks seq data = some (none, if b.buffer.entries.length < b.maxSize then
      { b with buffer := b.buffer.insert seq data } else b) := by
  rw [ReorderBuffer.insert, if_neg (Nat.lt_asymm early), if_neg (Nat.ne_of_gt early)]
  split <;> rfl

/-- A build without checks never aborts. -/
theorem insert_unchecked (b : ReorderBuffer) (seq : Nat) (data : Bytes) :
    ∃ result, b.insert false seq data = some result := by
  rcases Nat.lt_trichotomy seq b.expectedSeq with old | rfl | early
  · exact ⟨_, insert_old old data⟩
  · obtain ⟨result, drained⟩ := drain_unchecked b.buffer.entries.length b.buffer
      ((b.expectedSeq + 1) % 2 ^ 64)
    refine ⟨(some (data :: result.1), ⟨result.2.1, result.2.2, b.maxSize⟩), ?_⟩
    rw [ReorderBuffer.insert, if_neg (Nat.lt_irrefl _), if_pos rfl]
    simp only [addWord_unchecked, drained, Option.bind_eq_bind, Option.bind_some]
    rfl
  · exact ⟨_, insert_early early data⟩

theorem insert_now (waiting : b.Waiting) (data : Bytes) :
    ∃ later rest next, Drained b.expectedSeq b.buffer later rest next ∧
      b.insert checks b.expectedSeq data = if checks ∧ next = 2 ^ 64 then none
        else some (some (data :: later), ⟨rest, next % 2 ^ 64, b.maxSize⟩) := by
  obtain ⟨later, rest, next, drained, result⟩ := drain_next checks
    (Nat.le_refl b.buffer.entries.length) waiting.expected waiting.held
  refine ⟨later, rest, next, drained, ?_⟩
  rw [ReorderBuffer.insert, if_neg (Nat.lt_irrefl _), if_pos rfl]
  change ((addWord checks 64 b.expectedSeq 1).bind fun next =>
    (drain checks b.buffer.entries.length b.buffer next).bind fun done =>
      some (some (data :: done.1), (⟨done.2.1, done.2.2, b.maxSize⟩ : ReorderBuffer))) = _
  rw [← Option.bind_assoc, result]
  split <;> rfl

theorem Drained.waiting (drained : Drained b.expectedSeq b.buffer later rest next)
    (waiting : b.Waiting) : (ReorderBuffer.mk rest (next % 2 ^ 64) b.maxSize).Waiting := by
  constructor
  · exact Nat.mod_lt _ (by decide)
  · intro k data left
    obtain ⟨found, behind⟩ := drained.kept k data left
    have word := (waiting.held k data found).2
    rw [Nat.mod_eq_of_lt (by omega)]
    exact ⟨behind, word⟩

/-- Without the largest number, a build with checks does not come to the end. -/
theorem Drained.small (drained : Drained e buffer later rest next)
    (below : 2 ^ 64 - 1 ∉ buffer) (more : e + 1 < 2 ^ 64) : next < 2 ^ 64 := by
  apply Nat.lt_of_le_of_ne drained.bounded
  intro top
  have last := drained.last
  rw [top] at last
  rcases last with only | there
  · omega
  · exact below there

theorem Drained.not_mem (drained : Drained e buffer later rest next) (missing : k ∉ buffer) :
    k ∉ rest := by
  intro there
  obtain ⟨data, held⟩ := exists_lookup there
  exact missing (mem_of_lookup (drained.kept k data held).1)

theorem receive_old {fragment : Fragment} (old : fragment.seq < r.buffer.expectedSeq) :
    r.step checks fragment = some r := by
  rw [Receiver.step, insert_old old]
  simp

theorem receive_now {fragment : Fragment} (waiting : r.buffer.Waiting)
    (now : fragment.seq = r.buffer.expectedSeq) :
    ∃ later rest next, Drained r.buffer.expectedSeq r.buffer.buffer later rest next ∧
      r.step checks fragment = if checks ∧ next = 2 ^ 64 then none
        else some ⟨⟨rest, next % 2 ^ 64, r.buffer.maxSize⟩, r.outputs ++ fragment.data :: later⟩ := by
  obtain ⟨later, rest, next, drained, inserted⟩ :=
    insert_now waiting fragment.data
  refine ⟨later, rest, next, drained, ?_⟩
  rw [Receiver.step, now, inserted]
  split <;> rfl

/-- What is put out stays, and a build without checks never aborts. -/
theorem outputs_stay {missing : List Fragment} (out : data ∈ r.outputs)
    (old : checks → ∀ fragment ∈ missing, fragment.seq < r.buffer.expectedSeq) :
    ∃ t, exec (Receiver.step checks) r missing = some t ∧ data ∈ t.outputs := by
  induction missing generalizing r with
  | nil => exact ⟨r, rfl, out⟩
  | cons fragment rest ih =>
    cases checks with
    | true =>
      obtain ⟨here, later⟩ := List.forall_mem_cons.mp (old rfl)
      obtain ⟨t, run, there⟩ := ih out fun _ => later
      exact ⟨t, exec_cons.mpr ⟨r, receive_old here, run⟩, there⟩
    | false =>
      obtain ⟨result, inserted⟩ := insert_unchecked r.buffer fragment.seq fragment.data
      have stepped : r.step false fragment =
          some ⟨result.2, r.outputs ++ result.1.getD []⟩ := by
        rw [Receiver.step, inserted, Option.map_some]
      have kept : data ∈ r.outputs ++ result.1.getD [] := List.mem_append_left _ out
      obtain ⟨t, run, there⟩ := ih (r := ⟨result.2, _⟩) kept fun checked => absurd checked Bool.false_ne_true
      exact ⟨t, exec_cons.mpr ⟨_, stepped, run⟩, there⟩

/-- A fragment that is held comes out when the numbers before it have come in. -/
theorem held_delivered {missing : List Fragment} (waiting : r.buffer.Waiting)
    (below : checks → 2 ^ 64 - 1 ∉ r.buffer.buffer)
    (found : r.buffer.buffer.lookup (start + n) = some data)
    (reached : start ≤ r.buffer.expectedSeq)
    (numbers : missing.map (·.seq) = List.range' start n) :
    ∃ t, exec (Receiver.step checks) r missing = some t ∧ data ∈ t.outputs := by
  induction missing generalizing r start n with
  | nil =>
    have none_missing := congrArg List.length numbers
    rw [List.length_range'] at none_missing
    have ahead := (waiting.held _ _ found).1
    simp only [List.map_nil, List.length_nil] at none_missing
    omega
  | cons fragment rest ih =>
    cases n with
    | zero => cases numbers
    | succ m =>
      rw [List.map_cons, List.range'_succ, List.cons.injEq] at numbers
      obtain ⟨first, numbers⟩ := numbers
      obtain ⟨ahead, word⟩ := waiting.held _ _ found
      have seq_eq : start + 1 + m = start + (m + 1) := by omega
      rw [← seq_eq] at found
      rcases Nat.lt_or_eq_of_le reached with old | now
      · obtain ⟨t, run, there⟩ := ih waiting below found old numbers
        exact ⟨t, exec_cons.mpr ⟨r, receive_old (first ▸ old), run⟩, there⟩
      · obtain ⟨later, left, next, drained, stepped⟩ :=
          receive_now waiting (first.trans now)
        have small (checked : checks = true) : next < 2 ^ 64 :=
          drained.small (below checked) (by omega)
        rw [if_neg fun both => absurd both.2 (Nat.ne_of_lt (small both.1))] at stepped
        rcases drained.split _ _ found with ⟨passed, out⟩ | left_found
        · have old : checks → ∀ f ∈ rest, f.seq < next % 2 ^ 64 := by
            intro checked f member
            have number := List.mem_map_of_mem (f := (·.seq)) member
            rw [numbers, List.mem_range'_1] at number
            rw [Nat.mod_eq_of_lt (small checked)]
            omega
          have out : data ∈ r.outputs ++ fragment.data :: later :=
            List.mem_append_right _ (List.mem_cons_of_mem _ out)
          obtain ⟨t, run, there⟩ := outputs_stay (r := ⟨⟨left, _, r.buffer.maxSize⟩, _⟩) out old
          exact ⟨t, exec_cons.mpr ⟨_, stepped, run⟩, there⟩
        · obtain ⟨-, behind⟩ := drained.kept _ _ left_found
          have reached : start + 1 ≤ next % 2 ^ 64 := by
            have forward := drained.forward
            rw [Nat.mod_eq_of_lt (by omega)]
            omega
          obtain ⟨t, run, there⟩ := ih (r := ⟨_, _⟩) (drained.waiting waiting)
            (fun checked => drained.not_mem (below checked)) left_found reached numbers
          exact ⟨t, exec_cons.mpr ⟨_, stepped, run⟩, there⟩

/-- With the largest number held, a build with checks never gets past it. -/
theorem top_stuck {missing : List Fragment} (waiting : r.buffer.Waiting)
    (top : 2 ^ 64 - 1 ∈ r.buffer.buffer) (reached : start ≤ r.buffer.expectedSeq)
    (numbers : missing.map (·.seq) = List.range' start n)
    (run : exec (Receiver.step true) r missing = some t) : start + n < 2 ^ 64 - 1 := by
  induction missing generalizing r start n with
  | nil =>
    have none_missing := congrArg List.length numbers
    rw [List.length_range'] at none_missing
    obtain ⟨data, held⟩ := exists_lookup top
    have ahead := (waiting.held _ _ held).1
    simp only [List.map_nil, List.length_nil] at none_missing
    omega
  | cons fragment rest ih =>
    cases n with
    | zero => cases numbers
    | succ m =>
      rw [List.map_cons, List.range'_succ, List.cons.injEq] at numbers
      obtain ⟨first, numbers⟩ := numbers
      have seq_eq : start + 1 + m = start + (m + 1) := by omega
      rw [← seq_eq]
      obtain ⟨middle, stepped, run⟩ := exec_cons.mp run
      rcases Nat.lt_or_eq_of_le reached with old | now
      · rw [receive_old (first ▸ old)] at stepped
        cases stepped
        exact ih waiting top old numbers run
      · obtain ⟨later, left, next, drained, received⟩ :=
          receive_now waiting (first.trans now)
        rw [received] at stepped
        split at stepped
        · cases stepped
        · next inside =>
          cases stepped
          have small : next < 2 ^ 64 :=
            Nat.lt_of_le_of_ne drained.bounded fun top => inside ⟨rfl, top⟩
          have reached : start + 1 ≤ next % 2 ^ 64 := by
            have forward := drained.forward
            rw [Nat.mod_eq_of_lt small]
            omega
          have still : 2 ^ 64 - 1 ∈ left := by
            obtain ⟨data, held⟩ := exists_lookup top
            rcases drained.split _ _ held with ⟨passed, -⟩ | there
            · omega
            · exact mem_of_lookup there
          exact ih (drained.waiting waiting) still reached numbers run

theorem alive_iff (bounded : b.Bounded) :
    b.Alive checks ↔ b.Waiting ∧ (checks → 2 ^ 64 - 1 ∉ b.buffer) := by
  constructor
  · intro alive
    have waiting : b.Waiting := ⟨bounded.expected, fun seq data found =>
      ⟨alive.ahead seq data found, bounded.held seq data found⟩⟩
    refine ⟨waiting, ?_⟩
    rintro rfl top
    obtain ⟨data, found⟩ := exists_lookup top
    have ahead := alive.ahead _ _ found
    let missing : List Fragment :=
      (List.range' b.expectedSeq (2 ^ 64 - 1 - b.expectedSeq)).map fun seq => ⟨seq, 0, [], 0⟩
    have numbers : missing.map (·.seq) =
        List.range' b.expectedSeq (2 ^ 64 - 1 - b.expectedSeq) := by
      rw [List.map_map]
      exact List.map_id _
    obtain ⟨r, run, -⟩ := alive.delivered _ _ found missing numbers
    have short : b.expectedSeq + (2 ^ 64 - 1 - b.expectedSeq) < 2 ^ 64 - 1 :=
      top_stuck (r := ⟨b, []⟩) waiting top (Nat.le_refl _) numbers run
    omega
  · rintro ⟨waiting, below⟩
    constructor
    · exact fun seq data found => (waiting.held seq data found).1
    · intro seq data found missing numbers
      have ahead := (waiting.held seq data found).1
      have sum : b.expectedSeq + (seq - b.expectedSeq) = seq := by omega
      rw [← sum] at found
      exact held_delivered (r := ⟨b, []⟩) waiting below found (Nat.le_refl _) numbers

theorem bounded_insert (bounded : b.Bounded) (seq : UInt64) (data : Bytes) :
    ({ b with buffer := b.buffer.insert seq.toNat data } : ReorderBuffer).Bounded := by
  constructor
  · exact bounded.expected
  · intro k other found
    by_cases same : k = seq.toNat
    · rw [same]
      exact seq.toNat_lt
    · rw [AList.lookup_insert_ne same] at found
      exact bounded.held k other found

theorem waiting_insert (waiting : b.Waiting) {seq : UInt64} (data : Bytes)
    (early : b.expectedSeq < seq.toNat) :
    ({ b with buffer := b.buffer.insert seq.toNat data } : ReorderBuffer).Waiting := by
  constructor
  · exact waiting.expected
  · intro k other found
    by_cases same : k = seq.toNat
    · rw [same]
      exact ⟨early, seq.toNat_lt⟩
    · rw [AList.lookup_insert_ne same] at found
      exact waiting.held k other found

/-- Skipping over anything leaves behind what it skips to. -/
theorem skipLost_alive (alive : b.Alive checks) (bounded : b.Bounded) :
    b.skipLost.2.Bounded ∧ (b.skipLost.2.Alive checks ↔ b.buffer = ∅) := by
  rw [ReorderBuffer.skipLost]
  cases smallest : b.buffer.keys.min? with
  | none =>
    have empty : b.buffer = ∅ := by
      have none_held := List.min?_eq_none_iff.mp smallest
      exact AList.ext (List.map_eq_nil_iff.mp none_held)
    exact ⟨bounded, iff_of_true alive empty⟩
  | some minSeq =>
    have there : minSeq ∈ b.buffer := List.min?_mem smallest
    obtain ⟨data, found⟩ := exists_lookup there
    have ahead := alive.ahead minSeq data found
    dsimp only
    rw [if_pos ahead]
    constructor
    · exact ⟨bounded.held minSeq data found, bounded.held⟩
    · apply iff_of_false
      · intro skipped
        exact Nat.lt_irrefl _ (skipped.ahead minSeq data found)
      · intro empty
        rw [empty] at found
        cases found

theorem insert_alive (alive : b.Alive checks) (bounded : b.Bounded) {seq : UInt64} {data : Bytes}
    (inserted : b.insert checks seq.toNat data = some (output, c)) :
    c.Bounded ∧ (c.Alive checks ↔ b.Safe checks (.insert seq data)) := by
  obtain ⟨waiting, below⟩ := (alive_iff bounded).mp alive
  rcases Nat.lt_trichotomy seq.toNat b.expectedSeq with old | now | early
  · rw [insert_old old] at inserted
    cases inserted
    exact ⟨bounded, iff_of_true alive fun _ early => absurd early (Nat.lt_asymm old)⟩
  · obtain ⟨later, rest, next, drained, result⟩ := insert_now waiting data
    rw [now, result] at inserted
    split at inserted
    · cases inserted
    · cases inserted
      have after := drained.waiting waiting
      have bounds : (ReorderBuffer.mk rest (next % 2 ^ 64) b.maxSize).Bounded :=
        ⟨after.expected, fun k value found => (after.held k value found).2⟩
      have alive := (alive_iff bounds).mpr ⟨after, fun checked => drained.not_mem (below checked)⟩
      exact ⟨bounds, iff_of_true alive fun _ early => absurd now (Nat.ne_of_gt early)⟩
  · rw [insert_early early] at inserted
    cases inserted
    by_cases room : b.buffer.entries.length < b.maxSize
    · rw [if_pos room]
      have bounds := bounded_insert bounded seq data
      have after := waiting_insert waiting data early
      refine ⟨bounds, (alive_iff bounds).trans ?_⟩
      constructor
      · rintro ⟨-, below⟩ checked - - top
        apply below checked
        exact (AList.mem_insert _).mpr (.inl top.symm)
      · intro safe
        refine ⟨after, ?_⟩
        intro checked there
        rcases (AList.mem_insert _).mp there with top | there
        · exact safe checked early room top.symm
        · exact below checked there
    · rw [if_neg room]
      exact ⟨bounded, iff_of_true alive fun _ _ there => absurd there room⟩

theorem clear_alive (checks : Bool) (b : ReorderBuffer) :
    b.clear.Bounded ∧ b.clear.Alive checks := by
  have none_held (seq : Nat) (data : Bytes) : b.clear.buffer.lookup seq ≠ some data := nofun
  have bounds : b.clear.Bounded :=
    ⟨Nat.two_pow_pos 64, fun seq data found => absurd found (none_held seq data)⟩
  refine ⟨bounds, (alive_iff bounds).mpr ⟨⟨bounds.expected, ?_⟩, fun _ => AList.notMem_empty _⟩⟩
  exact fun seq data found => absurd found (none_held seq data)

theorem step_alive (alive : b.Alive checks) (bounded : b.Bounded)
    (stepped : b.step checks action = some c) :
    c.Bounded ∧ (c.Alive checks ↔ b.Safe checks action) := by
  cases action with
  | insert seq data =>
    obtain ⟨⟨output, after⟩, inserted, rfl⟩ := Option.map_eq_some_iff.mp stepped
    exact insert_alive alive bounded inserted
  | skipLost =>
    cases stepped
    exact skipLost_alive alive bounded
  | clear =>
    cases stepped
    obtain ⟨bounds, alive⟩ := clear_alive checks b
    exact ⟨bounds, iff_of_true alive trivial⟩

/-- Only a fragment that is put out at once aborts a build with checks. -/
theorem safe_of_aborts (aborted : b.step checks action = none) : b.Safe checks action := by
  cases action with
  | insert seq data =>
    intro _ early
    rw [ReorderBuffer.step, insert_early early] at aborted
    cases aborted
  | skipLost => cases aborted
  | clear => trivial

/-- In every run of a new buffer, in either build, what is held lies ahead and is put out
without coming in again exactly when nothing is skipped while fragments are held and, in a
build with checks, the largest number is never held. -/
theorem stream_alive_iff (checks : Bool) (maxSize : Nat) (actions : List BufferAction) :
    Always (ReorderBuffer.step checks) (·.Alive checks) (.new maxSize) actions ↔
      Meets (ReorderBuffer.step checks) (ReorderBuffer.Safe checks) (.new maxSize) actions := by
  apply always_iff_of_aborts (I := ReorderBuffer.Bounded)
  · exact fun bounded alive stepped => (step_alive alive bounded stepped).1
  · exact fun _ _ aborted => safe_of_aborts aborted
  · exact fun bounded alive stepped => (step_alive alive bounded stepped).2
  · exact (clear_alive checks (.new maxSize)).1
  · exact (clear_alive checks (.new maxSize)).2

/-- Ten and eleven have come in, and the ten numbers before them are given up. -/
def skipTen : List BufferAction :=
  [.insert 10 [116, 101, 110], .insert 11 [101, 108, 101, 118, 101, 110], .skipLost]

/-- Ten is expected again while it is held. -/
theorem skip_leaves_fragment_behind :
    ¬ Always (ReorderBuffer.step false) (·.Alive false) (.new 1024) skipTen ∧
      ¬ Always (ReorderBuffer.step true) (·.Alive true) (.new 1024) skipTen := by
  constructor
  · intro always
    have after := ((always.2 _ rfl).2 _ rfl).2 _ rfl
    exact absurd (after.ahead 10 [116, 101, 110] rfl) (by decide)
  · intro always
    have after := ((always.2 _ rfl).2 _ rfl).2 _ rfl
    exact absurd (after.ahead 10 [116, 101, 110] rfl) (by decide)

end

end LanLink.Multipath
