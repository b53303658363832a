import LanLink.Core.Runs
import LanLink.Daemon.Files

/-! A chunk that is delivered again after it was acknowledged. The daemon keeps no record of
the chunks it has acknowledged; it is kept here beside the table, from one `FilePush` that
opens its file to the next under the same identifier. -/
namespace LanLink.Files
open Words LanLink.Control Runs

/-- Reading the data back where it would be written. -/
theorem writeAt_eq_iff (content : Bytes) (pos : Nat) (data : Bytes) :
    writeAt content pos data = content ↔
      ∀ i, i < data.length → content[pos + i]? = data[i]? := by
  constructor
  · intro same i inside
    have shown := (getElem?_writeAt content pos data (pos + i)).1 (by omega) (by omega)
    rwa [same, Nat.add_sub_cancel_left] at shown
  · intro holds
    by_cases none : data = []
    · rw [writeAt, if_pos none]
    have positive : 0 < data.length := List.length_pos_iff.mpr none
    have last := holds (data.length - 1) (by omega)
    rw [List.getElem?_eq_getElem (l := data) (by omega)] at last
    have fits := (List.getElem?_eq_some_iff.mp last).1
    have piece : (content.drop pos).take data.length = data := by
      apply List.ext_getElem?
      intro i
      by_cases inside : i < data.length
      · rw [List.getElem?_take_of_lt inside, List.getElem?_drop]
        exact holds i inside
      · rw [List.getElem?_eq_none (by simp; omega), List.getElem?_eq_none (by omega)]
    have written : writeAt (content.take content.length) pos ((content.drop pos).take data.length) =
        content.take (max content.length (pos + data.length)) :=
      writeAt_take (by omega) le_rfl (by omega)
    rwa [piece, List.take_length, List.take_of_length_le (by omega)] at written

/-- A chunk that was acknowledged, with the size announced for its file and the answer. -/
structure Acknowledged where
  offset : UInt64
  data : Bytes
  size : UInt64
  reply : ControlMsg

/-- The chunk reaches the announced size. -/
def Acknowledged.Finishes (a : Acknowledged) : Prop :=
  a.size ≤ a.offset + a.data.length.toUInt64

structure Recorded (File : Type) where
  table : FileTable File
  acked : UInt32 → List Acknowledged

namespace Recorded
variable {File : Type}

def start (files : File → Option Bytes) : Recorded File := ⟨⟨fun _ => none, files⟩, fun _ => []⟩

variable [DecidableEq File]

def note (s : Recorded File) (id : UInt32) (offset : UInt64) (data : Bytes)
    (reply : Option ControlMsg) : UInt32 → List Acknowledged :=
  match s.table.transfers id, reply with
  | some transfer, some reply =>
    Function.update s.acked id (s.acked id ++ [⟨offset, data, transfer.size, reply⟩])
  | _, _ => s.acked

/-- A message is delivered; other messages leave the transfers alone. -/
def step (resolve : String → File) (s : Recorded File) :
    ControlMsg × Outcome → Option (Recorded File)
  | (.filePush id path size, outcome) =>
    some {
      table := (s.table.filePush resolve id path size outcome.opened).1
      acked := if outcome.opened then Function.update s.acked id [] else s.acked }
  | (.fileChunk id offset data, outcome) =>
    let (table, reply) := s.table.fileChunk id offset data outcome
    some { table, acked := s.note id offset data reply }
  | _ => some s

/-- The chunk delivered once more changes no file and is answered as before. -/
def Repeats (s : Recorded File) (id : UInt32) (a : Acknowledged) (outcome : Outcome) : Prop :=
  (s.table.fileChunk id a.offset a.data outcome).1.files = s.table.files ∧
    (s.table.fileChunk id a.offset a.data outcome).2 = some a.reply

omit [DecidableEq File] in
/-- The file of the transfer shows the chunk where it would be written. -/
def Holds (s : Recorded File) (id : UInt32) (a : Acknowledged) (outcome : Outcome) : Prop :=
  ∀ transfer, s.table.transfers id = some transfer → ∀ i, i < a.data.length →
    ((s.table.files transfer.file).getD [])[transfer.seek a.offset outcome.sought + i]? = a.data[i]?

variable {s t : Recorded File} {resolve : String → File} {id : UInt32} {a : Acknowledged}

/-- What a chunk for an open transfer does. -/
theorem chunk_cases
    (stepped : s.step resolve (.fileChunk id offset data, outcome) = some t)
    (found : s.table.transfers id = some transfer) :
    (t.table.files = Function.update s.table.files transfer.file
      (some (writeAt ((s.table.files transfer.file).getD [])
        (transfer.seek offset outcome.sought) (outcome.written data)))) ∧
    ∃ moved : Transfer File, moved.file = transfer.file ∧
      (outcome.failedAfter ≠ none ∧ t.acked = s.acked ∧
          t.table.transfers = Function.update s.table.transfers id (some moved) ∨
        outcome.failedAfter = none ∧ ∃ a : Acknowledged, a.offset = offset ∧ a.data = data ∧
          a.reply = .fileAck id (offset + data.length.toUInt64) ∧
          t.acked = Function.update s.acked id (s.acked id ++ [a]) ∧
          (a.Finishes ∧ t.table.transfers = Function.update s.table.transfers id none ∨
            ¬ a.Finishes ∧
              t.table.transfers = Function.update s.table.transfers id (some moved))) := by
  obtain rfl := Option.some.inj stepped
  simp only [note, found]
  refine ⟨trivial, { transfer with pos := transfer.seek offset outcome.sought +
    (outcome.written data).length }, rfl, ?_⟩
  by_cases failed : outcome.failedAfter = none
  · refine .inr ⟨failed, ⟨offset, data, transfer.size, _⟩, rfl, rfl, rfl, ?_⟩
    by_cases finishes : transfer.size ≤ offset + data.length.toUInt64
    · simp [Transfer.handleChunk, failed, finishes, Acknowledged.Finishes]
    · simp [Transfer.handleChunk, failed, finishes, Acknowledged.Finishes]
  · refine .inl ⟨failed, ?_⟩
    simp [Transfer.handleChunk, Option.isSome_iff_ne_none, failed]

theorem chunk_closed (stepped : s.step resolve (.fileChunk id offset data, outcome) = some t)
    (closed : s.table.transfers id = none) : t = s := by
  obtain rfl := Option.some.inj stepped
  simp [note, closed]

/-- Other identifiers are left alone. -/
theorem chunk_other (stepped : s.step resolve (.fileChunk id offset data, outcome) = some t)
    (apart : other ≠ id) :
    t.table.transfers other = s.table.transfers other ∧ t.acked other = s.acked other := by
  cases found : s.table.transfers id with
  | none =>
    rw [chunk_closed stepped found]
    exact ⟨rfl, rfl⟩
  | some transfer =>
    obtain ⟨-, moved, -, cases⟩ := chunk_cases stepped found
    rcases cases with ⟨-, acked, transfers⟩ | ⟨-, a, -, -, -, acked, ended⟩
    · rw [transfers, acked, Function.update_of_ne apart]
      exact ⟨rfl, rfl⟩
    · rw [acked, Function.update_of_ne apart]
      rcases ended with ⟨-, transfers⟩ | ⟨-, transfers⟩
      · exact ⟨by rw [transfers, Function.update_of_ne apart], rfl⟩
      · exact ⟨by rw [transfers, Function.update_of_ne apart], rfl⟩

/-- What a `FilePush` does. -/
theorem push_cases (stepped : s.step resolve (.filePush id path size, outcome) = some t) :
    (outcome.opened = false ∧ t = s) ∨
      outcome.opened = true ∧
      (∃ opened : Transfer File, opened.file = resolve path ∧
        t.table.transfers = Function.update s.table.transfers id (some opened)) ∧
      t.table.files = Function.update s.table.files (resolve path) (some []) ∧
      t.acked = Function.update s.acked id [] := by
  obtain rfl := Option.some.inj stepped
  cases opened : outcome.opened with
  | false => exact .inl ⟨rfl, by simp [FileTable.filePush]⟩
  | true => exact .inr ⟨rfl, ⟨⟨path, resolve path, 0, size⟩, rfl, rfl⟩, rfl, rfl⟩

/-- A transfer with acknowledged chunks is open as long as none of them finished it. -/
structure Tracked (files : File → Option Bytes) (id : UInt32) (transfer : Option (Transfer File))
    (acked : List Acknowledged) : Prop where
  content : ∀ opened, transfer = some opened → (files opened.file).isSome
  open_iff : acked ≠ [] → (transfer.isSome ↔ ∀ a ∈ acked, ¬ a.Finishes)
  reply : ∀ a ∈ acked, a.reply = .fileAck id (a.offset + a.data.length.toUInt64)

def AllTracked (s : Recorded File) : Prop :=
  ∀ id, Tracked s.table.files id (s.table.transfers id) (s.acked id)

theorem Tracked.write {files : File → Option Bytes} {transfer : Option (Transfer File)}
    {acked : List Acknowledged} (tracked : Tracked files id transfer acked) (file : File)
    (content : Bytes) :
    Tracked (Function.update files file (some content)) id transfer acked := by
  refine ⟨fun opened found => ?_, tracked.open_iff, tracked.reply⟩
  rw [Function.update_apply]
  split
  · rfl
  · exact tracked.content opened found

theorem AllTracked.push (tracked : AllTracked s)
    (stepped : s.step resolve (.filePush id path size, outcome) = some t) : AllTracked t := by
  rcases push_cases stepped with ⟨-, rfl⟩ | ⟨-, ⟨opened, own, transfers⟩, files, acked⟩
  · exact tracked
  intro other
  rw [files, transfers, acked]
  by_cases same : other = id
  · rw [same, Function.update_self, Function.update_self]
    refine ⟨fun transfer found => ?_, fun some => absurd rfl some, fun a member => by cases member⟩
    obtain rfl := Option.some.inj found
    rw [own, Function.update_self]
    rfl
  · rw [Function.update_of_ne same, Function.update_of_ne same]
    exact (tracked other).write _ _

theorem AllTracked.chunk (tracked : AllTracked s)
    (stepped : s.step resolve (.fileChunk id offset data, outcome) = some t) : AllTracked t := by
  cases found : s.table.transfers id with
  | none =>
    rw [chunk_closed stepped found]
    exact tracked
  | some transfer =>
    obtain ⟨files, moved, own, cases⟩ := chunk_cases stepped found
    have before := tracked id
    rw [found] at before
    -- before the chunk no acknowledged one had finished the transfer
    have unfinished : ∀ a ∈ s.acked id, ¬ a.Finishes := by
      by_cases none : s.acked id = []
      · rw [none]
        exact fun a member => by cases member
      · exact (before.open_iff none).mp rfl
    have still : ∀ opened, some moved = some opened → (s.table.files opened.file).isSome := by
      intro opened same
      rw [← Option.some.inj same, own]
      exact before.content transfer rfl
    intro other
    rw [files]
    apply Tracked.write
    by_cases same : other = id
    · subst same
      rcases cases with ⟨-, acked, transfers⟩ | ⟨-, a, rfl, rfl, reply, acked, after⟩
      · rw [acked, transfers, Function.update_self]
        exact ⟨still, fun some => iff_of_true rfl unfinished, before.reply⟩
      · rw [acked, Function.update_self]
        have replies : ∀ b ∈ s.acked other ++ [a],
            b.reply = .fileAck other (b.offset + b.data.length.toUInt64) := by
          intro b member
          rcases List.mem_append.mp member with member | member
          · exact before.reply b member
          · rw [List.mem_singleton.mp member, reply]
        rcases after with ⟨finishes, transfers⟩ | ⟨unfinishes, transfers⟩
        · rw [transfers, Function.update_self]
          refine ⟨fun _ none => (by cases none), fun _ => ?_, replies⟩
          refine iff_of_false (by simp) fun none => ?_
          exact none a (List.mem_append_right _ List.mem_cons_self) finishes
        · rw [transfers, Function.update_self]
          refine ⟨still, fun _ => iff_of_true rfl fun b member => ?_, replies⟩
          rcases List.mem_append.mp member with member | member
          · exact unfinished b member
          · rwa [List.mem_singleton.mp member]
    · obtain ⟨transfers, acked⟩ := chunk_other stepped same
      rw [transfers, acked]
      exact tracked other

theorem AllTracked.step (tracked : AllTracked s) (stepped : s.step resolve delivery = some t) :
    AllTracked t := by
  obtain ⟨msg, outcome⟩ := delivery
  cases msg with
  | filePush id path size => exact tracked.push stepped
  | fileChunk id offset data => exact tracked.chunk stepped
  | _ =>
    obtain rfl := Option.some.inj stepped
    exact tracked

theorem tracked_run (files : File → Option Bytes)
    (run : exec (step resolve) (start files) deliveries = some s) : AllTracked s := by
  refine invariant (fun tracked stepped => AllTracked.step tracked stepped) run ?_
  intro id
  exact ⟨fun _ none => (by cases none), fun some => absurd rfl some, fun _ none => (by cases none)⟩

/-- A chunk is repeated where the transfer is open, the write succeeds and changes no byte. -/
theorem Tracked.repeated (tracked : Tracked s.table.files id (s.table.transfers id) (s.acked id))
    (member : a ∈ s.acked id) (outcome : Outcome) :
    s.Repeats id a outcome ↔
      (∀ b ∈ s.acked id, ¬ b.Finishes) ∧ outcome.failedAfter = none ∧ s.Holds id a outcome := by
  have reply := tracked.reply a member
  rw [← tracked.open_iff (List.ne_nil_of_mem member), Repeats, Holds, FileTable.fileChunk]
  cases found : s.table.transfers id with
  | none => simp
  | some transfer =>
    obtain ⟨content, known⟩ := Option.isSome_iff_exists.mp (tracked.content transfer found)
    have unchanged (data : Bytes) : Function.update s.table.files transfer.file
        (some (writeAt content (transfer.seek a.offset outcome.sought) data)) = s.table.files ↔
          writeAt content (transfer.seek a.offset outcome.sought) data = content := by
      rw [Function.update_eq_self_iff, known, Option.some_inj]
    simp only [known, Option.getD_some, unchanged]
    by_cases whole : outcome.failedAfter = none
    · have reaches : outcome.written a.data = a.data := by rw [Outcome.written, whole]
      have answer : (transfer.handleChunk id a.offset a.data outcome).2 = some a.reply := by
        rw [reply, Transfer.handleChunk, whole]
        simp only [Option.isSome_none, Bool.false_eq_true, if_false]
        split <;> rfl
      simp [answer, reaches, whole, writeAt_eq_iff, known]
    · have silent : (transfer.handleChunk id a.offset a.data outcome).2 = none := by
        rw [Transfer.handleChunk, if_pos (Option.isSome_iff_ne_none.mpr whole)]
      simp [silent, whole]

/-- The data agrees with every acknowledged chunk of an open transfer into the file. -/
def Agrees (s : Recorded File) (file : File) (pos : Nat) (data : Bytes) : Prop :=
  ∀ other transfer, s.table.transfers other = some transfer → transfer.file = file →
    ∀ a ∈ s.acked other, ∀ i j, pos + i = a.offset.toNat + j → i < data.length →
      j < a.data.length → data[i]? = a.data[j]?

/-- A file is not opened under a second identifier while chunks of it are acknowledged; a chunk
goes where it says and agrees with the acknowledged ones. -/
def Consistent (resolve : String → File) (s : Recorded File) : ControlMsg × Outcome → Prop
  | (.filePush id path _, outcome) => outcome.opened = true → ∀ other transfer, other ≠ id →
      s.table.transfers other = some transfer → transfer.file = resolve path → s.acked other = []
  | (.fileChunk id offset data, outcome) => ∀ transfer, s.table.transfers id = some transfer →
      (outcome.failedAfter = none → transfer.seek offset outcome.sought = offset.toNat) ∧
      s.Agrees transfer.file (transfer.seek offset outcome.sought) (outcome.written data)
  | _ => True

omit [DecidableEq File] in
/-- Every acknowledged chunk of an open transfer is in its file. -/
def Stored (s : Recorded File) : Prop :=
  ∀ id transfer, s.table.transfers id = some transfer → ∀ a ∈ s.acked id, ∀ i, i < a.data.length →
    ((s.table.files transfer.file).getD [])[a.offset.toNat + i]? = a.data[i]?

theorem Stored.push (stored : Stored s) (consistent : s.Consistent resolve (.filePush id path size, outcome))
    (stepped : s.step resolve (.filePush id path size, outcome) = some t) : Stored t := by
  rcases push_cases stepped with ⟨-, rfl⟩ | ⟨opens, ⟨opened, own, transfers⟩, files, acked⟩
  · exact stored
  intro other transfer found a member i inside
  rw [acked] at member
  rw [transfers] at found
  by_cases same : other = id
  · rw [same, Function.update_self] at member
    cases member
  · rw [Function.update_of_ne same] at found member
    have apart : transfer.file ≠ resolve path := by
      intro shared
      rw [consistent opens other transfer same found shared] at member
      cases member
    rw [files, Function.update_of_ne apart]
    exact stored other transfer found a member i inside

/-- A write that agrees with a chunk in the file leaves it there. -/
theorem getElem?_writeAt_of_agree {content data : Bytes}
    (shown : ∀ i, i < a.data.length → content[a.offset.toNat + i]? = a.data[i]?)
    (agree : ∀ i j, pos + i = a.offset.toNat + j → i < data.length → j < a.data.length →
      data[i]? = a.data[j]?) (inside : i < a.data.length) :
    (writeAt content pos data)[a.offset.toNat + i]? = a.data[i]? := by
  obtain ⟨here, elsewhere⟩ := getElem?_writeAt content pos data (a.offset.toNat + i)
  by_cases covered : pos ≤ a.offset.toNat + i ∧ a.offset.toNat + i < pos + data.length
  · rw [here covered.1 covered.2]
    exact agree _ i (by omega) (by omega) inside
  · have there := shown i inside
    rw [List.getElem?_eq_getElem inside] at there
    have within := (List.getElem?_eq_some_iff.mp there).1
    rw [elsewhere within (by omega)]
    exact shown i inside

/-- After a chunk, an acknowledged chunk of an open transfer was one before or is the new one. -/
theorem acked_after_chunk
    (stepped : s.step resolve (.fileChunk id offset data, outcome) = some t)
    (found : s.table.transfers id = some transfer)
    (still : t.table.transfers other = some after) (member : a ∈ t.acked other) :
    (∃ before, s.table.transfers other = some before ∧ before.file = after.file ∧
        a ∈ s.acked other) ∨
      outcome.failedAfter = none ∧ after.file = transfer.file ∧ a.offset = offset ∧
        a.data = data := by
  obtain ⟨-, moved, own, cases⟩ := chunk_cases stepped found
  by_cases same : other = id
  · subst same
    rcases cases with ⟨-, acked, transfers⟩ | ⟨whole, b, rfl, rfl, -, acked, ended⟩
    · rw [transfers, Function.update_self] at still
      rw [acked] at member
      obtain rfl := Option.some.inj still
      exact .inl ⟨transfer, found, own.symm, member⟩
    · rw [acked, Function.update_self] at member
      rcases ended with ⟨-, transfers⟩ | ⟨-, transfers⟩
      · rw [transfers, Function.update_self] at still
        cases still
      · rw [transfers, Function.update_self] at still
        obtain rfl := Option.some.inj still
        rcases List.mem_append.mp member with member | member
        · exact .inl ⟨transfer, found, own.symm, member⟩
        · rw [List.mem_singleton.mp member]
          exact .inr ⟨whole, own, rfl, rfl⟩
  · obtain ⟨transfers, acked⟩ := chunk_other stepped same
    rw [transfers] at still
    rw [acked] at member
    exact .inl ⟨after, still, rfl, member⟩

theorem Stored.chunk (stored : Stored s)
    (consistent : s.Consistent resolve (.fileChunk id offset data, outcome))
    (stepped : s.step resolve (.fileChunk id offset data, outcome) = some t) : Stored t := by
  cases found : s.table.transfers id with
  | none =>
    rw [chunk_closed stepped found]
    exact stored
  | some transfer =>
    obtain ⟨aimed, agrees⟩ := consistent transfer found
    have files := (chunk_cases stepped found).1
    intro other after still a member i inside
    rw [files]
    rcases acked_after_chunk stepped found still member with
      ⟨before, opened, same, member⟩ | ⟨whole, same, rfl, rfl⟩
    · have shown := stored other before opened a member
      rw [← same]
      by_cases shared : before.file = transfer.file
      · rw [shared, Function.update_self, Option.getD_some]
        rw [shared] at shown
        exact getElem?_writeAt_of_agree shown
          (agrees other before opened shared a member) inside
      · rw [Function.update_of_ne shared]
        exact shown i inside
    · have written : outcome.written a.data = a.data := by rw [Outcome.written, whole]
      rw [same, Function.update_self, Option.getD_some, aimed whole, written]
      have here := (getElem?_writeAt ((s.table.files transfer.file).getD []) a.offset.toNat a.data
        (a.offset.toNat + i)).1 (by omega) (by omega)
      rwa [Nat.add_sub_cancel_left] at here

theorem Stored.step (stored : Stored s) (consistent : s.Consistent resolve delivery)
    (stepped : s.step resolve delivery = some t) : Stored t := by
  obtain ⟨msg, outcome⟩ := delivery
  cases msg with
  | filePush id path size => exact stored.push consistent stepped
  | fileChunk id offset data => exact stored.chunk consistent stepped
  | _ =>
    obtain rfl := Option.some.inj stepped
    exact stored

/-- A chunk that was acknowledged is repeated exactly while no acknowledged chunk of its transfer
has reached the announced size, the write succeeds and the file shows the chunk. The last is so
in runs where all that is written into a file is consistent. -/
theorem repeats_iff (resolve : String → File) (files : File → Option Bytes)
    (deliveries : List (ControlMsg × Outcome)) (id : UInt32) (a : Acknowledged)
    (run : exec (step resolve) (start files) deliveries = some s) (member : a ∈ s.acked id) :
    (∀ outcome, s.Repeats id a outcome ↔ (∀ b ∈ s.acked id, ¬ b.Finishes) ∧
      outcome.failedAfter = none ∧ s.Holds id a outcome) ∧
    (Meets (step resolve) (Consistent resolve) (start files) deliveries →
      ∀ outcome, outcome.sought = true → s.Holds id a outcome) := by
  refine ⟨(tracked_run files run id).repeated member, fun consistent outcome sought => ?_⟩
  have stored : Stored s := by
    refine guarded_invariant (fun kept guard stepped => Stored.step kept guard stepped)
      consistent run ?_
    intro id transfer none
    cases none
  intro transfer found
  rw [Transfer.seek, if_pos sought]
  exact stored id transfer found a member

/-- A byte of a file of the given size. -/
def oneByteOf (size : UInt64) : List (ControlMsg × Outcome) :=
  [(.filePush 5 "/tmp/copy" size, ⟨true, true, none⟩), (.fileChunk 5 0 [7], ⟨true, true, none⟩)]

/-- The first of two bytes can be sent again. -/
theorem repeats_iff_first : ∃ s : Recorded String,
    exec (step fun path => path) (start fun _ => none) (oneByteOf 2) = some s ∧
      s.Repeats 5 ⟨0, [7], 2, .fileAck 5 1⟩ ⟨true, true, none⟩ := by
  refine ⟨_, rfl, ?_⟩
  apply ((repeats_iff (fun path => path) (fun _ => none) (oneByteOf 2) 5 _ rfl
    List.mem_cons_self).1 _).mpr
  refine ⟨fun b only => ?_, rfl, fun transfer found i inside => ?_⟩
  · rw [List.mem_singleton.mp only]
    exact (by decide : ¬ (2 : UInt64) ≤ 0 + 1)
  · obtain rfl := Option.some.inj found
    obtain rfl : i = 0 := Nat.lt_one_iff.mp inside
    rfl

/-- The only byte of a file is acknowledged; sent again it is not answered. -/
theorem last_chunk_unanswered : ∃ s : Recorded String,
    exec (step fun path => path) (start fun _ => none) (oneByteOf 1) = some s ∧
      ⟨0, [7], 1, .fileAck 5 1⟩ ∈ s.acked 5 ∧
      ¬ s.Repeats 5 ⟨0, [7], 1, .fileAck 5 1⟩ ⟨true, true, none⟩ := by
  refine ⟨_, rfl, List.mem_cons_self, ?_⟩
  rintro ⟨-, answered⟩
  cases answered

end Recorded
end LanLink.Files
