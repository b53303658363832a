import Mathlib.Logic.Function.Basic
import LanLink.Protocol.Control

/-! File transfers of the daemon: the table of open handles under the clients'
identifiers and the contents of the files. What the operating system answers is
given with each call; paths keep naming the files they name. The end of a chunk
is a word that wraps around, as in the release build the service runs. -/
namespace LanLink.Files
open Words LanLink.Control

/-- Overwriting from a position on; a gap before it is filled with zeros. -/
def writeAt (content : Bytes) (pos : Nat) (data : Bytes) : Bytes :=
  if data = [] then content
  else (content.take pos).rightpad pos 0 ++ data ++ content.drop (pos + data.length)

/-- An open file with its path, the position of the handle and the announced size. -/
structure Transfer (File : Type) where
  path : String
  file : File
  pos : Nat
  size : UInt64

structure FileTable (File : Type) where
  transfers : UInt32 → Option (Transfer File)
  files : File → Option Bytes

/-- Whether the file could be opened and the position set, and after how many
bytes a write failed. -/
structure Outcome where
  opened : Bool
  sought : Bool
  failedAfter : Option Nat

section
variable {File : Type} [DecidableEq File]

/-- Opening creates the file or truncates it. -/
def FileTable.filePush (table : FileTable File) (resolve : String → File) (id : UInt32)
    (path : String) (size : UInt64) (opened : Bool) : FileTable File × Option ControlMsg :=
  if opened then
    ({ transfers := Function.update table.transfers id (some ⟨path, resolve path, 0, size⟩)
       files := Function.update table.files (resolve path) (some []) },
      some (.fileAck id 0))
  else (table, none)

/-- The bytes that reach the file. -/
def Outcome.written (outcome : Outcome) (chunk : Bytes) : Bytes :=
  match outcome.failedAfter with
  | some n => chunk.take n
  | none => chunk

/-- An error of the seek is ignored, and the chunk goes where the handle is. -/
def Transfer.seek (transfer : Transfer File) (offset : UInt64) (sought : Bool) : Nat :=
  if sought then offset.toNat else transfer.pos

/-- The handle after a chunk and the answer: the handle is closed when the chunk
reaches the announced size, and a failed write is not answered. -/
def Transfer.handleChunk (transfer : Transfer File) (id : UInt32) (offset : UInt64) (chunk : Bytes)
    (outcome : Outcome) : Option (Transfer File) × Option ControlMsg :=
  let moved := { transfer with
    pos := transfer.seek offset outcome.sought + (outcome.written chunk).length }
  if outcome.failedAfter.isSome then (some moved, none)
  else
    let ackOff := offset + chunk.length.toUInt64
    if transfer.size ≤ ackOff then (none, some (.fileAck id ackOff))
    else (some moved, some (.fileAck id ackOff))

def FileTable.fileChunk (table : FileTable File) (id : UInt32) (offset : UInt64) (chunk : Bytes)
    (outcome : Outcome) : FileTable File × Option ControlMsg :=
  match table.transfers id with
  | some transfer =>
    let (after, reply) := transfer.handleChunk id offset chunk outcome
    let content := writeAt ((table.files transfer.file).getD [])
      (transfer.seek offset outcome.sought) (outcome.written chunk)
    ({ transfers := Function.update table.transfers id after
       files := Function.update table.files transfer.file (some content) }, reply)
  | none => (table, none)

end

/-- A write shows the data where it went and leaves what was there elsewhere. -/
theorem getElem?_writeAt (content : Bytes) (pos : Nat) (data : Bytes) (i : Nat) :
    (pos ≤ i → i < pos + data.length → (writeAt content pos data)[i]? = data[i - pos]?) ∧
      (i < content.length → i < pos ∨ pos + data.length ≤ i →
        (writeAt content pos data)[i]? = content[i]?) := by
  by_cases none : data = []
  · subst none
    rw [writeAt, if_pos rfl]
    exact ⟨fun after before => absurd before (Nat.not_lt.mpr after), fun _ _ => rfl⟩
  have front : ((content.take pos).rightpad pos 0).length = pos := by
    rw [List.rightpad, List.length_append, List.length_replicate, List.length_take]
    omega
  rw [writeAt, if_neg none, List.append_assoc]
  constructor
  · intro after before
    rw [List.getElem?_append_right (front.le.trans after), front]
    exact List.getElem?_append_left (by omega)
  · rintro inside (before | after)
    · rw [List.getElem?_append_left (front.symm ▸ before), List.rightpad]
      rw [List.getElem?_append_left (by rw [List.length_take]; omega)]
      exact List.getElem?_take_of_lt before
    · rw [List.getElem?_append_right (by omega), front]
      rw [List.getElem?_append_right (by omega), List.getElem?_drop]
      congr 1
      omega

/-- Writing a piece of the data over a prefix of it leaves a prefix. -/
theorem writeAt_take {data : Bytes} (inside : pos ≤ n) (whole : n ≤ data.length)
    (fits : pos + m ≤ data.length) :
    writeAt (data.take n) pos ((data.drop pos).take m) = data.take (max n (pos + m)) := by
  have length : ((data.drop pos).take m).length = m := by simp; omega
  by_cases none : m = 0
  · subst none
    simp [writeAt, Nat.max_eq_left inside]
  have some : (data.drop pos).take m ≠ [] := by
    intro empty
    rw [empty] at length
    exact none length.symm
  rw [writeAt, if_neg some, length, List.rightpad, List.take_take, Nat.min_eq_left inside]
  have full : pos - (data.take pos).length = 0 := by simp; omega
  rw [full, List.replicate_zero, List.append_nil, ← List.take_add]
  rcases Nat.le_total n (pos + m) with shorter | longer
  · rw [Nat.max_eq_right shorter, List.drop_eq_nil_of_le (by simp; omega), List.append_nil]
  · rw [Nat.max_eq_left longer]
    have whole := List.take_append_drop (pos + m) (data.take n)
    rwa [List.take_take, Nat.min_eq_left longer] at whole

theorem Transfer.handleChunk_file {File : Type} {transfer after : Transfer File} {id : UInt32}
    (kept : (transfer.handleChunk id offset chunk outcome).1 = some after) :
    after.file = transfer.file := by
  simp only [handleChunk] at kept
  split at kept
  · cases kept
    rfl
  · split at kept
    · cases kept
    · cases kept
      rfl

/-- Only a chunk that was written whole is acknowledged. -/
theorem Transfer.handleChunk_reply {File : Type} (transfer : Transfer File) (id : UInt32)
    (offset : UInt64) (chunk : Bytes) (outcome : Outcome) :
    (transfer.handleChunk id offset chunk outcome).2 = none ∨
      outcome.failedAfter = none ∧ (transfer.handleChunk id offset chunk outcome).2 =
        some (.fileAck id (offset + chunk.length.toUInt64)) := by
  simp only [handleChunk]
  split
  · exact Or.inl rfl
  · rename_i whole
    have none : outcome.failedAfter = none := by simpa using whole
    split <;> exact Or.inr ⟨none, rfl⟩

end LanLink.Files
