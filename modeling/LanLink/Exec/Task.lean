import Mathlib.Logic.Function.Basic
import LanLink.Core.Runs
import LanLink.Protocol.Control

/-! A streamed command: the child process, the three threads of the shell
crate, the two bridge threads and the select loop of the exec task, each taking
its own steps. The select loop of the TCP task is the same one; the two differ
in the socket a message goes to. Channels are lists with the oldest element in
front. Reads of a pipe do not fail, and the child is the only writer of it; what
a command writes to the standard input of the child is left out. -/
namespace LanLink.Exec
open Words LanLink.Control

inductive Output where
  | stdout | stderr
  deriving DecidableEq, Repr

def Output.stream : Output → UInt8
  | .stdout => 0
  | .stderr => 1

structure StreamChunk where
  stream : UInt8
  data : Bytes
  deriving DecidableEq

/-- The size of a reader thread's buffer. -/
def readSize : Nat := 4096

inductive Child where
  | running
  | exited (code : Option Int32)
  deriving DecidableEq

inductive Reader where
  | reading
  | sending (data : Bytes)
  | ended
  deriving DecidableEq

/-- One output of the child with the thread that reads it. -/
structure Feed where
  /-- Everything the child has written. -/
  produced : Bytes
  /-- What is still in the pipe. -/
  unread : Bytes
  /-- The child has closed its end of the pipe. -/
  closed : Bool
  reader : Reader
  deriving DecidableEq

inductive Bridge where
  | receiving
  | sending (chunk : StreamChunk)
  | ended
  deriving DecidableEq

/-- The thread that waits for the child. It keeps the lock of the child slot
from `waiting` until the child has exited. -/
inductive Waiter where
  | starting
  | waiting
  | reporting (code : Option Int32)
  | ended
  deriving DecidableEq

inductive Holder where
  | waiter | task
  deriving DecidableEq

inductive ExecCmd where
  | stdin (data : Bytes) (close : Bool)
  | signal (signo : Int32)
  deriving DecidableEq

/-- The select loop: at its `select!`, or inside `kill`, before and after it
got the lock of the child slot. The flag says that the loop ends after it. -/
inductive Task where
  | selecting
  | killing (last : Bool)
  | signalling (last : Bool)
  | ended
  deriving DecidableEq

structure State where
  child : Child
  /-- How often the child was signalled while it ran. -/
  signals : Nat
  feeds : Output → Feed
  /-- The shell crate's channel of chunks and the task's own one. -/
  chunks : List StreamChunk
  bridge : Bridge
  chunkRx : List StreamChunk
  /-- Whether the child is in its slot, and who holds the lock of the slot. -/
  slot : Bool
  lock : Option Holder
  waiter : Waiter
  /-- The exit code on its way through the shell crate's channel and the task's. -/
  doneTx : Option (Option Int32)
  doneRx : Option (Option Int32)
  commands : List ExecCmd
  senderAlive : Bool
  task : Task
  /-- The messages the task has sent. -/
  sent : List ControlMsg

/-- The state `spawn` leaves, with the exec task at its first `select!`. -/
def State.start : State where
  child := .running
  signals := 0
  feeds _ := ⟨[], [], false, .reading⟩
  chunks := []
  bridge := .receiving
  chunkRx := []
  slot := true
  lock := none
  waiter := .starting
  doneTx := none
  doneRx := none
  commands := []
  senderAlive := true
  task := .selecting
  sent := []

inductive Action where
  | produce (output : Output) (data : Bytes)
  | close (output : Output)
  | exit (code : Option Int32)
  | read (output : Output) (n : Nat)
  | readEnd (output : Output)
  | forward (output : Output)
  | bridgeReceive
  | bridgeSend
  | bridgeEnd
  | waitLock
  | waitChild
  | report
  | bridgeDone
  | command (cmd : ExecCmd)
  | dropSender
  | selectChunk
  | selectDone
  | selectCommand
  | killLock
  | killChild
  deriving DecidableEq

def State.setFeed (s : State) (output : Output) (feed : Feed) : State :=
  { s with feeds := Function.update s.feeds output feed }

/-- Where the loop goes after a `kill`. -/
def Task.afterKill (last : Bool) : Task := if last then .ended else .selecting

/-- A send into a channel whose receiver is gone fails and ends the sending
thread; the receiver of the last channel goes with the task. -/
def State.step (id : UInt32) (s : State) : Action → Option State
  | .produce output data =>
    let feed := s.feeds output
    if s.child = .running ∧ feed.closed = false then
      some (s.setFeed output
        { feed with produced := feed.produced ++ data, unread := feed.unread ++ data })
    else none
  | .close output =>
    if s.child = .running then some (s.setFeed output { s.feeds output with closed := true })
    else none
  | .exit code => if s.child = .running then some { s with child := .exited code } else none
  | .read output n =>
    let feed := s.feeds output
    if feed.reader = .reading ∧ 0 < n ∧ n ≤ readSize ∧ n ≤ feed.unread.length then
      some (s.setFeed output
        { feed with unread := feed.unread.drop n, reader := .sending (feed.unread.take n) })
    else none
  | .readEnd output =>
    let feed := s.feeds output
    if feed.reader = .reading ∧ feed.unread = [] ∧ (feed.closed ∨ s.child ≠ .running) then
      some (s.setFeed output { feed with reader := .ended })
    else none
  | .forward output =>
    let feed := s.feeds output
    match feed.reader with
    | .sending data =>
      if s.bridge = .ended then some (s.setFeed output { feed with reader := .ended })
      else some { s.setFeed output { feed with reader := .reading } with
                    chunks := s.chunks ++ [⟨output.stream, data⟩] }
    | _ => none
  | .bridgeReceive =>
    match s.bridge, s.chunks with
    | .receiving, chunk :: rest => some { s with bridge := .sending chunk, chunks := rest }
    | _, _ => none
  | .bridgeSend =>
    match s.bridge with
    | .sending chunk =>
      if s.task = .ended then some { s with bridge := .ended, chunks := [] }
      else some { s with bridge := .receiving, chunkRx := s.chunkRx ++ [chunk] }
    | _ => none
  | .bridgeEnd =>
    if s.bridge = .receiving ∧ s.chunks = [] ∧ (s.feeds .stdout).reader = .ended ∧
        (s.feeds .stderr).reader = .ended then
      some { s with bridge := .ended }
    else none
  | .waitLock =>
    if s.waiter = .starting ∧ s.lock = none then
      if s.slot then some { s with waiter := .waiting, lock := some .waiter, slot := false }
      else some { s with waiter := .reporting none }
    else none
  | .waitChild =>
    match s.waiter, s.child with
    | .waiting, .exited code => some { s with waiter := .reporting code, lock := none }
    | _, _ => none
  | .report =>
    match s.waiter with
    | .reporting code => some { s with waiter := .ended, doneTx := some code }
    | _ => none
  | .bridgeDone =>
    match s.doneTx with
    | some code => some { s with doneTx := none, doneRx := some code }
    | none => none
  | .command cmd =>
    if s.senderAlive then some { s with commands := s.commands ++ [cmd] } else none
  | .dropSender => if s.senderAlive then some { s with senderAlive := false } else none
  | .selectChunk =>
    match s.task, s.chunkRx with
    | .selecting, chunk :: rest =>
      some { s with chunkRx := rest,
                    sent := s.sent ++ [.execChunk id chunk.stream chunk.data] }
    | _, _ => none
  | .selectDone =>
    match s.task, s.doneRx with
    | .selecting, some code =>
      some { s with doneRx := none, task := .ended, sent := s.sent ++ [.execDone id code] }
    | _, _ => none
  | .selectCommand =>
    match s.task, s.commands with
    | .selecting, .stdin _ _ :: rest => some { s with commands := rest }
    | .selecting, .signal _ :: rest => some { s with commands := rest, task := .killing false }
    | .selecting, [] => if s.senderAlive then none else some { s with task := .killing true }
    | _, _ => none
  | .killLock =>
    match s.task with
    | .killing last =>
      if s.lock = none then some { s with lock := some .task, task := .signalling last } else none
    | _ => none
  | .killChild =>
    match s.task with
    | .signalling last =>
      some { s with lock := none, task := Task.afterKill last,
                    signals := if s.slot ∧ s.child = .running then s.signals + 1 else s.signals }
    | _ => none

/-- A task that has ended stays so. -/
theorem State.step_ended {s t : State} {id : UInt32} (finished : s.task = .ended)
    (stepped : s.step id action = some t) : t.task = .ended := by
  cases action with
  | _ =>
    simp only [State.step] at stepped
    grind [State.setFeed]

end LanLink.Exec
