import LanLink.Exec.Task
import LanLink.Daemon.Files
import LanLink.Daemon.Machine

/-! Control messages and what they start: execs under the clients' identifiers,
each with its own task and threads, and file transfers. A message comes from an
address, and the limiter of its transport decides whether it gets to the control
handler. What the operating system answers is given with the message; the effects
of commands on files are events of their own. Cleaning the limiter changes no
answer of it and is left out. -/
namespace LanLink.Host
open Words LanLink.Control LanLink.Files
open LanLink.Daemon (Transport IpAddr RateLimiter)

/-- The transports have their own maps of connections, and so may have one of the
same number each. -/
structure ConnId where
  transport : Transport
  id : UInt64
  deriving DecidableEq

/-- An exec with the identifier and the command line it was started with and the
commands its channel has passed on to it. -/
structure Running where
  id : UInt32
  cmd : String
  state : Exec.State
  received : List Exec.ExecCmd

def Running.ended (r : Running) : Bool := r.state.task = .ended

def passed : Exec.Action → List Exec.ExecCmd
  | .command cmd => [cmd]
  | _ => []

/-- A step another task causes. A send to a task that has ended fails, and it no
longer matters to it whether the sender is dropped. -/
def Running.apply (r : Running) (action : Exec.Action) : Running :=
  if r.ended then r
  else match r.state.step r.id action with
    | some state => { r with state := state, received := r.received ++ passed action }
    | none => r

/-- The answers of the operating system to one message. -/
structure Answer where
  spawned : Bool
  output : Bytes
  exitCode : Option Int32
  file : Outcome

/-- The daemon: the limiters, the execs each connection has started, in order, the
exec whose command channel is in the global map, the transfers and files, the
answers sent to each connection. `pushed` is the connection that opened a file
last, and `ownLimiter` what the limiter would be if only the messages of one
connection had come. -/
structure State (File : Type) where
  rateLimiter : Transport → RateLimiter
  ownLimiter : ConnId → RateLimiter
  execs : ConnId → List Running
  execMap : UInt32 → Option (ConnId × Nat)
  table : FileTable File
  pushed : File → Option ConnId
  replies : ConnId → List ControlMsg

def State.start {File : Type} (files : File → Option Bytes) : State File where
  rateLimiter _ := .new
  ownLimiter _ := .new
  execs _ := []
  execMap _ := none
  table := ⟨fun _ => none, files⟩
  pushed _ := none
  replies _ := []

section
variable {File : Type}

def State.reply (s : State File) (conn : ConnId) (msg : ControlMsg) : State File :=
  { s with replies := Function.update s.replies conn (s.replies conn ++ [msg]) }

def State.modifyExec (s : State File) (conn : ConnId) (k : Nat) (f : Running → Running) :
    State File :=
  { s with execs := Function.update s.execs conn ((s.execs conn).modify k f) }

/-- What the channel in the map passes on to its exec. -/
def State.signal (s : State File) (id : UInt32) (action : Exec.Action) : State File :=
  match s.execMap id with
  | some (conn, k) => s.modifyExec conn k (·.apply action)
  | none => s

/-- A new exec with its channel in the map. -/
def State.insert (s : State File) (conn : ConnId) (id : UInt32) (r : Running) : State File :=
  { s with execs := Function.update s.execs conn (s.execs conn ++ [r]),
           execMap := Function.update s.execMap id (some (conn, (s.execs conn).length)) }

/-- Inserting the new channel drops the sender that was in its place. -/
def State.spawn (s : State File) (conn : ConnId) (id : UInt32) (cmd : String) (spawned : Bool) :
    State File :=
  if spawned then
    ((s.signal id .dropSender).insert conn id ⟨id, cmd, .start, []⟩).reply conn (.execStarted id)
  else s.reply conn (.execDone id none)

/-- The command line of a native command that can be streamed. -/
def spawnText : NativeCmdType → Option String
  | .shellExec cmd _ => some cmd
  | .tail path lines true followSecs =>
    if 0 < followSecs then
      some ("timeout " ++ toString followSecs ++ " tail -n " ++ toString lines ++ " -f " ++ path)
    else some ("tail -n " ++ toString lines ++ " -f " ++ path)
  | _ => none

/-- A command that is run to its end. -/
def State.ranCommand (s : State File) (conn : ConnId) (id : UInt32) (answer : Answer) :
    State File :=
  (s.reply conn (.execChunk id 0 answer.output)).reply conn (.execDone id answer.exitCode)

def State.answerFile (s : State File) (conn : ConnId)
    (handled : FileTable File × Option ControlMsg) : State File :=
  let stored := { s with table := handled.1 }
  handled.2.elim stored (stored.reply conn)

variable [DecidableEq File] (resolve : String → File)

def State.handleControl (s : State File) (conn : ConnId) (answer : Answer) :
    ControlMsg → State File
  | .exec id cmd => s.spawn conn id cmd answer.spawned
  | .nativeSpawn id cmd =>
    match spawnText cmd, conn.transport with
    | some text, _ => s.spawn conn id text answer.spawned
    | none, .udp => s.reply conn (.execDone id none)
    | none, .tcp => s.ranCommand conn id answer
  | .execStdin id data close => s.signal id (.command (.stdin data close))
  | .execSignal id signo => s.signal id (.command (.signal signo.toInt32))
  | .hello version _ =>
    if version = Frame.protocolVersion then
      s.reply conn (.helloAck Frame.protocolVersion ["exec", "input"])
    else s
  | .nativeCmd id _ => s.ranCommand conn id answer
  | .filePush id path size =>
    let handled := s.table.filePush resolve id path size answer.file.opened
    let pushed := if answer.file.opened then
      Function.update s.pushed (resolve path) (some conn) else s.pushed
    { s with pushed := pushed }.answerFile conn handled
  | .fileChunk id offset data =>
    s.answerFile conn (s.table.fileChunk id offset data answer.file)
  | _ => s

/-- The limiters after a message of the connection. -/
def State.count (s : State File) (conn : ConnId) (peer : IpAddr) (now : Nat) : State File :=
  { s with
    rateLimiter := Function.update s.rateLimiter conn.transport
      ((s.rateLimiter conn.transport).checkCmd peer now).1
    ownLimiter := Function.update s.ownLimiter conn ((s.ownLimiter conn).checkCmd peer now).1 }

/-- A control message, a step of an exec's own threads, and a change a command
of a connection makes to a file. A payload that is no message counts for the
limiter like a message that the handler ignores. -/
inductive Event (File : Type) where
  | message (conn : ConnId) (peer : IpAddr) (now : Nat) (msg : ControlMsg) (answer : Answer)
  | execStep (conn : ConnId) (k : Nat) (action : Exec.Action)
  | fileEffect (conn : ConnId) (file : File) (content : Option Bytes)

def Event.conn {File : Type} : Event File → ConnId
  | .message conn .. | .execStep conn _ _ | .fileEffect conn _ _ => conn

/-- The actions of an exec that no control message causes. -/
def internal : Exec.Action → Bool
  | .command _ | .dropSender => false
  | _ => true

def State.step (s : State File) : Event File → Option (State File)
  | .message conn peer now msg answer =>
    let allowed := ((s.rateLimiter conn.transport).checkCmd peer now).2
    let counted := s.count conn peer now
    some (if allowed then counted.handleControl resolve conn answer msg else counted)
  | .execStep conn k action =>
    match (s.execs conn)[k]? with
    | some r =>
      if internal action then
        (r.state.step r.id action).map fun state =>
          s.modifyExec conn k fun _ => { r with state := state }
      else none
    | none => none
  | .fileEffect _ file content =>
    some { s with table.files := Function.update s.table.files file content }

end

end LanLink.Host
