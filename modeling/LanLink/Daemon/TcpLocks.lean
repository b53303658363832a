import Mathlib.Logic.Function.Basic
import LanLink.Core.Runs
import LanLink.Daemon.Connection

/-! The locks on the way of a TCP reply: the map from connections to streams
and the streams themselves, each shared by its reader and the tasks that reply.
A lock goes to any task that waits for it. The locks around the connections and
the rate limiter are left out; they only remove interleavings. -/
namespace LanLink.TcpLocks
open Words LanLink.Frame Daemon

/-- The reader of a client and the task of an exec. -/
inductive Task where
  | reader (client : Nat)
  | exec (k : Nat)
  deriving DecidableEq

/-- Where a call of `tcpSend` is. -/
inductive Send where
  | wantMap (connId : UInt64)
  | wantStream (client : Nat)
  | writing (client : Nat)
  deriving DecidableEq

/-- What handling one packet does, as far as the locks go. -/
inductive Effect where
  | reply
  | spawn
  deriving DecidableEq

/-- Where `handleTcpClient` is. -/
inductive Reader where
  | absent
  | askLen
  | readLen
  | askBody (frameLen : Nat)
  | readBody (frameLen : Nat)
  | register (connId : UInt64) (pktType : PacketType)
  | handling (connId : UInt64) (effects : List Effect)
  | cleanup
  | gone
  deriving DecidableEq

/-- The effects that handling a packet of this type can have. The choice is made
by the rate limiter, the connections, the decrypted message and the operating
system. -/
def outcomes : PacketType → List (List Effect)
  | .syn => [[], [.reply]]
  | .data => [[], [.reply], [.reply, .reply], [.spawn, .reply]]
  | .synAck | .ack | .rst | .heartbeat => [[]]

/-- A client: the bytes that arrived and were not read, whether the client has
closed the stream, who holds the stream's lock, and its reader. -/
structure Client where
  inbox : Bytes
  closed : Bool
  lock : Option Task
  reader : Reader

structure State where
  clients : Nat → Client
  tcpConns : UInt64 → Option Nat
  mapLock : Option Task
  sending : Task → Option Send
  execs : Nat → Option UInt64

def State.start : State where
  clients := fun _ => ⟨[], false, none, .absent⟩
  tcpConns := fun _ => none
  mapLock := none
  sending := fun _ => none
  execs := fun _ => none

def State.setClient (s : State) (c : Nat) (client : Client) : State :=
  { s with clients := Function.update s.clients c client }

def State.setSending (s : State) (task : Task) (send : Option Send) : State :=
  { s with sending := Function.update s.sending task send }

section
variable (s : State) (c : Nat) (client : Client) (task : Task) (send : Option Send)

@[simp] theorem State.setClient_clients (d : Nat) :
    (s.setClient c client).clients d = if d = c then client else s.clients d :=
  Function.update_apply s.clients c client d

@[simp] theorem State.setClient_sending (other : Task) :
    (s.setClient c client).sending other = s.sending other := rfl

@[simp] theorem State.setSending_sending (other : Task) :
    (s.setSending task send).sending other = if other = task then send else s.sending other :=
  Function.update_apply s.sending task send other

end

inductive Action where
  | connect (c : Nat)
  | receive (c : Nat) (bytes : Bytes)
  | close (c : Nat)
  | lockStream (c : Nat)
  | read (c : Nat)
  | register (c : Nat) (effects : List Effect)
  | handle (c k : Nat)
  | execReply (k : Nat)
  | execEnd (k : Nat)
  | lockMap (task : Task)
  | lockReply (task : Task)
  | write (task : Task)
  | cleanup (c : Nat)

/-- The length prefix selects the number of bytes to read; a length of zero or
beyond the read buffer ends the loop. -/
def afterLen (bytes : Bytes) : Reader :=
  let frameLen := ofBigEndian bytes
  if frameLen = 0 ∨ maxPacket + 4 < frameLen then .cleanup else .askBody frameLen

def afterBody (frame : Bytes) : Reader :=
  match PacketHeader.decode frame with
  | some (header, _) => .register header.connId header.pktType
  | none => .askLen

/-- `read_exact`: the bytes, once they are there, or the end of the loop. -/
def Client.readExact (client : Client) (n : Nat) (next : Bytes → Reader) : Option Client :=
  if n ≤ client.inbox.length then
    some { client with inbox := client.inbox.drop n, lock := none,
                       reader := next (client.inbox.take n) }
  else if client.closed then some { client with lock := none, reader := .cleanup }
  else none

def Client.read (client : Client) : Option Client :=
  match client.reader with
  | .readLen => client.readExact 4 afterLen
  | .readBody frameLen => client.readExact frameLen afterBody
  | _ => none

def Client.lockStream (client : Client) (c : Nat) : Option Client :=
  match client.lock, client.reader with
  | none, .askLen => some { client with lock := some (.reader c), reader := .readLen }
  | none, .askBody frameLen =>
    some { client with lock := some (.reader c), reader := .readBody frameLen }
  | _, _ => none

def State.step (s : State) : Action → Option State
  | .connect c =>
    if (s.clients c).reader = .absent then
      some (s.setClient c { s.clients c with reader := .askLen })
    else none
  | .receive c bytes =>
    if (s.clients c).closed then none
    else some (s.setClient c { s.clients c with inbox := (s.clients c).inbox ++ bytes })
  | .close c => some (s.setClient c { s.clients c with closed := true })
  | .lockStream c => ((s.clients c).lockStream c).map (s.setClient c)
  | .read c => (s.clients c).read.map (s.setClient c)
  | .register c effects =>
    match (s.clients c).reader with
    | .register connId pktType =>
      if s.mapLock = none ∧ effects ∈ outcomes pktType then
        -- an entry of another client stays
        some { s.setClient c { s.clients c with reader := .handling connId effects } with
          tcpConns := Function.update s.tcpConns connId (some ((s.tcpConns connId).getD c)) }
      else none
    | _ => none
  | .handle c k =>
    match (s.clients c).reader, s.sending (.reader c) with
    | .handling connId (.reply :: rest), none =>
      some ((s.setClient c { s.clients c with reader := .handling connId rest }).setSending
        (.reader c) (some (.wantMap connId)))
    | .handling connId (.spawn :: rest), none =>
      if s.execs k = none then
        some { s.setClient c { s.clients c with reader := .handling connId rest } with
          execs := Function.update s.execs k (some connId) }
      else none
    | .handling _ [], none => some (s.setClient c { s.clients c with reader := .askLen })
    | _, _ => none
  | .execReply k =>
    match s.execs k, s.sending (.exec k) with
    | some connId, none => some (s.setSending (.exec k) (some (.wantMap connId)))
    | _, _ => none
  | .execEnd k =>
    match s.execs k, s.sending (.exec k) with
    | some _, none => some { s with execs := Function.update s.execs k none }
    | _, _ => none
  | .lockMap task =>
    match s.sending task, s.mapLock with
    | some (.wantMap connId), none =>
      match s.tcpConns connId with
      | some c => some { s.setSending task (some (.wantStream c)) with mapLock := some task }
      | none => some (s.setSending task none)
    | _, _ => none
  | .lockReply task =>
    match s.sending task with
    | some (.wantStream c) =>
      if (s.clients c).lock = none then
        some ((s.setClient c { s.clients c with lock := some task }).setSending task
          (some (.writing c)))
      else none
    | _ => none
  | .write task =>
    match s.sending task with
    | some (.writing c) =>
      some { (s.setClient c { s.clients c with lock := none }).setSending task none with
        mapLock := none }
    | _ => none
  | .cleanup c =>
    if (s.clients c).reader = .cleanup ∧ s.mapLock = none then
      some { s.setClient c { s.clients c with reader := .gone } with
        tcpConns := fun id => if s.tcpConns id = some c then none else s.tcpConns id }
    else none

/-- The bytes a reader waits for; it holds the lock of its stream meanwhile. -/
def Reader.needs : Reader → Option Nat
  | .readLen => some 4
  | .readBody frameLen => some frameLen
  | _ => none

/-- The reader waits for bytes the client has not sent. -/
def Client.starved (client : Client) : Bool :=
  match client.reader.needs with
  | some n => client.inbox.length < n && !client.closed
  | none => false

/-- A task wants to write a reply to a stream whose starved reader has the lock. -/
structure Stalled (s : State) (task : Task) (c : Nat) : Prop where
  wants : s.sending task = some (.wantStream c)
  held : (s.clients c).lock = some (.reader c)
  starved : (s.clients c).starved

/-- No task waits for a starved reader, whether or not it holds the map. -/
def Flowing (s : State) : Prop := ∀ task c, ¬ Stalled s task c

/-- The task that holds the map waits for the stream. -/
def waiting (s : State) (c : Nat) : Bool :=
  match s.mapLock with
  | some task => s.sending task = some (.wantStream c)
  | none => false

/-- The stream a task will find once it has the map. -/
def State.target (s : State) (task : Task) : Option Nat :=
  match s.sending task with
  | some (.wantMap connId) => s.tcpConns connId
  | _ => none

/-- No task turns to a stream whose reader is starved, and no reader that will be
starved takes its lock while a task waits for it. -/
def Ready (s : State) : Action → Prop
  | .lockStream c => ∀ client ∈ (s.clients c).lockStream c, ¬ (waiting s c ∧ client.starved)
  | .lockMap task => ∀ c ∈ s.target task,
      ¬ ((s.clients c).lock = some (.reader c) ∧ (s.clients c).starved)
  | _ => True

instance (s : State) : (action : Action) → Decidable (Ready s action)
  | .lockStream c => inferInstanceAs (Decidable
      (∀ client ∈ (s.clients c).lockStream c, ¬ (waiting s c ∧ client.starved)))
  | .lockMap task => inferInstanceAs (Decidable (∀ c ∈ s.target task,
      ¬ ((s.clients c).lock = some (.reader c) ∧ (s.clients c).starved)))
  | .connect _ | .receive _ _ | .close _ | .read _ | .register _ _ | .handle _ _ | .execReply _
  | .execEnd _ | .lockReply _ | .write _ | .cleanup _ => isTrue trivial

def Send.holdsMap : Send → Bool
  | .wantMap _ => false
  | .wantStream _ | .writing _ => true

/-- Who holds which lock, read off where each task is. -/
structure Locks (s : State) : Prop where
  reading : ∀ c, (s.clients c).reader.needs ≠ none → (s.clients c).lock = some (.reader c)
  writing : ∀ task c, s.sending task = some (.writing c) → (s.clients c).lock = some task
  replying : ∀ c, s.sending (.reader c) ≠ none →
    ∃ connId effects, (s.clients c).reader = .handling connId effects
  map : ∀ task send, s.sending task = some send → send.holdsMap → s.mapLock = some task

theorem afterLen_needs (bytes : Bytes) : (afterLen bytes).needs = none := by
  simp only [afterLen]
  split <;> rfl

theorem afterBody_needs (frame : Bytes) : (afterBody frame).needs = none := by
  rw [afterBody]
  split <;> rfl

theorem Client.readExact_cases {client after : Client}
    (read : client.readExact n next = some after)
    (idle : ∀ bytes, (next bytes).needs = none) :
    after.reader.needs = none ∧ after.lock = none := by
  rw [readExact] at read
  split at read
  · cases read
    exact ⟨idle _, rfl⟩
  · split at read
    · cases read
      exact ⟨rfl, rfl⟩
    · cases read

/-- Reading ends the wait and gives the lock back. -/
theorem Client.read_cases {client after : Client} (read : client.read = some after) :
    client.reader.needs ≠ none ∧ after.reader.needs = none ∧ after.lock = none := by
  rw [Client.read] at read
  split at read
  · rename_i waits
    exact ⟨by simp [waits, Reader.needs], readExact_cases read afterLen_needs⟩
  · rename_i waits
    exact ⟨by simp [waits, Reader.needs], readExact_cases read afterBody_needs⟩
  · cases read

theorem Client.lockStream_cases {client after : Client}
    (locked : client.lockStream c = some after) : after.lock = some (.reader c) := by
  rw [lockStream] at locked
  split at locked <;> cases locked <;> rfl

theorem start_locks : Locks State.start :=
  ⟨fun _ needs => absurd rfl needs, fun _ _ none => (nomatch none), fun _ none => absurd rfl none,
    fun _ _ none => (nomatch none)⟩

section
variable {s t : State} {action : Action} {task : Task} {send : Option Send} {client : Client}
  {c d : Nat}

theorem Locks.setClient (locks : Locks s)
    (reading : client.reader.needs ≠ none → client.lock = some (.reader c))
    (writing : ∀ task, s.sending task = some (.writing c) → client.lock = some task)
    (replying : s.sending (.reader c) ≠ none →
      ∃ connId effects, client.reader = .handling connId effects) :
    Locks (s.setClient c client) where
  reading d needs := by
    rw [State.setClient_clients] at needs ⊢
    split at needs
    · subst d
      exact (if_pos rfl).symm ▸ reading needs
    · rename_i other
      rw [if_neg other]
      exact locks.reading d needs
  writing task d writes := by
    rw [State.setClient_clients]
    split
    · subst d
      exact writing task writes
    · exact locks.writing task d writes
  replying d sends := by
    rw [State.setClient_clients]
    split
    · subst d
      exact replying sends
    · exact locks.replying d sends
  map := locks.map

theorem Locks.setSending (locks : Locks s)
    (writing : ∀ c, send = some (.writing c) → (s.clients c).lock = some task)
    (replying : ∀ c, task = .reader c → send ≠ none →
      ∃ connId effects, (s.clients c).reader = .handling connId effects)
    (map : ∀ now, send = some now → now.holdsMap → s.mapLock = some task) :
    Locks (s.setSending task send) where
  reading := locks.reading
  writing other d writes := by
    rw [State.setSending_sending] at writes
    split at writes
    · subst other
      exact writing d writes
    · exact locks.writing other d writes
  replying d sends := by
    rw [State.setSending_sending] at sends
    split at sends
    · rename_i same
      exact replying d same.symm sends
    · exact locks.replying d sends
  map other now sends holds := by
    rw [State.setSending_sending] at sends
    split at sends
    · subst other
      exact map now sends holds
    · exact locks.map other now sends holds

/-- Only the holder of the map has any business with it. -/
theorem Locks.setMapLock (locks : Locks s) (lock : Option Task)
    (idle : ∀ task send, s.sending task = some send → send.holdsMap = false) :
    Locks { s with mapLock := lock } where
  reading := locks.reading
  writing := locks.writing
  replying := locks.replying
  map task send sends holds := by
    rw [idle task send sends] at holds
    cases holds

/-- A reader sends nothing unless it handles a packet. -/
theorem Locks.silent (locks : Locks s)
    (idle : ∀ connId effects, (s.clients c).reader ≠ .handling connId effects) :
    s.sending (.reader c) = none := by
  by_contra sends
  obtain ⟨connId, effects, handling⟩ := locks.replying c sends
  exact idle connId effects handling

theorem Locks.silent_of_needs (locks : Locks s) (needs : (s.clients c).reader.needs ≠ none) :
    s.sending (.reader c) = none := by
  apply locks.silent
  intro connId effects handling
  rw [handling] at needs
  exact needs rfl

/-- A stream that a task writes to is not the one its reader waits for. -/
theorem Locks.needs_none (locks : Locks s) (writes : s.sending task = some (.writing c)) :
    (s.clients c).reader.needs = none := by
  by_contra needs
  have same : task = .reader c :=
    Option.some.inj ((locks.writing task c writes).symm.trans (locks.reading c needs))
  subst same
  rw [locks.silent_of_needs needs] at writes
  cases writes

theorem lockStream_locks (locks : Locks s) (locked : (s.clients c).lockStream c = some client) :
    Locks (s.setClient c client) := by
  have idle : (s.clients c).lock = none ∧
      ∀ connId effects, (s.clients c).reader ≠ .handling connId effects := by
    rw [Client.lockStream] at locked
    split at locked
    · simp_all
    · simp_all
    · cases locked
  have silent := locks.silent idle.2
  have held := Client.lockStream_cases locked
  apply locks.setClient
  · exact fun _ => held
  · intro task writes
    have taken := locks.writing task c writes
    rw [idle.1] at taken
    cases taken
  · exact fun sends => absurd silent sends

theorem read_locks (locks : Locks s) (read : (s.clients c).read = some client) :
    Locks (s.setClient c client) := by
  obtain ⟨needs, idle, _⟩ := Client.read_cases read
  apply locks.setClient
  · exact fun needs => absurd idle needs
  · exact fun task writes => absurd (locks.needs_none writes) needs
  · exact fun sends => absurd (locks.silent_of_needs needs) sends

/-- A reader that does not wait for bytes goes on to a state where it does not. -/
theorem Locks.setReader (locks : Locks s) (reader : Reader) (idle : reader.needs = none)
    (replying : s.sending (.reader c) ≠ none →
      ∃ connId effects, reader = .handling connId effects) :
    Locks (s.setClient c { s.clients c with reader := reader }) :=
  locks.setClient (fun needs => absurd idle needs) (fun task => locks.writing task c) replying

theorem handle_locks {k : Nat} (locks : Locks s) (stepped : s.step (.handle c k) = some t) :
    Locks t := by
  simp only [State.step] at stepped
  split at stepped
  · rename_i connId rest _ _
    cases stepped
    apply (locks.setReader (.handling connId rest) rfl fun _ => ⟨connId, rest, rfl⟩).setSending
    · exact fun _ writes => (nomatch writes)
    · rintro _ ⟨⟩ -
      exact ⟨connId, rest, by simp⟩
    · rintro _ ⟨⟩ ⟨⟩
  · rename_i connId rest _ _
    rw [Option.ite_none_right_eq_some] at stepped
    obtain ⟨_, stepped⟩ := stepped
    cases stepped
    obtain ⟨reading, writing, replying, map⟩ :=
      locks.setReader (.handling connId rest) rfl fun _ => ⟨connId, rest, rfl⟩
    exact ⟨reading, writing, replying, map⟩
  · rename_i silent
    cases stepped
    exact locks.setReader .askLen rfl fun sends => absurd silent sends
  · cases stepped

/-- The map is free, so no other task is past it. -/
theorem lockMap_locks (locks : Locks s) (stepped : s.step (.lockMap task) = some t) :
    Locks t := by
  simp only [State.step] at stepped
  split at stepped
  · rename_i connId wants free
    split at stepped
    · rename_i c _
      cases stepped
      have idle : ∀ task send, s.sending task = some send → send.holdsMap = false := by
        intro other send sends
        by_contra holds
        have held := locks.map other send sends (by simpa using holds)
        rw [free] at held
        cases held
      apply (locks.setMapLock (some task) idle).setSending
      · exact fun _ writes => (nomatch writes)
      · rintro c rfl -
        exact locks.replying c (by simp [wants])
      · exact fun _ _ _ => rfl
    · cases stepped
      apply locks.setSending
      · exact fun _ writes => (nomatch writes)
      · exact fun _ _ sends => absurd rfl sends
      · exact fun _ sends => (nomatch sends)
  · cases stepped

theorem lockReply_locks (locks : Locks s) (stepped : s.step (.lockReply task) = some t) :
    Locks t := by
  simp only [State.step] at stepped
  split at stepped
  · rename_i c wants
    rw [Option.ite_none_right_eq_some] at stepped
    obtain ⟨free, stepped⟩ := stepped
    cases stepped
    have locked : Locks (s.setClient c { s.clients c with lock := some task }) := by
      apply locks.setClient
      · intro needs
        have held := locks.reading c needs
        rw [free] at held
        cases held
      · intro other writes
        have held := locks.writing other c writes
        rw [free] at held
        cases held
      · exact locks.replying c
    apply locked.setSending
    · rintro _ ⟨⟩
      simp
    · rintro d rfl -
      exact locked.replying d (by simp [wants])
    · exact fun _ _ _ => locks.map task _ wants rfl
  · cases stepped

theorem write_locks (locks : Locks s) (stepped : s.step (.write task) = some t) : Locks t := by
  simp only [State.step] at stepped
  split at stepped
  · rename_i c writes
    cases stepped
    have sole : ∀ other send, s.sending other = some send → send.holdsMap → other = task :=
      fun other send sends holds =>
        Option.some.inj
          ((locks.map other send sends holds).symm.trans (locks.map task _ writes rfl))
    -- the task leaves first: after that nobody is past the map
    have left : Locks (s.setSending task none) := by
      apply locks.setSending
      · exact fun _ writes => (nomatch writes)
      · exact fun _ _ sends => absurd rfl sends
      · exact fun _ sends => (nomatch sends)
    have idle : ∀ other send, (s.setSending task none).sending other = some send →
        send.holdsMap = false := by
      intro other send sends
      rw [State.setSending_sending] at sends
      split at sends
      · cases sends
      · rename_i apart
        by_contra holds
        exact apart (sole other send sends (by simpa using holds))
    have needs := locks.needs_none writes
    apply (left.setMapLock none idle).setClient
    · exact fun waits => absurd needs waits
    · intro other writes
      cases idle other _ writes
    · exact left.replying c
  · cases stepped

theorem step_locks (locks : Locks s) (stepped : s.step action = some t) : Locks t := by
  cases action with
  | connect c =>
    simp only [State.step, Option.ite_none_right_eq_some, Option.some.injEq] at stepped
    obtain ⟨absent, rfl⟩ := stepped
    have silent := locks.silent (c := c) (by simp [absent])
    exact locks.setReader .askLen rfl fun sends => absurd silent sends
  | receive c bytes =>
    simp only [State.step] at stepped
    split at stepped
    · cases stepped
    · cases stepped
      exact locks.setClient (locks.reading c) (fun task => locks.writing task c) (locks.replying c)
  | close c =>
    cases stepped
    exact locks.setClient (locks.reading c) (fun task => locks.writing task c) (locks.replying c)
  | lockStream c =>
    simp only [State.step, Option.map_eq_some_iff] at stepped
    obtain ⟨client, locked, rfl⟩ := stepped
    exact lockStream_locks locks locked
  | read c =>
    simp only [State.step, Option.map_eq_some_iff] at stepped
    obtain ⟨client, read, rfl⟩ := stepped
    exact read_locks locks read
  | register c effects =>
    simp only [State.step] at stepped
    split at stepped
    · rename_i connId _ _
      simp only [Option.ite_none_right_eq_some, Option.some.injEq] at stepped
      obtain ⟨_, rfl⟩ := stepped
      obtain ⟨reading, writing, replying, map⟩ :=
        locks.setReader (.handling connId effects) rfl fun _ => ⟨connId, effects, rfl⟩
      exact ⟨reading, writing, replying, map⟩
    · cases stepped
  | handle c k => exact handle_locks locks stepped
  | execReply k =>
    simp only [State.step] at stepped
    split at stepped
    · cases stepped
      apply locks.setSending
      · exact fun _ writes => (nomatch writes)
      · exact fun _ reader => (nomatch reader)
      · rintro _ ⟨⟩ ⟨⟩
    · cases stepped
  | execEnd k =>
    simp only [State.step] at stepped
    split at stepped
    · cases stepped
      exact ⟨locks.reading, locks.writing, locks.replying, locks.map⟩
    · cases stepped
  | lockMap task => exact lockMap_locks locks stepped
  | lockReply task => exact lockReply_locks locks stepped
  | write task => exact write_locks locks stepped
  | cleanup c =>
    simp only [State.step, Option.ite_none_right_eq_some, Option.some.injEq] at stepped
    obtain ⟨⟨done, _⟩, rfl⟩ := stepped
    have silent := locks.silent (c := c) (by simp [done])
    obtain ⟨reading, writing, replying, map⟩ :=
      locks.setReader .gone rfl fun sends => absurd silent sends
    exact ⟨reading, writing, replying, map⟩

theorem setSending_wants {other : Task} (elsewhere : send ≠ some (.wantStream c))
    (wants : (s.setSending other send).sending task = some (.wantStream c)) :
    s.sending task = some (.wantStream c) := by
  rw [State.setSending_sending] at wants
  split at wants
  · exact absurd wants elsewhere
  · exact wants

/-- Only the lookup in the map turns a task to a stream. -/
theorem step_wants (sender : ∀ task, action ≠ .lockMap task) (stepped : s.step action = some t)
    (wants : t.sending task = some (.wantStream c)) : s.sending task = some (.wantStream c) := by
  cases action with
  | lockMap other => exact absurd rfl (sender other)
  | lockStream | read =>
    simp only [State.step, Option.map_eq_some_iff] at stepped
    obtain ⟨client, _, rfl⟩ := stepped
    exact wants
  | close =>
    cases stepped
    exact wants
  | connect | receive | register | execEnd | cleanup =>
    simp only [State.step] at stepped
    repeat' split at stepped
    all_goals cases stepped
    all_goals exact wants
  | handle =>
    simp only [State.step] at stepped
    split at stepped
    · cases stepped
      exact setSending_wants (by simp) wants
    · rw [Option.ite_none_right_eq_some] at stepped
      cases stepped.2
      exact wants
    · cases stepped
      exact wants
    · cases stepped
  | execReply | write =>
    simp only [State.step] at stepped
    split at stepped
    · cases stepped
      exact setSending_wants (by simp) wants
    · cases stepped
  | lockReply =>
    simp only [State.step] at stepped
    split at stepped
    · rw [Option.ite_none_right_eq_some] at stepped
      cases stepped.2
      exact setSending_wants (by simp) wants
    · cases stepped

theorem Client.starved_needs {client : Client} (starved : client.starved) :
    client.reader.needs ≠ none := by
  intro none
  simp [Client.starved, none] at starved

theorem not_starved {client : Client} (idle : client.reader.needs = none) : ¬ client.starved :=
  fun starved => Client.starved_needs starved idle

theorem setClient_starved (before : client.starved → (s.clients d).starved)
    (starved : ((s.setClient d client).clients c).starved) : (s.clients c).starved := by
  rw [State.setClient_clients] at starved
  split at starved
  · subst d
    exact before starved
  · exact starved

/-- Only a reader that takes its lock starts to wait for bytes. -/
theorem step_starved (reader : ∀ c, action ≠ .lockStream c) (stepped : s.step action = some t)
    (starved : (t.clients c).starved) : (s.clients c).starved := by
  cases action with
  | lockStream d => exact absurd rfl (reader d)
  | receive d bytes =>
    simp only [State.step] at stepped
    split at stepped
    · cases stepped
    · cases stepped
      refine setClient_starved (fun waits => ?_) starved
      simp only [Client.starved, List.length_append] at waits ⊢
      split at waits
      · simp only [Bool.and_eq_true, decide_eq_true_eq] at waits ⊢
        exact ⟨Nat.lt_of_le_of_lt (Nat.le_add_right _ _) waits.1, waits.2⟩
      · cases waits
  | close d =>
    cases stepped
    refine setClient_starved (fun waits => ?_) starved
    simp only [Client.starved] at waits
    split at waits <;> simp at waits
  | read d =>
    simp only [State.step, Option.map_eq_some_iff] at stepped
    obtain ⟨client, read, rfl⟩ := stepped
    obtain ⟨_, idle, _⟩ := Client.read_cases read
    exact setClient_starved (fun waits => absurd waits (not_starved idle)) starved
  | connect | register | handle | cleanup =>
    simp only [State.step] at stepped
    repeat' split at stepped
    all_goals cases stepped
    all_goals exact setClient_starved (fun waits => absurd waits (not_starved rfl)) starved
  | lockReply | write =>
    simp only [State.step] at stepped
    repeat' split at stepped
    all_goals cases stepped
    all_goals refine setClient_starved (fun waits => ?_) starved
    all_goals exact waits
  | execReply | execEnd | lockMap =>
    simp only [State.step] at stepped
    repeat' split at stepped
    all_goals cases stepped
    all_goals exact starved

theorem waiting_iff (locks : Locks s) :
    waiting s c ↔ ∃ task, s.sending task = some (.wantStream c) := by
  constructor
  · intro waits
    rw [waiting] at waits
    split at waits
    · rename_i task _
      exact ⟨task, by simpa using waits⟩
    · cases waits
  · rintro ⟨task, wants⟩
    simp [waiting, locks.map task _ wants rfl, wants]

theorem lockStream_flowing (locks : Locks s) (flowing : Flowing s)
    (stepped : s.step (.lockStream c) = some t) : Flowing t ↔ Ready s (.lockStream c) := by
  simp only [State.step, Option.map_eq_some_iff] at stepped
  obtain ⟨client, locked, rfl⟩ := stepped
  have held := Client.lockStream_cases locked
  constructor
  · intro after client' locked' ⟨waits, starved⟩
    cases Option.some.inj (locked.symm.trans locked')
    obtain ⟨task, wants⟩ := (waiting_iff locks).mp waits
    exact after task c ⟨wants, by simpa using held, by simpa using starved⟩
  · intro ready task d stalled
    by_cases same : d = c
    · subst same
      have waits := (waiting_iff locks).mpr ⟨task, stalled.wants⟩
      exact ready client locked ⟨waits, by simpa using stalled.starved⟩
    · exact flowing task d ⟨stalled.wants, by simpa [same] using stalled.held,
        by simpa [same] using stalled.starved⟩

theorem lockMap_flowing (flowing : Flowing s) (stepped : s.step (.lockMap task) = some t) :
    Flowing t ↔ Ready s (.lockMap task) := by
  simp only [State.step] at stepped
  split at stepped
  · rename_i connId wants _
    have target : s.target task = s.tcpConns connId := by simp [State.target, wants]
    split at stepped
    · rename_i c found
      rw [found] at target
      cases stepped
      constructor
      · intro after c' found' ⟨held, starved⟩
        cases Option.some.inj (target.symm.trans found')
        exact after task c ⟨by simp, held, starved⟩
      · intro ready other d stalled
        by_cases same : other = task
        · subst same
          have turned := stalled.wants
          simp only [State.setSending_sending, if_pos, Option.some.injEq, Send.wantStream.injEq]
            at turned
          subst turned
          exact ready c target ⟨stalled.held, stalled.starved⟩
        · exact flowing other d ⟨by simpa [same] using stalled.wants, stalled.held, stalled.starved⟩
    · rename_i missing
      rw [missing] at target
      cases stepped
      refine iff_of_true ?_ (fun c found => (nomatch target.symm.trans found))
      intro other d stalled
      have turned := stalled.wants
      rw [State.setSending_sending] at turned
      split at turned
      · cases turned
      · exact flowing other d ⟨turned, stalled.held, stalled.starved⟩
  · cases stepped

/-- A step keeps the replies flowing exactly under the condition. -/
theorem step_flowing (locks : Locks s) (flowing : Flowing s) (stepped : s.step action = some t) :
    Flowing t ↔ Ready s action := by
  by_cases reader : ∃ c, action = .lockStream c
  · obtain ⟨c, rfl⟩ := reader
    exact lockStream_flowing locks flowing stepped
  by_cases sender : ∃ task, action = .lockMap task
  · obtain ⟨task, rfl⟩ := sender
    exact lockMap_flowing flowing stepped
  have ready : Ready s action := by
    cases action with
    | lockStream c => exact absurd ⟨c, rfl⟩ reader
    | lockMap task => exact absurd ⟨task, rfl⟩ sender
    | _ => trivial
  refine iff_of_true ?_ ready
  intro task c stalled
  have starved := step_starved (fun c same => reader ⟨c, same⟩) stepped stalled.starved
  exact flowing task c ⟨step_wants (fun task same => sender ⟨task, same⟩) stepped stalled.wants,
    locks.reading c (Client.starved_needs starved), starved⟩

end

theorem start_flowing : Flowing State.start := fun _ _ stalled => (nomatch stalled.wants)

/-- In a run of any clients and execs no reply ever waits for a starved reader
exactly when every step is one that the condition allows. -/
theorem replies_flow_iff (actions : List Action) (s : State)
    (run : Runs.exec State.step State.start actions = some s) :
    Runs.Always State.step Flowing State.start actions ↔
      Runs.Meets State.step Ready State.start actions :=
  Runs.always_iff step_locks step_flowing run start_locks start_flowing

/-- A client that sends one packet without payload. -/
def packet (c : Nat) (pktType : PacketType) (connId : UInt64) (effects : List Effect) :
    List Action :=
  [.connect c, .receive c (bigEndian 4 headerSize ++ Connection.buildBare pktType connId),
    .lockStream c, .read c, .lockStream c, .read c, .register c effects]

/-- A reply to its own client, before the reader waits again. -/
def answered : List Action :=
  packet 0 .syn 7 [.reply] ++ [.handle 0 0, .lockMap (.reader 0), .lockReply (.reader 0),
    .write (.reader 0), .handle 0 0, .lockStream 0]

theorem replies_flow_iff_answered : Runs.Always State.step Flowing State.start answered := by
  have run : ∃ s, Runs.exec State.step State.start answered = some s := ⟨_, rfl⟩
  obtain ⟨s, run⟩ := run
  exact (replies_flow_iff answered s run).mpr (by decide)

/-- The second client's connection is registered with the stream of the first,
whose reader waits for the next packet. -/
def silent : List Action :=
  packet 0 .heartbeat 7 [] ++ [.handle 0 0, .lockStream 0] ++ packet 1 .syn 7 [.reply] ++
    [.handle 1 0, .lockMap (.reader 1)]

theorem reply_stalled : ∃ s, Runs.exec State.step State.start silent = some s ∧
    Stalled s (.reader 1) 0 ∧ s.mapLock = some (.reader 1) := by
  refine ⟨_, rfl, ⟨?_, ?_, ?_⟩, ?_⟩ <;> decide

end LanLink.TcpLocks
