import LanLink.Core.Noninterference
import LanLink.Daemon.ExecIsolation
import LanLink.Daemon.FileIsolation

/-! Isolation of connections: what happens to the execs and transfers of one
connection in a run is what happens to them when the events of all others are
left out. The global maps are keyed by the clients' identifiers alone and the
limiter by addresses, so this holds only while no message meets an entry of
another connection and none is refused, or let through, because of the others. -/
namespace LanLink.Host
open Words LanLink.Control LanLink.Files
open LanLink.Daemon (Transport IpAddr RateLimiter)

section
variable {File : Type}

/-- The execs of a connection with all that happened to them, the answers it
got, and the files it pushed. -/
def State.outcome (s : State File) (conn : ConnId) :
    List Running × List ControlMsg × (File → Option (Option Bytes)) :=
  (s.execs conn, s.replies conn,
    fun file => if s.pushed file = some conn then some (s.table.files file) else none)

/-- The identifier of the exec whose channel the event uses or replaces. -/
def Event.execId : Event File → Option UInt32
  | .message _ _ _ (.exec id _) answer => if answer.spawned then some id else none
  | .message _ _ _ (.nativeSpawn id cmd) answer =>
    if answer.spawned ∧ (spawnText cmd).isSome then some id else none
  | .message _ _ _ (.execStdin id _ _) _ | .message _ _ _ (.execSignal id _) _ => some id
  | _ => none

/-- The identifier of the transfer the event uses or replaces. -/
def Event.transferId : Event File → Option UInt32
  | .message _ _ _ (.filePush id _ _) answer => if answer.file.opened then some id else none
  | .message _ _ _ (.fileChunk id _ _) _ => some id
  | _ => none

/-- The file the event truncates or a command changes. -/
def Event.file (resolve : String → File) : Event File → Option File
  | .message _ _ _ (.filePush _ path _) answer =>
    if answer.file.opened then some (resolve path) else none
  | .fileEffect _ file _ => some file
  | _ => none

/-- The event meets nothing that another connection has started. -/
structure Clear (resolve : String → File) (s : State File) (event : Event File) : Prop where
  exec : ∀ id ∈ event.execId, FreeExec s event.conn id
  transfer : ∀ id ∈ event.transferId, FreeTransfer s event.conn id
  file : ∀ file ∈ event.file resolve, FreeFile s event.conn file

instance (resolve : String → File) (s : State File) (event : Event File) :
    Decidable (Clear resolve s event) :=
  have : Decidable (∀ id ∈ event.execId, FreeExec s event.conn id) :=
    Option.decidableForallMem event.execId
  have : Decidable (∀ id ∈ event.transferId, FreeTransfer s event.conn id) :=
    Option.decidableForallMem event.transferId
  decidable_of_iff ((∀ id ∈ event.execId, FreeExec s event.conn id) ∧
      (∀ id ∈ event.transferId, FreeTransfer s event.conn id) ∧
      ∀ file ∈ event.file resolve, FreeFile s event.conn file)
    ⟨fun ⟨exec, transfer, file⟩ => ⟨exec, transfer, file⟩,
      fun clear => ⟨clear.exec, clear.transfer, clear.file⟩⟩

/-- Whether the limiter lets the event through. -/
def State.admits (s : State File) : Event File → Bool
  | .message conn peer now _ _ => ((s.rateLimiter conn.transport).checkCmd peer now).2
  | _ => true

/-- Whether it would if only the messages of the event's connection had come. -/
def State.admitsAlone (s : State File) : Event File → Bool
  | .message conn peer now _ _ => ((s.ownLimiter conn).checkCmd peer now).2
  | _ => true

/-- The limiter decides on the event as it would without the other connections, and
an event that it lets through meets nothing of theirs. -/
structure Apart (resolve : String → File) (s : State File) (event : Event File) : Prop where
  limit : s.admits event = s.admitsAlone event
  clear : s.admits event → Clear resolve s event

instance (resolve : String → File) (s : State File) (event : Event File) :
    Decidable (Apart resolve s event) :=
  decidable_of_iff (s.admits event = s.admitsAlone event ∧ (s.admits event → Clear resolve s event))
    ⟨fun ⟨limit, clear⟩ => ⟨limit, clear⟩, fun apart => ⟨apart.limit, apart.clear⟩⟩

structure Agree (d : ConnId) (s s' : State File) : Prop where
  execs : ExecAgree d s s'
  files : FileAgree d s s'
  replies : s.replies d = s'.replies d

variable {s s' t : State File} {conn d : ConnId} {id : UInt32} {action : Exec.Action}

theorem Agree.outcome (agree : Agree d s s') : s.outcome d = s'.outcome d := by
  rw [State.outcome]
  rw [agree.execs.execs, agree.replies]
  congr 2
  funext file
  by_cases own : s.pushed file = some d
  · rw [if_pos own, if_pos ((agree.files.pushed file).mp own), agree.files.files file own]
  · rw [if_neg own, if_neg (fun own' => own ((agree.files.pushed file).mpr own'))]

theorem start_agree (d : ConnId) (files : File → Option Bytes) :
    Agree d (State.start files) (State.start files) where
  execs := ⟨rfl, fun _ => rfl, fun _ _ none => (nomatch none), fun _ _ none => (nomatch none),
    fun _ _ _ none => (nomatch none)⟩
  files := ⟨fun _ => Iff.rfl, fun _ _ => rfl, fun _ => rfl, fun _ _ none => (nomatch none),
    fun _ _ none => (nomatch none)⟩
  replies := rfl

theorem Agree.reply_own (agree : Agree d s s') (msg : ControlMsg) :
    Agree d (s.reply d msg) (s'.reply d msg) where
  execs := agree.execs.congr rfl rfl rfl rfl
  files := agree.files.congr rfl rfl rfl rfl
  replies := by simp [State.reply, agree.replies]

theorem Agree.reply_other (agree : Agree d s s') (apart : conn ≠ d) (msg : ControlMsg) :
    Agree d (s.reply conn msg) s' where
  execs := agree.execs.congr rfl rfl rfl rfl
  files := agree.files.congr rfl rfl rfl rfl
  replies := by
    simp only [State.reply, Function.update_of_ne (Ne.symm apart)]
    exact agree.replies

theorem Agree.ran_own (agree : Agree d s s') (id : UInt32) (answer : Answer) :
    Agree d (s.ranCommand d id answer) (s'.ranCommand d id answer) :=
  (agree.reply_own _).reply_own _

theorem Agree.ran_other (agree : Agree d s s') (apart : conn ≠ d) (id : UInt32) (answer : Answer) :
    Agree d (s.ranCommand conn id answer) s' :=
  (agree.reply_other apart _).reply_other apart _

/-- Only the execs change when a message is passed on to one. -/
theorem Agree.signalled (agree : Agree d s s') {t t' : State File} (execs : ExecAgree d t t')
    (table : t.table = s.table) (pushed : t.pushed = s.pushed) (replies : t.replies = s.replies)
    (table' : t'.table = s'.table) (pushed' : t'.pushed = s'.pushed)
    (replies' : t'.replies = s'.replies) : Agree d t t' where
  execs := execs
  files := agree.files.congr table pushed table' pushed'
  replies := by rw [replies, replies', agree.replies]

theorem State.signal_rest (s : State File) (id : UInt32) (action : Exec.Action) :
    (s.signal id action).table = s.table ∧ (s.signal id action).pushed = s.pushed ∧
      (s.signal id action).replies = s.replies := by
  rw [signal]
  split <;> exact ⟨rfl, rfl, rfl⟩

theorem Agree.signal_own (agree : Agree d s s') (outside : ¬ internal action) (id : UInt32) :
    Agree d (s.signal id action) (s'.signal id action) := by
  obtain ⟨table, pushed, replies⟩ := s.signal_rest id action
  obtain ⟨table', pushed', replies'⟩ := s'.signal_rest id action
  exact agree.signalled (agree.execs.signal_own outside id) table pushed replies table' pushed'
    replies'

theorem Agree.signal_other (agree : Agree d s s') (outside : ¬ internal action)
    (free : FreeExec s conn id) (apart : conn ≠ d) : Agree d (s.signal id action) s' := by
  obtain ⟨table, pushed, replies⟩ := s.signal_rest id action
  have execs := agree.execs.signal_other outside free apart
  exact agree.signalled execs table pushed replies rfl rfl rfl

theorem Agree.spawn_own (agree : Agree d s s') (id : UInt32) (cmd : String) (spawned : Bool) :
    Agree d (s.spawn d id cmd spawned) (s'.spawn d id cmd spawned) := by
  unfold State.spawn
  split
  · have outside : ¬ internal .dropSender := by decide
    have dropped := agree.signal_own outside id
    have running : ¬ Running.ended ⟨id, cmd, .start, []⟩ := by
      simp [Running.ended, Exec.State.start]
    have inserted := dropped.signalled (dropped.execs.insert_own id running) rfl rfl rfl rfl rfl rfl
    exact inserted.reply_own _
  · exact agree.reply_own _

theorem Agree.spawn_other (agree : Agree d s s') (apart : conn ≠ d) {spawned : Bool}
    (free : spawned → FreeExec s conn id) (cmd : String) :
    Agree d (s.spawn conn id cmd spawned) s' := by
  rw [State.spawn]
  split
  · rename_i spawned
    have outside : ¬ internal .dropSender := by decide
    have dropped := agree.signal_other outside (free spawned) apart
    have inserted := dropped.signalled (dropped.execs.insert_other
      ((free spawned).signal outside) apart ⟨id, cmd, .start, []⟩) rfl rfl rfl rfl rfl rfl
    exact inserted.reply_other apart _
  · exact agree.reply_other apart _

/-- Answering a file message after the table changed. -/
theorem Agree.answered_own (execs : ExecAgree d s s') (replies : s.replies d = s'.replies d)
    {handled handled' : FileTable File × Option ControlMsg}
    (files : FileAgree d { s with table := handled.1 } { s' with table := handled'.1 })
    (same : handled.2 = handled'.2) :
    Agree d (s.answerFile d handled) (s'.answerFile d handled') := by
  have stored : Agree d { s with table := handled.1 } { s' with table := handled'.1 } :=
    ⟨execs.congr rfl rfl rfl rfl, files, replies⟩
  unfold State.answerFile
  rw [← same]
  cases handled.2 with
  | none => exact stored
  | some msg => exact stored.reply_own msg

theorem Agree.answered_other (execs : ExecAgree d s s') (replies : s.replies d = s'.replies d)
    {handled : FileTable File × Option ControlMsg}
    (files : FileAgree d { s with table := handled.1 } s') (apart : conn ≠ d) :
    Agree d (s.answerFile conn handled) s' := by
  have stored : Agree d { s with table := handled.1 } s' :=
    ⟨execs.congr rfl rfl rfl rfl, files, replies⟩
  rw [State.answerFile]
  cases handled.2 with
  | none => exact stored
  | some msg => exact stored.reply_other apart msg

theorem Agree.counted (agree : Agree d s s') (conn : ConnId) (peer : IpAddr) (now : Nat) :
    Agree d (s.count conn peer now) s' :=
  ⟨agree.execs.congr rfl rfl rfl rfl, agree.files.congr rfl rfl rfl rfl, agree.replies⟩

theorem Agree.counted_alone (agree : Agree d s s') (peer : IpAddr) (now : Nat) :
    Agree d s (s'.count d peer now) :=
  ⟨agree.execs.congr rfl rfl rfl rfl, agree.files.congr rfl rfl rfl rfl, agree.replies⟩

section
variable [DecidableEq File]

theorem Agree.filePush_own (agree : Agree d s s') (resolve : String → File) (answer : Answer)
    (id : UInt32) (path : String) (size : UInt64)
    (free : answer.file.opened → FreeFile s d (resolve path)) :
    Agree d (s.handleControl resolve d answer (.filePush id path size))
      (s'.handleControl resolve d answer (.filePush id path size)) := by
  simp only [State.handleControl]
  cases opened : answer.file.opened with
  | true =>
    apply Agree.answered_own
    · exact agree.execs.congr rfl rfl rfl rfl
    · exact agree.replies
    · exact agree.files.opens_own (s.filePush_opens resolve d id path size)
        (s'.filePush_opens resolve d id path size) (free opened)
    · rfl
  | false => exact Agree.answered_own agree.execs agree.replies agree.files rfl

theorem Agree.filePush_other (agree : Agree d s s') (resolve : String → File) (answer : Answer)
    (id : UInt32) (path : String) (size : UInt64) (apart : conn ≠ d)
    (free : answer.file.opened → FreeTransfer s conn id ∧ FreeFile s conn (resolve path)) :
    Agree d (s.handleControl resolve conn answer (.filePush id path size)) s' := by
  simp only [State.handleControl]
  cases opened : answer.file.opened with
  | true =>
    apply Agree.answered_other
    · exact agree.execs.congr rfl rfl rfl rfl
    · exact agree.replies
    · exact agree.files.opens_other (s.filePush_opens resolve conn id path size) apart
        (free opened).1 (free opened).2
    · exact apart
  | false => exact Agree.answered_other agree.execs agree.replies agree.files apart

theorem Agree.fileChunk_own (agree : Agree d s s') (id : UInt32) (offset : UInt64) (data : Bytes)
    (outcome : Outcome) (free : FreeTransfer s d id) :
    Agree d (s.answerFile d (s.table.fileChunk id offset data outcome))
      (s'.answerFile d (s'.table.fileChunk id offset data outcome)) := by
  cases found : s.table.transfers id with
  | some transfer =>
    have own := free transfer found
    -- the transfer is the connection's own, so the other run has it as well
    obtain ⟨found', _⟩ := State.transfer_of_owned
      ((agree.files.owned id).symm.trans (State.owned_eq found own))
    have contents := agree.files.files transfer.file own
    have file := fun moved (kept : (transfer.handleChunk id offset data outcome).1 = some moved) =>
      Transfer.handleChunk_file kept
    simp only [FileTable.fileChunk, found, found', contents]
    exact Agree.answered_own agree.execs agree.replies
      (agree.files.writes_own ⟨rfl, rfl, rfl⟩ ⟨rfl, rfl, rfl⟩ found found' own file) rfl
  | none =>
    have found' : s'.table.transfers id = none := by
      cases present : s'.table.transfers id with
      | none => rfl
      | some transfer =>
        have own := State.owned_eq present (agree.files.alone id transfer present)
        rw [← agree.files.owned id, State.owned, found] at own
        cases own
    simp only [FileTable.fileChunk, found, found']
    exact Agree.answered_own agree.execs agree.replies agree.files rfl

theorem Agree.fileChunk_other (agree : Agree d s s') (id : UInt32) (offset : UInt64) (data : Bytes)
    (outcome : Outcome) (apart : conn ≠ d) (free : FreeTransfer s conn id) :
    Agree d (s.answerFile conn (s.table.fileChunk id offset data outcome)) s' := by
  cases found : s.table.transfers id with
  | some transfer =>
    have file := fun moved (kept : (transfer.handleChunk id offset data outcome).1 = some moved) =>
      Transfer.handleChunk_file kept
    simp only [FileTable.fileChunk, found]
    exact Agree.answered_other agree.execs agree.replies
      (agree.files.writes_other ⟨rfl, rfl, rfl⟩ apart found (free transfer found) file) apart
  | none =>
    simp only [FileTable.fileChunk, found]
    exact Agree.answered_other agree.execs agree.replies agree.files apart

theorem Agree.message_own (agree : Agree d s s') (resolve : String → File)
    (allowed : Clear resolve s (.message d peer now msg answer)) :
    Agree d (s.handleControl resolve d answer msg) (s'.handleControl resolve d answer msg) := by
  cases msg with
  | exec id cmd => exact agree.spawn_own id cmd answer.spawned
  | nativeSpawn id cmd =>
    simp only [State.handleControl]
    cases spawnText cmd with
    | none =>
      cases d.transport with
      | udp => exact agree.reply_own _
      | tcp => exact agree.ran_own id answer
    | some text => exact agree.spawn_own id text answer.spawned
  | execStdin id data close => exact agree.signal_own (by simp [internal]) id
  | execSignal id signo => exact agree.signal_own (by simp [internal]) id
  | hello version capabilities =>
    simp only [State.handleControl]
    split
    · exact agree.reply_own _
    · exact agree
  | nativeCmd id cmd => exact agree.ran_own id answer
  | filePush id path size =>
    exact agree.filePush_own resolve answer id path size
      (fun opened => allowed.file _ (by simp [Event.file, opened]))
  | fileChunk id offset data =>
    exact agree.fileChunk_own id offset data answer.file (allowed.transfer id rfl)
  | _ => exact agree

theorem Agree.message_other (agree : Agree d s s') (resolve : String → File) (apart : conn ≠ d)
    (allowed : Clear resolve s (.message conn peer now msg answer)) :
    Agree d (s.handleControl resolve conn answer msg) s' := by
  cases msg with
  | exec id cmd =>
    exact agree.spawn_other apart
      (fun spawned => allowed.exec id (by simp [Event.execId, spawned])) cmd
  | nativeSpawn id cmd =>
    simp only [State.handleControl]
    cases text : spawnText cmd with
    | none =>
      cases conn.transport with
      | udp => exact agree.reply_other apart _
      | tcp => exact agree.ran_other apart id answer
    | some line =>
      exact agree.spawn_other apart
        (fun spawned => allowed.exec id (by simp [Event.execId, spawned, text])) line
  | execStdin id data close =>
    exact agree.signal_other (by simp [internal]) (allowed.exec id rfl) apart
  | execSignal id signo =>
    exact agree.signal_other (by simp [internal]) (allowed.exec id rfl) apart
  | hello version capabilities =>
    simp only [State.handleControl]
    split
    · exact agree.reply_other apart _
    · exact agree
  | nativeCmd id cmd => exact agree.ran_other apart id answer
  | filePush id path size =>
    refine agree.filePush_other resolve answer id path size apart (fun opened => ⟨?_, ?_⟩)
    · exact allowed.transfer id (by simp [Event.transferId, opened])
    · exact allowed.file _ (by simp [Event.file, opened])
  | fileChunk id offset data =>
    exact agree.fileChunk_other id offset data answer.file apart (allowed.transfer id rfl)
  | _ => exact agree

/-- The control handler does not use the limiters. -/
theorem State.handleControl_limiters (resolve : String → File) (s : State File) (conn : ConnId)
    (answer : Answer) (msg : ControlMsg) :
    (s.handleControl resolve conn answer msg).rateLimiter = s.rateLimiter ∧
      (s.handleControl resolve conn answer msg).ownLimiter = s.ownLimiter := by
  have signalled (id : UInt32) (action : Exec.Action) :
      (s.signal id action).rateLimiter = s.rateLimiter ∧
        (s.signal id action).ownLimiter = s.ownLimiter := by
    rw [signal]
    split <;> exact ⟨rfl, rfl⟩
  have spawned (id : UInt32) (cmd : String) (spawned : Bool) :
      (s.spawn conn id cmd spawned).rateLimiter = s.rateLimiter ∧
        (s.spawn conn id cmd spawned).ownLimiter = s.ownLimiter := by
    rw [spawn]
    split
    · exact signalled id .dropSender
    · exact ⟨rfl, rfl⟩
  have answered (s : State File) (handled : FileTable File × Option ControlMsg) :
      (s.answerFile conn handled).rateLimiter = s.rateLimiter ∧
        (s.answerFile conn handled).ownLimiter = s.ownLimiter := by
    rw [answerFile]
    cases handled.2 <;> exact ⟨rfl, rfl⟩
  cases msg with
  | exec id cmd => exact spawned id cmd answer.spawned
  | nativeSpawn id cmd =>
    simp only [handleControl]
    split
    · exact spawned id _ answer.spawned
    · exact ⟨rfl, rfl⟩
    · exact ⟨rfl, rfl⟩
  | execStdin id data close => exact signalled id _
  | execSignal id signo => exact signalled id _
  | hello version capabilities =>
    simp only [handleControl]
    split <;> exact ⟨rfl, rfl⟩
  | filePush id path size => exact answered _ _
  | fileChunk id offset data => exact answered s _
  | _ => exact ⟨rfl, rfl⟩

/-- The run of one connection alone: its limiter has counted the messages of that connection. -/
structure Alone (d : ConnId) (s s' : State File) : Prop where
  agree : Agree d s s'
  limiter : s'.rateLimiter d.transport = s.ownLimiter d

theorem Alone.message_other (alone : Alone d s s') (resolve : String → File) (apart : conn ≠ d)
    (allowed : Apart resolve s (.message conn peer now msg answer))
    (stepped : s.step resolve (.message conn peer now msg answer) = some t) : Alone d t s' := by
  have counted := alone.agree.counted conn peer now
  have limiter : s'.rateLimiter d.transport = (s.count conn peer now).ownLimiter d := by
    simp only [State.count, Function.update_of_ne (Ne.symm apart)]
    exact alone.limiter
  have clear := allowed.clear
  rw [State.admits] at clear
  rw [State.step] at stepped
  cases stepped
  split
  · rename_i admitted
    obtain ⟨exec, transfer, file⟩ := clear admitted
    exact ⟨counted.message_other resolve apart ⟨exec, transfer, file⟩,
      limiter.trans (congrFun (State.handleControl_limiters ..).2 d).symm⟩
  · exact ⟨counted, limiter⟩

theorem Alone.message_own (alone : Alone d s s') (resolve : String → File)
    (allowed : Apart resolve s (.message d peer now msg answer))
    (stepped : s.step resolve (.message d peer now msg answer) = some t) :
    ∃ t', s'.step resolve (.message d peer now msg answer) = some t' ∧ Alone d t t' := by
  have counted := (alone.agree.counted d peer now).counted_alone peer now
  have limiter : (s'.count d peer now).rateLimiter d.transport = (s.count d peer now).ownLimiter d := by
    simp only [State.count, Function.update_self, alone.limiter]
  have clear := allowed.clear
  -- the limiter of the run alone decides as the shared one
  have decides := allowed.limit
  simp only [State.admits, State.admitsAlone] at clear decides
  simp only [State.step, alone.limiter, ← decides] at stepped ⊢
  cases stepped
  refine ⟨_, rfl, ?_⟩
  split
  · rename_i admitted
    obtain ⟨exec, transfer, file⟩ := clear admitted
    refine ⟨counted.message_own resolve ⟨exec, transfer, file⟩, ?_⟩
    rw [(State.handleControl_limiters ..).1, (State.handleControl_limiters ..).2]
    exact limiter
  · exact ⟨counted, limiter⟩

theorem step_other {resolve : String → File} {event : Event File} (alone : Alone d s s')
    (allowed : Apart resolve s event) (stepped : s.step resolve event = some t)
    (apart : event.conn ≠ d) : Alone d t s' := by
  obtain ⟨agree, limiter⟩ := alone
  cases event with
  | message conn peer now msg answer =>
    exact Alone.message_other ⟨agree, limiter⟩ resolve apart allowed stepped
  | execStep conn k action =>
    simp only [State.step] at stepped
    split at stepped
    · split at stepped
      · obtain ⟨state, _, rfl⟩ := Option.map_eq_some_iff.mp stepped
        exact ⟨agree.signalled (agree.execs.modify_other apart k _) rfl rfl rfl rfl rfl rfl, limiter⟩
      · cases stepped
    · cases stepped
  | fileEffect conn file content =>
    cases stepped
    have clear := allowed.clear rfl
    exact ⟨⟨agree.execs.congr rfl rfl rfl rfl,
      agree.files.effect_other apart (clear.file file rfl) content, agree.replies⟩, limiter⟩

theorem step_own {resolve : String → File} {event : Event File} (alone : Alone d s s')
    (allowed : Apart resolve s event) (stepped : s.step resolve event = some t)
    (own : event.conn = d) : ∃ t', s'.step resolve event = some t' ∧ Alone d t t' := by
  subst own
  cases event with
  | message conn peer now msg answer => exact alone.message_own resolve allowed stepped
  | execStep conn k action =>
    obtain ⟨agree, limiter⟩ := alone
    simp only [State.step, Event.conn] at stepped agree ⊢
    rw [← agree.execs.execs]
    split at stepped
    · rename_i r found
      split at stepped
      · rename_i inner
        obtain ⟨state, moved, rfl⟩ := Option.map_eq_some_iff.mp stepped
        simp only [inner, if_true, moved, Option.map_some]
        refine ⟨_, rfl, agree.signalled (agree.execs.modify_own k _ ?_) rfl rfl rfl rfl rfl rfl, limiter⟩
        intro finished
        have before : r.state.task = .ended := by
          simpa [State.ended, found, Running.ended] using finished
        simp [State.ended, State.modifyExec_execs, found, Running.ended,
          Exec.State.step_ended before moved]
      · cases stepped
    · cases stepped
  | fileEffect conn file content =>
    obtain ⟨agree, limiter⟩ := alone
    cases stepped
    exact ⟨_, rfl, ⟨agree.execs.congr rfl rfl rfl rfl, agree.files.effect_own file content,
      agree.replies⟩, limiter⟩

end

end

section
variable {owner : Transport → IpAddr → ConnId}

/-- A message comes from an address that its connection has for itself. -/
def Event.FromOwn (owner : Transport → IpAddr → ConnId) : Event File → Prop
  | .message conn peer _ _ _ => owner conn.transport peer = conn
  | _ => True

/-- The limiters have counted the same from such addresses. -/
def CountsOwn (owner : Transport → IpAddr → ConnId) (s : State File) : Prop :=
  ∀ conn ip, owner conn.transport ip = conn →
    (s.rateLimiter conn.transport).cmdCounts[ip]? = (s.ownLimiter conn).cmdCounts[ip]?

theorem checkCmd_congr {r r' : RateLimiter} {ip : IpAddr} (now : Nat)
    (same : r.cmdCounts[ip]? = r'.cmdCounts[ip]?) : (r.checkCmd ip now).2 = (r'.checkCmd ip now).2 ∧
      (r.checkCmd ip now).1.cmdCounts[ip]? = (r'.checkCmd ip now).1.cmdCounts[ip]? := by
  simp only [RateLimiter.checkCmd, Daemon.Counts.check, same]
  split <;> simp

theorem checkCmd_other (r : RateLimiter) {ip other : IpAddr} (now : Nat) (apart : ip ≠ other) :
    (r.checkCmd ip now).1.cmdCounts[other]? = r.cmdCounts[other]? := by
  simp only [RateLimiter.checkCmd, Daemon.Counts.check]
  split <;> simp [Std.ExtHashMap.getElem?_insert, apart]

theorem CountsOwn.limit {s : State File} {event : Event File} (counts : CountsOwn owner s)
    (own : event.FromOwn owner) : s.admits event = s.admitsAlone event := by
  cases event with
  | message conn peer now msg answer => exact (checkCmd_congr now (counts conn peer own)).1
  | execStep conn k action => rfl
  | fileEffect conn file content => rfl

theorem CountsOwn.count {s : State File} (counts : CountsOwn owner s)
    (own : owner conn.transport peer = conn) (now : Nat) :
    CountsOwn owner (s.count conn peer now) := by
  intro c ip mine
  by_cases same : ip = peer
  · subst same
    by_cases transport : c.transport = conn.transport
    · -- the address has one connection of the transport
      obtain rfl : c = conn := mine.symm.trans (transport ▸ own)
      simpa only [State.count, Function.update_self] using (checkCmd_congr now (counts c ip mine)).2
    · have apart : c ≠ conn := fun same => transport (congrArg ConnId.transport same)
      simpa only [State.count, Function.update_of_ne transport, Function.update_of_ne apart] using
        counts c ip mine
  · have shared : ((s.count conn peer now).rateLimiter c.transport).cmdCounts[ip]? =
        (s.rateLimiter c.transport).cmdCounts[ip]? := by
      by_cases transport : c.transport = conn.transport
      · simp only [State.count, transport, Function.update_self]
        exact checkCmd_other _ now (Ne.symm same)
      · simp only [State.count, Function.update_of_ne transport]
    have alone : ((s.count conn peer now).ownLimiter c).cmdCounts[ip]? =
        (s.ownLimiter c).cmdCounts[ip]? := by
      by_cases apart : c = conn
      · subst apart
        simp only [State.count, Function.update_self]
        exact checkCmd_other _ now (Ne.symm same)
      · simp only [State.count, Function.update_of_ne apart]
    rw [shared, alone]
    exact counts c ip mine

variable [DecidableEq File] {resolve : String → File}

theorem CountsOwn.step {s : State File} {event : Event File} (counts : CountsOwn owner s)
    (own : event.FromOwn owner) (stepped : s.step resolve event = some t) : CountsOwn owner t := by
  cases event with
  | message conn peer now msg answer =>
    have counted := counts.count own now
    rw [State.step] at stepped
    cases stepped
    split
    · rw [CountsOwn, (State.handleControl_limiters ..).1, (State.handleControl_limiters ..).2]
      exact counted
    · exact counted
  | execStep conn k action =>
    simp only [State.step] at stepped
    split at stepped
    · split at stepped
      · obtain ⟨state, _, rfl⟩ := Option.map_eq_some_iff.mp stepped
        exact counts
      · cases stepped
    · cases stepped
  | fileEffect conn file content =>
    cases stepped
    exact counts

/-- Where connections do not share addresses, the limiter keeps them apart. -/
theorem apart_of_owners (files : File → Option Bytes) (events : List (Event File))
    (meets : Runs.Meets (State.step resolve) (fun s e => e.FromOwn owner ∧ Clear resolve s e)
      (State.start files) events) :
    Runs.Meets (State.step resolve) (Apart resolve) (State.start files) events :=
  Runs.meets_guarded (P := CountsOwn owner) (fun counts here stepped => counts.step here.1 stepped)
    (fun counts here => ⟨counts.limit here.1, fun _ => here.2⟩) meets fun _ _ _ => rfl

end

/-- The operating system answers every call with success. -/
def succeeds : Answer := ⟨true, [], some 0, ⟨true, true, none⟩⟩

section
variable (conn : ConnId) (msg : ControlMsg)

/-- A message from one address. -/
def sends : Event String := .message conn (.v4 1) 0 msg succeeds

def State.took (s : State String) : State String :=
  (s.count conn (.v4 1) 0).handleControl id conn succeeds msg

theorem State.took_step {s : State String} (admitted : s.admits (sends conn msg)) :
    s.step id (sends conn msg) = some (s.took conn msg) :=
  congrArg some (if_pos admitted)

end

theorem checkCmd_counted {r : RateLimiter} {ip : IpAddr} {now : Nat} {n : UInt32}
    (counted : r.cmdCounts[ip]?.getD (now, 0) = (now, n)) :
    (r.checkCmd ip now).2 = decide (n + 1 ≤ Daemon.cmdRateLimit) ∧
      (r.checkCmd ip now).1.cmdCounts[ip]?.getD (now, 0) = (now, n + 1) := by
  simp [RateLimiter.checkCmd, Daemon.Counts.check, counted]

/-- What the limiter has counted of one address at one time. -/
theorem counted_iterate (ip : IpAddr) (now n : Nat) :
    ((fun r : RateLimiter => (r.checkCmd ip now).1)^[n] .new).cmdCounts[ip]?.getD (now, 0) =
      (now, UInt32.ofNat n) := by
  induction n with
  | zero => simp [RateLimiter.new]
  | succ n ih =>
    rw [Function.iterate_succ_apply', (checkCmd_counted ih).2, UInt32.ofNat_add]
    rfl

/-- It lets the first thirty messages through. -/
theorem admitted_iterate (ip : IpAddr) (now : Nat) {n : Nat} (few : n < 30) :
    (((fun r : RateLimiter => (r.checkCmd ip now).1)^[n] .new).checkCmd ip now).2 := by
  have next : UInt32.ofNat n + 1 ≤ Daemon.cmdRateLimit := by
    rw [Daemon.cmdRateLimit, UInt32.le_iff_toNat_le, UInt32.toNat_add, UInt32.toNat_ofNat']
    simp
    omega
  rw [(checkCmd_counted (counted_iterate ip now n)).1]
  exact decide_eq_true next

/-- The first connection has started an exec. -/
def making : State String := (State.start fun _ => none).took ⟨.udp, 1⟩ (.exec 5 "make")

theorem making_step : (State.start fun _ => none).step id (sends ⟨.udp, 1⟩ (.exec 5 "make")) =
    some making := State.took_step _ _ (admitted_iterate (.v4 1) 0 (n := 0) (by decide))

/-- Two connections of one address under different identifiers. -/
def separate : List (Event String) :=
  [sends ⟨.udp, 1⟩ (.exec 5 "make"), sends ⟨.udp, 2⟩ (.exec 6 "make"),
    sends ⟨.udp, 2⟩ (.execSignal 6 9)]

/-- The second connection signals an identifier it has not used itself. -/
def crossed : List (Event String) :=
  [sends ⟨.udp, 1⟩ (.exec 5 "make"), sends ⟨.udp, 2⟩ (.execSignal 5 9)]

end LanLink.Host
