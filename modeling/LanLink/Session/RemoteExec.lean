import LanLink.Exec.Output
import LanLink.Session.Pull

/-! A remote command from the pipes of its process to the screen of the client. The select loop
of the exec task sends chunks and the exit code; the client prints the chunks of its command
until the exit code comes or the time is over. Datagrams may be lost, doubled and overtaken; the
stream keeps their order. The announcement of the command, which the client ignores, is left
out. -/
namespace LanLink.RemoteExec
open Words Runs LanLink.Crypto Control Session Exec FilePull

inductive Client where
  | draining
  | finished (exitCode : Option Int32)
  | expired
  deriving DecidableEq

/-- What the client has printed, and where it is. -/
structure Screen where
  shown : List StreamChunk
  client : Client

/-- One round of the loop, with what came in it. -/
def Screen.receive (id : UInt32) (v : Screen) : Option ControlMsg → Screen
  | some (.execChunk other stream data) =>
    if other = id then { v with shown := v.shown ++ [⟨stream, data⟩] } else v
  | some (.execDone other exitCode) => if other = id then { v with client := .finished exitCode } else v
  | _ => v

/-- Stream 1 goes to the standard error, every other one to the standard output. -/
def target (stream : UInt8) : Output := if stream = 1 then .stderr else .stdout

def Screen.printed (v : Screen) (output : Output) : Bytes :=
  (v.shown.filter fun chunk => target chunk.stream = output).flatMap StreamChunk.data

@[simp] theorem receive_chunk (id : UInt32) (v : Screen) (chunk : StreamChunk) :
    v.receive id (some (chunkMsg id chunk)) = { v with shown := v.shown ++ [chunk] } := by
  simp [Screen.receive, chunkMsg]

@[simp] theorem receive_done (id : UInt32) (v : Screen) (code : Option Int32) :
    v.receive id (some (.execDone id code)) = { v with client := .finished code } := by
  simp [Screen.receive]

/-- A chunk as a reader thread makes it. -/
structure Piece (chunk : StreamChunk) : Prop where
  small : chunk.data.length ≤ readSize
  stream : ∃ output : Output, chunk.stream = output.stream

theorem Piece.target (piece : Piece chunk) (output : Output) :
    RemoteExec.target chunk.stream = output ↔ chunk.stream = output.stream := by
  obtain ⟨own, same⟩ := piece.stream
  rw [same]
  cases own <;> cases output <;> decide

theorem printed_bytesOf {v : Screen} (pieces : ∀ chunk ∈ v.shown, Piece chunk) (output : Output) :
    v.printed output = bytesOf output v.shown := by
  rw [Screen.printed, bytesOf]
  refine congrArg (List.flatMap StreamChunk.data) (List.filter_congr fun chunk member => ?_)
  exact decide_eq_decide.mpr ((pieces chunk member).target output)

section task
variable {id : UInt32} {s t : State}

/-- What the task has sent comes from the readers, and from the child that has exited. -/
structure Sending (id : UInt32) (s : State) : Prop where
  pieces : ∀ chunk ∈ s.chunkRx ++ s.bridge.held ++ s.chunks, Piece chunk
  readers : ∀ output, (s.feeds output).reader.held.length ≤ readSize
  codes : ∀ code, s.waiter = .reporting code ∨ s.doneTx = some code ∨ s.doneRx = some code →
    s.child = .exited code
  sent : ∃ chunks, (s.sent = chunks.map (chunkMsg id) ∨
      ∃ code, s.sent = chunks.map (chunkMsg id) ++ [.execDone id code] ∧ s.child = .exited code) ∧
    (∀ chunk ∈ chunks, Piece chunk) ∧ ∀ output, bytesOf output chunks <+: (s.feeds output).produced

theorem start_sending (id : UInt32) : Sending id .start where
  pieces := nofun
  readers _ := Nat.zero_le _
  codes := by simp [State.start]
  sent := ⟨[], .inl rfl, nofun, fun _ => List.nil_prefix⟩

theorem same_prefix {α : Type} {a b : List α} (same : b = a) : a <+: b := same ▸ List.prefix_rfl

theorem setFeed_grows (s : State) {output : Output} {feed : Feed}
    (grows : (s.feeds output).produced <+: feed.produced)
    (o : Output) : (s.feeds o).produced <+: ((s.setFeed output feed).feeds o).produced := by
  by_cases own : o = output
  · subst own
    rw [State.setFeed_own]
    exact grows
  · exact same_prefix (congrArg Feed.produced (s.setFeed_other feed own))

theorem step_grows (stepped : s.step id action = some t) (output : Output) :
    (s.feeds output).produced <+: (t.feeds output).produced := by
  cases action with
  | produce o data =>
    simp only [State.step, Option.ite_none_right_eq_some, Option.some.injEq] at stepped
    obtain ⟨-, rfl⟩ := stepped
    refine setFeed_grows s ?_ output
    exact List.prefix_append _ _
  | close o | read o n | readEnd o =>
    simp only [State.step, Option.ite_none_right_eq_some, Option.some.injEq] at stepped
    obtain ⟨-, rfl⟩ := stepped
    exact same_prefix (s.setFeed_produced (by rfl) output)
  | forward o =>
    simp only [State.step] at stepped
    split at stepped
    · split at stepped <;> cases stepped <;>
        exact same_prefix (s.setFeed_produced (by rfl) output)
    · cases stepped
  | _ =>
    simp only [State.step] at stepped
    grind

theorem step_exited (stepped : s.step id action = some t) (gone : s.child = .exited code) :
    t.child = .exited code := by
  cases action with
  | _ =>
    simp only [State.step] at stepped
    grind [State.setFeed]

theorem step_pieces (sending : Sending id s) (stepped : s.step id action = some t) :
    ∀ chunk ∈ t.chunkRx ++ t.bridge.held ++ t.chunks, Piece chunk := by
  have kept := sending.pieces
  cases action with
  | forward output =>
    simp only [State.step] at stepped
    split at stepped
    · rename_i data sends
      split at stepped
      · cases stepped
        exact kept
      · cases stepped
        have read := sending.readers output
        rw [sends] at read
        intro chunk member
        rcases List.mem_append.mp member with ready | queued
        · exact kept chunk (List.mem_append_left _ ready)
        · rcases List.mem_append.mp queued with old | new
          · exact kept chunk (List.mem_append_right _ old)
          · rw [List.mem_singleton.mp new]
            exact ⟨read, output, rfl⟩
    · cases stepped
  | bridgeReceive =>
    simp only [State.step] at stepped
    split at stepped
    · rename_i chunk rest receiving queued
      cases stepped
      simpa [receiving, queued, Bridge.held] using kept
    · cases stepped
  | bridgeSend =>
    simp only [State.step] at stepped
    split at stepped
    · rename_i chunk sends
      split at stepped
      · cases stepped
        intro other member
        refine kept other (List.mem_append_left _ (List.mem_append_left _ ?_))
        simpa [Bridge.held] using member
      · cases stepped
        simpa [sends, Bridge.held] using kept
    · cases stepped
  | bridgeEnd =>
    simp only [State.step, Option.ite_none_right_eq_some, Option.some.injEq] at stepped
    obtain ⟨⟨receiving, -⟩, rfl⟩ := stepped
    simpa [receiving, Bridge.held] using kept
  | selectChunk =>
    simp only [State.step] at stepped
    split at stepped
    · rename_i first rest selecting ready
      cases stepped
      intro chunk member
      refine kept chunk ?_
      rw [ready]
      exact List.mem_cons_of_mem first member
    · cases stepped
  | _ =>
    simp only [State.step] at stepped
    grind [State.setFeed]

theorem setFeed_readers (sending : Sending id s) {output : Output} {feed : Feed}
    (small : feed.reader.held.length ≤ readSize) (o : Output) :
    ((s.setFeed output feed).feeds o).reader.held.length ≤ readSize := by
  by_cases own : o = output
  · subst own
    rw [State.setFeed_own]
    exact small
  · rw [s.setFeed_other feed own]
    exact sending.readers o

theorem step_readers (sending : Sending id s) (stepped : s.step id action = some t) (o : Output) :
    (t.feeds o).reader.held.length ≤ readSize := by
  cases action with
  | produce output data | close output =>
    simp only [State.step, Option.ite_none_right_eq_some, Option.some.injEq] at stepped
    obtain ⟨-, rfl⟩ := stepped
    refine setFeed_readers sending ?_ o
    exact sending.readers output
  | read output n =>
    simp only [State.step, Option.ite_none_right_eq_some, Option.some.injEq] at stepped
    obtain ⟨⟨-, -, small, -⟩, rfl⟩ := stepped
    refine setFeed_readers sending ?_ o
    exact (List.length_take_le _ _).trans small
  | readEnd output =>
    simp only [State.step, Option.ite_none_right_eq_some, Option.some.injEq] at stepped
    obtain ⟨-, rfl⟩ := stepped
    refine setFeed_readers sending ?_ o
    exact Nat.zero_le _
  | forward output =>
    simp only [State.step] at stepped
    split at stepped
    · split at stepped <;> cases stepped <;> refine setFeed_readers sending ?_ o <;>
        exact Nat.zero_le _
    · cases stepped
  | _ =>
    simp only [State.step] at stepped
    grind [sending.readers o]

theorem step_codes (sending : Sending id s) (tracked : Tracked id s)
    (stepped : s.step id action = some t) (code : Option Int32)
    (known : t.waiter = .reporting code ∨ t.doneTx = some code ∨ t.doneRx = some code) :
    t.child = .exited code := by
  have before := sending.codes code
  cases action with
  | waitLock =>
    simp only [State.step] at stepped
    split at stepped
    · rename_i idle
      rw [if_pos (tracked.slotted idle.1)] at stepped
      cases stepped
      rcases known with reporting | known
      · cases reporting
      · exact before (.inr known)
    · cases stepped
  | _ =>
    simp only [State.step] at stepped
    grind [State.setFeed]

/-- What was sent stays, and what the child has written only grows. -/
theorem Sending.keep (sending : Sending id s) (stepped : s.step id action = some t)
    (same : t.sent = s.sent) : ∃ chunks, (t.sent = chunks.map (chunkMsg id) ∨
      ∃ code, t.sent = chunks.map (chunkMsg id) ++ [.execDone id code] ∧ t.child = .exited code) ∧
    (∀ chunk ∈ chunks, Piece chunk) ∧ ∀ output, bytesOf output chunks <+: (t.feeds output).produced := by
  obtain ⟨chunks, told, pieces, front⟩ := sending.sent
  refine ⟨chunks, ?_, pieces, fun output => (front output).trans (step_grows stepped output)⟩
  rw [same]
  exact told.imp_right fun ⟨code, sent, gone⟩ => ⟨code, sent, step_exited stepped gone⟩

/-- As long as the task runs it has sent chunks only, and what it has not sent is pending. -/
theorem Sending.running (sending : Sending id s) (tracked : Tracked id s) (active : s.task ≠ .ended) :
    ∃ chunks, s.sent = chunks.map (chunkMsg id) ∧ (∀ chunk ∈ chunks, Piece chunk) ∧
      ∀ output, bytesOf output chunks ++ s.pending output = (s.feeds output).produced := by
  obtain ⟨chunks, sent, flow⟩ := tracked.running active
  obtain ⟨others, told, pieces, -⟩ := sending.sent
  have same : others = chunks := by
    rcases told with only | ⟨code, done, -⟩
    · rw [sent] at only
      exact (List.map_injective_iff.mpr (chunkMsg_injective id) only).symm
    · have absent := done_not_chunk id code chunks
      rw [← sent, done] at absent
      exact absurd (List.mem_append_right _ List.mem_cons_self) absent
  exact ⟨chunks, sent, same ▸ pieces, flow⟩

theorem step_sending (sending : Sending id s) (tracked : Tracked id s)
    (stepped : s.step id action = some t) : Sending id t := by
  refine ⟨step_pieces sending stepped, step_readers sending stepped,
    step_codes sending tracked stepped, ?_⟩
  by_cases chunk : action = .selectChunk
  · subst chunk
    simp only [State.step] at stepped
    split at stepped
    · rename_i first rest selecting ready
      cases stepped
      obtain ⟨chunks, sent, pieces, flow⟩ := sending.running tracked (by simp [selecting])
      refine ⟨chunks ++ [first], .inl (by simp [sent, chunkMsg]), fun chunk member => ?_, fun output => ?_⟩
      · rcases List.mem_append.mp member with old | new
        · exact pieces chunk old
        · rw [List.mem_singleton.mp new]
          exact sending.pieces first (by simp [ready])
      · dsimp only
        rw [← flow output, State.pending, ready]
        simp
    · cases stepped
  · by_cases done : action = .selectDone
    · subst done
      simp only [State.step] at stepped
      split at stepped
      · rename_i code selecting known
        cases stepped
        obtain ⟨chunks, sent, pieces, flow⟩ := sending.running tracked (by simp [selecting])
        refine ⟨chunks, .inr ⟨code, by rw [sent], sending.codes code (.inr (.inr known))⟩, pieces, ?_⟩
        intro output
        exact ⟨s.pending output, flow output⟩
      · cases stepped
    · refine sending.keep stepped ?_
      cases action with
      | selectChunk => exact absurd rfl chunk
      | selectDone => exact absurd rfl done
      | _ =>
        simp only [State.step] at stepped
        grind [State.setFeed]

theorem sent_grows (stepped : s.step id action = some t) : s.sent <+: t.sent := by
  cases action with
  | selectChunk | selectDone =>
    simp only [State.step] at stepped
    split at stepped
    · cases stepped
      exact List.prefix_append _ _
    · cases stepped
  | _ =>
    have same : t.sent = s.sent := by
      simp only [State.step] at stepped
      grind [State.setFeed]
    exact same_prefix same

theorem task_sending (ran : exec (State.step id) s tasks = some t)
    (start : Tracked id s ∧ Sending id s) : Tracked id t ∧ Sending id t :=
  Runs.invariant (P := fun s => Tracked id s ∧ Sending id s)
    (fun both stepped => ⟨step_tracked both.1 stepped, step_sending both.2 both.1 stepped⟩) ran start

theorem task_grows (ran : exec (State.step id) s tasks = some t) : s.sent <+: t.sent := by
  induction tasks generalizing s with
  | nil =>
    cases ran
    exact List.prefix_rfl
  | cons a rest ih =>
    obtain ⟨middle, stepped, ran⟩ := exec_cons.mp ran
    exact (sent_grows stepped).trans (ih ran)

end task

/-- What the messages of a task need from the serializer and the cipher: they are carried, a
chunk takes 17 bytes more than its data, and the end no more than 13. -/
structure Serves (w : Wire) (id : UInt32) (sent : List ControlMsg) : Prop where
  carries : ∀ msg ∈ sent, w.Carries msg
  chunkSize : ∀ chunk, chunkMsg id chunk ∈ sent →
    (w.serialize (chunkMsg id chunk)).length = 17 + chunk.data.length
  doneSize : ∀ code, .execDone id code ∈ sent → (w.serialize (.execDone id code)).length ≤ 13

section stream

/-- The task, all that got onto the stream and what of it the client has not read yet, and the
client. -/
structure Link where
  task : State
  connected : Bool
  written : Bytes
  stream : Bytes
  screen : Screen

def Link.start : Link := ⟨.start, true, [], [], ⟨[], .draining⟩⟩

/-- A step of the task's threads with the counter's value for its message, a write that fails
and all later ones with it, a round of the client, a round that is given up in the middle of a
frame and loses what it has read of it, and the deadline. A round is given up where the length
of the frame does not come in time and, in the interactive loop, where a line is typed. -/
inductive LinkAction where
  | task (action : Exec.Action) (seq : UInt64)
  | disconnect
  | read
  | cut (n : Nat)
  | expire

variable (w : Wire) (id : UInt32)

def frame (seq : UInt64) (msg : ControlMsg) : Bytes :=
  tcpSend (buildControlPacketTcp w.serialize w.encrypt w.connId w.psk seq msg)

def Link.step (l : Link) : LinkAction → Option Link
  | .task action seq => (l.task.step id action).map fun task =>
    let new := if l.connected then (task.sent.drop l.task.sent.length).flatMap (frame w seq) else []
    { l with task, written := l.written ++ new, stream := l.stream ++ new }
  | .disconnect => some { l with connected := false }
  | .read =>
    -- an error is a frame that has begun, and its end is waited for
    match l.screen.client, tcpReadFrame l.stream with
    | .draining, .ok _ => some { l with
        stream := tcpRest l.stream
        screen := l.screen.receive id (receivedTcp w l.stream) }
    | _, _ => none
  | .cut n =>
    match l.screen.client with
    | .draining => some { l with stream := l.stream.drop n }
    | _ => none
  | .expire =>
    match l.screen.client with
    | .draining => some { l with screen := { l.screen with client := .expired } }
    | _ => none

/-- No round is given up in the middle of a frame. -/
def Uncut : LinkAction → Prop
  | .cut n => n = 0
  | _ => True

/-- The select loop takes the exit code only when no output is on its way. -/
def Patient (l : Link) : LinkAction → Prop
  | .task .selectDone _ => ∀ output, l.task.pending output = []
  | _ => True

instance (l : Link) : (a : LinkAction) → Decidable (Patient l a)
  | .task .selectDone _ => decidable_of_iff (l.task.pending .stdout = [] ∧ l.task.pending .stderr = [])
      ⟨fun empty output => by cases output <;> simp [empty], fun empty => ⟨empty _, empty _⟩⟩
  | .task (.produce ..) _ | .task (.close _) _ | .task (.exit _) _ | .task (.read ..) _
  | .task (.readEnd _) _ | .task (.forward _) _ | .task .bridgeReceive _ | .task .bridgeSend _
  | .task .bridgeEnd _ | .task .waitLock _ | .task .waitChild _ | .task .report _
  | .task .bridgeDone _ | .task (.command _) _ | .task .dropSender _ | .task .selectChunk _
  | .task .selectCommand _ | .task .killLock _ | .task .killChild _
  | .disconnect | .read | .cut _ | .expire => isTrue trivial

/-- The messages behind what a client shows. -/
def Screen.read (v : Screen) : List ControlMsg :=
  v.shown.map (chunkMsg id) ++
    match v.client with
    | .finished code => [.execDone id code]
    | _ => []

/-- What the client has read, what is in the stream, and what no longer got there. -/
structure Following (l : Link) : Prop where
  tracked : Tracked id l.task
  sending : Sending id l.task
  split : ∃ (unread : List (UInt64 × ControlMsg)) (lost : List ControlMsg),
    l.task.sent = l.screen.read id ++ unread.map (·.2) ++ lost ∧ (l.connected → lost = []) ∧
    l.stream = unread.flatMap fun entry => frame w entry.1 entry.2

variable {w id} {l m : Link}

theorem start_following : Following w id .start where
  tracked := start_tracked id
  sending := start_sending id
  split := ⟨[], [], rfl, fun _ => rfl, rfl⟩

/-- What a task has sent is a chunk of a reader, or the exit code of its child. -/
theorem Sending.mem {s : State} (sending : Sending id s) (member : msg ∈ s.sent) :
    (∃ chunk, Piece chunk ∧ msg = chunkMsg id chunk) ∨
      ∃ code, msg = .execDone id code ∧ s.child = .exited code := by
  obtain ⟨chunks, told, pieces, -⟩ := sending.sent
  have chunked (member : msg ∈ chunks.map (chunkMsg id)) : ∃ chunk, Piece chunk ∧ msg = chunkMsg id chunk := by
    obtain ⟨chunk, there, same⟩ := List.mem_map.mp member
    exact ⟨chunk, pieces chunk there, same.symm⟩
  rcases told with only | ⟨code, done, gone⟩
  · exact .inl (chunked (only ▸ member))
  · rw [done] at member
    rcases List.mem_append.mp member with chunk | last
    · exact .inl (chunked chunk)
    · exact .inr ⟨code, List.mem_singleton.mp last, gone⟩

/-- A message of the task fits a frame. -/
theorem Sending.fits {s : State} (sending : Sending id s) (serves : Serves w id s.sent)
    (member : msg ∈ s.sent) : Frame.headerSize + ((w.serialize msg).length + 16) ≤ maxFrame := by
  rcases sending.mem member with ⟨chunk, piece, rfl⟩ | ⟨code, rfl, -⟩
  · have small := piece.small
    rw [serves.chunkSize chunk member, Frame.headerSize, maxFrame]
    rw [readSize] at small
    omega
  · have size := serves.doneSize code member
    rw [Frame.headerSize, maxFrame]
    omega

theorem Following.task (following : Following w id l)
    (stepped : l.step w id (.task action seq) = some m) : Following w id m := by
  obtain ⟨task, done, rfl⟩ := Option.map_eq_some_iff.mp stepped
  obtain ⟨unread, lost, split, up, stream⟩ := following.split
  obtain ⟨new, grown⟩ := sent_grows done
  have later : task.sent.drop l.task.sent.length = new := by
    rw [← grown, List.drop_left]
  refine ⟨step_tracked following.tracked done, step_sending following.sending following.tracked done, ?_⟩
  dsimp only
  rw [later, ← grown, split]
  by_cases connected : l.connected
  · obtain rfl := up connected
    refine ⟨unread ++ new.map fun msg => (seq, msg), [], ?_, fun _ => rfl, ?_⟩
    · simp [Function.comp_def]
    · simp [connected, stream, List.flatMap_map]
  · refine ⟨unread, lost ++ new, by simp, fun contrary => absurd contrary connected, ?_⟩
    rw [if_neg connected, stream, List.append_nil]

/-- A round of the client takes the frame at the front. -/
theorem read_frame (sending : Sending id l.task) (serves : Serves w id l.task.sent)
    (member : msg ∈ l.task.sent) (stream : l.stream = frame w seq msg ++ rest)
    (draining : l.screen.client = .draining) :
    l.step w id .read = some { l with stream := rest, screen := l.screen.receive id (some msg) } := by
  obtain ⟨ciphertext, cipher, -⟩ := (serves.carries msg member).sealed seq.toUInt32
  obtain ⟨got, left⟩ := receivedTcp_sent cipher (serves.carries msg member).roundTrip
    (sending.fits serves member) rest
  rw [← frame] at got left
  obtain ⟨data, there⟩ := receivedTcp_whole got
  simp only [Link.step, draining, stream, there, got, left]

theorem Following.read (following : Following w id l) (serves : Serves w id l.task.sent)
    (stepped : l.step w id .read = some m) : Following w id m := by
  obtain ⟨unread, lost, split, up, stream⟩ := following.split
  cases draining : l.screen.client with
  | draining =>
    cases unread with
    | nil =>
      have silent : l.stream = [] := stream
      simp only [Link.step, draining, silent] at stepped
      cases stepped
      exact ⟨following.tracked, following.sending, [], lost, split, up, rfl⟩
    | cons entry more =>
      obtain ⟨seq, msg⟩ := entry
      have member : msg ∈ l.task.sent := by simp [split]
      rw [List.flatMap_cons] at stream
      rw [read_frame following.sending serves member stream draining] at stepped
      cases stepped
      refine ⟨following.tracked, following.sending, more, lost, ?_, up, rfl⟩
      rw [Screen.read, draining] at split
      rcases following.sending.mem member with ⟨chunk, -, rfl⟩ | ⟨code, rfl, -⟩
      · simp [Screen.read, draining, split]
      · simp [Screen.read, split]
  | finished | expired => simp [Link.step, draining] at stepped

theorem step_following (following : Following w id l) (serves : Serves w id l.task.sent)
    (uncut : Uncut a) (stepped : l.step w id a = some m) : Following w id m := by
  cases a with
  | task action seq => exact following.task stepped
  | read => exact following.read serves stepped
  | disconnect =>
    cases stepped
    obtain ⟨unread, lost, split, -, stream⟩ := following.split
    exact ⟨following.tracked, following.sending, unread, lost, split, nofun, stream⟩
  | cut n =>
    obtain rfl : n = 0 := uncut
    rw [Link.step] at stepped
    split at stepped
    · cases stepped
      exact ⟨following.tracked, following.sending, following.split⟩
    · cases stepped
  | expire =>
    rw [Link.step] at stepped
    split at stepped
    · rename_i draining
      cases stepped
      obtain ⟨unread, lost, split, up, stream⟩ := following.split
      rw [Screen.read, draining] at split
      exact ⟨following.tracked, following.sending, unread, lost, split, up, stream⟩
    · cases stepped

/-- The steps of the task in a run. -/
def linkTasks (actions : List LinkAction) : List Exec.Action :=
  actions.filterMap fun
    | .task action _ => some action
    | _ => none

/-- The task runs by itself. -/
theorem step_link_task (stepped : l.step w id a = some m) :
    exec (State.step id) l.task (linkTasks [a]) = some m.task := by
  cases a with
  | task action seq =>
    obtain ⟨task, done, rfl⟩ := Option.map_eq_some_iff.mp stepped
    exact exec_cons.mpr ⟨task, done, rfl⟩
  | disconnect =>
    cases stepped
    rfl
  | read | cut n | expire =>
    rw [Link.step] at stepped
    split at stepped
    · cases stepped
      rfl
    · cases stepped

theorem run_link_task (run : exec (Link.step w id) l actions = some m) :
    exec (State.step id) l.task (linkTasks actions) = some m.task := by
  induction actions generalizing l with
  | nil =>
    cases run
    rfl
  | cons a rest ih =>
    obtain ⟨middle, stepped, run⟩ := exec_cons.mp run
    have split : linkTasks (a :: rest) = linkTasks [a] ++ linkTasks rest :=
      List.filterMap_append (l := [a])
    rw [split]
    exact exec_append.mpr ⟨middle.task, step_link_task stepped, ih run⟩

theorem Serves.of_prefix (serves : Serves w id sent) (front : before <+: sent) : Serves w id before where
  carries msg member := serves.carries msg (front.subset member)
  chunkSize chunk member := serves.chunkSize chunk (front.subset member)
  doneSize code member := serves.doneSize code (front.subset member)

theorem run_following (following : Following w id l) (uncut : ∀ a ∈ actions, Uncut a)
    (run : exec (Link.step w id) l actions = some m) (serves : Serves w id m.task.sent) :
    Following w id m := by
  induction actions generalizing l with
  | nil =>
    cases run
    exact following
  | cons a rest ih =>
    obtain ⟨middle, stepped, later⟩ := exec_cons.mp run
    have here := serves.of_prefix (task_grows (run_link_task run))
    exact ih (step_following following here (uncut a List.mem_cons_self) stepped)
      (fun b member => uncut b (List.mem_cons_of_mem a member)) later

/-- The output is whole exactly if the select loop was patient. -/
theorem step_patient (tracked : Tracked id l.task) (stepped : l.step w id a = some m) :
    Tracked id m.task ∧ (Whole id m.task ↔ Whole id l.task ∧ Patient l a) := by
  cases a with
  | task action seq =>
    obtain ⟨task, done, rfl⟩ := Option.map_eq_some_iff.mp stepped
    refine ⟨step_tracked tracked done, ?_⟩
    by_cases last : action = .selectDone
    · subst last
      have before : Whole id l.task := by
        simp only [State.step] at done
        split at done
        · rename_i code selecting known
          obtain ⟨chunks, sent, -⟩ := tracked.running (by simp [selecting])
          exact whole_of_chunks sent
        · cases done
      exact (selectDone_whole tracked done).trans (and_iff_right before).symm
    · have free : Patient l (.task action seq) := by
        cases action <;> trivial
      exact (step_whole tracked done last).trans (and_iff_left free).symm
  | disconnect =>
    cases stepped
    exact ⟨tracked, (and_iff_left trivial).symm⟩
  | read | cut n | expire =>
    rw [Link.step] at stepped
    split at stepped
    · cases stepped
      exact ⟨tracked, (and_iff_left trivial).symm⟩
    · cases stepped

theorem Following.front (following : Following w id l) : l.screen.read id <+: l.task.sent := by
  obtain ⟨unread, lost, split, -⟩ := following.split
  rw [split, List.append_assoc]
  exact List.prefix_append _ _

theorem Following.pieces (following : Following w id l) : ∀ chunk ∈ l.screen.shown, Piece chunk := by
  intro chunk member
  have sent := following.front.subset
    (List.mem_append_left _ (List.mem_map_of_mem (f := chunkMsg id) member))
  rcases following.sending.mem sent with ⟨other, piece, same⟩ | ⟨code, same, -⟩
  · rw [chunkMsg_injective id same]
    exact piece
  · cases same

/-- On each stream the client has printed the beginning of what the child has written. -/
theorem Following.printed (following : Following w id l) (output : Output) :
    l.screen.printed output <+: (l.task.feeds output).produced := by
  rw [printed_bytesOf following.pieces]
  obtain ⟨chunks, told, -, front⟩ := following.sending.sent
  have shown : l.screen.shown.map (chunkMsg id) <+: l.task.sent :=
    (List.prefix_append _ _).trans following.front
  have inside : l.screen.shown.map (chunkMsg id) <+: chunks.map (chunkMsg id) := by
    rcases told with only | ⟨code, done, -⟩
    · exact only ▸ shown
    · rw [done] at shown
      rcases List.prefix_concat_iff.mp shown with same | inside
      · exact absurd (same ▸ List.mem_append_right _ List.mem_cons_self)
          (done_not_chunk id code l.screen.shown)
      · exact inside
  obtain ⟨more, rfl⟩ := (List.prefix_map_iff_of_injective (chunkMsg_injective id)).mp inside
  have bytes := front output
  rw [bytesOf_append] at bytes
  exact (List.prefix_append _ _).trans bytes

/-- The client that has the exit code has read all that was sent. -/
theorem Following.finished (following : Following w id l)
    (finished : l.screen.client = .finished code) :
    l.task.child = .exited code ∧ (Whole id l.task ↔
      ∀ output, l.screen.printed output = (l.task.feeds output).produced) := by
  have front := following.front
  rw [Screen.read, finished] at front
  have member : ControlMsg.execDone id code ∈ l.task.sent :=
    front.subset (List.mem_append_right _ List.mem_cons_self)
  obtain ⟨chunks, told, pieces, -⟩ := following.sending.sent
  rcases told with only | ⟨last, done, gone⟩
  · exact absurd (only ▸ member) (done_not_chunk id code chunks)
  · rw [done] at front
    rcases List.prefix_concat_iff.mp front with same | inside
    · obtain ⟨shown, ends⟩ := List.append_inj' same rfl
      cases ends
      obtain rfl := List.map_injective_iff.mpr (chunkMsg_injective id) shown
      refine ⟨gone, ?_⟩
      simp only [printed_bytesOf following.pieces]
      constructor
      · intro whole
        obtain ⟨others, sent, bytes⟩ := whole code member
        rw [done] at sent
        obtain rfl := List.map_injective_iff.mpr (chunkMsg_injective id)
          (List.append_cancel_right sent)
        exact bytes
      · intro bytes other reported
        rw [done] at reported ⊢
        rcases List.mem_append.mp reported with chunk | same
        · exact absurd chunk (done_not_chunk id other _)
        · rw [List.mem_singleton.mp same]
          exact ⟨_, rfl, bytes⟩
    · exact absurd (inside.subset (List.mem_append_right _ List.mem_cons_self))
        (done_not_chunk id code chunks)

/-- The client comes to the exit code when it has read what is in the stream. -/
theorem reads_finish (sending : Sending id l.task) (serves : Serves w id l.task.sent)
    (unread : List (UInt64 × ControlMsg))
    (split : l.task.sent = l.screen.read id ++ unread.map (·.2))
    (stream : l.stream = unread.flatMap fun entry => frame w entry.1 entry.2)
    (draining : l.screen.client = .draining) (member : .execDone id code ∈ l.task.sent) :
    ∃ n m, exec (Link.step w id) l (List.replicate n .read) = some m ∧
      m.screen.client = .finished code := by
  induction unread generalizing l with
  | nil =>
    simp only [split, Screen.read, draining, List.append_nil, List.map_nil] at member
    exact absurd member (done_not_chunk id code _)
  | cons entry more ih =>
    obtain ⟨seq, msg⟩ := entry
    have there : msg ∈ l.task.sent := by simp [split]
    rw [List.flatMap_cons] at stream
    have stepped := read_frame sending serves there stream draining
    rw [Screen.read, draining] at split
    rcases sending.mem there with ⟨chunk, -, rfl⟩ | ⟨last, rfl, gone⟩
    · rw [receive_chunk] at stepped
      obtain ⟨n, m, run, finished⟩ := ih (l := { l with
          stream := more.flatMap fun entry => frame w entry.1 entry.2
          screen := { l.screen with shown := l.screen.shown ++ [chunk] } })
        sending serves (by simp [Screen.read, draining, split]) rfl draining member
      exact ⟨n + 1, m, exec_cons.mpr ⟨_, stepped, run⟩, finished⟩
    · have same : last = code := by
        rcases sending.mem member with ⟨chunk, -, none⟩ | ⟨other, same, exited⟩
        · cases none
        · cases same
          exact Child.exited.inj (gone.symm.trans exited)
      refine ⟨1, _, exec_cons.mpr ⟨_, stepped, rfl⟩, ?_⟩
      simp [same]

/-- The cipher holds against a reader that has lost its place: a piece of the stream opens only
to one of the messages. -/
def Authentic (w : Wire) (written : Bytes) (sent : List ControlMsg) : Prop :=
  ∀ nonce ciphertext plaintext, ciphertext <:+: written →
    w.decrypt w.psk nonce ciphertext = some plaintext → ∃ msg ∈ sent, plaintext = w.serialize msg

/-- The client reads what was written, and takes nothing for a message of the task that is none. -/
structure Genuine (id : UInt32) (sent : List ControlMsg) (l : Link) : Prop where
  stream : l.stream <:+ l.written
  shown : ∀ chunk ∈ l.screen.shown, chunkMsg id chunk ∈ sent
  finished : ∀ code, l.screen.client = .finished code → .execDone id code ∈ sent

theorem start_genuine (id : UInt32) (sent : List ControlMsg) : Genuine id sent .start where
  stream := List.suffix_rfl
  shown := nofun
  finished := nofun

theorem receivedTcp_genuine (authentic : Authentic w written sent)
    (trips : ∀ msg ∈ sent, w.deserialize (w.serialize msg) = some msg) (inside : stream <:+: written)
    (received : receivedTcp w stream = some msg) : msg ∈ sent := by
  obtain ⟨nonce, ciphertext, plaintext, piece, -, decrypted, parsed⟩ := receivedTcp_opened received
  obtain ⟨other, member, rfl⟩ := authentic nonce ciphertext plaintext (piece.trans inside) decrypted
  rw [trips other member] at parsed
  exact Option.some.inj parsed ▸ member

theorem Screen.receive_genuine {v : Screen} {sent : List ControlMsg} {received : Option ControlMsg}
    (shown : ∀ chunk ∈ v.shown, chunkMsg id chunk ∈ sent)
    (finished : ∀ code, v.client = .finished code → .execDone id code ∈ sent)
    (genuine : ∀ msg, received = some msg → msg ∈ sent) :
    (∀ chunk ∈ (v.receive id received).shown, chunkMsg id chunk ∈ sent) ∧
      ∀ code, (v.receive id received).client = .finished code → .execDone id code ∈ sent := by
  unfold Screen.receive
  split
  · split
    · rename_i own
      subst own
      refine ⟨fun chunk member => ?_, finished⟩
      rcases List.mem_append.mp member with old | new
      · exact shown chunk old
      · rw [List.mem_singleton.mp new]
        exact genuine _ rfl
    · exact ⟨shown, finished⟩
  · split
    · rename_i own
      subst own
      refine ⟨shown, fun code ended => ?_⟩
      cases ended
      exact genuine _ rfl
    · exact ⟨shown, finished⟩
  · exact ⟨shown, finished⟩

theorem written_grows (stepped : l.step w id a = some m) : l.written <+: m.written := by
  cases a with
  | task action seq =>
    obtain ⟨task, done, rfl⟩ := Option.map_eq_some_iff.mp stepped
    exact List.prefix_append _ _
  | disconnect =>
    cases stepped
    exact List.prefix_rfl
  | read | cut n | expire =>
    rw [Link.step] at stepped
    split at stepped
    · cases stepped
      exact List.prefix_rfl
    · cases stepped

theorem run_written (run : exec (Link.step w id) l actions = some m) : l.written <+: m.written := by
  induction actions generalizing l with
  | nil =>
    cases run
    exact List.prefix_rfl
  | cons a rest ih =>
    obtain ⟨middle, stepped, later⟩ := exec_cons.mp run
    exact (written_grows stepped).trans (ih later)

theorem step_genuine (authentic : Authentic w written sent)
    (trips : ∀ msg ∈ sent, w.deserialize (w.serialize msg) = some msg)
    (inside : l.written <+: written) (genuine : Genuine id sent l)
    (stepped : l.step w id a = some m) : Genuine id sent m := by
  cases a with
  | task action seq =>
    obtain ⟨task, done, rfl⟩ := Option.map_eq_some_iff.mp stepped
    obtain ⟨before, split⟩ := genuine.stream
    exact ⟨⟨before, by simp [← split]⟩, genuine.shown, genuine.finished⟩
  | disconnect =>
    cases stepped
    exact ⟨genuine.stream, genuine.shown, genuine.finished⟩
  | read =>
    rw [Link.step] at stepped
    split at stepped
    · cases stepped
      have read := Screen.receive_genuine genuine.shown genuine.finished fun msg received =>
        receivedTcp_genuine authentic trips (genuine.stream.isInfix.trans inside.isInfix) received
      exact ⟨(tcpRest_suffix _).trans genuine.stream, read.1, read.2⟩
    · cases stepped
  | cut n =>
    rw [Link.step] at stepped
    split at stepped
    · cases stepped
      exact ⟨(List.drop_suffix n _).trans genuine.stream, genuine.shown, genuine.finished⟩
    · cases stepped
  | expire =>
    rw [Link.step] at stepped
    split at stepped
    · cases stepped
      exact ⟨genuine.stream, genuine.shown, nofun⟩
    · cases stepped

theorem run_genuine (authentic : Authentic w m.written sent)
    (trips : ∀ msg ∈ sent, w.deserialize (w.serialize msg) = some msg) (genuine : Genuine id sent l)
    (run : exec (Link.step w id) l actions = some m) : Genuine id sent m := by
  induction actions generalizing l with
  | nil =>
    cases run
    exact genuine
  | cons a rest ih =>
    obtain ⟨middle, stepped, later⟩ := exec_cons.mp run
    exact ih (step_genuine authentic trips (run_written run) genuine stepped) later

/-- In every run over TCP the client prints only chunks that were sent, and the exit code it
ends with is that of the process. As long as no read of a frame is given up in the middle, it
prints on each stream the beginning of what the process has written there, and with the exit
code it has printed everything exactly if the select loop took the exit code only when no output
was on its way; and on a connection that holds it comes to the exit code as soon as it has read
what was sent. -/
theorem exec_over_tcp (w : Wire) (id : UInt32) (actions : List LinkAction) (l : Link)
    (run : exec (Link.step w id) .start actions = some l) (serves : Serves w id l.task.sent) :
    (Authentic w l.written l.task.sent →
      (∀ chunk ∈ l.screen.shown, chunkMsg id chunk ∈ l.task.sent) ∧
      ∀ code, l.screen.client = .finished code → l.task.child = .exited code) ∧
    ((∀ a ∈ actions, Uncut a) →
      (∀ output, l.screen.printed output <+: (l.task.feeds output).produced) ∧
      (∀ code, l.screen.client = .finished code → l.task.child = .exited code ∧
        ((∀ output, l.screen.printed output = (l.task.feeds output).produced) ↔
          Meets (Link.step w id) Patient .start actions)) ∧
      ∀ code, l.connected → l.screen.client = .draining → .execDone id code ∈ l.task.sent →
        ∃ n m, exec (Link.step w id) l (List.replicate n .read) = some m ∧
          m.screen.client = .finished code) := by
  refine ⟨fun authentic => ?_, fun uncut => ?_⟩
  · have genuine := run_genuine authentic (fun msg member => (serves.carries msg member).roundTrip)
      (start_genuine id l.task.sent) run
    have sending := (task_sending (run_link_task run) ⟨start_tracked id, start_sending id⟩).2
    refine ⟨genuine.shown, fun code finished => ?_⟩
    rcases sending.mem (genuine.finished code finished) with ⟨chunk, -, same⟩ | ⟨other, same, gone⟩
    · cases same
    · cases same
      exact gone
  · have following := run_following start_following uncut run serves
    refine ⟨following.printed, fun code finished => ?_, fun code connected draining member => ?_⟩
    · obtain ⟨gone, whole⟩ := following.finished finished
      have patient := guarded_iff (P := fun l : Link => Whole id l.task)
        (I := fun l : Link => Tracked id l.task) (fun tracked stepped => step_patient tracked stepped)
        run (start_tracked id)
      have first : Whole id State.start := fun _ member => absurd member List.not_mem_nil
      exact ⟨gone, whole.symm.trans (patient.trans (and_iff_right first))⟩
    · obtain ⟨unread, lost, split, up, stream⟩ := following.split
      obtain rfl := up connected
      rw [List.append_nil] at split
      exact reads_finish following.sending serves unread split stream draining member

/-- A process that says `hi` on its standard output and exits. -/
def hiTask : List Exec.Action :=
  [.produce .stdout [104, 105], .exit (some 0), .read .stdout 2, .forward .stdout, .bridgeReceive,
    .bridgeSend, .selectChunk, .waitLock, .waitChild, .report, .bridgeDone, .selectDone]

theorem hiTask_serves : Serves hiWire 1 [.execChunk 1 0 [104, 105], .execDone 1 (some 0)] where
  carries msg member := by
    rcases List.mem_cons.mp member with rfl | last
    · exact hi_chunk ▸ hi_serves.chunk
    · rw [List.mem_singleton.mp last]
      exact hi_done ▸ hi_serves.done
  chunkSize chunk member := by
    obtain ⟨stream, data⟩ := chunk
    rcases List.mem_cons.mp member with same | last
    · cases same
      rfl
    · cases List.mem_singleton.mp last
  doneSize code member := by
    rcases List.mem_cons.mp member with same | last
    · cases same
    · cases List.mem_singleton.mp last
      decide

def hiSteps : List LinkAction :=
  hiTask.map fun action => .task action (if action = .selectDone then 1 else 0)

def hiLink : List LinkAction := hiSteps ++ [.read, .read]

theorem hiLink_runs : (exec (Link.step hiWire 1) .start hiLink).isSome := by decide +kernel

def hiShown : Link := (exec (Link.step hiWire 1) .start hiLink).get hiLink_runs

/-- A line is typed when the last four bytes of the first frame are not there yet. The client
takes them for a length, which it refuses, and reads on behind them. -/
def hiTyped : List LinkAction := hiSteps ++ [.cut 73, .read, .read]

theorem hiTyped_runs : (exec (Link.step hiWire 1) .start hiTyped).isSome := by decide +kernel

def hiMissed : Link := (exec (Link.step hiWire 1) .start hiTyped).get hiTyped_runs

theorem hiTask_sent : ∃ t, exec (State.step 1) .start hiTask = some t ∧
    t.sent = [.execChunk 1 0 [104, 105], .execDone 1 (some 0)] := ⟨_, rfl, rfl⟩

theorem hi_sent (run : exec (Link.step hiWire 1) .start actions = some l)
    (tasks : linkTasks actions = hiTask) :
    l.task.sent = [.execChunk 1 0 [104, 105], .execDone 1 (some 0)] := by
  obtain ⟨t, ran, sent⟩ := hiTask_sent
  have same : t = l.task := Option.some.inj (ran.symm.trans (tasks ▸ run_link_task run))
  exact same ▸ sent

theorem hiMissed_authentic :
    Authentic hiWire hiMissed.written [.execChunk 1 0 [104, 105], .execDone 1 (some 0)] := by
  intro nonce ciphertext plaintext piece opened
  rcases Option.or_eq_some_iff.mp opened with known | ⟨-, tagged⟩
  · rw [hiDecrypt] at known
    split at known
    · cases known
      exact ⟨_, List.mem_cons_self, rfl⟩
    · split at known
      · cases known
        exact ⟨_, List.mem_cons_of_mem _ List.mem_cons_self, rfl⟩
      · cases known
  · -- the plain tag is nowhere in the stream
    obtain ⟨⟨-, tag⟩, -⟩ := Option.ite_none_right_eq_some.mp tagged
    have there : hiTag <:+: hiMissed.written :=
      (tag ▸ (List.drop_suffix _ ciphertext).isInfix).trans piece
    exact absurd there (by decide +kernel)

theorem exec_over_tcp_hi :
    (exec (Link.step hiWire 1) .start hiLink = some hiShown ∧
      hiShown.screen.client = .finished (some 0) ∧
      ∀ output, hiShown.screen.printed output = (hiShown.task.feeds output).produced) ∧
    exec (Link.step hiWire 1) .start hiTyped = some hiMissed ∧
      hiMissed.screen = ⟨[], .finished (some 0)⟩ ∧ hiMissed.task.child = .exited (some 0) := by
  have run : exec (Link.step hiWire 1) .start hiLink = some hiShown := (Option.some_get hiLink_runs).symm
  have typed : exec (Link.step hiWire 1) .start hiTyped = some hiMissed :=
    (Option.some_get hiTyped_runs).symm
  have finished : hiShown.screen.client = .finished (some 0) := by decide +kernel
  have missed : hiMissed.screen = ⟨[], .finished (some 0)⟩ := by
    have none : hiMissed.screen.shown = [] := by decide +kernel
    have ended : hiMissed.screen.client = .finished (some 0) := by decide +kernel
    rw [← none, ← ended]
  have sent := hi_sent run rfl
  have sent' := hi_sent typed rfl
  have shown := (exec_over_tcp hiWire 1 hiLink hiShown run (sent ▸ hiTask_serves)).2
    (by simp [hiLink, hiSteps, hiTask, Uncut])
  have genuine := (exec_over_tcp hiWire 1 hiTyped hiMissed typed (sent' ▸ hiTask_serves)).1
    (sent' ▸ hiMissed_authentic)
  exact ⟨⟨run, finished, (shown.2.1 (some 0) finished).2.mpr (by decide +kernel)⟩, typed, missed,
    genuine.2 (some 0) (by rw [missed])⟩

end stream

section datagrams

/-- The task, the datagrams in flight and the client. -/
structure Ether where
  task : State
  flying : List Bytes
  screen : Screen

def Ether.start : Ether := ⟨.start, [], ⟨[], .draining⟩⟩

/-- A step of the task's threads with the counter's value for its message and whether it gets
out, a round of the client, what the network does, and the deadline. -/
inductive EtherAction where
  | task (action : Exec.Action) (seq : UInt64) (out : Bool)
  | deliver (i : Nat)
  | duplicate (i : Nat)
  | lose (i : Nat)
  | expire

variable (w : Wire) (id : UInt32)

def Ether.step (e : Ether) : EtherAction → Option Ether
  | .task action seq out => (e.task.step id action).map fun task =>
    { e with
      task
      flying := e.flying ++
        (task.sent.drop e.task.sent.length).flatMap fun msg => datagram w seq msg out }
  | .deliver i =>
    match e.screen.client with
    | .draining => e.flying[i]?.map fun data => { e with
        flying := e.flying.eraseIdx i
        screen := e.screen.receive id (received w data) }
    | _ => none
  | .duplicate i => e.flying[i]?.map fun data => { e with flying := e.flying ++ [data] }
  | .lose i => e.flying[i]?.map fun _ => { e with flying := e.flying.eraseIdx i }
  | .expire =>
    match e.screen.client with
    | .draining => some { e with screen := { e.screen with client := .expired } }
    | _ => none

/-- The steps of the task in a run. -/
def taskSteps (actions : List EtherAction) : List Exec.Action :=
  actions.filterMap fun
    | .task action _ _ => some action
    | _ => none

/-- A chunk that the task has sent and that fits a datagram. -/
structure Shows (sent : List ControlMsg) (chunk : StreamChunk) : Prop where
  sent : chunkMsg id chunk ∈ sent
  small : 17 + chunk.data.length ≤ Frame.maxPayload

/-- Only messages of the task are in flight, and only they were shown. -/
structure Flying (e : Ether) : Prop where
  flying : ∀ data ∈ e.flying, ∃ seq, ∃ msg ∈ e.task.sent,
    sendControl w.serialize w.encrypt w.connId w.psk seq msg = some data
  shown : ∀ chunk ∈ e.screen.shown, Shows id e.task.sent chunk
  finished : ∀ code, e.screen.client = .finished code → .execDone id code ∈ e.task.sent

variable {w id} {e f : Ether}

theorem start_flying : Flying w id .start where
  flying := nofun
  shown := nofun
  finished := nofun

theorem Flying.change (flying : Flying w id e) (task : f.task = e.task) (screen : f.screen = e.screen)
    (left : ∀ data ∈ f.flying, data ∈ e.flying) : Flying w id f where
  flying data member := task ▸ flying.flying data (left data member)
  shown := by
    rw [task, screen]
    exact flying.shown
  finished := by
    rw [task, screen]
    exact flying.finished

theorem Flying.task (flying : Flying w id e)
    (stepped : e.step w id (.task action seq out) = some f) : Flying w id f := by
  obtain ⟨task, done, rfl⟩ := Option.map_eq_some_iff.mp stepped
  have grown := sent_grows done
  refine ⟨fun data member => ?_, fun chunk member => ?_, fun code finished => ?_⟩
  · rcases List.mem_append.mp member with old | new
    · obtain ⟨seq, msg, sent, packet⟩ := flying.flying data old
      exact ⟨seq, msg, grown.subset sent, packet⟩
    · obtain ⟨msg, sent, packet⟩ := List.mem_flatMap.mp new
      exact ⟨seq, msg, List.mem_of_mem_drop sent, mem_datagram packet⟩
  · obtain ⟨sent, small⟩ := flying.shown chunk member
    exact ⟨grown.subset sent, small⟩
  · exact grown.subset (flying.finished code finished)

theorem Flying.deliver (flying : Flying w id e) (sending : Sending id e.task)
    (serves : Serves w id e.task.sent) (stepped : e.step w id (.deliver i) = some f) :
    Flying w id f := by
  rw [Ether.step] at stepped
  split at stepped
  · rename_i draining
    obtain ⟨data, found, rfl⟩ := Option.map_eq_some_iff.mp stepped
    obtain ⟨seq, msg, member, packet⟩ := flying.flying data (List.mem_of_getElem? found)
    refine ⟨fun other left => flying.flying other (List.mem_of_mem_eraseIdx left), ?_, ?_⟩
    all_goals
      dsimp only
      rw [received_sent (serves.carries msg member) packet]
    · split
      · rename_i fits
        rcases sending.mem member with ⟨chunk, -, rfl⟩ | ⟨code, rfl, -⟩
        · rw [serves.chunkSize chunk member] at fits
          rw [receive_chunk]
          intro other there
          rcases List.mem_append.mp there with old | new
          · exact flying.shown other old
          · rw [List.mem_singleton.mp new]
            exact ⟨member, fits⟩
        · rw [receive_done]
          exact flying.shown
      · exact flying.shown
    · split
      · rcases sending.mem member with ⟨chunk, -, rfl⟩ | ⟨code, rfl, -⟩
        · rw [receive_chunk]
          exact flying.finished
        · rw [receive_done]
          rintro other ⟨⟩
          exact member
      · exact flying.finished
  · cases stepped

theorem step_flying (flying : Flying w id e) (sending : Sending id e.task)
    (serves : Serves w id e.task.sent) (stepped : e.step w id a = some f) : Flying w id f := by
  cases a with
  | task action seq out => exact flying.task stepped
  | deliver i => exact flying.deliver sending serves stepped
  | duplicate i =>
    obtain ⟨data, found, rfl⟩ := Option.map_eq_some_iff.mp stepped
    refine flying.change rfl rfl fun other member => ?_
    rcases List.mem_append.mp member with old | new
    · exact old
    · rw [List.mem_singleton.mp new]
      exact List.mem_of_getElem? found
  | lose i =>
    obtain ⟨data, -, rfl⟩ := Option.map_eq_some_iff.mp stepped
    exact flying.change rfl rfl fun other member => List.mem_of_mem_eraseIdx member
  | expire =>
    rw [Ether.step] at stepped
    split at stepped
    · cases stepped
      exact ⟨flying.flying, flying.shown, nofun⟩
    · cases stepped

/-- The task runs by itself. -/
theorem step_task_only (stepped : e.step w id a = some f) :
    exec (State.step id) e.task (taskSteps [a]) = some f.task := by
  cases a with
  | task action seq out =>
    obtain ⟨task, done, rfl⟩ := Option.map_eq_some_iff.mp stepped
    exact exec_cons.mpr ⟨task, done, rfl⟩
  | duplicate i | lose i =>
    obtain ⟨data, -, rfl⟩ := Option.map_eq_some_iff.mp stepped
    rfl
  | deliver i =>
    rw [Ether.step] at stepped
    split at stepped
    · obtain ⟨data, -, rfl⟩ := Option.map_eq_some_iff.mp stepped
      rfl
    · cases stepped
  | expire =>
    rw [Ether.step] at stepped
    split at stepped
    · cases stepped
      rfl
    · cases stepped

theorem taskSteps_append (first second : List EtherAction) :
    taskSteps (first ++ second) = taskSteps first ++ taskSteps second :=
  List.filterMap_append

theorem run_task (run : exec (Ether.step w id) e actions = some f) :
    exec (State.step id) e.task (taskSteps actions) = some f.task := by
  induction actions generalizing e with
  | nil =>
    cases run
    rfl
  | cons a rest ih =>
    obtain ⟨middle, stepped, run⟩ := exec_cons.mp run
    rw [← List.singleton_append, taskSteps_append]
    exact exec_append.mpr ⟨middle.task, step_task_only stepped, ih run⟩

theorem run_flying (flying : Flying w id e) (both : Tracked id e.task ∧ Sending id e.task)
    (run : exec (Ether.step w id) e actions = some f) (serves : Serves w id f.task.sent) :
    Flying w id f := by
  induction actions generalizing e with
  | nil =>
    cases run
    exact flying
  | cons a rest ih =>
    obtain ⟨middle, stepped, later⟩ := exec_cons.mp run
    have here := serves.of_prefix (task_grows (run_task run))
    exact ih (step_flying flying both.2 here stepped) (task_sending (step_task_only stepped) both) later

/-- Of every message of the task a datagram is in flight. -/
def Covers (w : Wire) (e : Ether) : Prop :=
  ∀ msg ∈ e.task.sent, ∃ seq, ∃ data ∈ e.flying,
    sendControl w.serialize w.encrypt w.connId w.psk seq msg = some data

theorem sends_all (ran : exec (State.step id) e.task tasks = some t) (serves : Serves w id t.sent)
    (covers : Covers w e) :
    ∃ f, exec (Ether.step w id) e (tasks.map fun action => .task action 0 true) = some f ∧
      f.task = t ∧ f.screen = e.screen ∧ Covers w f := by
  induction tasks generalizing e with
  | nil =>
    cases ran
    exact ⟨e, rfl, rfl, rfl, covers⟩
  | cons a rest ih =>
    obtain ⟨task, stepped, later⟩ := exec_cons.mp ran
    have grown := sent_grows stepped
    let middle : Ether := { e with
      task
      flying := e.flying ++
        (task.sent.drop e.task.sent.length).flatMap fun msg => datagram w 0 msg true }
    have first : e.step w id (.task a 0 true) = some middle := by
      rw [Ether.step, stepped]
      rfl
    have covered : Covers w middle := by
      intro msg member
      obtain ⟨new, whole⟩ := grown
      rcases List.mem_append.mp (whole ▸ member : msg ∈ e.task.sent ++ new) with old | fresh
      · obtain ⟨seq, data, there, packet⟩ := covers msg old
        exact ⟨seq, data, List.mem_append_left _ there, packet⟩
      · obtain ⟨data, packet⟩ := (serves.carries msg ((task_grows later).subset member)).sent 0
        refine ⟨0, data, List.mem_append_right _ (List.mem_flatMap.mpr ⟨msg, ?_, ?_⟩), packet⟩
        · rw [← whole, List.drop_left]
          exact fresh
        · simp [datagram, packet]
    obtain ⟨f, run, done, screen, all⟩ := ih later covered
    exact ⟨f, exec_cons.mpr ⟨middle, first, run⟩, done, screen, all⟩

/-- A copy of a datagram is delivered. -/
theorem shows_one (covers : Covers w e) (serves : Serves w id e.task.sent)
    (draining : e.screen.client = .draining) (shows : Shows id e.task.sent chunk) :
    ∃ i, exec (Ether.step w id) e [.duplicate i, .deliver e.flying.length] =
      some { e with screen := { e.screen with shown := e.screen.shown ++ [chunk] } } := by
  obtain ⟨seq, data, there, packet⟩ := covers _ shows.sent
  obtain ⟨i, found⟩ := List.getElem?_of_mem there
  have arrived := received_sent (serves.carries _ shows.sent) packet
  rw [serves.chunkSize chunk shows.sent, if_pos shows.small] at arrived
  refine ⟨i, ?_⟩
  simp [exec, Ether.step, found, draining, arrived, List.eraseIdx_append_of_length_le]

theorem shows_all (covers : Covers w e) (serves : Serves w id e.task.sent)
    (draining : e.screen.client = .draining) (shows : ∀ chunk ∈ shown, Shows id e.task.sent chunk) :
    ∃ actions, taskSteps actions = [] ∧ exec (Ether.step w id) e actions =
      some { e with screen := { e.screen with shown := e.screen.shown ++ shown } } := by
  induction shown generalizing e with
  | nil => exact ⟨[], rfl, by simp [exec]⟩
  | cons chunk rest ih =>
    obtain ⟨i, first⟩ := shows_one covers serves draining (shows chunk List.mem_cons_self)
    obtain ⟨actions, aside, later⟩ := ih
      (e := { e with screen := { e.screen with shown := e.screen.shown ++ [chunk] } })
      covers serves draining fun other member => shows other (List.mem_cons_of_mem chunk member)
    refine ⟨[.duplicate i, .deliver e.flying.length] ++ actions, ?_, exec_append.mpr ⟨_, first, ?_⟩⟩
    · rw [taskSteps_append, aside]
      rfl
    · simpa using later

theorem shows_done (covers : Covers w e) (serves : Serves w id e.task.sent)
    (draining : e.screen.client = .draining) (member : .execDone id code ∈ e.task.sent) :
    ∃ i f, e.step w id (.deliver i) = some f ∧
      f.screen = { e.screen with client := .finished code } := by
  obtain ⟨seq, data, there, packet⟩ := covers _ member
  obtain ⟨i, found⟩ := List.getElem?_of_mem there
  have small : (w.serialize (.execDone id code)).length ≤ Frame.maxPayload :=
    (serves.doneSize code member).trans (by decide)
  have arrived := received_sent (serves.carries _ member) packet
  rw [if_pos small] at arrived
  refine ⟨i, { e with flying := e.flying.eraseIdx i, screen := { e.screen with client := .finished code } },
    ?_, rfl⟩
  simp [Ether.step, found, draining, arrived]

/-- What the client may have printed when it ends over UDP, for each run of the task: any of the
chunks that were sent, in any order and number, but none of more than 1383 bytes. -/
theorem exec_over_udp_iff (w : Wire) (id : UInt32) (tasks : List Exec.Action) (t : State)
    (ran : exec (State.step id) .start tasks = some t) (serves : Serves w id t.sent)
    (shown : List StreamChunk) (code : Option Int32) :
    (∃ actions e, exec (Ether.step w id) .start actions = some e ∧ taskSteps actions = tasks ∧
      e.screen = ⟨shown, .finished code⟩) ↔
    (∀ chunk ∈ shown, chunkMsg id chunk ∈ t.sent ∧ 17 + chunk.data.length ≤ Frame.maxPayload) ∧
      .execDone id code ∈ t.sent := by
  constructor
  · rintro ⟨actions, e, run, rfl, screen⟩
    have same : e.task = t := Option.some.inj ((run_task run).symm.trans ran)
    subst same
    have flying := run_flying start_flying ⟨start_tracked id, start_sending id⟩ run serves
    refine ⟨fun chunk member => ?_, flying.finished code (by rw [screen])⟩
    obtain ⟨sent, small⟩ := flying.shown chunk (by rw [screen]; exact member)
    exact ⟨sent, small⟩
  · rintro ⟨shows, done⟩
    obtain ⟨f, sent, rfl, screen, covers⟩ :=
      sends_all (e := .start) (w := w) ran serves fun msg member => absurd member List.not_mem_nil
    have draining : f.screen.client = .draining := by rw [screen]; rfl
    obtain ⟨actions, aside, later⟩ := shows_all covers serves draining fun chunk member =>
      (⟨(shows chunk member).1, (shows chunk member).2⟩ : Shows id f.task.sent chunk)
    obtain ⟨i, g, last, finished⟩ := shows_done
      (e := { f with screen := { f.screen with shown := f.screen.shown ++ shown } }) covers serves
      draining done
    have ended : exec (Ether.step w id) _ [.deliver i] = some g := exec_cons.mpr ⟨g, last, rfl⟩
    refine ⟨_, g, exec_append.mpr ⟨f, sent, exec_append.mpr ⟨_, later, ended⟩⟩, ?_, ?_⟩
    · rw [taskSteps_append, taskSteps_append, aside]
      simp [taskSteps, List.filterMap_map]
    · rw [finished, screen]
      rfl

/-- The client may print the chunk twice. -/
theorem exec_over_udp_iff_hi : ∃ actions e, exec (Ether.step hiWire 1) .start actions = some e ∧
    taskSteps actions = hiTask ∧
    e.screen = ⟨[⟨0, [104, 105]⟩, ⟨0, [104, 105]⟩], .finished (some 0)⟩ := by
  obtain ⟨t, ran, sent⟩ := hiTask_sent
  refine (exec_over_udp_iff hiWire 1 hiTask t ran (sent ▸ hiTask_serves) _ _).mpr ?_
  rw [sent]
  simp [chunkMsg, Frame.maxPayload]

end datagrams

end LanLink.RemoteExec
