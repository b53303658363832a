import LanLink.Exec.Task

/-! What the client sees of the output. Every byte the child writes is in the
pipe, in a thread, in a channel or sent, in this order, as long as the task
runs. The exit code takes another way, and the select loop may take it first. -/
namespace LanLink.Exec
open Words LanLink.Control

def chunkMsg (id : UInt32) (chunk : StreamChunk) : ControlMsg :=
  .execChunk id chunk.stream chunk.data

/-- The bytes of one output in a list of chunks. -/
def bytesOf (output : Output) (chunks : List StreamChunk) : Bytes :=
  (chunks.filter fun chunk => chunk.stream = output.stream).flatMap StreamChunk.data

def Bridge.held : Bridge → List StreamChunk
  | .sending chunk => [chunk]
  | _ => []

def Reader.held : Reader → Bytes
  | .sending data => data
  | _ => []

/-- The output on its way to the select loop. -/
def State.pending (s : State) (output : Output) : Bytes :=
  bytesOf output (s.chunkRx ++ s.bridge.held ++ s.chunks) ++
    (s.feeds output).reader.held ++ (s.feeds output).unread

/-- Once the end of a command is reported, everything it wrote was sent before,
and nothing follows. -/
def Whole (id : UInt32) (s : State) : Prop :=
  ∀ code, .execDone id code ∈ s.sent → ∃ chunks,
    s.sent = chunks.map (chunkMsg id) ++ [.execDone id code] ∧
    ∀ output, bytesOf output chunks = (s.feeds output).produced

/-- A task that is over has reported the end of a command that was not killed. -/
def Reported (id : UInt32) (s : State) : Prop :=
  s.task = .ended → s.signals = 0 → ∃ code, .execDone id code ∈ s.sent

def Complete (id : UInt32) (s : State) : Prop := Whole id s ∧ Reported id s

/-- The select loop takes the exit code only when no output is on its way, and
leaves on a dropped command channel only when that kills the child. -/
def Drained (s : State) : Action → Prop
  | .selectDone => ∀ output, s.pending output = []
  | .killChild => s.task = .signalling true → s.signals ≠ 0 ∨ s.slot ∧ s.child = .running
  | _ => True

instance (s : State) : (action : Action) → Decidable (Drained s action)
  | .selectDone => decidable_of_iff (s.pending .stdout = [] ∧ s.pending .stderr = [])
      ⟨fun empty output => by cases output <;> simp [empty], fun empty => ⟨empty _, empty _⟩⟩
  | .killChild => inferInstanceAs (Decidable (_ → _))
  | .produce _ _ | .close _ | .exit _ | .read _ _ | .readEnd _ | .forward _ | .bridgeReceive
  | .bridgeSend | .bridgeEnd | .waitLock | .waitChild | .report | .bridgeDone | .command _
  | .dropSender | .selectChunk | .selectCommand | .killLock => isTrue trivial

@[simp] theorem bytesOf_nil (output : Output) : bytesOf output [] = [] := rfl

@[simp] theorem bytesOf_append (output : Output) (a b : List StreamChunk) :
    bytesOf output (a ++ b) = bytesOf output a ++ bytesOf output b := by
  simp [bytesOf]

@[simp] theorem bytesOf_cons (output : Output) (chunk : StreamChunk) (rest : List StreamChunk) :
    bytesOf output (chunk :: rest) =
      (if chunk.stream = output.stream then chunk.data else []) ++ bytesOf output rest := by
  by_cases own : chunk.stream = output.stream <;> simp [bytesOf, own]

theorem stream_injective : Function.Injective Output.stream := by
  rintro (_ | _) (_ | _) same <;> first | rfl | cases same

theorem chunkMsg_injective (id : UInt32) : Function.Injective (chunkMsg id) := by
  rintro ⟨_, _⟩ ⟨_, _⟩ same
  cases same
  rfl

theorem done_not_chunk (id : UInt32) (code : Option Int32) (chunks : List StreamChunk) :
    ControlMsg.execDone id code ∉ chunks.map (chunkMsg id) := by
  intro member
  obtain ⟨chunk, _, same⟩ := List.mem_map.mp member
  cases same

@[simp] theorem State.setFeed_own (s : State) (output : Output) (feed : Feed) :
    (s.setFeed output feed).feeds output = feed := by
  simp [setFeed]

theorem State.setFeed_other (s : State) (feed : Feed) (other : o ≠ output) :
    (s.setFeed output feed).feeds o = s.feeds o := by
  simp [setFeed, other]

/-- Nothing is lost while the task runs; the exit code is known only after the
child has exited; and nothing follows the end of the command. -/
structure Tracked (id : UInt32) (s : State) : Prop where
  running : s.task ≠ .ended → ∃ chunks, s.sent = chunks.map (chunkMsg id) ∧
    ∀ output, bytesOf output chunks ++ s.pending output = (s.feeds output).produced
  ended : s.task = .ended → ∃ chunks : List StreamChunk, s.sent = chunks.map (chunkMsg id) ∨
    ∃ code, s.sent = chunks.map (chunkMsg id) ++ [.execDone id code] ∧ s.child ≠ .running
  bridged : s.bridge = .ended → s.task = .ended ∨ ∀ output, (s.feeds output).reader = .ended
  slotted : s.waiter = .starting → s.slot
  exited : (∃ code, s.waiter = .reporting code) ∨ s.doneTx ≠ none ∨ s.doneRx ≠ none →
    s.child ≠ .running

theorem start_tracked (id : UInt32) : Tracked id State.start := by
  refine ⟨fun _ => ⟨[], rfl, fun output => rfl⟩, ?_, ?_, ?_, ?_⟩ <;> simp [State.start]

section
variable {id : UInt32} {s t : State}

/-- A change of one feed that passes its output on keeps the account. -/
theorem Tracked.setFeed (tracked : Tracked id s) {feed : Feed} (more written : Bytes)
    (queued : ∀ o, bytesOf o chunks = bytesOf o s.chunks ++ if o = output then more else [])
    (held : more ++ feed.reader.held ++ feed.unread =
      (s.feeds output).reader.held ++ (s.feeds output).unread ++ written)
    (produced : feed.produced = (s.feeds output).produced ++ written)
    (bridge : s.bridge = .ended → s.task = .ended ∨ feed.reader = .ended) :
    Tracked id { s.setFeed output feed with chunks } := by
  refine ⟨?_, tracked.ended, ?_, tracked.slotted, tracked.exited⟩
  · intro active
    obtain ⟨sentChunks, sent, flow⟩ := tracked.running active
    refine ⟨sentChunks, sent, fun o => ?_⟩
    have account := flow o
    simp only [State.pending, bytesOf_append, List.append_assoc] at account ⊢
    by_cases own : o = output
    · subst own
      simp only [State.setFeed_own, queued, if_true, produced, ← account,
        List.append_assoc] at held ⊢
      rw [held]
      rfl
    · rw [State.setFeed_other s feed own, queued, if_neg own, List.append_nil]
      exact account
  · intro gone
    rcases tracked.bridged gone with finished | read
    · exact Or.inl finished
    · rcases bridge gone with finished | last
      · exact Or.inl finished
      · right
        intro o
        by_cases own : o = output
        · subst own
          rw [State.setFeed_own]
          exact last
        · rw [State.setFeed_other s feed own]
          exact read o

theorem feed_tracked (tracked : Tracked id s) {feed : Feed} (written : Bytes)
    (held : feed.reader.held ++ feed.unread =
      (s.feeds output).reader.held ++ (s.feeds output).unread ++ written)
    (produced : feed.produced = (s.feeds output).produced ++ written)
    (bridge : (s.feeds output).reader = .ended → feed.reader = .ended) :
    Tracked id (s.setFeed output feed) := by
  apply tracked.setFeed [] written (by simp) held produced
  intro gone
  exact (tracked.bridged gone).imp_right (fun read => bridge (read output))

/-- The task may leave the loop at any time; what it has sent stays. -/
theorem Tracked.setTask (tracked : Tracked id s) (active : s.task ≠ .ended)
    (task : Task) (commands : List ExecCmd) (lock : Option Holder) (signals : Nat) :
    Tracked id { s with task, commands, lock, signals } := by
  obtain ⟨chunks, sent, flow⟩ := tracked.running active
  refine ⟨fun _ => ⟨chunks, sent, flow⟩, fun _ => ⟨chunks, Or.inl sent⟩, ?_, tracked.slotted,
    tracked.exited⟩
  intro gone
  exact (tracked.bridged gone).imp_left (fun finished => absurd finished active)

/-- Once the task has ended, what is on its way no longer matters. -/
theorem Tracked.closed (tracked : Tracked id s) (finished : s.task = .ended)
    (feeds : Output → Feed) (chunks : List StreamChunk) (bridge : Bridge) :
    Tracked id { s with feeds, chunks, bridge } :=
  ⟨fun active => absurd finished active, tracked.ended, fun _ => Or.inl finished, tracked.slotted,
    tracked.exited⟩

theorem forward_tracked (tracked : Tracked id s) (stepped : s.step id (.forward output) = some t) :
    Tracked id t := by
  simp only [State.step] at stepped
  split at stepped
  · rename_i data sending
    split at stepped
    · rename_i gone
      -- a reader that still sends has lost its receiver to the end of the task
      have finished : s.task = .ended := by
        rcases tracked.bridged gone with finished | read
        · exact finished
        · rw [read output] at sending
          cases sending
      cases stepped
      exact tracked.closed finished _ _ _
    · rename_i receiving
      cases stepped
      refine tracked.setFeed data [] ?_ (by simp [sending, Reader.held])
        (by simp) (fun gone => absurd gone receiving)
      intro o
      simp [stream_injective.eq_iff, eq_comm]
  · cases stepped

theorem bridgeReceive_tracked (tracked : Tracked id s)
    (stepped : s.step id .bridgeReceive = some t) : Tracked id t := by
  simp only [State.step] at stepped
  split at stepped
  · rename_i chunk rest receiving queued
    cases stepped
    refine ⟨?_, tracked.ended, by simp, tracked.slotted, tracked.exited⟩
    simpa [State.pending, receiving, queued, Bridge.held] using tracked.running
  · cases stepped

theorem bridgeSend_tracked (tracked : Tracked id s) (stepped : s.step id .bridgeSend = some t) :
    Tracked id t := by
  simp only [State.step] at stepped
  split at stepped
  · rename_i chunk sending
    split at stepped
    · rename_i finished
      cases stepped
      exact tracked.closed finished _ _ _
    · cases stepped
      refine ⟨?_, tracked.ended, by simp, tracked.slotted, tracked.exited⟩
      simpa [State.pending, sending, Bridge.held] using tracked.running
  · cases stepped

theorem bridgeEnd_tracked (tracked : Tracked id s) (stepped : s.step id .bridgeEnd = some t) :
    Tracked id t := by
  simp only [State.step, Option.ite_none_right_eq_some, Option.some.injEq] at stepped
  obtain ⟨⟨receiving, _, stdout, stderr⟩, rfl⟩ := stepped
  refine ⟨?_, tracked.ended, fun _ => Or.inr ?_, tracked.slotted, tracked.exited⟩
  · simpa [State.pending, receiving, Bridge.held] using tracked.running
  · rintro (_ | _)
    · exact stdout
    · exact stderr

theorem waitLock_tracked (tracked : Tracked id s) (stepped : s.step id .waitLock = some t) :
    Tracked id t := by
  simp only [State.step] at stepped
  split at stepped
  · rename_i idle
    rw [if_pos (tracked.slotted idle.1)] at stepped
    cases stepped
    refine ⟨tracked.running, tracked.ended, tracked.bridged, by simp, ?_⟩
    rintro (⟨code, reporting⟩ | known)
    · cases reporting
    · exact tracked.exited (Or.inr known)
  · cases stepped

/-- A chunk moves from the account of the channel to that of the messages. -/
theorem selectChunk_tracked (tracked : Tracked id s) (stepped : s.step id .selectChunk = some t) :
    Tracked id t := by
  simp only [State.step] at stepped
  split at stepped
  · rename_i chunk rest selecting received
    cases stepped
    obtain ⟨chunks, sent, flow⟩ := tracked.running (by simp [selecting])
    refine ⟨fun _ => ⟨chunks ++ [chunk], by simp [sent, chunkMsg], ?_⟩, by simp [selecting],
      tracked.bridged, tracked.slotted, tracked.exited⟩
    intro output
    rw [← flow output]
    simp [State.pending, received]
  · cases stepped

theorem selectDone_tracked (tracked : Tracked id s) (stepped : s.step id .selectDone = some t) :
    Tracked id t := by
  simp only [State.step] at stepped
  split at stepped
  · rename_i code selecting known
    cases stepped
    obtain ⟨chunks, sent, _⟩ := tracked.running (by simp [selecting])
    have gone := tracked.exited (Or.inr (Or.inr (by simp [known])))
    exact ⟨by simp, fun _ => ⟨chunks, Or.inr ⟨code, by simp [sent], gone⟩⟩, fun _ => Or.inl rfl,
      tracked.slotted, fun _ => gone⟩
  · cases stepped

theorem selectCommand_tracked (tracked : Tracked id s)
    (stepped : s.step id .selectCommand = some t) : Tracked id t := by
  simp only [State.step] at stepped
  split at stepped
  · cases stepped
    exact ⟨tracked.running, tracked.ended, tracked.bridged, tracked.slotted, tracked.exited⟩
  · rename_i selecting _
    cases stepped
    exact tracked.setTask (by simp [selecting]) _ _ _ _
  · rename_i selecting _
    simp only [Option.ite_none_left_eq_some, Option.some.injEq] at stepped
    obtain ⟨_, rfl⟩ := stepped
    exact tracked.setTask (by simp [selecting]) _ _ _ _
  · cases stepped

theorem step_tracked (tracked : Tracked id s) (stepped : s.step id action = some t) :
    Tracked id t := by
  cases action with
  | produce output data =>
    simp only [State.step, Option.ite_none_right_eq_some, Option.some.injEq] at stepped
    obtain ⟨_, rfl⟩ := stepped
    exact feed_tracked tracked data (by simp) rfl (fun read => read)
  | close output =>
    simp only [State.step, Option.ite_none_right_eq_some, Option.some.injEq] at stepped
    obtain ⟨_, rfl⟩ := stepped
    exact feed_tracked tracked [] (by simp) (by simp) (fun read => read)
  | read output n =>
    simp only [State.step, Option.ite_none_right_eq_some, Option.some.injEq] at stepped
    obtain ⟨⟨reading, _⟩, rfl⟩ := stepped
    exact feed_tracked tracked [] (by simp [reading, Reader.held]) (by simp)
      (by simp [reading])
  | readEnd output =>
    simp only [State.step, Option.ite_none_right_eq_some, Option.some.injEq] at stepped
    obtain ⟨⟨reading, _⟩, rfl⟩ := stepped
    exact feed_tracked tracked [] (by simp [reading, Reader.held]) (by simp)
      (fun _ => rfl)
  | forward output => exact forward_tracked tracked stepped
  | exit code =>
    simp only [State.step, Option.ite_none_right_eq_some, Option.some.injEq] at stepped
    obtain ⟨alive, rfl⟩ := stepped
    refine ⟨tracked.running, ?_, tracked.bridged, tracked.slotted, by simp⟩
    intro finished
    obtain ⟨chunks, open_ | ⟨code, reported, gone⟩⟩ := tracked.ended finished
    · exact ⟨chunks, Or.inl open_⟩
    · exact absurd alive gone
  | bridgeReceive => exact bridgeReceive_tracked tracked stepped
  | bridgeSend => exact bridgeSend_tracked tracked stepped
  | bridgeEnd => exact bridgeEnd_tracked tracked stepped
  | waitLock => exact waitLock_tracked tracked stepped
  | waitChild =>
    simp only [State.step] at stepped
    split at stepped
    · rename_i code waiting gone
      cases stepped
      exact ⟨tracked.running, tracked.ended, tracked.bridged, by simp, by simp [gone]⟩
    · cases stepped
  | report =>
    simp only [State.step] at stepped
    split at stepped
    · rename_i code reporting
      cases stepped
      exact ⟨tracked.running, tracked.ended, tracked.bridged, by simp,
        fun _ => tracked.exited (Or.inl ⟨code, reporting⟩)⟩
    · cases stepped
  | bridgeDone =>
    simp only [State.step] at stepped
    split at stepped
    · rename_i code known
      cases stepped
      exact ⟨tracked.running, tracked.ended, tracked.bridged, tracked.slotted,
        fun _ => tracked.exited (Or.inr (Or.inl (by simp [known])))⟩
    · cases stepped
  | command | dropSender =>
    simp only [State.step, Option.ite_none_right_eq_some, Option.some.injEq] at stepped
    obtain ⟨_, rfl⟩ := stepped
    exact ⟨tracked.running, tracked.ended, tracked.bridged, tracked.slotted, tracked.exited⟩
  | selectChunk => exact selectChunk_tracked tracked stepped
  | selectDone => exact selectDone_tracked tracked stepped
  | selectCommand => exact selectCommand_tracked tracked stepped
  | killLock =>
    simp only [State.step] at stepped
    split at stepped
    · rename_i last killing
      simp only [Option.ite_none_right_eq_some, Option.some.injEq] at stepped
      obtain ⟨_, rfl⟩ := stepped
      exact tracked.setTask (by simp [killing]) _ _ _ _
    · cases stepped
  | killChild =>
    simp only [State.step] at stepped
    split at stepped
    · rename_i last signalling
      cases stepped
      exact tracked.setTask (by simp [signalling]) _ _ _ _
    · cases stepped

theorem step_sent (stepped : s.step id action = some t) (other : action ≠ .selectDone) :
    t.sent = s.sent ∨
      s.task ≠ .ended ∧ ∃ chunk, t.sent = s.sent ++ [chunkMsg id chunk] := by
  cases action with
  | selectDone => exact absurd rfl other
  | selectChunk =>
    simp only [State.step] at stepped
    split at stepped
    · rename_i chunk rest selecting _
      cases stepped
      exact Or.inr ⟨by simp [selecting], chunk, rfl⟩
    · cases stepped
  | _ =>
    left
    simp only [State.step] at stepped
    grind [State.setFeed]

theorem State.setFeed_produced (s : State) {feed : Feed}
    (kept : feed.produced = (s.feeds output).produced) (o : Output) :
    ((s.setFeed output feed).feeds o).produced = (s.feeds o).produced := by
  by_cases own : o = output
  · subst own
    rw [setFeed_own, kept]
  · rw [setFeed_other s feed own]

/-- A child that has exited writes nothing more. -/
theorem step_produced (stepped : s.step id action = some t) (gone : s.child ≠ .running)
    (output : Output) : (t.feeds output).produced = (s.feeds output).produced := by
  cases action with
  | produce o data =>
    simp only [State.step, Option.ite_none_right_eq_some, Option.some.injEq] at stepped
    exact absurd stepped.1.1 gone
  | close o | read o n | readEnd o =>
    simp only [State.step, Option.ite_none_right_eq_some, Option.some.injEq] at stepped
    obtain ⟨_, rfl⟩ := stepped
    exact s.setFeed_produced (by rfl) output
  | forward o =>
    simp only [State.step] at stepped
    split at stepped
    · split at stepped <;> cases stepped <;> exact s.setFeed_produced (by rfl) output
    · cases stepped
  | _ =>
    simp only [State.step] at stepped
    grind

/-- Before the end is reported there is nothing to check. -/
theorem whole_of_chunks {chunks : List StreamChunk} (sent : s.sent = chunks.map (chunkMsg id)) :
    Whole id s := by
  intro code reported
  rw [sent] at reported
  exact absurd reported (done_not_chunk id code chunks)

theorem append_eq_left {a b c : Bytes} (whole : a ++ b = c) : a = c ↔ b = [] := by
  subst whole
  exact List.self_eq_append_right

/-- The account is closed by the exit code: what is still on its way is lost. -/
theorem selectDone_whole (tracked : Tracked id s) (stepped : s.step id .selectDone = some t) :
    Whole id t ↔ ∀ output, s.pending output = [] := by
  simp only [State.step] at stepped
  split at stepped
  · rename_i code selecting known
    cases stepped
    obtain ⟨chunks, sent, flow⟩ := tracked.running (by simp [selecting])
    simp only [← fun output => append_eq_left (flow output)]
    constructor
    · intro complete
      obtain ⟨others, same, whole⟩ := complete code (by simp)
      rw [sent] at same
      have equal :=
        List.map_injective_iff.mpr (chunkMsg_injective id) (List.append_cancel_right same)
      rw [equal]
      exact whole
    · intro whole last reported
      rw [sent] at reported ⊢
      rcases List.mem_append.mp reported with chunk | same
      · exact absurd chunk (done_not_chunk id last chunks)
      · rw [List.mem_singleton.mp same]
        exact ⟨chunks, rfl, whole⟩
  · cases stepped

/-- The end is reported only of a child that has exited. -/
theorem Tracked.done_exited (tracked : Tracked id s) (reported : .execDone id code ∈ s.sent) :
    s.child ≠ .running := by
  by_cases finished : s.task = .ended
  · obtain ⟨chunks, sent | ⟨_, _, gone⟩⟩ := tracked.ended finished
    · rw [sent] at reported
      exact absurd reported (done_not_chunk id code chunks)
    · exact gone
  · obtain ⟨chunks, sent, _⟩ := tracked.running finished
    rw [sent] at reported
    exact absurd reported (done_not_chunk id code chunks)

theorem step_whole (tracked : Tracked id s) (stepped : s.step id action = some t)
    (other : action ≠ .selectDone) : Whole id t ↔ Whole id s := by
  rcases step_sent stepped other with same | ⟨active, chunk, more⟩
  · simp only [Whole, same]
    refine forall_congr' fun code => forall_congr' fun reported => ?_
    simp only [step_produced stepped (tracked.done_exited reported)]
  · obtain ⟨chunks, sent, _⟩ := tracked.running active
    rw [sent, ← List.map_singleton, ← List.map_append] at more
    exact iff_of_true (whole_of_chunks more) (whole_of_chunks sent)

/-- Only the exit code and a last `kill` end the task. -/
theorem step_task (stepped : s.step id action = some t)
    (done : action ≠ .selectDone) (kill : action ≠ .killChild) :
    (t.task = .ended ↔ s.task = .ended) ∧ t.signals = s.signals := by
  cases action with
  | selectDone => exact absurd rfl done
  | killChild => exact absurd rfl kill
  | _ =>
    simp only [State.step] at stepped
    grind [State.setFeed]

theorem killChild_reported (tracked : Tracked id s) (stepped : s.step id .killChild = some t) :
    Reported id s ∧ (Reported id t ↔ Drained s .killChild) := by
  simp only [State.step] at stepped
  split at stepped
  · rename_i last signalling
    cases stepped
    obtain ⟨chunks, sent, _⟩ := tracked.running (by simp [signalling])
    have silent : ∀ code, ControlMsg.execDone id code ∉ s.sent := by
      intro code reported
      rw [sent] at reported
      exact done_not_chunk id code chunks reported
    refine ⟨by simp [Reported, signalling], ?_⟩
    cases last with
    | false => simp [Reported, Drained, Task.afterKill, signalling]
    | true =>
      by_cases hit : s.slot ∧ s.child = .running
      · simp [Reported, Drained, hit]
      · simp [Reported, Drained, Task.afterKill, signalling, silent, hit]
  · cases stepped

theorem step_complete (tracked : Tracked id s) (stepped : s.step id action = some t) :
    Complete id t ↔ Complete id s ∧ Drained s action := by
  by_cases done : action = .selectDone
  · subst done
    have whole := selectDone_whole tracked stepped
    simp only [State.step] at stepped
    split at stepped
    · rename_i code selecting known
      cases stepped
      obtain ⟨chunks, sent, _⟩ := tracked.running (by simp [selecting])
      have before : Complete id s := ⟨whole_of_chunks sent, by simp [Reported, selecting]⟩
      refine ⟨fun complete => ⟨before, whole.mp complete.1⟩, fun drained => ?_⟩
      exact ⟨whole.mpr drained.2,
        fun _ _ => ⟨code, List.mem_append_right _ (List.mem_singleton.mpr rfl)⟩⟩
    · cases stepped
  · have whole := step_whole tracked stepped done
    by_cases kill : action = .killChild
    · subst kill
      obtain ⟨before, after⟩ := killChild_reported tracked stepped
      rw [Complete, Complete, whole, after]
      rw [and_iff_left before]
    · have free : Drained s action := by
        cases action <;> trivial
      obtain ⟨task, signals⟩ := step_task stepped done kill
      have reported : Reported id t ↔ Reported id s := by
        simp only [Reported, task, signals]
        refine forall_congr' fun finished => forall_congr' fun _ => ?_
        rcases step_sent stepped done with same | ⟨active, _⟩
        · rw [same]
        · exact absurd finished active
      rw [Complete, Complete, whole, reported]
      exact (and_iff_left free).symm

end

/-- The output of a command is complete exactly when the select loop never
takes the exit code while output is on its way to it, and never leaves without
it on a dropped command channel. -/
theorem output_complete_iff (id : UInt32) (actions : List Action) (s : State)
    (run : Runs.exec (State.step id) State.start actions = some s) :
    Complete id s ↔ Runs.Meets (State.step id) Drained State.start actions := by
  have kept := Runs.guarded_iff (P := Complete id) (g := Drained)
    (fun tracked stepped => ⟨step_tracked tracked stepped, step_complete tracked stepped⟩)
    run (start_tracked id)
  rw [kept]
  refine and_iff_right ⟨whole_of_chunks (s := State.start) List.map_nil.symm, ?_⟩
  simp [Reported, State.start]

/-- The child writes one chunk and exits; the chunk is sent before the code. -/
def patientRun : List Action :=
  [.produce .stdout [104, 105], .exit (some 0), .read .stdout 2, .forward .stdout, .bridgeReceive,
    .bridgeSend, .selectChunk, .waitLock, .waitChild, .report, .bridgeDone, .selectDone]

theorem output_complete_iff_patient : ∃ s,
    Runs.exec (State.step 5) State.start patientRun = some s ∧
    s.sent = [.execChunk 5 0 [104, 105], .execDone 5 (some 0)] ∧ Complete 5 s := by
  refine ⟨_, rfl, rfl, (output_complete_iff 5 patientRun _ rfl).mpr (by decide)⟩

/-- The same child; the chunk is in the channel when the code is taken. -/
def hastyRun : List Action :=
  [.produce .stdout [104, 105], .exit (some 0), .read .stdout 2, .forward .stdout, .bridgeReceive,
    .bridgeSend, .waitLock, .waitChild, .report, .bridgeDone, .selectDone]

theorem output_lost : ∃ s,
    Runs.exec (State.step 5) State.start hastyRun = some s ∧
    s.sent = [.execDone 5 (some 0)] ∧ ¬ Complete 5 s := by
  refine ⟨_, rfl, rfl, fun complete => ?_⟩
  obtain ⟨chunks, sent, whole⟩ := complete.1 (some 0) (List.mem_singleton.mpr rfl)
  have length : 1 = (chunks.map (chunkMsg 5) ++ [ControlMsg.execDone 5 (some 0)]).length :=
    congrArg List.length sent
  have empty : chunks = [] := by simpa using length
  have lost := whole .stdout
  rw [empty] at lost
  cases lost

end LanLink.Exec
