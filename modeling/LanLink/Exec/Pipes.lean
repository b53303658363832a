import LanLink.Exec.Task

/-! A command that is run to its end. The call and its child have a pipe for the input and one
for each output, and take their steps in any order. The call reads the outputs one behind the
other, and writes the whole input before, so each may wait for a pipe that the other fills or
leaves empty. A child that cannot be started is left out, and so is one that closes its input or
leaves its outputs to another process, and what becomes of the child after the call has
returned. -/
namespace LanLink.Exec.Pipes
open Words Runs

/-- A write that does not fit in an empty pipe is several ones; a read takes one byte. -/
inductive Syscall where
  | write (output : Output) (data : Bytes)
  | close (output : Output)
  | read
  deriving DecidableEq

structure ExecResult where
  exitCode : Int32
  stdout : String
  stderr : String
  deriving DecidableEq

inductive ExecError where
  | brokenPipe
  | invalidUtf8
  deriving DecidableEq

/-- The system calls and the exit code are those of the child on this input. There is no input
for `exec`, which keeps its end of that pipe up to `wait`; `exec_with_input` writes its data and
drops it. -/
structure Command where
  capacity : Nat
  input : Option Bytes
  script : List Syscall
  code : Option Int32
  positive : 0 < capacity
  fits : ∀ output data, .write output data ∈ script → data.length ≤ capacity

/-- How far the call is: what it has to write yet, and what it holds of an output. -/
inductive Caller where
  | writing (rest : Bytes)
  | stdout (held : Bytes)
  | stderr (stdout : String) (held : Bytes)
  | waiting (stdout stderr : String)
  | returned (result : Except ExecError ExecResult)

structure State where
  caller : Caller
  todo : List Syscall
  exited : Bool
  /-- The number of bytes in the pipe of the input. -/
  stdin : Nat
  unread : Output → Bytes
  closed : Output → Bool

def fromUtf8 (bytes : Bytes) : Option String := String.fromUTF8? ⟨bytes.toArray⟩

inductive Action where
  | child
  | caller
  deriving DecidableEq

namespace Command

def start (c : Command) : State where
  caller := match c.input with
    | some data => .writing data
    | none => .stdout []
  todo := c.script
  exited := false
  stdin := 0
  unread _ := []
  closed _ := false

/-- Whether a child that finds no byte of its input finds the end of it. -/
def inputEnded (c : Command) : Caller → Bool
  | .writing _ => false
  | .stdout _ | .stderr .. => c.input.isSome
  | .waiting .. | .returned _ => true

/-- Whether the child need not wait. A write to an output that it has closed fails. -/
def Ready (c : Command) (s : State) : Syscall → Prop
  | .write output data =>
    s.closed output ∨ (s.unread output).length + data.length ≤ c.capacity
  | .close _ => True
  | .read => 0 < s.stdin ∨ c.inputEnded s.caller

instance (c : Command) (s : State) : (call : Syscall) → Decidable (c.Ready s call)
  | .write .. => inferInstanceAs (Decidable (_ ∨ _))
  | .close _ => isTrue trivial
  | .read => inferInstanceAs (Decidable (_ ∨ _))

end Command

def State.perform (s : State) : Syscall → State
  | .write output data =>
    if s.closed output then s
    else { s with unread := Function.update s.unread output (s.unread output ++ data) }
  | .close output => { s with closed := Function.update s.closed output true }
  | .read => { s with stdin := s.stdin - 1 }

namespace Command

def childStep (c : Command) (s : State) : Option State :=
  match s.todo with
  | [] => if s.exited then none else some { s with exited := true, closed := fun _ => true }
  | call :: rest => if c.Ready s call then some { s.perform call with todo := rest } else none

/-- `read_to_string` looks at the text when it has all of it. -/
def afterStdout (held : Bytes) : Caller :=
  match fromUtf8 held with
  | some stdout => .stderr stdout []
  | none => .returned (.error .invalidUtf8)

def afterStderr (stdout : String) (held : Bytes) : Caller :=
  match fromUtf8 held with
  | some stderr => .waiting stdout stderr
  | none => .returned (.error .invalidUtf8)

def callerStep (c : Command) (s : State) : Option State :=
  match s.caller with
  | .writing [] => some { s with caller := .stdout [] }
  | .writing (_ :: rest) =>
    if s.exited then some { s with caller := .returned (.error .brokenPipe) }
    else if s.stdin < c.capacity then
      some { s with caller := .writing rest, stdin := s.stdin + 1 }
    else none
  | .stdout held =>
    match s.unread .stdout with
    | byte :: more =>
      some { s with caller := .stdout (held ++ [byte]),
                    unread := Function.update s.unread .stdout more }
    | [] => if s.closed .stdout then some { s with caller := afterStdout held } else none
  | .stderr stdout held =>
    match s.unread .stderr with
    | byte :: more =>
      some { s with caller := .stderr stdout (held ++ [byte]),
                    unread := Function.update s.unread .stderr more }
    | [] => if s.closed .stderr then some { s with caller := afterStderr stdout held } else none
  | .waiting stdout stderr =>
    if s.exited then some { s with caller := .returned (.ok ⟨c.code.getD (-1), stdout, stderr⟩) }
    else none
  | .returned _ => none

def step (c : Command) (s : State) : Action → Option State
  | .child =>
    match s.caller with
    | .returned _ => none
    | _ => c.childStep s
  | .caller => c.callerStep s

end Command

/-- What a child has done, where nothing kept it from it. -/
structure Progress where
  reads : Nat
  written : Output → Bytes
  closed : Output → Bool

namespace Progress

def start : Progress := ⟨0, fun _ => [], fun _ => false⟩

def after (p : Progress) : Syscall → Progress
  | .write output data =>
    if p.closed output then p
    else { p with written := Function.update p.written output (p.written output ++ data) }
  | .close output => { p with closed := Function.update p.closed output true }
  | .read => { p with reads := p.reads + 1 }

def step (p : Progress) (call : Syscall) : Option Progress := some (p.after call)

end Progress

namespace Command

def data (c : Command) : Bytes := c.input.getD []

/-- The child has read so much that the pipe holds the rest of its input. -/
def Fed (c : Command) (p : Progress) : Prop := c.data.length ≤ p.reads + c.capacity

/-- What the child has to have done for a call not to wait for ever: the pipe has room, or the
caller is going to read it; there is an input, or its pipe is going to be dropped. -/
def Free (c : Command) (p : Progress) : Syscall → Prop
  | .write output data => p.closed output ∨
      (p.written output).length + data.length ≤ c.capacity ∨
      (c.Fed p ∧ (output = .stderr → p.closed .stdout))
  | .close _ => True
  | .read => c.input.isSome ∨
      (p.closed .stdout ∧ (p.closed .stderr ∨ fromUtf8 (p.written .stdout) = none))

/-- No call of the child waits for ever. -/
def Flows (c : Command) : Prop := Meets Progress.step c.Free .start c.script

def final (c : Command) : Progress := c.script.foldl Progress.after .start

/-- The result of a child that was fed. -/
def answer (c : Command) (p : Progress) : Except ExecError ExecResult :=
  match fromUtf8 (p.written .stdout), fromUtf8 (p.written .stderr) with
  | some stdout, some stderr => .ok ⟨c.code.getD (-1), stdout, stderr⟩
  | _, _ => .error .invalidUtf8

/-- A child that does not want all of its input may be gone before it is fed, if the pipes hold
what it writes. -/
def Possible (c : Command) (result : Except ExecError ExecResult) : Prop :=
  c.Flows ∧ ((result = c.answer c.final ∧ c.Fed c.final) ∨
    (result = .error .brokenPipe ∧ c.final.reads < c.data.length ∧
      ∀ output, (c.final.written output).length ≤ c.capacity))

instance (c : Command) (p : Progress) : Decidable (c.Fed p) := inferInstanceAs (Decidable (_ ≤ _))

instance (c : Command) (p : Progress) : (call : Syscall) → Decidable (c.Free p call)
  | .write .. => inferInstanceAs (Decidable (_ ∨ _ ∨ _ ∧ _))
  | .close _ => isTrue trivial
  | .read => inferInstanceAs (Decidable (_ ∨ _ ∧ (_ ∨ _)))

instance (c : Command) : Decidable c.Flows := inferInstanceAs (Decidable (Meets ..))

end Command

variable {c : Command} {s t : State} {p q : Progress} {done : List Syscall}

namespace Progress

/-- What a child has done it does not undo. -/
structure Before (p q : Progress) : Prop where
  reads : p.reads ≤ q.reads
  written : ∀ output, (p.written output).length ≤ (q.written output).length
  closed : ∀ output, p.closed output → q.closed output ∧ q.written output = p.written output

theorem Before.refl (p : Progress) : Before p p :=
  ⟨Nat.le_refl _, fun _ => Nat.le_refl _, fun _ closed => ⟨closed, rfl⟩⟩

theorem Before.after (before : Before p q) (call : Syscall) : Before p (q.after call) := by
  obtain ⟨reads, written, closed⟩ := before
  cases call with
  | read => exact ⟨Nat.le_succ_of_le reads, written, closed⟩
  | close output =>
    refine ⟨reads, written, fun other shut => ⟨?_, (closed other shut).2⟩⟩
    by_cases same : other = output
    · simp [Progress.after, same]
    · simpa [Progress.after, same] using (closed other shut).1
  | write output data =>
    by_cases full : q.closed output
    · simpa [Progress.after, full] using ⟨reads, written, closed⟩
    · refine ⟨by simpa [Progress.after, full] using reads, fun other => ?_, fun other shut => ?_⟩
      · have least := written other
        by_cases same : other = output
        · subst same
          simp only [Progress.after, full, Bool.false_eq_true, if_false, Function.update_self,
            List.length_append]
          omega
        · simpa [Progress.after, full, same] using least
      · have same : other ≠ output := fun same => full (same ▸ (closed other shut).1)
        simpa [Progress.after, full, same] using closed other shut

theorem Before.run (run : exec step p calls = some q) : Before p q := by
  refine invariant (P := p.Before) (fun before stepped => ?_) run (.refl p)
  cases stepped
  exact before.after _

theorem exec_foldl (p : Progress) (calls : List Syscall) :
    exec step p calls = some (calls.foldl after p) := by
  induction calls generalizing p with
  | nil => rfl
  | cons call rest ih => exact exec_cons.mpr ⟨p.after call, rfl, ih (p.after call)⟩

end Progress

namespace Command

theorem Fed.later (fed : c.Fed p) (before : p.Before q) : c.Fed q := by
  have := before.reads
  unfold Fed at *
  omega

/-- A child whose call goes on to the other output, or ends, is not kept waiting. -/
theorem meets_of_heard (fed : c.Fed p) (closed : p.closed .stdout)
    (ended : p.closed .stderr ∨ fromUtf8 (p.written .stdout) = none) (calls : List Syscall) :
    Meets Progress.step c.Free p calls := by
  refine meets_mono (g := fun _ _ => True) (P := p.Before) ?_ ?_
    (meets_of_forall fun _ _ _ => trivial) (.refl p)
  · intro q call r before stepped
    cases stepped
    exact before.after call
  · intro q call before _
    cases call with
    | write output data =>
      exact .inr (.inr ⟨fed.later before, fun _ => (before.closed _ closed).1⟩)
    | close output => trivial
    | read =>
      refine .inr ⟨(before.closed _ closed).1, ended.imp (fun shut => (before.closed _ shut).1) ?_⟩
      intro invalid
      rw [(before.closed _ closed).2, invalid]

end Command

@[simp] theorem State.perform_caller (s : State) (call : Syscall) :
    (s.perform call).caller = s.caller := by
  cases call <;> simp only [State.perform]
  split <;> rfl

@[simp] theorem State.perform_exited (s : State) (call : Syscall) :
    (s.perform call).exited = s.exited := by
  cases call <;> simp only [State.perform]
  split <;> rfl

/-- What a step of the call can be. -/
inductive Turn (c : Command) (s : State) : State → Prop where
  | dropped (caller : s.caller = .writing []) : Turn c s { s with caller := .stdout [] }
  | refused (caller : s.caller = .writing (byte :: rest)) (exited : s.exited) :
    Turn c s { s with caller := .returned (.error .brokenPipe) }
  | wrote (caller : s.caller = .writing (byte :: rest)) (room : s.stdin < c.capacity) :
    Turn c s { s with caller := .writing rest, stdin := s.stdin + 1 }
  | stdout (caller : s.caller = .stdout held) (unread : s.unread .stdout = byte :: more) :
    Turn c s { s with caller := .stdout (held ++ [byte]),
                      unread := Function.update s.unread .stdout more }
  | heard (caller : s.caller = .stdout held) (unread : s.unread .stdout = [])
    (shut : s.closed .stdout) : Turn c s { s with caller := Command.afterStdout held }
  | stderr (caller : s.caller = .stderr text held) (unread : s.unread .stderr = byte :: more) :
    Turn c s { s with caller := .stderr text (held ++ [byte]),
                      unread := Function.update s.unread .stderr more }
  | ended (caller : s.caller = .stderr text held) (unread : s.unread .stderr = [])
    (shut : s.closed .stderr) : Turn c s { s with caller := Command.afterStderr text held }
  | waited (caller : s.caller = .waiting out err) (exited : s.exited) :
    Turn c s { s with caller := .returned (.ok ⟨c.code.getD (-1), out, err⟩) }

theorem callerStep_turn (stepped : c.callerStep s = some t) : Turn c s t := by
  unfold Command.callerStep at stepped
  split at stepped
  case h_1 caller =>
    cases stepped
    exact .dropped caller
  case h_2 byte rest caller =>
    split at stepped
    case isTrue exited =>
      cases stepped
      exact .refused caller exited
    case isFalse =>
      split at stepped
      case isTrue room =>
        cases stepped
        exact .wrote caller room
      case isFalse => cases stepped
  case h_3 held caller =>
    split at stepped
    case h_1 byte more unread =>
      cases stepped
      exact .stdout caller unread
    case h_2 unread =>
      split at stepped
      case isTrue shut =>
        cases stepped
        exact .heard caller unread shut
      case isFalse => cases stepped
  case h_4 text held caller =>
    split at stepped
    case h_1 byte more unread =>
      cases stepped
      exact .stderr caller unread
    case h_2 unread =>
      split at stepped
      case isTrue shut =>
        cases stepped
        exact .ended caller unread shut
      case isFalse => cases stepped
  case h_5 out err caller =>
    split at stepped
    case isTrue exited =>
      cases stepped
      exact .waited caller exited
    case isFalse => cases stepped
  case h_6 => cases stepped

/-- What the call has of the input and the outputs, against what the child has done. -/
def Caller.Holds (c : Command) (p : Progress) (s : State) : Caller → Prop
  | .writing rest => rest.length + s.stdin + p.reads = c.data.length ∧ s.stdin ≤ c.capacity ∧
      ∀ output, s.unread output = p.written output
  | .stdout held => s.stdin = c.data.length - p.reads ∧ c.Fed p ∧
      held ++ s.unread .stdout = p.written .stdout ∧ s.unread .stderr = p.written .stderr
  | .stderr out held => s.stdin = c.data.length - p.reads ∧ c.Fed p ∧ s.closed .stdout ∧
      fromUtf8 (p.written .stdout) = some out ∧ held ++ s.unread .stderr = p.written .stderr
  | .waiting out err => c.Fed p ∧ (∀ output, s.closed output) ∧
      fromUtf8 (p.written .stdout) = some out ∧ fromUtf8 (p.written .stderr) = some err
  | .returned result => c.Possible result

/-- The child has done the first part of its script, and has not been kept waiting for ever. -/
structure Linked (c : Command) (done : List Syscall) (p : Progress) (s : State) : Prop where
  script : c.script = done ++ s.todo
  run : exec Progress.step .start done = some p
  free : Meets Progress.step c.Free .start done
  closed : ∀ output, s.closed output = (p.closed output || s.exited)
  ended : s.exited → s.todo = []
  room : ∀ output, (s.unread output).length ≤ c.capacity
  holds : s.caller.Holds c p s

namespace Linked

theorem start (c : Command) : Linked c [] .start c.start where
  script := rfl
  run := rfl
  free := trivial
  closed _ := rfl
  ended exited := by cases exited
  room _ := Nat.zero_le _
  holds := by
    unfold Command.start
    cases input : c.input with
    | none => simp [Caller.Holds, Command.Fed, Command.data, Progress.start, input]
    | some data => simp [Caller.Holds, Command.data, Progress.start, input]

theorem running (linked : Linked c done p s) (todo : s.todo = call :: rest) : s.exited = false := by
  by_contra exited
  have none := linked.ended (Bool.not_eq_false _ ▸ exited)
  rw [todo] at none
  cases none

theorem closed_eq (linked : Linked c done p s) (todo : s.todo = call :: rest) (output : Output) :
    s.closed output = p.closed output := by
  rw [linked.closed, linked.running todo, Bool.or_false]

theorem to_final (linked : Linked c done p s) : exec Progress.step p s.todo = some c.final := by
  have whole := Progress.exec_foldl .start c.script
  rw [linked.script] at whole
  obtain ⟨q, first, second⟩ := exec_append.mp whole
  rw [linked.run] at first
  cases first
  rw [second, Command.final, linked.script]

/-- The next system call is on the way to what the child has done in the end. -/
theorem after_final (linked : Linked c done p s) (todo : s.todo = call :: rest) :
    (p.after call).Before c.final := by
  have later := linked.to_final
  rw [todo] at later
  obtain ⟨q, made, later⟩ := exec_cons.mp later
  cases made
  exact .run later

theorem final_eq (linked : Linked c done p s) (todo : s.todo = []) : c.final = p := by
  have rest := linked.to_final
  rw [todo] at rest
  exact (Option.some.inj rest).symm

theorem final_written (linked : Linked c done p s) (shut : s.closed output) :
    c.final.written output = p.written output := by
  cases todo : s.todo with
  | nil => rw [linked.final_eq todo]
  | cons call rest =>
    rw [linked.closed_eq todo] at shut
    exact ((Progress.Before.run linked.to_final).closed output shut).2

theorem flows (linked : Linked c done p s) (rest : Meets Progress.step c.Free p s.todo) : c.Flows := by
  rw [Command.Flows, linked.script, meets_append linked.run]
  exact ⟨linked.free, rest⟩

theorem flows_of_heard (linked : Linked c done p s) (fed : c.Fed p) (shut : s.closed .stdout)
    (ended : s.closed .stderr ∨ fromUtf8 (p.written .stdout) = none) : c.Flows := by
  refine linked.flows ?_
  cases todo : s.todo with
  | nil => trivial
  | cons call rest =>
    rw [linked.closed_eq todo] at shut ended
    exact Command.meets_of_heard fed shut ended _

theorem input_isSome (some : 0 < c.data.length) : c.input.isSome := by
  unfold Command.data at some
  cases input : c.input with
  | none => simp [input] at some
  | some data => rfl

/-- A call of the child that need not wait is one that never waits for ever. -/
theorem call_free (linked : Linked c done p s) (todo : s.todo = call :: rest)
    (ready : c.Ready s call) (waits : ∀ result, s.caller ≠ .returned result) : c.Free p call := by
  have closed := linked.closed_eq todo
  have holds := linked.holds
  cases call with
  | close output => trivial
  | write output data =>
    rcases ready with shut | room
    · exact .inl (closed output ▸ shut)
    · cases caller : s.caller with
      | writing left =>
        rw [caller] at holds
        exact .inr (.inl (holds.2.2 output ▸ room))
      | stdout held =>
        rw [caller] at holds
        obtain ⟨-, fed, -, same⟩ := holds
        cases output with
        | stdout => exact .inr (.inr ⟨fed, nofun⟩)
        | stderr => exact .inr (.inl (same ▸ room))
      | stderr out held =>
        rw [caller] at holds
        exact .inr (.inr ⟨holds.2.1, fun _ => closed _ ▸ holds.2.2.1⟩)
      | waiting out err =>
        rw [caller] at holds
        exact .inl (closed output ▸ holds.2.1 output)
      | returned result => exact absurd caller (waits result)
  | read =>
    rw [Command.Ready] at ready
    cases caller : s.caller with
    | writing left =>
      rw [caller] at holds ready
      have some := ready.resolve_right nofun
      have length := holds.1
      exact .inl (input_isSome (by omega))
    | stdout held =>
      rw [caller] at holds ready
      refine .inl (ready.elim (fun some => input_isSome ?_) id)
      have length := holds.1
      omega
    | stderr out held =>
      rw [caller] at holds ready
      refine .inl (ready.elim (fun some => input_isSome ?_) id)
      have length := holds.1
      omega
    | waiting out err =>
      rw [caller] at holds
      exact .inr ⟨closed _ ▸ holds.2.1 _, .inl (closed _ ▸ holds.2.1 _)⟩
    | returned result => exact absurd caller (waits result)

/-- The child has made one call more. -/
theorem extend (linked : Linked c done p s) (todo : s.todo = call :: rest) (free : c.Free p call)
    (closed : ∀ output, (s.perform call).closed output = (p.after call).closed output)
    (room : ∀ output, ((s.perform call).unread output).length ≤ c.capacity)
    (holds : s.caller.Holds c (p.after call) (s.perform call)) :
    Linked c (done ++ [call]) (p.after call) { s.perform call with todo := rest } where
  script := by simp [linked.script, todo]
  run := exec_append.mpr ⟨p, linked.run, rfl⟩
  free := by
    rw [meets_append linked.run]
    exact ⟨linked.free, free, fun _ _ => trivial⟩
  closed output := by simp [closed output, linked.running todo]
  ended exited := by simp [linked.running todo] at exited
  room := room
  holds := by
    show Caller.Holds c _ _ (s.perform call).caller
    rw [State.perform_caller]
    cases caller : s.caller <;> rw [caller] at holds <;> exact holds

theorem written (linked : Linked c done p s) (todo : s.todo = .write output data :: rest)
    (ready : c.Ready s (.write output data)) (waits : ∀ result, s.caller ≠ .returned result) :
    Linked c (done ++ [.write output data]) (p.after (.write output data))
      { s.perform (.write output data) with todo := rest } := by
  have free := linked.call_free todo ready waits
  have same := linked.closed_eq todo output
  by_cases shut : s.closed output
  · have before : s.perform (.write output data) = s := if_pos shut
    have after : p.after (.write output data) = p := if_pos (same ▸ shut)
    refine linked.extend todo free ?_ ?_ ?_ <;> simp only [before, after]
    · exact linked.closed_eq todo
    · exact linked.room
    · exact linked.holds
  · have before : s.perform (.write output data) = { s with
        unread := Function.update s.unread output (s.unread output ++ data) } := if_neg shut
    have after : p.after (.write output data) = { p with
        written := Function.update p.written output (p.written output ++ data) } :=
      if_neg (same ▸ shut)
    have holds := linked.holds
    refine linked.extend todo free ?_ (fun other => ?_) ?_ <;> simp only [before, after]
    · exact linked.closed_eq todo
    · have room := ready.resolve_left shut
      by_cases here : other = output
      · subst here
        simpa using room
      · simpa [here] using linked.room other
    · cases caller : s.caller with
      | writing left =>
        rw [caller] at holds
        refine ⟨holds.1, holds.2.1, fun other => ?_⟩
        by_cases here : other = output
        · subst here
          simp [holds.2.2]
        · simp [here, holds.2.2]
      | stdout held =>
        rw [caller] at holds
        obtain ⟨stdin, fed, out, err⟩ := holds
        cases output with
        | stdout => exact ⟨stdin, fed, by simp [← out], by simp [err]⟩
        | stderr => exact ⟨stdin, fed, by simp [out], by simp [err]⟩
      | stderr out held =>
        rw [caller] at holds
        obtain ⟨stdin, fed, closed, text, err⟩ := holds
        cases output with
        | stdout => exact absurd closed shut
        | stderr => exact ⟨stdin, fed, closed, by simpa using text, by simp [← err]⟩
      | waiting out err =>
        rw [caller] at holds
        exact absurd (holds.2.1 output) shut
      | returned result => exact absurd caller (waits result)

theorem shut (linked : Linked c done p s) (todo : s.todo = .close output :: rest)
    (waits : ∀ result, s.caller ≠ .returned result) :
    Linked c (done ++ [.close output]) (p.after (.close output))
      { s.perform (.close output) with todo := rest } := by
  have grows (other : Output) (closed : s.closed other) :
      Function.update s.closed output true other := by
    by_cases here : other = output
    · simp [here]
    · simpa [here] using closed
  refine linked.extend todo trivial (fun other => ?_) linked.room ?_
  · by_cases here : other = output
    · simp [State.perform, Progress.after, here]
    · simpa [State.perform, Progress.after, here] using linked.closed_eq todo other
  · have holds := linked.holds
    cases caller : s.caller with
    | writing left =>
      rw [caller] at holds
      exact holds
    | stdout held =>
      rw [caller] at holds
      exact holds
    | stderr out held =>
      rw [caller] at holds
      exact ⟨holds.1, holds.2.1, grows _ holds.2.2.1, holds.2.2.2⟩
    | waiting out err =>
      rw [caller] at holds
      exact ⟨holds.1, fun other => grows other (holds.2.1 other), holds.2.2⟩
    | returned result => exact absurd caller (waits result)

theorem fed (linked : Linked c done p s) (todo : s.todo = .read :: rest) (ready : c.Ready s .read)
    (waits : ∀ result, s.caller ≠ .returned result) :
    Linked c (done ++ [.read]) (p.after .read) { s.perform .read with todo := rest } := by
  refine linked.extend todo (linked.call_free todo ready waits) (linked.closed_eq todo)
    linked.room ?_
  have holds := linked.holds
  have later := (Progress.Before.refl p).after .read
  cases caller : s.caller with
  | writing left =>
    rw [Command.Ready, caller] at ready
    rw [caller] at holds
    have some := ready.resolve_right nofun
    obtain ⟨length, room, same⟩ := holds
    refine ⟨?_, Nat.le_trans (Nat.sub_le _ _) room, same⟩
    simp only [State.perform, Progress.after]
    omega
  | stdout held =>
    rw [caller] at holds
    obtain ⟨stdin, fed, same⟩ := holds
    refine ⟨?_, fed.later later, same⟩
    simp only [State.perform, Progress.after]
    omega
  | stderr out held =>
    rw [caller] at holds
    obtain ⟨stdin, fed, same⟩ := holds
    refine ⟨?_, fed.later later, same⟩
    simp only [State.perform, Progress.after]
    omega
  | waiting out err =>
    rw [caller] at holds
    exact ⟨holds.1.later later, holds.2⟩
  | returned result => exact absurd caller (waits result)

theorem made (linked : Linked c done p s) (todo : s.todo = call :: rest) (ready : c.Ready s call)
    (waits : ∀ result, s.caller ≠ .returned result) :
    Linked c (done ++ [call]) (p.after call) { s.perform call with todo := rest } := by
  cases call with
  | write output data => exact linked.written todo ready waits
  | close output => exact linked.shut todo waits
  | read => exact linked.fed todo ready waits

theorem exit (linked : Linked c done p s) (todo : s.todo = []) :
    Linked c done p { s with exited := true, closed := fun _ => true } := by
  refine ⟨linked.script, linked.run, linked.free, fun _ => (Bool.or_true _).symm, fun _ => todo,
    linked.room, ?_⟩
  have holds := linked.holds
  cases caller : s.caller with
  | writing left =>
    rw [caller] at holds
    exact holds
  | stdout held =>
    rw [caller] at holds
    exact holds
  | stderr out held =>
    rw [caller] at holds
    exact ⟨holds.1, holds.2.1, rfl, holds.2.2.2⟩
  | waiting out err =>
    rw [caller] at holds
    exact ⟨holds.1, fun _ => rfl, holds.2.2⟩
  | returned result =>
    rw [caller] at holds
    exact holds

/-- The call has taken a step. -/
theorem called (linked : Linked c done p s) (caller : Caller) (stdin : Nat) (unread : Output → Bytes)
    (room : ∀ output, (unread output).length ≤ c.capacity)
    (holds : caller.Holds c p { s with caller := caller, stdin := stdin, unread := unread }) :
    Linked c done p { s with caller := caller, stdin := stdin, unread := unread } :=
  ⟨linked.script, linked.run, linked.free, linked.closed, linked.ended, room, holds⟩

theorem room_after (linked : Linked c done p s) (unread : s.unread output = byte :: more)
    (other : Output) : (Function.update s.unread output more other).length ≤ c.capacity := by
  have room := linked.room other
  by_cases here : other = output
  · subst here
    rw [unread, List.length_cons] at room
    rw [Function.update_self]
    omega
  · simpa [here] using room

/-- The call has come to the end of an output that is no text. -/
theorem invalid (linked : Linked c done p s) (fed : c.Fed p) (shut : s.closed output)
    (text : fromUtf8 (p.written output) = none) (heard : s.closed .stdout) :
    c.Possible (.error .invalidUtf8) := by
  refine ⟨linked.flows_of_heard fed heard ?_, .inl ⟨?_, fed.later (.run linked.to_final)⟩⟩
  · cases output with
    | stdout => exact .inr text
    | stderr => exact .inl shut
  · have same := linked.final_written shut
    cases output with
    | stdout => simp [Command.answer, same, text]
    | stderr => simp [Command.answer, same, text]

theorem returned (linked : Linked c done p s) (exited : s.exited) (fed : c.Fed p)
    (out : fromUtf8 (p.written .stdout) = some stdout)
    (err : fromUtf8 (p.written .stderr) = some stderr) :
    c.Possible (.ok ⟨c.code.getD (-1), stdout, stderr⟩) := by
  have todo := linked.ended exited
  have final := linked.final_eq todo
  refine ⟨linked.flows (todo ▸ trivial), .inl ⟨?_, final ▸ fed⟩⟩
  rw [final, Command.answer, out, err]

theorem broken (linked : Linked c done p s) (exited : s.exited)
    (length : (byte :: left).length + s.stdin + p.reads = c.data.length)
    (same : ∀ output, s.unread output = p.written output) : c.Possible (.error .brokenPipe) := by
  have todo := linked.ended exited
  have final := linked.final_eq todo
  refine ⟨linked.flows (todo ▸ trivial), .inr ⟨rfl, ?_, fun output => ?_⟩⟩
  · rw [List.length_cons] at length
    rw [final]
    omega
  · rw [final, ← same]
    exact linked.room output

theorem turned (linked : Linked c done p s) (turn : Turn c s t) : Linked c done p t := by
  have holds := linked.holds
  cases turn with
  | dropped caller =>
    rw [caller] at holds
    obtain ⟨length, room, same⟩ := holds
    rw [List.length_nil] at length
    refine linked.called _ _ _ linked.room ⟨?_, ?_, same _, same _⟩
    · show s.stdin = _
      omega
    · unfold Command.Fed
      omega
  | refused caller exited =>
    rw [caller] at holds
    exact linked.called _ _ _ linked.room (linked.broken exited holds.1 holds.2.2)
  | @wrote byte rest caller little =>
    rw [caller] at holds
    obtain ⟨length, room, same⟩ := holds
    rw [List.length_cons] at length
    refine linked.called _ _ _ linked.room ⟨?_, little, same⟩
    show rest.length + (s.stdin + 1) + p.reads = _
    omega
  | stdout caller unread =>
    rw [caller] at holds
    obtain ⟨stdin, fed, out, err⟩ := holds
    refine linked.called _ _ _ (linked.room_after unread) ⟨stdin, fed, ?_, err⟩
    simpa [unread] using out
  | heard caller unread shut =>
    rw [caller] at holds
    obtain ⟨stdin, fed, out, err⟩ := holds
    rw [unread, List.append_nil] at out
    refine linked.called _ _ _ linked.room ?_
    rw [out, Command.afterStdout]
    split
    case h_1 text valid => exact ⟨stdin, fed, shut, valid, err⟩
    case h_2 text => exact linked.invalid fed shut text shut
  | stderr caller unread =>
    rw [caller] at holds
    obtain ⟨stdin, fed, heard, text, err⟩ := holds
    refine linked.called _ _ _ (linked.room_after unread) ⟨stdin, fed, heard, text, ?_⟩
    simpa [unread] using err
  | ended caller unread shut =>
    rw [caller] at holds
    obtain ⟨stdin, fed, heard, text, err⟩ := holds
    rw [unread, List.append_nil] at err
    refine linked.called _ _ _ linked.room ?_
    rw [err, Command.afterStderr]
    split
    case h_1 valid =>
      refine ⟨fed, fun output => ?_, text, valid⟩
      cases output with
      | stdout => exact heard
      | stderr => exact shut
    case h_2 invalid => exact linked.invalid fed shut invalid heard
  | waited caller exited =>
    rw [caller] at holds
    obtain ⟨fed, -, out, err⟩ := holds
    exact linked.called _ _ _ linked.room (linked.returned exited fed out err)

end Linked

/-- A child that makes its calls is at one of them, or ends. -/
theorem childStep_cases (stepped : c.childStep s = some t) :
    (s.todo = [] ∧ s.exited = false ∧ t = { s with exited := true, closed := fun _ => true }) ∨
    ∃ call rest, s.todo = call :: rest ∧ c.Ready s call ∧ t = { s.perform call with todo := rest } := by
  unfold Command.childStep at stepped
  split at stepped
  case h_1 todo =>
    split at stepped
    case isTrue => cases stepped
    case isFalse running => exact .inl ⟨todo, Bool.not_eq_true _ ▸ running, (Option.some.inj stepped).symm⟩
  case h_2 call rest todo =>
    split at stepped
    case isTrue ready => exact .inr ⟨call, rest, todo, ready, (Option.some.inj stepped).symm⟩
    case isFalse => cases stepped

/-- The steps of the child are those of a call that has not returned. -/
theorem child_step (stepped : c.step s .child = some t) :
    c.childStep s = some t ∧ ∀ result, s.caller ≠ .returned result := by
  rw [Command.step] at stepped
  split at stepped
  case h_1 => cases stepped
  case h_2 waits => exact ⟨stepped, waits⟩

theorem Linked.step (linked : Linked c done p s) (stepped : c.step s action = some t) :
    ∃ done p, Linked c done p t := by
  cases action with
  | caller => exact ⟨done, p, linked.turned (callerStep_turn stepped)⟩
  | child =>
    obtain ⟨stepped, waits⟩ := child_step stepped
    rcases childStep_cases stepped with ⟨todo, -, rfl⟩ | ⟨call, rest, todo, ready, rfl⟩
    · exact ⟨done, p, linked.exit todo⟩
    · exact ⟨_, _, linked.made todo ready waits⟩

theorem run_linked (run : exec c.step c.start actions = some t) : ∃ done p, Linked c done p t :=
  invariant (P := fun s => ∃ done p, Linked c done p s)
    (fun ⟨_, _, linked⟩ stepped => linked.step stepped) run ⟨[], .start, .start c⟩

end LanLink.Exec.Pipes
