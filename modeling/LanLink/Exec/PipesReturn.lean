import Mathlib.Algebra.GroupWithZero.Nat
import LanLink.Exec.Pipes

/-! When a call of `exec` or `exec_with_input` returns, and what. Each step leaves fewer of them;
the call and its child do not both wait unless a system call of the child is one that waits for
ever; and one order of the steps gets the child's answer, another one the error of the input. -/
namespace LanLink.Exec.Pipes
open Words Runs

variable {c : Command} {s t : State} {p : Progress} {done : List Syscall}

/-- The number of steps that are left at most; a byte written is a byte to read. -/
def Syscall.cost : Syscall → Nat
  | .write _ data => 1 + data.length
  | _ => 1

def Caller.stage : Caller → Nat
  | .writing rest => 4 + rest.length
  | .stdout _ => 3
  | .stderr .. => 2
  | .waiting .. => 1
  | .returned _ => 0

def State.left (s : State) : Nat :=
  (s.todo.map Syscall.cost).sum + (s.unread .stdout).length + (s.unread .stderr).length +
    (if s.exited then 0 else 1) + s.caller.stage

theorem stage_afterStdout (held : Bytes) : (Command.afterStdout held).stage < 3 := by
  unfold Command.afterStdout
  split <;> simp [Caller.stage]

theorem stage_afterStderr (stdout : String) (held : Bytes) :
    (Command.afterStderr stdout held).stage < 2 := by
  unfold Command.afterStderr
  split <;> simp [Caller.stage]

theorem left_perform (s : State) (call : Syscall) :
    ((s.perform call).unread .stdout).length + ((s.perform call).unread .stderr).length <
      call.cost + ((s.unread .stdout).length + (s.unread .stderr).length) := by
  cases call with
  | close output => simp [State.perform, Syscall.cost]
  | read => simp [State.perform, Syscall.cost]
  | write output data =>
    simp only [State.perform, Syscall.cost]
    split
    · omega
    · cases output <;> simp <;> omega

theorem turn_left (turn : Turn c s t) : t.left < s.left := by
  cases turn with
  | dropped caller => simp [State.left, Caller.stage, caller]
  | refused caller =>
    simp only [State.left, Caller.stage, caller]
    omega
  | wrote caller => simp [State.left, Caller.stage, caller]
  | stdout caller unread => simp [State.left, Caller.stage, caller, unread]
  | heard caller => simpa [State.left, Caller.stage, caller] using stage_afterStdout _
  | stderr caller unread => simp [State.left, Caller.stage, caller, unread]
  | ended caller => simpa [State.left, Caller.stage, caller] using stage_afterStderr _ _
  | waited caller => simp [State.left, Caller.stage, caller]

theorem step_left (stepped : c.step s action = some t) : t.left < s.left := by
  cases action with
  | caller => exact turn_left (callerStep_turn stepped)
  | child =>
    obtain ⟨stepped, -⟩ := child_step stepped
    rcases childStep_cases stepped with ⟨todo, running, rfl⟩ | ⟨call, rest, todo, ready, rfl⟩
    · simp [State.left, running]
    · have less := left_perform s call
      simp only [State.left, State.perform_exited, State.perform_caller, todo, List.map_cons,
        List.sum_cons]
      omega

/-- Where the call has to wait for its child. -/
inductive Waits (c : Command) (s : State) : Prop where
  | full (caller : s.caller = .writing (byte :: rest)) (running : s.exited = false)
    (full : c.capacity ≤ s.stdin)
  | stdout (caller : s.caller = .stdout held) (unread : s.unread .stdout = [])
    (opened : s.closed .stdout = false)
  | stderr (caller : s.caller = .stderr text held) (unread : s.unread .stderr = [])
    (opened : s.closed .stderr = false)
  | running (caller : s.caller = .waiting out err) (running : s.exited = false)

theorem callerStep_waits (stuck : c.callerStep s = none)
    (waits : ∀ result, s.caller ≠ .returned result) : Waits c s := by
  unfold Command.callerStep at stuck
  split at stuck
  case h_1 => cases stuck
  case h_2 byte rest caller =>
    split at stuck
    case isTrue => cases stuck
    case isFalse running =>
      split at stuck
      case isTrue => cases stuck
      case isFalse full => exact .full caller (Bool.not_eq_true _ ▸ running) (Nat.not_lt.mp full)
  case h_3 held caller =>
    split at stuck
    case h_1 => cases stuck
    case h_2 unread =>
      split at stuck
      case isTrue => cases stuck
      case isFalse opened => exact .stdout caller unread (Bool.not_eq_true _ ▸ opened)
  case h_4 text held caller =>
    split at stuck
    case h_1 => cases stuck
    case h_2 unread =>
      split at stuck
      case isTrue => cases stuck
      case isFalse opened => exact .stderr caller unread (Bool.not_eq_true _ ▸ opened)
  case h_5 out err caller =>
    split at stuck
    case isTrue => cases stuck
    case isFalse running => exact .running caller (Bool.not_eq_true _ ▸ running)
  case h_6 result caller => exact absurd caller (waits result)

namespace Linked

theorem free_next (linked : Linked c done p s) (flows : c.Flows) (todo : s.todo = call :: rest) :
    c.Free p call := by
  rw [Command.Flows, linked.script, meets_append linked.run, todo] at flows
  exact flows.2.1

/-- A piece that a child writes fits, once the output has been read up to its end. -/
theorem write_empty (linked : Linked c done p s) (todo : s.todo = .write output data :: rest)
    (unread : s.unread output = []) : c.Ready s (.write output data) := by
  have fits : data.length ≤ c.capacity := by
    refine c.fits output data ?_
    rw [linked.script, todo]
    simp
  exact .inr (by simpa [unread] using fits)

theorem write_ready (linked : Linked c done p s) (todo : s.todo = .write output data :: rest)
    (flows : c.Flows) (waits : Waits c s) : c.Ready s (.write output data) := by
  have holds := linked.holds
  have closed := linked.closed_eq todo
  have free := linked.free_next flows todo
  cases waits with
  | full caller running full =>
    rw [caller] at holds
    obtain ⟨length, room, same⟩ := holds
    rcases free with shut | fits | ⟨fed, -⟩
    · exact .inl (closed output ▸ shut)
    · exact .inr (same output ▸ fits)
    · rw [List.length_cons] at length
      unfold Command.Fed at fed
      omega
  | stdout caller unread opened =>
    rw [caller] at holds
    cases output with
    | stdout => exact linked.write_empty todo unread
    | stderr =>
      rcases free with shut | fits | ⟨-, heard⟩
      · exact .inl (closed _ ▸ shut)
      · exact .inr (holds.2.2.2 ▸ fits)
      · rw [closed, heard rfl] at opened
        cases opened
  | stderr caller unread opened =>
    rw [caller] at holds
    cases output with
    | stdout => exact .inl holds.2.2.1
    | stderr => exact linked.write_empty todo unread
  | running caller =>
    rw [caller] at holds
    exact .inl (holds.2.1 output)

theorem read_ready (linked : Linked c done p s) (todo : s.todo = .read :: rest) (flows : c.Flows)
    (waits : Waits c s) : c.Ready s .read := by
  have holds := linked.holds
  have closed := linked.closed_eq todo
  have free := linked.free_next flows todo
  rw [Command.Ready]
  cases waits with
  | full caller running full => exact .inl (Nat.lt_of_lt_of_le c.positive full)
  | stdout caller unread opened =>
    rw [caller]
    rcases free with input | ⟨shut, -⟩
    · exact .inr input
    · rw [closed, shut] at opened
      cases opened
  | stderr caller unread opened =>
    rw [caller] at holds ⊢
    rcases free with input | ⟨-, shut | invalid⟩
    · exact .inr input
    · rw [closed, shut] at opened
      cases opened
    · rw [holds.2.2.2.1] at invalid
      cases invalid
  | running caller =>
    rw [caller]
    exact .inr rfl

/-- The call and its child do not both wait. -/
theorem child_moves (linked : Linked c done p s) (flows : c.Flows) (waits : Waits c s) :
    ∃ t, c.childStep s = some t := by
  unfold Command.childStep
  split
  case h_1 todo =>
    have running : s.exited = false := by
      cases waits with
      | full _ running => exact running
      | running _ running => exact running
      | stdout _ _ opened | stderr _ _ opened =>
        rw [linked.closed, Bool.or_eq_false_iff] at opened
        exact opened.2
    exact ⟨_, if_neg (Bool.not_eq_true _ ▸ running)⟩
  case h_2 call rest todo =>
    refine ⟨_, if_pos ?_⟩
    cases call with
    | close output => trivial
    | write output data => exact linked.write_ready todo flows waits
    | read => exact linked.read_ready todo flows waits

end Linked

theorem child_of_childStep (stepped : c.childStep s = some t)
    (waits : ∀ result, s.caller ≠ .returned result) : c.step s .child = some t := by
  rw [Command.step]
  split
  case h_1 result caller => exact absurd caller (waits result)
  case h_2 => exact stepped

theorem stuck_returned (flows : c.Flows) (run : exec c.step c.start actions = some t)
    (stuck : ∀ action, c.step t action = none) : ∃ result, t.caller = .returned result := by
  by_contra waits
  rw [not_exists] at waits
  obtain ⟨done, p, linked⟩ := run_linked run
  obtain ⟨u, stepped⟩ := linked.child_moves flows (callerStep_waits (stuck .caller) waits)
  have moved := child_of_childStep stepped waits
  rw [stuck .child] at moved
  cases moved

/-- The child is not gone before the call has written the whole input. -/
structure Unbroken (s : State) : Prop where
  running : ∀ byte rest, s.caller = .writing (byte :: rest) → s.exited = false
  caller : s.caller ≠ .returned (.error .brokenPipe)

theorem Unbroken.turned (unbroken : Unbroken s) (turn : Turn c s t) : Unbroken t := by
  cases turn with
  | refused caller exited =>
    rw [unbroken.running _ _ caller] at exited
    cases exited
  | wrote caller => exact ⟨fun _ _ _ => unbroken.running _ _ caller, nofun⟩
  | heard =>
    unfold Command.afterStdout
    split <;> exact ⟨nofun, nofun⟩
  | ended =>
    unfold Command.afterStderr
    split <;> exact ⟨nofun, nofun⟩
  | dropped | stdout | stderr | waited => exact ⟨nofun, nofun⟩

/-- A child that is to have its whole input does not end while the pipe is full. -/
theorem Unbroken.moved (unbroken : Unbroken s) (linked : Linked c done p s) (fed : c.Fed c.final)
    (waits : Waits c s) (stepped : c.childStep s = some t) : Unbroken t := by
  rcases childStep_cases stepped with ⟨todo, -, rfl⟩ | ⟨call, rest, todo, -, rfl⟩
  · refine ⟨fun byte rest writing => ?_, unbroken.caller⟩
    cases waits with
    | full caller running full =>
      have holds := linked.holds
      rw [caller] at holds
      obtain ⟨length, -⟩ := holds
      rw [linked.final_eq todo] at fed
      rw [List.length_cons] at length
      unfold Command.Fed at fed
      omega
    | stdout caller | stderr caller | running caller => cases caller.symm.trans writing
  · exact ⟨by simpa using unbroken.running, by simpa using unbroken.caller⟩

/-- Where the call goes first at every step, it gets the answer of the child. -/
theorem answers (flows : c.Flows) (fed : c.Fed c.final) :
    ∃ actions t, exec c.step c.start actions = some t ∧ t.caller = .returned (c.answer c.final) := by
  have advances {s : State} (good : (∃ done p, Linked c done p s) ∧ Unbroken s)
      (waits : ¬ ∃ result, s.caller = .returned result) :
      ∃ a t, c.step s a = some t ∧ (∃ done p, Linked c done p t) ∧ Unbroken t := by
    obtain ⟨⟨done, p, linked⟩, unbroken⟩ := good
    rw [not_exists] at waits
    cases stepped : c.callerStep s with
    | some t =>
      have turn := callerStep_turn stepped
      exact ⟨.caller, t, stepped, ⟨done, p, linked.turned turn⟩, unbroken.turned turn⟩
    | none =>
      have blocked := callerStep_waits stepped waits
      obtain ⟨t, moved⟩ := linked.child_moves flows blocked
      have child := child_of_childStep moved waits
      exact ⟨.child, t, child, linked.step child, unbroken.moved linked fed blocked moved⟩
  have fresh : Unbroken c.start := by
    unfold Command.start
    cases c.input <;> exact ⟨fun _ _ _ => rfl, nofun⟩
  obtain ⟨actions, t, run, ⟨⟨done, p, linked⟩, unbroken⟩, result, returned⟩ :=
    reaches step_left advances ⟨⟨[], .start, .start c⟩, fresh⟩
  have possible := linked.holds
  rw [returned] at possible
  obtain ⟨-, ⟨rfl, -⟩ | ⟨rfl, -⟩⟩ := possible
  · exact ⟨actions, t, run, returned⟩
  · exact absurd returned unbroken.caller

/-- A write that a child makes before the call reads anything, where the pipe holds all that the
child writes. -/
theorem Linked.write_small (linked : Linked c done p s) (todo : s.todo = .write output data :: rest)
    (small : (c.final.written output).length ≤ c.capacity)
    (same : s.unread output = p.written output) : c.Ready s (.write output data) := by
  by_cases shut : s.closed output
  · exact .inl shut
  · have least := (linked.after_final todo).written output
    have after : p.after (.write output data) = { p with
        written := Function.update p.written output (p.written output ++ data) } :=
      if_neg (linked.closed_eq todo output ▸ shut)
    simp only [after, Function.update_self, List.length_append] at least
    refine .inr ?_
    rw [same]
    omega

/-- A child that has found the pipe of its input empty has more of it to read. -/
theorem Linked.read_less (linked : Linked c done p s) (todo : s.todo = .read :: rest) :
    p.reads < c.final.reads :=
  (linked.after_final todo).reads

/-- The call still has input to write, or has been refused it. -/
def Unfed (s : State) : Prop :=
  s.caller = .returned (.error .brokenPipe) ∨ ∃ byte rest, s.caller = .writing (byte :: rest)

/-- The child goes first, and the call writes a byte where the child waits for it. -/
theorem Linked.unfed_step (linked : Linked c done p s) (writing : s.caller = .writing (byte :: left))
    (reads : c.final.reads < c.data.length)
    (small : ∀ output, (c.final.written output).length ≤ c.capacity) :
    ∃ a t, c.step s a = some t ∧ Unfed t := by
  have holds := linked.holds
  rw [writing] at holds
  obtain ⟨length, -, same⟩ := holds
  have waits (result) : s.caller ≠ .returned result := by simp [writing]
  cases todo : s.todo with
  | nil =>
    by_cases exited : s.exited
    · refine ⟨.caller, { s with caller := .returned (.error .brokenPipe) }, ?_, .inl rfl⟩
      simp [Command.step, Command.callerStep, writing, exited]
    · have stepped : c.childStep s = some { s with exited := true, closed := fun _ => true } := by
        simp [Command.childStep, todo, exited]
      exact ⟨.child, _, child_of_childStep stepped waits, .inr ⟨byte, left, writing⟩⟩
  | cons call rest =>
    by_cases ready : c.Ready s call
    · have stepped : c.childStep s = some { s.perform call with todo := rest } := by
        simp [Command.childStep, todo, ready]
      refine ⟨.child, _, child_of_childStep stepped waits, .inr ⟨byte, left, ?_⟩⟩
      simpa using writing
    · cases call with
      | close output => exact absurd trivial ready
      | write output data =>
        exact absurd (linked.write_small todo (small output) (same output)) ready
      | read =>
        have empty : s.stdin = 0 := Nat.le_zero.mp (Nat.not_lt.mp fun some => ready (.inl some))
        have less := linked.read_less todo
        have running := linked.running todo
        have positive := c.positive
        rw [List.length_cons] at length
        obtain ⟨next, rest, rfl⟩ := List.exists_cons_of_length_pos (l := left) (by omega)
        refine ⟨.caller, { s with caller := .writing (next :: rest), stdin := s.stdin + 1 }, ?_,
          .inr ⟨next, rest, rfl⟩⟩
        simp [Command.step, Command.callerStep, writing, running, empty, positive]

/-- Where the child goes first, it is gone before the call has written its input. -/
theorem breaks (reads : c.final.reads < c.data.length)
    (small : ∀ output, (c.final.written output).length ≤ c.capacity) :
    ∃ actions t, exec c.step c.start actions = some t ∧
      t.caller = .returned (.error .brokenPipe) := by
  have fresh : Unfed c.start := by
    have some := Nat.zero_lt_of_lt reads
    unfold Command.data at some
    unfold Command.start
    cases input : c.input with
    | none => simp [input] at some
    | some data =>
      rw [input] at some
      obtain ⟨byte, rest, rfl⟩ := List.exists_cons_of_length_pos some
      exact .inr ⟨byte, rest, rfl⟩
  have advances {s : State} (good : (∃ done p, Linked c done p s) ∧ Unfed s)
      (waits : s.caller ≠ .returned (.error .brokenPipe)) :
      ∃ a t, c.step s a = some t ∧ (∃ done p, Linked c done p t) ∧ Unfed t := by
    obtain ⟨⟨done, p, linked⟩, failed | ⟨byte, left, writing⟩⟩ := good
    · exact absurd failed waits
    · obtain ⟨a, t, stepped, unfed⟩ := linked.unfed_step writing reads small
      exact ⟨a, t, stepped, linked.step stepped, unfed⟩
  obtain ⟨actions, t, run, -, returned⟩ := reaches step_left advances ⟨⟨[], .start, .start c⟩, fresh⟩
  exact ⟨actions, t, run, returned⟩

/-- Every run is finite. The call returns in all that are run to their end, or it waits for ever
in all of them: it returns exactly if no system call of the child waits for ever. What it returns
is the child's exit code with all that it has written, or the error of an output that is no text;
or, where the child does not read all of a long input and the pipes hold what it writes, the
error of the input, should the child be gone first. -/
theorem returned_iff (c : Command) :
    (∀ result, (∃ actions t, exec c.step c.start actions = some t ∧
        t.caller = .returned result) ↔ c.Possible result) ∧
      (c.Flows ↔ ∀ actions t, exec c.step c.start actions = some t →
        (∀ action, c.step t action = none) → ∃ result, t.caller = .returned result) ∧
      ∀ actions t, exec c.step c.start actions = some t → actions.length ≤ c.start.left := by
  refine ⟨fun result => ⟨?_, ?_⟩, ⟨fun flows actions t => stuck_returned flows, ?_⟩, ?_⟩
  · rintro ⟨actions, t, run, returned⟩
    obtain ⟨done, p, linked⟩ := run_linked run
    have possible := linked.holds
    rwa [returned] at possible
  · rintro ⟨flows, ⟨rfl, fed⟩ | ⟨rfl, reads, small⟩⟩
    · exact answers flows fed
    · exact breaks reads small
  · intro returns
    have advances {s : State} (_ : True) (moves : ¬ ∀ action, c.step s action = none) :
        ∃ a t, c.step s a = some t ∧ True := by
      rw [not_forall] at moves
      obtain ⟨a, moved⟩ := moves
      obtain ⟨t, stepped⟩ := Option.ne_none_iff_exists'.mp moved
      exact ⟨a, t, stepped, trivial⟩
    obtain ⟨actions, t, run, -, stuck⟩ := reaches (P := fun _ => True) step_left advances
      (s := c.start) trivial
    obtain ⟨result, returned⟩ := returns actions t run stuck
    obtain ⟨done, p, linked⟩ := run_linked run
    have possible := linked.holds
    rw [returned] at possible
    exact possible.1
  · intro actions t run
    have short : actions.length + t.left ≤ c.start.left := length_le_of_falls step_left run
    omega

/-- It writes one byte more than a pipe holds. -/
def loud (output : Output) : Command where
  capacity := 1
  input := none
  script := [.write output [33], .write output [33]]
  code := some 0
  positive := Nat.one_pos
  fits := by simp

example : (loud .stdout).Flows ∧ ¬ (loud .stderr).Flows := by decide

end LanLink.Exec.Pipes
