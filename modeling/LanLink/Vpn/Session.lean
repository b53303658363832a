import LanLink.Core.Runs
import LanLink.Registry.Center
import LanLink.Vpn.Dht

/-! Sessions between two nodes: the states, the keys and the two counters. Instants
and durations count nanoseconds; the clock is an input of the operations that read it. -/
namespace LanLink.Vpn
open Words Runs
open LanLink.Center (nodeIdToHex)

inductive SessionError where
  | notFound (msg : String)
  | invalidState (msg : String)
  | expired (msg : String)
  | creationFailed (msg : String)
  deriving DecidableEq

inductive SessionState where
  | init
  | handshake
  | established
  | closing
  | closed
  deriving DecidableEq

namespace SessionState

def display : SessionState → String
  | init => "INIT"
  | handshake => "HANDSHAKE"
  | established => "ESTABLISHED"
  | closing => "CLOSING"
  | closed => "CLOSED"

def validTransitions : SessionState → List SessionState
  | init => [handshake, closed]
  | handshake => [established, closed]
  | established => [closing]
  | closing => [closed]
  | closed => []

end SessionState

structure SessionKeys where
  sendKey : Bytes
  recvKey : Bytes
  createdAt : Nat
  deriving DecidableEq

def defaultSessionTimeoutSecs : Nat := 1800

structure Session where
  id : String
  localId : NodeID
  remoteId : NodeID
  state : SessionState
  keys : Option SessionKeys
  createdAt : Nat
  lastActive : Nat
  timeout : Nat
  sendCounter : UInt64
  recvCounter : UInt64
  deriving DecidableEq

namespace Session

def new (localId remoteId : NodeID) (now : Nat) : Session where
  id := String.ofList ((nodeIdToHex localId).toList.take 8) ++ "-" ++
    String.ofList ((nodeIdToHex remoteId).toList.take 8)
  localId := localId
  remoteId := remoteId
  state := .init
  keys := none
  createdAt := now
  lastActive := now
  timeout := defaultSessionTimeoutSecs * 1000000000
  sendCounter := 0
  recvCounter := 0

def withTimeout (localId remoteId : NodeID) (timeout now : Nat) : Session :=
  { new localId remoteId now with timeout := timeout }

def isExpired (s : Session) (now : Nat) : Bool := s.timeout < now - s.lastActive

def touch (s : Session) (now : Nat) : Session := { s with lastActive := now }

def transition (s : Session) (newState : SessionState) (now : Nat) :
    Except SessionError Unit × Session :=
  if newState ∈ s.state.validTransitions then (.ok (), { s with state := newState }.touch now)
  else (.error (.invalidState
    s!"cannot transition from {s.state.display} to {newState.display}"), s)

def setKeys (s : Session) (sendKey recvKey : Bytes) (now : Nat) : Session :=
  { s with keys := some ⟨sendKey, recvKey, now⟩ }.touch now

/-- The keys are taken out, overwritten and dropped. -/
def secureClose (s : Session) : Session := { s with keys := none, state := .closed }

/-- `none` is the overflow abort of a build with checks. -/
def nextSendCounter (checks : Bool) (s : Session) (now : Nat) : Option (UInt64 × Session) := do
  let next ← addWord checks 64 s.sendCounter.toNat 1
  return (s.sendCounter, { s with sendCounter := next.toUInt64 }.touch now)

def verifyRecvCounter (checks : Bool) (s : Session) (counter : UInt64) (now : Nat) :
    Option (Except SessionError Unit × Session) :=
  if counter < s.recvCounter then
    some (.error (.invalidState s!"counter {counter} < expected {s.recvCounter}"), s)
  else do
    let next ← addWord checks 64 counter.toNat 1
    return (.ok (), { s with recvCounter := next.toUInt64 }.touch now)

section
variable {checks : Bool} {s t : Session} {now : Nat}

theorem verifyRecvCounter_old (old : counter < s.recvCounter) :
    verifyRecvCounter checks s counter now =
      some (.error (.invalidState s!"counter {counter} < expected {s.recvCounter}"), s) :=
  if_pos old

theorem verifyRecvCounter_next (current : s.recvCounter ≤ counter)
    (fits : counter.toNat + 1 < 2 ^ 64) :
    verifyRecvCounter checks s counter now =
      some (.ok (), { s with recvCounter := (counter.toNat + 1).toUInt64 }.touch now) := by
  rw [verifyRecvCounter, if_neg (UInt64.not_lt.mpr current), addWord_of_lt fits]
  rfl

theorem nextSendCounter_kept (counted : s.nextSendCounter checks now = some (counter, t)) :
    t.state = s.state ∧ t.keys = s.keys := by
  obtain ⟨next, -, ended⟩ := Option.bind_eq_some_iff.mp counted
  cases ended
  exact ⟨rfl, rfl⟩

theorem verifyRecvCounter_kept (verified : s.verifyRecvCounter checks counter now = some (answer, t)) :
    t.state = s.state ∧ t.keys = s.keys := by
  rcases UInt64.lt_or_le counter s.recvCounter with old | current
  · cases (verifyRecvCounter_old old).symm.trans verified
    exact ⟨rfl, rfl⟩
  · rw [verifyRecvCounter, if_neg (UInt64.not_lt.mpr current)] at verified
    obtain ⟨next, -, ended⟩ := Option.bind_eq_some_iff.mp verified
    cases ended
    exact ⟨rfl, rfl⟩

end

/-- One call: the counter and the time at which it is checked. -/
structure RecvCall where
  counter : UInt64
  now : Nat

def verify (checks : Bool) (s : Session) (call : RecvCall) :
    Option (Except SessionError Unit × Session) := s.verifyRecvCounter checks call.counter call.now

/-- The counters that a sequence of calls accepts, up to an abort. -/
def accepted (checks : Bool) : Session → List RecvCall → List UInt64
  | _, [] => []
  | s, call :: rest =>
    match s.verify checks call with
    | none => []
    | some (.ok (), t) => call.counter :: accepted checks t rest
    | some (.error _, t) => accepted checks t rest

/-- The call ends; a refused one changes nothing, and after an accepted one the stored
bound is the number behind the counter, as a natural number. -/
def Sound (checks : Bool) (s : Session) (call : RecvCall) : Prop :=
  ∃ answer t, s.verify checks call = some (answer, t) ∧
    (∀ error, answer = .error error → t = s) ∧
    (answer = .ok () → t.recvCounter.toNat = call.counter.toNat + 1)

def verifyStep (checks : Bool) (s : Session) (call : RecvCall) : Option Session :=
  (s.verify checks call).map Prod.snd

/-- The accepted counters increase strictly and every call on the way is sound. -/
def ReplayProtected (checks : Bool) (s : Session) (calls : List RecvCall) : Prop :=
  (accepted checks s calls).Pairwise (· < ·) ∧
    Meets (verifyStep checks) (Sound checks) s calls

/-- What a call with another counter than the last one can do. -/
theorem verify_cases (checks : Bool) (s : Session) (notLast : call.counter.toNat ≠ 2 ^ 64 - 1) :
    (call.counter < s.recvCounter ∧ ∃ error, s.verify checks call = some (.error error, s)) ∨
    (s.recvCounter ≤ call.counter ∧ ∃ t, s.verify checks call = some (.ok (), t) ∧
      t.recvCounter.toNat = call.counter.toNat + 1) := by
  have fits : call.counter.toNat + 1 < 2 ^ 64 := by
    have range := call.counter.toNat_lt
    omega
  rcases UInt64.lt_or_le call.counter s.recvCounter with old | current
  · exact .inl ⟨old, _, verifyRecvCounter_old old⟩
  · exact .inr ⟨current, _, verifyRecvCounter_next current fits, toUInt64_toNat fits⟩

theorem sound_of_ne_last (s : Session) (notLast : call.counter.toNat ≠ 2 ^ 64 - 1) :
    Sound checks s call := by
  obtain ⟨-, error, refused⟩ | ⟨-, t, taken, next⟩ := verify_cases checks s notLast
  · exact ⟨_, s, refused, fun _ _ => rfl, by simp⟩
  · exact ⟨_, t, taken, by simp, fun _ => next⟩

/-- The last counter is never refused, and no bound lies behind it. -/
theorem not_sound_last (s : Session) (last : call.counter.toNat = 2 ^ 64 - 1) :
    ¬ Sound checks s call := by
  rintro ⟨answer, t, verified, -, next⟩
  have current : ¬ call.counter < s.recvCounter := by
    have range := s.recvCounter.toNat_lt
    rw [UInt64.lt_iff_toNat_lt]
    omega
  rw [verify, verifyRecvCounter, if_neg current] at verified
  obtain ⟨sum, -, ended⟩ := Option.bind_eq_some_iff.mp verified
  cases ended
  have bound := next rfl
  have range := ({ s with recvCounter := sum.toUInt64 }.touch call.now).recvCounter.toNat_lt
  omega

/-- The bound of a session lies under everything it will accept. -/
theorem recvCounter_le_accepted (s : Session)
    (notLast : ∀ call ∈ calls, call.counter.toNat ≠ 2 ^ 64 - 1) :
    ∀ counter ∈ accepted checks s calls, s.recvCounter ≤ counter := by
  induction calls generalizing s with
  | nil => simp [accepted]
  | cons call rest ih =>
    obtain ⟨first, later⟩ := List.forall_mem_cons.mp notLast
    obtain ⟨-, error, refused⟩ | ⟨current, t, taken, next⟩ :=
      verify_cases checks s first
    · simpa only [accepted, refused] using ih s later
    · simp only [accepted, taken, List.forall_mem_cons]
      refine ⟨current, fun counter member => ?_⟩
      have above := ih t later counter member
      rw [UInt64.le_iff_toNat_le] at current above ⊢
      omega

theorem accepted_increasing (s : Session)
    (notLast : ∀ call ∈ calls, call.counter.toNat ≠ 2 ^ 64 - 1) :
    (accepted checks s calls).Pairwise (· < ·) := by
  induction calls generalizing s with
  | nil => simp [accepted]
  | cons call rest ih =>
    obtain ⟨first, later⟩ := List.forall_mem_cons.mp notLast
    obtain ⟨-, error, refused⟩ | ⟨-, t, taken, next⟩ := verify_cases checks s first
    · simpa only [accepted, refused] using ih s later
    · simp only [accepted, taken, List.pairwise_cons]
      refine ⟨fun counter member => ?_, ih t later⟩
      have above := recvCounter_le_accepted t later counter member
      rw [UInt64.le_iff_toNat_le] at above
      rw [UInt64.lt_iff_toNat_lt]
      omega

theorem ne_last_of_meets (meets : Meets (verifyStep checks) (Sound checks) s calls) :
    ∀ call ∈ calls, call.counter.toNat ≠ 2 ^ 64 - 1 := by
  induction calls generalizing s with
  | nil => simp
  | cons call rest ih =>
    obtain ⟨answer, t, verified, -, -⟩ := meets.1
    have stepped : verifyStep checks s call = some t := by rw [verifyStep, verified]; rfl
    exact List.forall_mem_cons.mpr ⟨fun last => not_sound_last s last meets.1, ih (meets.2 t stepped)⟩

/-- Replay protection holds exactly for the sequences without the last counter. -/
theorem replay_protected_iff (checks : Bool) (s : Session) (calls : List RecvCall) :
    ReplayProtected checks s calls ↔ ∀ call ∈ calls, call.counter.toNat ≠ 2 ^ 64 - 1 := by
  constructor
  · rintro ⟨-, meets⟩
    exact ne_last_of_meets meets
  · intro notLast
    refine ⟨accepted_increasing s notLast, meets_of_forall fun call member s => ?_⟩
    exact sound_of_ne_last s (notLast call member)

def fresh : Session := new (.replicate 32 1) (.replicate 32 2) 0

def wrapping : List RecvCall := [⟨7, 0⟩, ⟨18446744073709551615, 1⟩, ⟨7, 2⟩]

/-- The bound wraps to zero, so that an old counter passes again; a build with checks aborts. -/
theorem old_counter_accepted_again :
    accepted false fresh wrapping = [7, 18446744073709551615, 7] ∧
      exec (verifyStep true) fresh wrapping = none ∧ ¬ ReplayProtected false fresh wrapping := by
  have again : accepted false fresh wrapping = [7, 18446744073709551615, 7] := by
    decide +kernel
  refine ⟨again, by decide +kernel, fun protects => ?_⟩
  have increasing := protects.1
  rw [again] at increasing
  revert increasing
  decide

end Session
end LanLink.Vpn
