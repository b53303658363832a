import LanLink.Core.Runs
import LanLink.Protocol.Control

/-! Nonces of one session. The client counts its messages from 1 in 32 bits;
every connection object the daemon creates under the identifier counts its own
from 0 in 64 bits and cuts the number to 32. An object outlives its place in
the connection map as long as a running command holds its counter, so every
object ever created may still send. -/
namespace LanLink.Session
open Words LanLink.Frame Crypto Control

structure Traffic where
  seq : UInt32
  sendSeqs : List UInt64
  log : List Sealed

def Traffic.start : Traffic := ⟨0, [], []⟩

/-- `accept` creates a connection object, after a reset or a timeout again. -/
inductive Action where
  | accept
  | client (msg : ControlMsg)
  | daemon (index : Nat) (msg : ControlMsg)

section
variable (serialize : ControlMsg → Bytes) (connId : UInt64)

/-- The daemon sends replies only, and only to a client that has sent something. -/
def Traffic.step (s : Traffic) : Action → Option Traffic
  | .accept => some { s with sendSeqs := s.sendSeqs ++ [0] }
  | .client msg =>
    if msg.isReply then none
    else some { s with seq := s.seq + 1,
                       log := s.log ++ [sealing serialize connId (s.seq + 1) msg] }
  | .daemon index msg =>
    match s.sendSeqs[index]? with
    | some seq =>
      if msg.isReply ∧ s.log ≠ [] then
        some { s with sendSeqs := s.sendSeqs.set index (seq + 1),
                      log := s.log ++ [sealing serialize connId seq.toUInt32 msg] }
      else none
    | none => none

/-- No nonce protects two different plaintexts. -/
def Distinct (log : List Sealed) : Prop :=
  ∀ a ∈ log, ∀ b ∈ log, a.nonce = b.nonce → a.plaintext = b.plaintext

/-- The client stays within its counter; a connection object sends one packet
only, and that packet says what the first packets of the other objects said. -/
def Careful (s : Traffic) : Action → Prop
  | .accept => True
  | .client _ => s.seq.toNat + 1 < 2 ^ 32
  | .daemon index msg => s.sendSeqs[index]? = some 0 ∧
      ∀ a ∈ s.log, a.nonce = makeNonce connId 0 → a.plaintext = serialize msg

end

instance (serialize : ControlMsg → Bytes) (connId : UInt64) (s : Traffic) :
    (action : Action) → Decidable (Careful serialize connId s action)
  | .accept => inferInstanceAs (Decidable True)
  | .client _ => inferInstanceAs (Decidable (_ < _))
  | .daemon _ _ => inferInstanceAs (Decidable (_ ∧ _))

instance (log : List Sealed) : Decidable (Distinct log) :=
  inferInstanceAs (Decidable (∀ a ∈ log, ∀ b ∈ log, a.nonce = b.nonce → a.plaintext = b.plaintext))

def Action.message : Action → Option ControlMsg
  | .accept => none
  | .client msg | .daemon _ msg => some msg

/-- The messages a run encrypts. -/
def messages (actions : List Action) : List ControlMsg := actions.filterMap Action.message

def Action.isClient : Action → Bool
  | .client _ => true
  | _ => false

def clientMessages (actions : List Action) : Nat := actions.countP Action.isClient

section
variable {serialize : ControlMsg → Bytes} {deserialize : Bytes → Option ControlMsg}
  {connId : UInt64} {s t : Traffic} {known : ControlMsg → Prop}

theorem distinct_append : Distinct (log ++ [a]) ↔
    Distinct log ∧ ∀ b ∈ log, b.nonce = a.nonce → b.plaintext = a.plaintext := by
  constructor
  · intro distinct
    constructor
    · intro b bIn d dIn
      exact distinct b (List.mem_append_left _ bIn) d (List.mem_append_left _ dIn)
    · intro b bIn
      exact distinct b (List.mem_append_left _ bIn) a (by simp)
  · rintro ⟨distinct, last⟩ b bIn d dIn same
    obtain bEarly | bLast := List.mem_append.mp bIn <;>
      rcases List.mem_append.mp dIn with dEarly | dLast
    · exact distinct b bEarly d dEarly same
    · rw [List.mem_singleton.mp dLast] at same ⊢
      exact last b bEarly same
    · rw [List.mem_singleton.mp bLast] at same ⊢
      exact (last d dEarly same.symm).symm
    · rw [List.mem_singleton.mp bLast, List.mem_singleton.mp dLast]

/-- What the log of encryptions looks like. As long as no nonce was reused, the
daemon is at its first packets and no number lies above the client's. -/
structure Tracked (serialize : ControlMsg → Bytes) (connId : UInt64) (known : ControlMsg → Prop)
    (s : Traffic) : Prop where
  silent : s.log = [] → s.seq = 0
  greeting : s.log ≠ [] → ∃ msg, known msg ∧ msg.isReply = false ∧
    sealing serialize connId 1 msg ∈ s.log
  counters : Distinct s.log → ∀ seq ∈ s.sendSeqs, seq = 0 ∨ seq = 1
  numbers : Distinct s.log → ∀ a ∈ s.log, ∃ seq ≤ s.seq, a.nonce = makeNonce connId seq

theorem start_tracked : Tracked serialize connId known .start where
  silent _ := rfl
  greeting filled := absurd rfl filled
  counters _ seq member := by simp [Traffic.start] at member
  numbers _ a member := by simp [Traffic.start] at member

theorem lt_succ (room : (seq : UInt32).toNat + 1 < 2 ^ 32) : seq < seq + 1 := by
  rw [UInt32.lt_iff_toNat_lt, UInt32.toNat_add, UInt32.toNat_one]
  omega

/-- A client message takes a number nobody has used. -/
theorem client_distinct (tracked : Tracked serialize connId known s)
    (room : s.seq.toNat + 1 < 2 ^ 32) :
    Distinct (s.log ++ [sealing serialize connId (s.seq + 1) msg]) ↔ Distinct s.log := by
  rw [distinct_append, and_iff_left_iff_imp]
  intro distinct a member same
  obtain ⟨seq, below, nonce⟩ := tracked.numbers distinct a member
  have clash : seq = s.seq + 1 := (makeNonce_injective.mp (nonce.symm.trans same)).2
  rw [clash] at below
  exact absurd (UInt32.lt_of_lt_of_le (lt_succ room) below) (UInt32.lt_irrefl _)

theorem client_tracked (tracked : Tracked serialize connId known s)
    (room : s.seq.toNat + 1 < 2 ^ 32) (mentioned : known msg) (kind : msg.isReply = false) :
    Tracked serialize connId known
      { s with seq := s.seq + 1,
               log := s.log ++ [sealing serialize connId (s.seq + 1) msg] } where
  silent empty := by simp at empty
  greeting _ := by
    by_cases first : s.log = []
    · exact ⟨msg, mentioned, kind, by simp [first, tracked.silent first]⟩
    · obtain ⟨greeting, met, asks, member⟩ := tracked.greeting first
      exact ⟨greeting, met, asks, List.mem_append_left _ member⟩
  counters distinct := tracked.counters ((client_distinct tracked room).mp distinct)
  numbers distinct a member := by
    rcases List.mem_append.mp member with earlier | last
    · obtain ⟨seq, below, nonce⟩ :=
        tracked.numbers ((client_distinct tracked room).mp distinct) a earlier
      exact ⟨seq, UInt32.le_trans below (UInt32.le_of_lt (lt_succ room)), nonce⟩
    · rw [List.mem_singleton.mp last]
      exact ⟨s.seq + 1, UInt32.le_refl _, rfl⟩

/-- The second packet of a connection object meets the nonce of the client's first. -/
theorem daemon_distinct (tracked : Tracked serialize connId known s)
    (roundTrip : ∀ msg, known msg → deserialize (serialize msg) = some msg)
    (present : s.sendSeqs[index]? = some seq) (mentioned : known msg) (kind : msg.isReply = true)
    (filled : s.log ≠ []) :
    Distinct (s.log ++ [sealing serialize connId seq.toUInt32 msg]) ↔
      Distinct s.log ∧ Careful serialize connId s (.daemon index msg) := by
  rw [distinct_append]
  apply and_congr_right
  intro distinct
  rcases tracked.counters distinct seq (List.mem_of_getElem? present) with rfl | rfl
  · simp only [Careful, present, true_and]
    exact Iff.rfl
  · have used : (1 : UInt64) ≠ 0 := by decide
    simp only [Careful, present, Option.some.injEq, used, false_and, iff_false]
    intro same
    obtain ⟨greeting, met, asks, member⟩ := tracked.greeting filled
    have bytes : serialize greeting = serialize msg := same _ member rfl
    have equal : some greeting = some msg := by
      rw [← roundTrip greeting met, ← roundTrip msg mentioned, bytes]
    rw [Option.some.inj equal, kind] at asks
    cases asks

theorem daemon_tracked (tracked : Tracked serialize connId known s)
    (roundTrip : ∀ msg, known msg → deserialize (serialize msg) = some msg)
    (present : s.sendSeqs[index]? = some seq) (mentioned : known msg) (kind : msg.isReply = true)
    (filled : s.log ≠ []) :
    Tracked serialize connId known
      { s with sendSeqs := s.sendSeqs.set index (seq + 1),
               log := s.log ++ [sealing serialize connId seq.toUInt32 msg] } := by
  have first : Distinct (s.log ++ [sealing serialize connId seq.toUInt32 msg]) →
      Distinct s.log ∧ seq = 0 := by
    intro distinct
    obtain ⟨earlier, careful⟩ :=
      (daemon_distinct tracked roundTrip present mentioned kind filled).mp distinct
    exact ⟨earlier, Option.some.inj (present.symm.trans careful.1)⟩
  constructor
  · intro empty
    simp at empty
  · intro _
    obtain ⟨greeting, met, asks, member⟩ := tracked.greeting filled
    exact ⟨greeting, met, asks, List.mem_append_left _ member⟩
  · intro distinct other member
    obtain ⟨earlier, rfl⟩ := first distinct
    rcases List.mem_or_eq_of_mem_set member with old | new
    · exact tracked.counters earlier other old
    · exact .inr new
  · intro distinct a member
    obtain ⟨earlier, rfl⟩ := first distinct
    rcases List.mem_append.mp member with old | last
    · exact tracked.numbers earlier a old
    · rw [List.mem_singleton.mp last]
      exact ⟨0, UInt32.zero_le, rfl⟩

/-- One step inside the client's counter: a nonce is reused exactly by a
careless packet. -/
theorem step_distinct (tracked : Tracked serialize connId known s)
    (roundTrip : ∀ msg, known msg → deserialize (serialize msg) = some msg)
    (mentioned : ∀ msg, action.message = some msg → known msg)
    (room : action.isClient = true → s.seq.toNat + 1 < 2 ^ 32)
    (stepped : Traffic.step serialize connId s action = some t) :
    Tracked serialize connId known t ∧
      (Distinct t.log ↔ Distinct s.log ∧ Careful serialize connId s action) := by
  cases action with
  | accept =>
    cases stepped
    refine ⟨⟨tracked.silent, tracked.greeting, ?_, tracked.numbers⟩, by simp [Careful]⟩
    intro distinct seq member
    rcases List.mem_append.mp member with earlier | last
    · exact tracked.counters distinct seq earlier
    · exact .inl (List.mem_singleton.mp last)
  | client msg =>
    obtain ⟨kind, ⟨⟩⟩ := Option.ite_none_left_eq_some.mp stepped
    have space := room rfl
    refine ⟨client_tracked tracked space (mentioned msg rfl) (by simpa using kind), ?_⟩
    simp only [client_distinct tracked space, Careful, space, and_true]
  | daemon index msg =>
    simp only [Traffic.step] at stepped
    split at stepped
    · rename_i seq present
      obtain ⟨⟨kind, filled⟩, ⟨⟩⟩ := Option.ite_none_right_eq_some.mp stepped
      exact ⟨daemon_tracked tracked roundTrip present (mentioned msg rfl) kind filled,
        daemon_distinct tracked roundTrip present (mentioned msg rfl) kind filled⟩
    · cases stepped

theorem step_seq (stepped : Traffic.step serialize connId s action = some t) :
    t.seq = if action.isClient then s.seq + 1 else s.seq := by
  cases action with
  | accept =>
    cases stepped
    rfl
  | client msg =>
    obtain ⟨-, ⟨⟩⟩ := Option.ite_none_left_eq_some.mp stepped
    rfl
  | daemon index msg =>
    simp only [Traffic.step] at stepped
    split at stepped
    · obtain ⟨-, ⟨⟩⟩ := Option.ite_none_right_eq_some.mp stepped
      rfl
    · cases stepped

theorem mentioned_rest (mentioned : ∀ msg ∈ messages (action :: rest), known msg) :
    (∀ msg, action.message = some msg → known msg) ∧ ∀ msg ∈ messages rest, known msg := by
  constructor
  · intro msg sent
    exact mentioned msg (by simp [messages, sent])
  · intro msg member
    obtain ⟨later, inRest, sent⟩ := List.mem_filterMap.mp member
    exact mentioned msg (List.mem_filterMap.mpr ⟨later, List.mem_cons_of_mem _ inRest, sent⟩)

theorem run_careful (tracked : Tracked serialize connId known s)
    (roundTrip : ∀ msg, known msg → deserialize (serialize msg) = some msg)
    (mentioned : ∀ msg ∈ messages actions, known msg)
    (run : Runs.exec (Traffic.step serialize connId) s actions = some t)
    (careful : Runs.Meets (Traffic.step serialize connId) (Careful serialize connId) s actions)
    (distinct : Distinct s.log) : Distinct t.log := by
  induction actions generalizing s with
  | nil =>
    cases Option.some.inj run
    exact distinct
  | cons action rest ih =>
    obtain ⟨middle, stepped, run⟩ := Runs.exec_cons.mp run
    have room : action.isClient = true → s.seq.toNat + 1 < 2 ^ 32 := by
      intro sends
      cases action with
      | client msg => exact careful.1
      | accept => cases sends
      | daemon index msg => cases sends
    obtain ⟨first, later⟩ := mentioned_rest mentioned
    obtain ⟨kept, here⟩ := step_distinct tracked roundTrip first room stepped
    exact ih kept later run (careful.2 middle stepped) (here.mpr ⟨distinct, careful.1⟩)

/-- Within the client's counter a careless step is never made good again. -/
theorem run_careless (tracked : Tracked serialize connId known s)
    (roundTrip : ∀ msg, known msg → deserialize (serialize msg) = some msg)
    (mentioned : ∀ msg ∈ messages actions, known msg)
    (run : Runs.exec (Traffic.step serialize connId) s actions = some t)
    (few : s.seq.toNat + clientMessages actions < 2 ^ 32) (distinct : Distinct t.log) :
    Distinct s.log ∧
      Runs.Meets (Traffic.step serialize connId) (Careful serialize connId) s actions := by
  induction actions generalizing s with
  | nil =>
    cases Option.some.inj run
    exact ⟨distinct, trivial⟩
  | cons action rest ih =>
    obtain ⟨middle, stepped, run⟩ := Runs.exec_cons.mp run
    have counted : clientMessages (action :: rest) =
        clientMessages rest + if action.isClient then 1 else 0 := by
      simp [clientMessages, List.countP_cons]
    have seq := step_seq stepped
    have room : action.isClient = true → s.seq.toNat + 1 < 2 ^ 32 := by
      intro sends
      rw [counted, if_pos sends] at few
      omega
    have rest_few : middle.seq.toNat + clientMessages rest < 2 ^ 32 := by
      cases sends : action.isClient with
      | false =>
        simp only [sends, Bool.false_eq_true, if_false] at seq counted
        rw [seq]
        omega
      | true =>
        simp only [sends, if_true] at seq counted
        rw [seq, UInt32.toNat_add, UInt32.toNat_one]
        have := room sends
        omega
    obtain ⟨first, later⟩ := mentioned_rest mentioned
    obtain ⟨kept, here⟩ := step_distinct tracked roundTrip first room stepped
    obtain ⟨soFar, meets⟩ := ih kept later run rest_few
    obtain ⟨before, careful⟩ := here.mp soFar
    refine ⟨before, careful, ?_⟩
    intro other reached
    cases Option.some.inj (stepped.symm.trans reached)
    exact meets

/-- In a run whose every step is careful no nonce protects two plaintexts; and
within the client's counter no other run has that property. -/
theorem nonces_distinct (serialize : ControlMsg → Bytes) (deserialize : Bytes → Option ControlMsg)
    (connId : UInt64) (actions : List Action)
    (roundTrip : ∀ msg ∈ messages actions, deserialize (serialize msg) = some msg)
    (run : Runs.exec (Traffic.step serialize connId) .start actions = some s) :
    (Runs.Meets (Traffic.step serialize connId) (Careful serialize connId) .start actions →
      Distinct s.log) ∧
    (clientMessages actions < 2 ^ 32 → Distinct s.log →
      Runs.Meets (Traffic.step serialize connId) (Careful serialize connId) .start actions) := by
  have tracked : Tracked serialize connId (· ∈ messages actions) .start := start_tracked
  constructor
  · intro careful
    exact run_careful tracked roundTrip (fun _ member => member) run careful (by
      simp [Distinct, Traffic.start])
  · intro few distinct
    exact (run_careless tracked roundTrip (fun _ member => member) run
      (by simpa [Traffic.start] using few) distinct).2

end

/-- The messages of a client that connects and asks for the host name. -/
def hello : ControlMsg := .hello Frame.protocolVersion ["exec", "input"]
def helloAck : ControlMsg := .helloAck Frame.protocolVersion ["exec", "input"]
def hostname : ControlMsg := .nativeCmd 1 .hostname
def output : ControlMsg := .execChunk 1 0 [104, 10]

def capabilityBytes : Bytes :=
  [1, 0, 2, 0, 0, 0, 0, 0, 0, 0, 4, 0, 0, 0, 0, 0, 0, 0, 101, 120, 101, 99,
    5, 0, 0, 0, 0, 0, 0, 0, 105, 110, 112, 117, 116]

/-- The serializer on these messages. -/
def knownSerialize : ControlMsg → Bytes
  | .hello _ _ => [12, 0, 0, 0] ++ capabilityBytes
  | .helloAck _ _ => [13, 0, 0, 0] ++ capabilityBytes
  | .nativeCmd _ _ => [19, 0, 0, 0, 1, 0, 0, 0, 26, 0, 0, 0]
  | .execChunk _ _ _ => [15, 0, 0, 0, 1, 0, 0, 0, 0, 2, 0, 0, 0, 0, 0, 0, 0, 104, 10]
  | _ => []

def knownDeserialize (bytes : Bytes) : Option ControlMsg :=
  match bytes.head? with
  | some 12 => some hello
  | some 13 => some helloAck
  | some 19 => some hostname
  | some 15 => some output
  | _ => none

/-- A client has connected and asked; the daemon has not answered yet. -/
def quietRun : List Action :=
  [.accept, .client hello, .daemon 0 helloAck, .client hostname]

theorem nonces_distinct_quiet : ∃ s,
    Runs.exec (Traffic.step knownSerialize 7) .start quietRun = some s ∧ Distinct s.log := by
  refine ⟨_, rfl, (nonces_distinct knownSerialize knownDeserialize 7 quietRun ?_ rfl).1 (by decide)⟩
  intro msg member
  simp only [quietRun, messages, Action.message, List.filterMap_cons, List.filterMap_nil,
    List.mem_cons, List.not_mem_nil, or_false] at member
  rcases member with rfl | rfl | rfl <;> rfl

/-- The output of the command goes out under the nonce of the client's hello. -/
theorem nonce_reused : ∃ s,
    Runs.exec (Traffic.step knownSerialize 7) .start (quietRun ++ [.daemon 0 output]) = some s ∧
    ¬Distinct s.log :=
  ⟨_, rfl, by decide⟩

end LanLink.Session
