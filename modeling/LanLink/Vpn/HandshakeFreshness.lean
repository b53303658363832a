import LanLink.Core.Runs
import LanLink.Vpn.Handshake

/-! Which messages bring a party of the handshake forward, over every sequence of
calls. Both parties make the same checks in different phases. -/
namespace LanLink.Vpn
open Words Runs

/-- A message of the type that carries a timestamp near the time of its arrival which
was not accepted before. -/
def Fresh (type : HandshakeMsgType) (accepted : List UInt64) (msg : Bytes) (now : UInt64) :
    Prop :=
  ∃ t : TimestampedPayload, msg = type.toU8 :: t.toBytes ∧
    t.timestamp.toNat ≤ now.toNat + replayWindowSecs ∧
    now.toNat ≤ t.timestamp.toNat + replayWindowSecs ∧ t.timestamp ∉ accepted

/-- A message of the type has a whole timestamp, on which the window fits into a word,
and which is not beyond the window of the future unless it was used before. -/
def Guarded (type : HandshakeMsgType) (used : List UInt64) (msg : Bytes) (now : UInt64) : Prop :=
  ∀ body, msg = type.toU8 :: body → ∃ t : TimestampedPayload, body = t.toBytes ∧
    t.timestamp.toNat + replayWindowSecs < 2 ^ 64 ∧
    (t.timestamp.toNat ≤ now.toNat + replayWindowSecs ∨ t.timestamp ∈ used)

section
variable {type : HandshakeMsgType} {invalid : String} {used : List UInt64} {msg : Bytes}
  {now : UInt64}

theorem checkMessage_foreign (foreign : ∀ body, msg ≠ type.toU8 :: body) :
    checkMessage type invalid used msg now = some (.error (.invalidData invalid)) := by
  cases msg with
  | nil => rfl
  | cons tag body =>
    have other : tag ≠ type.toU8 := fun same => foreign body (same ▸ rfl)
    rw [checkMessage, if_pos other]

theorem checkMessage_short {body : Bytes} (short : body.length < 8) :
    checkMessage type invalid used (type.toU8 :: body) now = some (.ok used) := by
  simp [checkMessage, TimestampedPayload.fromBytes, short]

theorem checkMessage_timestamped (t : TimestampedPayload) :
    checkMessage type invalid used (type.toU8 :: t.toBytes) now =
      if 2 ^ 64 ≤ t.timestamp.toNat + replayWindowSecs then none
      else if t.timestamp.toNat + replayWindowSecs < now.toNat then
        some (.error (.timestampExpired t.timestamp now))
      else if t.timestamp ∈ used then some (.error (.replayDetected t.timestamp))
      else some (.ok (used ++ [t.timestamp])) := by
  simp only [checkMessage, ne_eq, not_true_eq_false, if_false,
    TimestampedPayload.fromBytes_toBytes]
  split
  · rename_i overflow
    rw [TimestampedPayload.validate, checkedAdd_eq_none overflow]
    rfl
  · rename_i fits
    rw [TimestampedPayload.validate_of_fits (Nat.not_le.mp fits), Option.bind_eq_bind,
      Option.bind_some]
    split
    · rfl
    · by_cases known : t.timestamp ∈ used
      · simp [known, checkReplay, bind, Except.bind]
      · simp [known, checkReplay, bind, Except.bind, pure, Except.pure]

theorem guarded_timestamped (t : TimestampedPayload) :
    Guarded type used (type.toU8 :: t.toBytes) now ↔
      t.timestamp.toNat + replayWindowSecs < 2 ^ 64 ∧
      (t.timestamp.toNat ≤ now.toNat + replayWindowSecs ∨ t.timestamp ∈ used) := by
  constructor
  · intro guarded
    obtain ⟨u, same, fits, near⟩ := guarded _ rfl
    cases TimestampedPayload.toBytes_injective same
    exact ⟨fits, near⟩
  · rintro ⟨fits, near⟩ body same
    exact ⟨t, (List.cons.inj same).2.symm, fits, near⟩

theorem fresh_timestamped (t : TimestampedPayload) :
    Fresh type used (type.toU8 :: t.toBytes) now ↔
      t.timestamp.toNat ≤ now.toNat + replayWindowSecs ∧
      now.toNat ≤ t.timestamp.toNat + replayWindowSecs ∧ t.timestamp ∉ used := by
  constructor
  · rintro ⟨u, same, near⟩
    cases TimestampedPayload.toBytes_injective (List.cons.inj same).2
    exact near
  · intro near
    exact ⟨t, rfl, near⟩

/-- The checks neither abort nor let a message through that is not fresh exactly when
the message is guarded. -/
theorem guarded_iff_checkMessage (invalid : String) : Guarded type used msg now ↔
    checkMessage type invalid used msg now ≠ none ∧
    ∀ next, checkMessage type invalid used msg now = some (.ok next) →
      Fresh type used msg now := by
  by_cases own : ∃ body, msg = type.toU8 :: body
  · obtain ⟨body, rfl⟩ := own
    by_cases short : body.length < 8
    · rw [checkMessage_short short]
      constructor
      · intro guarded
        obtain ⟨t, rfl, -⟩ := guarded body rfl
        exact absurd t.toBytes_long (Nat.not_le.mpr short)
      · rintro ⟨-, fresh⟩
        obtain ⟨t, same, -⟩ := fresh used rfl
        cases same
        exact absurd t.toBytes_long (Nat.not_le.mpr short)
    · obtain ⟨t, rfl⟩ := TimestampedPayload.toBytes_of_long (Nat.not_lt.mp short)
      rw [checkMessage_timestamped, guarded_timestamped, fresh_timestamped]
      split
      · rename_i overflow
        exact ⟨fun guarded => absurd overflow (Nat.not_le.mpr guarded.1),
          fun checked => absurd rfl checked.1⟩
      · rename_i fits
        have fits := Nat.not_le.mp fits
        split
        · -- An expired timestamp lies in the past.
          have past : t.timestamp.toNat ≤ now.toNat + replayWindowSecs := by omega
          exact ⟨fun _ => ⟨nofun, nofun⟩, fun _ => ⟨fits, .inl past⟩⟩
        · rename_i current
          split
          · rename_i known
            exact ⟨fun _ => ⟨nofun, nofun⟩, fun _ => ⟨fits, .inr known⟩⟩
          · rename_i unknown
            constructor
            · rintro ⟨-, near⟩
              exact ⟨nofun, fun _ _ => ⟨near.resolve_right unknown, Nat.not_lt.mp current, unknown⟩⟩
            · rintro ⟨-, fresh⟩
              exact ⟨fits, .inl (fresh _ rfl).1⟩
  · have foreign : ∀ body, msg ≠ type.toU8 :: body := fun body same => own ⟨body, same⟩
    rw [checkMessage_foreign foreign]
    constructor
    · intro
      exact ⟨nofun, nofun⟩
    · intro _ body same
      exact absurd same (foreign body)

theorem Fresh.length (fresh : Fresh type used msg now) : 1 + 8 ≤ msg.length := by
  obtain ⟨t, rfl, -⟩ := fresh
  have long := t.toBytes_long
  rw [List.length_cons]
  omega

/-- Accepting a message records the timestamp that it carries, if any. -/
theorem checkMessage_used {next : List UInt64}
    (passed : checkMessage type invalid used msg now = some (.ok next)) :
    next = used ++ (TimestampedPayload.fromBytes msg.tail).toList.map (·.timestamp) := by
  by_cases own : ∃ body, msg = type.toU8 :: body
  · obtain ⟨body, rfl⟩ := own
    by_cases short : body.length < 8
    · rw [checkMessage_short short] at passed
      cases passed
      simp [TimestampedPayload.fromBytes, short]
    · obtain ⟨t, rfl⟩ := TimestampedPayload.toBytes_of_long (Nat.not_lt.mp short)
      rw [checkMessage_timestamped] at passed
      split at passed
      · cases passed
      · split at passed
        · cases passed
        · split at passed
          · cases passed
          · cases passed
            simp [TimestampedPayload.fromBytes_toBytes]
  · rw [checkMessage_foreign fun body same => own ⟨body, same⟩] at passed
    cases passed

end

/-- A party of the handshake: which of its calls check a message and in which phase,
and what every call does to the phase and to the used timestamps. -/
structure Party (P A : Type) where
  phase : P → HandshakePhase
  used : P → List UInt64
  call : P → A → Option (Except HandshakeError Unit × P)
  /-- The message that a call checks, and the time of its arrival. -/
  message : A → Option (Bytes × UInt64)
  type : HandshakeMsgType
  invalid : String
  awaits : HandshakePhase
  enters : HandshakePhase
  awaits_ne_enters : awaits ≠ enters
  refuses : ∀ {s a msg now}, message a = some (msg, now) → phase s ≠ awaits →
    ∃ e, call s a = some (.error e, s)
  aborts : ∀ {s a msg now}, message a = some (msg, now) → phase s = awaits →
    checkMessage type invalid (used s) msg now = none → call s a = none
  fails : ∀ {s a msg now e}, message a = some (msg, now) → phase s = awaits →
    checkMessage type invalid (used s) msg now = some (.error e) → call s a = some (.error e, s)
  accepts : ∀ {s a msg now next}, message a = some (msg, now) → phase s = awaits →
    checkMessage type invalid (used s) msg now = some (.ok next) →
    ∃ t, call s a = some (.ok (), t) ∧ phase t = enters ∧ used t = next
  other : ∀ {s a}, message a = none →
    ∃ result t, call s a = some (result, t) ∧ used t = used s ∧ (phase t = enters → phase s = enters)

/-- A party with the timestamps of all messages that it accepted so far. -/
structure Watched (P : Type) where
  party : P
  accepted : List UInt64

namespace Party
variable {P A : Type} (p : Party P A)

def acceptedBy (a : A) : Except HandshakeError Unit → List UInt64
  | .error _ => []
  | .ok _ =>
    match p.message a with
    | none => []
    | some (msg, _) => (TimestampedPayload.fromBytes msg.tail).toList.map (·.timestamp)

def step (s : Watched P) (a : A) : Option (Watched P) :=
  (p.call s.party a).map fun (result, party) => ⟨party, s.accepted ++ p.acceptedBy a result⟩

/-- The call does not abort, the phase is entered on a fresh message only, and a message
that is too short for a timestamp is refused. -/
def FreshCall (s : Watched P) (a : A) : Prop :=
  ∃ result t, p.call s.party a = some (result, t) ∧
    (p.phase s.party ≠ p.enters → p.phase t = p.enters →
      ∃ msg now, p.message a = some (msg, now) ∧ Fresh p.type s.accepted msg now) ∧
    ∀ msg now, p.message a = some (msg, now) → msg.length < 1 + 8 → ∃ e, result = .error e

/-- A message that arrives in the phase that expects it is guarded. -/
def GuardedCall (s : Watched P) (a : A) : Prop :=
  ∀ msg now, p.message a = some (msg, now) → p.phase s.party = p.awaits →
    Guarded p.type (p.used s.party) msg now

def Recorded (s : Watched P) : Prop := p.used s.party = s.accepted

variable {p} {s t : Watched P} {a : A}

theorem freshCall_of_unchecked (unchecked : p.message a = none) : p.FreshCall s a := by
  obtain ⟨result, t, called, -, stays⟩ := p.other (s := s.party) unchecked
  refine ⟨result, t, called, fun before after => absurd (stays after) before, ?_⟩
  intro msg now checked
  rw [unchecked] at checked
  cases checked

/-- A call that fails leaves the party where it was. -/
theorem freshCall_of_failed (failed : p.call s.party a = some (.error e, s.party)) :
    p.FreshCall s a :=
  ⟨.error e, s.party, failed, fun before after => absurd after before, fun _ _ _ _ => ⟨e, rfl⟩⟩

theorem freshCall_of_accepted {next : P} (checked : p.message a = some (msg, now))
    (phase : p.phase s.party = p.awaits) (called : p.call s.party a = some (.ok (), next))
    (entered : p.phase next = p.enters) :
    p.FreshCall s a ↔ Fresh p.type s.accepted msg now := by
  constructor
  · rintro ⟨result, u, same, enters, -⟩
    rw [called] at same
    cases same
    obtain ⟨msg', now', message, fresh⟩ := enters (phase ▸ p.awaits_ne_enters) entered
    rw [checked] at message
    cases message
    exact fresh
  · intro fresh
    refine ⟨.ok (), next, called, fun _ _ => ⟨msg, now, checked, fresh⟩, ?_⟩
    intro msg' now' message short
    rw [checked] at message
    cases message
    exact absurd fresh.length (Nat.not_le.mpr short)

theorem freshCall_iff (recorded : p.Recorded s) : p.FreshCall s a ↔ p.GuardedCall s a := by
  cases checked : p.message a with
  | none =>
    apply iff_of_true (freshCall_of_unchecked checked)
    intro msg now message
    rw [checked] at message
    cases message
  | some arrival =>
    obtain ⟨msg, now⟩ := arrival
    by_cases phase : p.phase s.party = p.awaits
    · have guarded : p.GuardedCall s a ↔ Guarded p.type s.accepted msg now := by
        simp [GuardedCall, checked, phase, recorded.symm]
      rw [guarded, guarded_iff_checkMessage p.invalid]
      cases outcome : checkMessage p.type p.invalid s.accepted msg now with
      | none =>
        have aborted := p.aborts checked phase (recorded ▸ outcome)
        refine iff_of_false ?_ fun passed => passed.1 rfl
        rintro ⟨result, t, called, -⟩
        rw [aborted] at called
        cases called
      | some result =>
        cases result with
        | error e =>
          have failed := p.fails checked phase (recorded ▸ outcome)
          exact iff_of_true (freshCall_of_failed failed) ⟨nofun, nofun⟩
        | ok next =>
          obtain ⟨t, called, entered, -⟩ := p.accepts checked phase (recorded ▸ outcome)
          rw [freshCall_of_accepted checked phase called entered]
          exact ⟨fun fresh => ⟨nofun, fun _ _ => fresh⟩, fun passed => passed.2 next rfl⟩
    · obtain ⟨e, failed⟩ := p.refuses checked phase
      apply iff_of_true (freshCall_of_failed failed)
      intro msg' now' _ same
      exact absurd same phase

/-- The used timestamps are those of the messages that were accepted. -/
theorem step_recorded (recorded : p.Recorded s) (stepped : p.step s a = some t) :
    p.Recorded t := by
  obtain ⟨⟨result, party⟩, called, rfl⟩ := Option.map_eq_some_iff.mp stepped
  cases checked : p.message a with
  | none =>
    obtain ⟨result', party', same, used, -⟩ := p.other (s := s.party) checked
    rw [called] at same
    cases same
    cases result <;> simp [Recorded, acceptedBy, checked, used, recorded.symm]
  | some arrival =>
    obtain ⟨msg, now⟩ := arrival
    by_cases phase : p.phase s.party = p.awaits
    · cases outcome : checkMessage p.type p.invalid (p.used s.party) msg now with
      | none =>
        rw [p.aborts checked phase outcome] at called
        cases called
      | some passed =>
        cases passed with
        | error e =>
          rw [p.fails checked phase outcome] at called
          cases called
          simp [Recorded, acceptedBy, recorded.symm]
        | ok next =>
          obtain ⟨t, same, -, used⟩ := p.accepts checked phase outcome
          rw [called] at same
          cases same
          simp [Recorded, acceptedBy, checked, used, checkMessage_used outcome, recorded.symm]
    · obtain ⟨e, same⟩ := p.refuses checked phase
      rw [called] at same
      cases same
      simp [Recorded, acceptedBy, recorded.symm]

theorem meets_fresh_iff (recorded : p.Recorded s) (calls : List A) :
    Meets p.step p.FreshCall s calls ↔ Meets p.step p.GuardedCall s calls := by
  have always : Meets p.step (fun s _ => p.Recorded s) s calls :=
    meets_mono (g := fun _ _ => True) (P := p.Recorded) (fun held stepped => step_recorded held stepped)
      (fun held _ => held) (meets_of_forall fun _ _ _ => trivial) recorded
  exact meets_congr freshCall_iff always

end Party

inductive InitiatorCall where
  | startHandshake (noise : Option Bytes)
  | handleHelloAck (msg : Bytes) (now replyNow : UInt64)
  | complete

def InitiatorCall.run (s : HandshakeInitiator) :
    InitiatorCall → Option (Except HandshakeError Unit × HandshakeInitiator)
  | .startHandshake noise =>
    some ((s.startHandshake noise).1.map fun _ => (), (s.startHandshake noise).2)
  | .handleHelloAck msg now replyNow =>
    (s.handleHelloAck msg now replyNow).map fun (result, s) => (result.map fun _ => (), s)
  | .complete => some s.complete

def InitiatorCall.message : InitiatorCall → Option (Bytes × UInt64)
  | .handleHelloAck msg now _ => some (msg, now)
  | .startHandshake _ | .complete => none

theorem HandshakeInitiator.complete_kept (s : HandshakeInitiator) :
    s.complete.2.usedTimestamps = s.usedTimestamps ∧
    (s.complete.2.phase = .helloAckReceived → s.phase = .helloAckReceived) := by
  rw [complete]
  split
  · exact ⟨rfl, id⟩
  · exact ⟨rfl, nofun⟩

def initiator : Party HandshakeInitiator InitiatorCall where
  phase := (·.phase)
  used := (·.usedTimestamps)
  call := InitiatorCall.run
  message := InitiatorCall.message
  type := .helloAck
  invalid := "invalid HelloACK message"
  awaits := .helloSent
  enters := .helloAckReceived
  awaits_ne_enters := nofun
  refuses := by
    rintro s (noise | ⟨msg, now, replyNow⟩ | _) _ _ ⟨⟩ phase
    refine ⟨.invalidState "expected HelloSent phase", ?_⟩
    simp [InitiatorCall.run, HandshakeInitiator.handleHelloAck, phase, Except.map]
  aborts := by
    rintro s (noise | ⟨msg, now, replyNow⟩ | _) _ _ ⟨⟩ phase outcome
    simp [InitiatorCall.run, HandshakeInitiator.handleHelloAck, phase, outcome]
  fails := by
    rintro s (noise | ⟨msg, now, replyNow⟩ | _) _ _ e ⟨⟩ phase outcome
    simp [InitiatorCall.run, HandshakeInitiator.handleHelloAck, phase, outcome, Except.map]
  accepts := by
    rintro s (noise | ⟨msg, now, replyNow⟩ | _) _ _ next ⟨⟩ phase outcome
    refine ⟨{ s with phase := .helloAckReceived, usedTimestamps := next }, ?_, rfl, rfl⟩
    simp [InitiatorCall.run, HandshakeInitiator.handleHelloAck, phase, outcome, Except.map]
  other := by
    rintro s (noise | ⟨msg, now, replyNow⟩ | _) unchecked
    · cases noise with
      | none => exact ⟨_, _, rfl, rfl, id⟩
      | some => exact ⟨_, _, rfl, rfl, nofun⟩
    · cases unchecked
    · exact ⟨s.complete.1, s.complete.2, rfl, s.complete_kept⟩

inductive ResponderCall where
  | handleHello (msg : Bytes) (noise : Bool) (replyNow : UInt64)
  | handleData (msg : Bytes) (now : UInt64)

def ResponderCall.run (s : HandshakeResponder) :
    ResponderCall → Option (Except HandshakeError Unit × HandshakeResponder)
  | .handleHello msg noise replyNow =>
    some ((s.handleHello msg noise replyNow).1.map fun _ => (), (s.handleHello msg noise replyNow).2)
  | .handleData msg now => s.handleData msg now

def ResponderCall.message : ResponderCall → Option (Bytes × UInt64)
  | .handleData msg now => some (msg, now)
  | .handleHello _ _ _ => none

theorem HandshakeResponder.handleHello_kept (s : HandshakeResponder) (msg : Bytes) (noise : Bool)
    (replyNow : UInt64) :
    (s.handleHello msg noise replyNow).2.usedTimestamps = s.usedTimestamps ∧
    ((s.handleHello msg noise replyNow).2.phase = .established → s.phase = .established) := by
  rw [handleHello]
  split
  · exact ⟨rfl, id⟩
  · split
    · exact ⟨rfl, id⟩
    · split
      · exact ⟨rfl, id⟩
      · exact ⟨rfl, nofun⟩

def responder : Party HandshakeResponder ResponderCall where
  phase := (·.phase)
  used := (·.usedTimestamps)
  call := ResponderCall.run
  message := ResponderCall.message
  type := .data
  invalid := "invalid Data message"
  awaits := .helloReceived
  enters := .established
  awaits_ne_enters := nofun
  refuses := by
    rintro s (⟨msg, noise, replyNow⟩ | ⟨msg, now⟩) _ _ ⟨⟩ phase
    refine ⟨.invalidState "expected HelloReceived phase", ?_⟩
    simp [ResponderCall.run, HandshakeResponder.handleData, phase]
  aborts := by
    rintro s (⟨msg, noise, replyNow⟩ | ⟨msg, now⟩) _ _ ⟨⟩ phase outcome
    simp [ResponderCall.run, HandshakeResponder.handleData, phase, outcome]
  fails := by
    rintro s (⟨msg, noise, replyNow⟩ | ⟨msg, now⟩) _ _ e ⟨⟩ phase outcome
    simp [ResponderCall.run, HandshakeResponder.handleData, phase, outcome]
  accepts := by
    rintro s (⟨msg, noise, replyNow⟩ | ⟨msg, now⟩) _ _ next ⟨⟩ phase outcome
    refine ⟨{ s with phase := .established, usedTimestamps := next }, ?_, rfl, rfl⟩
    simp [ResponderCall.run, HandshakeResponder.handleData, phase, outcome]
  other := by
    rintro s (⟨msg, noise, replyNow⟩ | ⟨msg, now⟩) unchecked
    · exact ⟨_, (s.handleHello msg noise replyNow).2, rfl, s.handleHello_kept msg noise replyNow⟩
    · cases unchecked

/-- Over every sequence of messages and times, both parties go forward on fresh
messages only, and without an abort, exactly as long as every message that arrives in
the phase that expects it is guarded. -/
theorem handshake_fresh_iff_guarded (nodeId : NodeID) :
    (∀ calls, Meets initiator.step initiator.FreshCall ⟨.new nodeId, []⟩ calls ↔
      Meets initiator.step initiator.GuardedCall ⟨.new nodeId, []⟩ calls) ∧
    ∀ calls, Meets responder.step responder.FreshCall ⟨.new nodeId, []⟩ calls ↔
      Meets responder.step responder.GuardedCall ⟨.new nodeId, []⟩ calls :=
  ⟨Party.meets_fresh_iff rfl, Party.meets_fresh_iff rfl⟩

/-- The type byte alone establishes the handshake. -/
theorem handshake_bare_type : ¬ Meets responder.step responder.FreshCall ⟨.new zeroId, []⟩
    [.handleHello [0x01] true 1700000000, .handleData [0x03] 1700000000] := by
  intro meets
  obtain ⟨result, t, called, -, refused⟩ := (meets.2 _ rfl).1
  cases called
  obtain ⟨e, refused⟩ := refused [0x03] 1700000000 rfl (by decide)
  cases refused

end LanLink.Vpn
