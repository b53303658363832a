import LanLink.Vpn.DhtMessages

/-! The two parties of the handshake. What the Noise library answers is an input
of a call; its state is kept by the source but never read. A call that aborts on
an integer overflow has no result. -/
namespace LanLink.Vpn
open Words

def replayWindowSecs : Nat := 60

inductive HandshakeError where
  | snowError
  | invalidState (msg : String)
  | replayDetected (timestamp : UInt64)
  | timestampExpired (timestamp now : UInt64)
  | invalidData (msg : String)
  deriving DecidableEq

inductive HandshakeMsgType where
  | hello | helloAck | data
  deriving DecidableEq, Repr

def HandshakeMsgType.toU8 : HandshakeMsgType → UInt8
  | .hello => 0x01
  | .helloAck => 0x02
  | .data => 0x03

inductive HandshakePhase where
  | init | helloSent | helloReceived | helloAckReceived | established | failed
  deriving DecidableEq, Repr

structure TimestampedPayload where
  timestamp : UInt64
  payload : Bytes
  deriving DecidableEq

def TimestampedPayload.toBytes (t : TimestampedPayload) : Bytes :=
  bigEndian 8 t.timestamp.toNat ++ t.payload

def TimestampedPayload.fromBytes (data : Bytes) : Option TimestampedPayload :=
  if data.length < 8 then none
  else some ⟨(ofBigEndian (data.take 8)).toUInt64, data.drop 8⟩

/-- Only a timestamp of the past can be out of the window. -/
def TimestampedPayload.validate (t : TimestampedPayload) (now : UInt64) :
    Option (Except HandshakeError Unit) := do
  let limit ← checkedAdd 64 t.timestamp.toNat replayWindowSecs
  if limit < now.toNat then return .error (.timestampExpired t.timestamp now)
  else return .ok ()

def checkReplay (used : List UInt64) (timestamp : UInt64) : Except HandshakeError Unit :=
  if timestamp ∈ used then .error (.replayDetected timestamp) else .ok ()

/-- The checks that both parties make of a message once they are in the phase that
expects it. A message with no room for a timestamp passes them; the result is the list of
used timestamps. -/
def checkMessage (type : HandshakeMsgType) (invalid : String) (used : List UInt64) (msg : Bytes)
    (now : UInt64) : Option (Except HandshakeError (List UInt64)) :=
  match msg with
  | [] => some (.error (.invalidData invalid))
  | tag :: body =>
    if tag ≠ type.toU8 then some (.error (.invalidData invalid))
    else
      match TimestampedPayload.fromBytes body with
      | none => some (.ok used)
      | some timestamped => do
        let valid ← timestamped.validate now
        return do
          valid
          checkReplay used timestamped.timestamp
          return used ++ [timestamped.timestamp]

structure HandshakeInitiator where
  nodeId : NodeID
  phase : HandshakePhase
  usedTimestamps : List UInt64

def HandshakeInitiator.new (nodeId : NodeID) : HandshakeInitiator := ⟨nodeId, .init, []⟩

/-- `noise` is the key that the library made, if it could set up the initiator. -/
def HandshakeInitiator.startHandshake (s : HandshakeInitiator) (noise : Option Bytes) :
    Except HandshakeError Bytes × HandshakeInitiator :=
  match noise with
  | none => (.error .snowError, s)
  | some publicKey =>
    (.ok (HandshakeMsgType.hello.toU8 :: publicKey), { s with phase := .helloSent })

def HandshakeInitiator.handleHelloAck (s : HandshakeInitiator) (msg : Bytes)
    (now replyNow : UInt64) : Option (Except HandshakeError Bytes × HandshakeInitiator) :=
  if s.phase ≠ .helloSent then some (.error (.invalidState "expected HelloSent phase"), s)
  else do
    match ← checkMessage .helloAck "invalid HelloACK message" s.usedTimestamps msg now with
    | .error e => return (.error e, s)
    | .ok used =>
      let payload : TimestampedPayload := ⟨replyNow, s.nodeId.toList⟩
      return (.ok (HandshakeMsgType.data.toU8 :: payload.toBytes),
        { s with phase := .helloAckReceived, usedTimestamps := used })

def HandshakeInitiator.complete (s : HandshakeInitiator) :
    Except HandshakeError Unit × HandshakeInitiator :=
  if s.phase ≠ .helloAckReceived then (.error (.invalidState "handshake not completed"), s)
  else (.ok (), { s with phase := .established })

structure HandshakeResponder where
  nodeId : NodeID
  phase : HandshakePhase
  usedTimestamps : List UInt64

def HandshakeResponder.new (nodeId : NodeID) : HandshakeResponder := ⟨nodeId, .init, []⟩

/-- `noise` says whether the library could set up the responder. -/
def HandshakeResponder.handleHello (s : HandshakeResponder) (msg : Bytes) (noise : Bool)
    (replyNow : UInt64) : Except HandshakeError Bytes × HandshakeResponder :=
  if s.phase ≠ .init then (.error (.invalidState "expected Init phase"), s)
  else if msg.head? ≠ some HandshakeMsgType.hello.toU8 then
    (.error (.invalidData "invalid Hello message"), s)
  else if !noise then (.error .snowError, s)
  else
    let payload : TimestampedPayload := ⟨replyNow, s.nodeId.toList⟩
    (.ok (HandshakeMsgType.helloAck.toU8 :: payload.toBytes), { s with phase := .helloReceived })

def HandshakeResponder.handleData (s : HandshakeResponder) (msg : Bytes) (now : UInt64) :
    Option (Except HandshakeError Unit × HandshakeResponder) :=
  if s.phase ≠ .helloReceived then some (.error (.invalidState "expected HelloReceived phase"), s)
  else do
    match ← checkMessage .data "invalid Data message" s.usedTimestamps msg now with
    | .error e => return (.error e, s)
    | .ok used => return (.ok (), { s with phase := .established, usedTimestamps := used })

theorem TimestampedPayload.toBytes_long (t : TimestampedPayload) : 8 ≤ t.toBytes.length := by
  rw [toBytes, List.length_append, bigEndian_length]
  exact Nat.le_add_right _ _

theorem TimestampedPayload.fromBytes_toBytes (t : TimestampedPayload) :
    fromBytes t.toBytes = some t := by
  have word : t.timestamp.toNat < 256 ^ 8 := t.timestamp.toNat_lt
  rw [fromBytes, if_neg (Nat.not_lt.mpr t.toBytes_long), toBytes, List.take_left' (bigEndian_length 8 _),
    List.drop_left' (bigEndian_length 8 _), ofBigEndian_bigEndian word, Nat.toUInt64,
    UInt64.ofNat_toNat]

theorem TimestampedPayload.toBytes_injective {t u : TimestampedPayload}
    (same : t.toBytes = u.toBytes) : t = u := by
  have read := congrArg fromBytes same
  rw [fromBytes_toBytes, fromBytes_toBytes] at read
  exact Option.some.inj read

theorem TimestampedPayload.validate_of_fits {t : TimestampedPayload}
    (fits : t.timestamp.toNat + replayWindowSecs < 2 ^ 64) (now : UInt64) :
    t.validate now = some (if t.timestamp.toNat + replayWindowSecs < now.toNat then
      .error (.timestampExpired t.timestamp now) else .ok ()) := by
  rw [validate, checkedAdd_of_lt fits, Option.bind_eq_bind, Option.bind_some, apply_ite some]
  rfl

theorem TimestampedPayload.toBytes_of_long {data : Bytes} (long : 8 ≤ data.length) :
    ∃ t : TimestampedPayload, data = t.toBytes := by
  refine ⟨⟨(ofBigEndian (data.take 8)).toUInt64, data.drop 8⟩, ?_⟩
  rw [toBytes, bigEndian_word long, List.take_append_drop]

end LanLink.Vpn
