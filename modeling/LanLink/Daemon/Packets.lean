import LanLink.Protocol.Crypto
import LanLink.Daemon.Connection

/-! The packet handlers of the two transports. A handler returns the state it
leaves, the control message it hands on and the reply it sends; authenticated
decryption is a parameter. The two handlers keep their own bodies, because the
source copies one from the other by hand. -/
namespace LanLink.Daemon
open Words LanLink.Frame Crypto

/-- A call of the control handler. -/
structure ControlCall where
  connId : UInt64
  peer : SocketAddr
  plaintext : Bytes
  deriving DecidableEq

structure Handled where
  connections : ConnMap
  rateLimiter : RateLimiter
  control : Option ControlCall
  reply : Option Bytes

/-- Nothing happens. -/
def Handled.ignored (connections : ConnMap) (rateLimiter : RateLimiter) : Handled :=
  ⟨connections, rateLimiter, none, none⟩

/-- A new connection is established at once. -/
def accept (connections : ConnMap) (connId : UInt64) (peer : SocketAddr) (now : Nat) : ConnMap :=
  connections.insert connId { Connection.new connId peer now with state := .established }

def touch (connections : ConnMap) (connId : UInt64) (now : Nat) : ConnMap :=
  match connections[connId]? with
  | some conn => connections.insert connId { conn with lastActivity := now }
  | none => connections

section
variable (decrypt : Psk → Nonce → Bytes → Option Bytes)

/-- Decrypted data on an established connection: both transports end in this. -/
def handlePlaintext (header : PacketHeader) (plaintext : Bytes) (peer : SocketAddr) (now : Nat)
    (connections : ConnMap) (rateLimiter : RateLimiter) : Handled :=
  let connections := touch connections header.connId now
  if header.streamId = StreamId.control.toU16 then
    let (rateLimiter, allowed) := rateLimiter.checkCmd peer.ip now
    if allowed then
      match connections[header.connId]? with
      | some _ => ⟨connections, rateLimiter, some ⟨header.connId, peer, plaintext⟩, none⟩
      | none => .ignored connections rateLimiter
    else .ignored connections rateLimiter
  else .ignored connections rateLimiter

def handlePacketInner (data : Bytes) (peer : SocketAddr) (psk : Psk) (now : Nat)
    (connections : ConnMap) (rateLimiter : RateLimiter) : Handled :=
  match PacketHeader.decode data with
  | none => .ignored connections rateLimiter
  | some (header, _) =>
    let connId := header.connId
    match header.pktType with
    | .syn =>
      let (rateLimiter, allowed) := rateLimiter.checkSyn peer.ip now
      if !allowed then .ignored connections rateLimiter
      else if connections.size ≥ maxConnections then .ignored connections rateLimiter
      else match connections[connId]? with
        | some existing =>
          if existing.peer ≠ peer then .ignored connections rateLimiter
          else ⟨connections, rateLimiter, none, some (Connection.buildSynAck connId)⟩
        | none => ⟨accept connections connId peer now, rateLimiter, none,
            some (Connection.buildSynAck connId)⟩
    | .synAck =>
      match connections[connId]? with
      | some conn => .ignored
          (connections.insert connId { conn with state := .established, lastActivity := now })
          rateLimiter
      | none => .ignored connections rateLimiter
    | .data =>
      match connections[connId]? with
      | some conn =>
        if conn.state = .established ∧ conn.peer = peer then
          if data.length ≤ headerSize then .ignored connections rateLimiter
          else match decrypt psk header.nonce (data.drop headerSize) with
            | some plaintext => handlePlaintext header plaintext peer now connections rateLimiter
            | none => .ignored connections rateLimiter
        else .ignored connections rateLimiter
      | none => .ignored connections rateLimiter
    | .heartbeat =>
      match connections[connId]? with
      | some conn =>
        if conn.state ≠ .established ∨ conn.peer ≠ peer then .ignored connections rateLimiter
        else ⟨touch connections connId now, rateLimiter, none,
          some (Connection.buildHeartbeat connId)⟩
      | none => .ignored connections rateLimiter
    | .rst => .ignored (connections.erase connId) rateLimiter
    | .ack => .ignored connections rateLimiter

def handlePacketTcp (data : Bytes) (peer : SocketAddr) (psk : Psk) (now : Nat)
    (connections : ConnMap) (rateLimiter : RateLimiter) : Handled :=
  match PacketHeader.decode data with
  | none => .ignored connections rateLimiter
  | some (header, _) =>
    let connId := header.connId
    match header.pktType with
    | .syn =>
      let (rateLimiter, allowed) := rateLimiter.checkSyn peer.ip now
      if !allowed then .ignored connections rateLimiter
      else match connections[connId]? with
        | some existing =>
          if existing.peer ≠ peer then .ignored connections rateLimiter
          else ⟨connections, rateLimiter, none, some (Connection.buildSynAck connId)⟩
        | none => ⟨accept connections connId peer now, rateLimiter, none,
            some (Connection.buildSynAck connId)⟩
    | .data =>
      match connections[connId]? with
      | some conn =>
        if conn.state = .established then
          if data.length ≤ headerSize then .ignored connections rateLimiter
          else match decrypt psk header.nonce (data.drop headerSize) with
            | some plaintext => handlePlaintext header plaintext peer now connections rateLimiter
            | none => .ignored connections rateLimiter
        else .ignored connections rateLimiter
      | none => .ignored connections rateLimiter
    | .heartbeat =>
      match connections[connId]? with
      | some conn =>
        if conn.state = .established then .ignored (touch connections connId now) rateLimiter
        else .ignored connections rateLimiter
      | none => .ignored connections rateLimiter
    | .rst => .ignored (connections.erase connId) rateLimiter
    | .synAck | .ack => .ignored connections rateLimiter

end

section
variable {connections : ConnMap} {connId : UInt64} {conn replaced : Connection}

/-- Overwriting an entry is invisible only if the entry stays what it was. -/
theorem insert_eq_self (present : connections[connId]? = some conn) :
    connections.insert connId replaced = connections ↔ replaced = conn := by
  constructor
  · intro same
    have entry : (connections.insert connId replaced)[connId]? = some replaced := by simp
    rw [same, present] at entry
    exact (Option.some.inj entry).symm
  · rintro rfl
    apply Std.ExtHashMap.ext_getElem?
    intro other
    rw [Std.ExtHashMap.getElem?_insert]
    split
    · rename_i same
      rw [← eq_of_beq same, present]
    · rfl

theorem touch_present (present : connections[connId]? = some conn) :
    touch connections connId now = connections.insert connId { conn with lastActivity := now } := by
  simp [touch, present]

theorem touch_entry (present : connections[connId]? = some conn) :
    (touch connections connId now)[connId]? = some { conn with lastActivity := now } := by
  simp [touch_present present]

theorem touch_eq_self (present : connections[connId]? = some conn) :
    touch connections connId now = connections ↔ conn.lastActivity = now := by
  rw [touch_present present, insert_eq_self present]
  constructor
  · intro same
    exact (congrArg Connection.lastActivity same).symm
  · rintro rfl
    rfl

/-- The last part of a data packet on a connection that exists. -/
theorem handlePlaintext_present {header : PacketHeader} {rateLimiter : RateLimiter}
    (present : connections[header.connId]? = some conn) :
    handlePlaintext header plaintext peer now connections rateLimiter =
      if header.streamId = StreamId.control.toU16 then
        ⟨touch connections header.connId now, (rateLimiter.checkCmd peer.ip now).1,
          if (rateLimiter.checkCmd peer.ip now).2 then some ⟨header.connId, peer, plaintext⟩
          else none, none⟩
      else .ignored (touch connections header.connId now) rateLimiter := by
  simp only [handlePlaintext, touch_entry present]
  split
  · cases (rateLimiter.checkCmd peer.ip now).2 <;> rfl
  · rfl

end

end LanLink.Daemon
