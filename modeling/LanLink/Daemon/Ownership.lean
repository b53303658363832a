import LanLink.Daemon.Machine

/-! Who may change a connection. A datagram from another address than the
recorded peer is refused by the handshake, data and heartbeat branches; the
reset and the handshake answer take no look at the address. -/
namespace LanLink.Daemon
open Words LanLink.Frame Crypto

section
variable {decrypt : Psk → Nonce → Bytes → Option Bytes} {data : Bytes} {peer : SocketAddr}
  {psk : Psk} {now : Nat} {connections : ConnMap} {rateLimiter : RateLimiter} {conn : Connection}

/-- The entry is as it was, and no control message ran. -/
def Untouched (h : Handled) (connId : UInt64) (conn : Connection) : Prop :=
  h.connections[connId]? = some conn ∧ h.control = none

/-- Each guarded branch leaves the connections of other peers alone. -/
theorem foreign_guarded (decoded : PacketHeader.decode data = some (header, rest))
    (present : connections[header.connId]? = some conn) (foreign : conn.peer ≠ peer)
    (kind : header.pktType ≠ .rst) (answer : header.pktType ≠ .synAck) :
    Untouched (handlePacketInner decrypt data peer psk now connections rateLimiter)
      header.connId conn := by
  simp only [handlePacketInner, decoded, present]
  cases shape : header.pktType with
  | syn =>
    simp only [foreign, ne_eq, not_false_eq_true, if_true]
    repeat' split
    all_goals exact ⟨present, rfl⟩
  | synAck => exact absurd shape answer
  | ack => exact ⟨present, rfl⟩
  | data =>
    simp only [foreign, and_false, if_false]
    exact ⟨present, rfl⟩
  | rst => exact absurd shape kind
  | heartbeat =>
    simp only [foreign, ne_eq, not_false_eq_true, or_true, if_true]
    exact ⟨present, rfl⟩

theorem foreign_answer (decoded : PacketHeader.decode data = some (header, rest))
    (present : connections[header.connId]? = some conn) (state : conn.state = .established)
    (kind : header.pktType = .synAck) :
    Untouched (handlePacketInner decrypt data peer psk now connections rateLimiter)
      header.connId conn ↔ conn.lastActivity = now := by
  simp only [Untouched, handlePacketInner, decoded, present, kind, Handled.ignored,
    Std.ExtHashMap.getElem?_insert_self, Option.some.injEq, and_true, ← state]
  constructor
  · intro same
    exact (congrArg Connection.lastActivity same).symm
  · rintro rfl
    rfl

theorem foreign_reset (decoded : PacketHeader.decode data = some (header, rest))
    (kind : header.pktType = .rst) :
    ¬Untouched (handlePacketInner decrypt data peer psk now connections rateLimiter)
      header.connId conn := by
  simp [Untouched, handlePacketInner, decoded, kind, Handled.ignored]

/-- In every reachable state, a datagram from a foreign address leaves a
connection alone exactly when it is neither a reset nor a handshake answer that
would move the time of the last activity. -/
theorem foreign_untouched_iff
    (run : Runs.exec (State.step decrypt psk) (State.start began) events = some s)
    (decoded : PacketHeader.decode data = some (header, rest))
    (present : s.udp.connections[header.connId]? = some conn) (foreign : conn.peer ≠ peer) :
    Untouched (handlePacketInner decrypt data peer psk now s.udp.connections s.udp.rateLimiter)
        header.connId conn ↔
      header.pktType ≠ .rst ∧ (header.pktType = .synAck → conn.lastActivity = now) := by
  have state := run_established run header.connId conn present
  by_cases reset : header.pktType = .rst
  · simp [reset, foreign_reset decoded reset]
  · by_cases answer : header.pktType = .synAck
    · simp [answer, foreign_answer decoded present state answer]
    · simp [reset, answer, foreign_guarded decoded present foreign reset answer]

end

def firstHost : SocketAddr := .v4 0xC0A80001 5000
def secondHost : SocketAddr := .v4 0xC0A80002 5000

/-- The first host has opened connection 1. -/
theorem firstHost_opened : ∃ s, Runs.exec (State.step (fun _ _ _ => none) (fill 32 [])) (State.start 0)
      [.datagram (Connection.buildBare .syn 1) firstHost 0] = some s ∧
    s.udp.connections[(1 : UInt64)]? = some ⟨1, firstHost, .established, 0, 0, 0⟩ := by
  refine ⟨_, rfl, ?_⟩
  have whole : (Connection.buildBare .syn 1).take maxPacket = Connection.buildBare .syn 1 := by
    decide
  simp only [whole]
  simp [handlePacketInner, Connection.buildBare, PacketHeader.decode_bare, RateLimiter.checkSyn,
    Counts.check, State.start, Side.new, RateLimiter.new, accept, Connection.new, rateWindow,
    synRateLimit, maxConnections]

/-- A heartbeat of the second host on that connection changes nothing. -/
theorem foreign_untouched_iff_heartbeat : ∃ s,
    Runs.exec (State.step (fun _ _ _ => none) (fill 32 [])) (State.start 0)
      [.datagram (Connection.buildBare .syn 1) firstHost 0] = some s ∧
    Untouched (handlePacketInner (fun _ _ _ => none) (Connection.buildHeartbeat 1) secondHost
      (fill 32 []) 1 s.udp.connections s.udp.rateLimiter) 1
      ⟨1, firstHost, .established, 0, 0, 0⟩ := by
  obtain ⟨s, run, present⟩ := firstHost_opened
  refine ⟨s, run, ?_⟩
  exact (foreign_untouched_iff run (PacketHeader.decode_bare _) present (by decide)).mpr (by decide)

/-- A reset of the second host removes the connection of the first. -/
theorem foreign_reset_removes : ∃ s,
    Runs.exec (State.step (fun _ _ _ => none) (fill 32 [])) (State.start 0)
      [.datagram (Connection.buildBare .syn 1) firstHost 0] = some s ∧
    s.udp.connections[(1 : UInt64)]? = some ⟨1, firstHost, .established, 0, 0, 0⟩ ∧
    firstHost ≠ secondHost ∧
    (handlePacketInner (fun _ _ _ => none) (Connection.buildBare .rst 1) secondHost
      (fill 32 []) 1 s.udp.connections s.udp.rateLimiter).connections[(1 : UInt64)]? = none := by
  obtain ⟨s, run, present⟩ := firstHost_opened
  refine ⟨s, run, present, by decide, ?_⟩
  simp [handlePacketInner, Connection.buildBare, PacketHeader.decode_bare, Handled.ignored]

end LanLink.Daemon
