import LanLink.Daemon.Packets

/-! The two packet handlers compared. They decide alike except where the copy
lost a guard: the connection bound of a handshake, the handshake answer, the
peer of data and heartbeats, and the heartbeat answer. -/
namespace LanLink.Daemon
open Words LanLink.Frame Crypto

/-- The same connections, the same control message and the same reply. -/
structure SameDecision (a b : Handled) : Prop where
  connections : a.connections = b.connections
  control : a.control = b.control
  reply : a.reply = b.reply

theorem SameDecision.refl (a : Handled) : SameDecision a a := ⟨rfl, rfl, rfl⟩

section
variable (decrypt : Psk → Nonce → Bytes → Option Bytes) (data : Bytes) (peer : SocketAddr)
  (psk : Psk) (now : Nat) (connections : ConnMap) (rateLimiter : RateLimiter)

/-- Where a guard is missing in one handler, it must not have anything to guard. -/
def GuardsIdle : Prop :=
  match PacketHeader.decode data with
  | none => True
  | some (header, _) =>
    match header.pktType with
    | .syn => (rateLimiter.checkSyn peer.ip now).2 = false ∨ connections.size < maxConnections ∨
        ∃ conn, connections[header.connId]? = some conn ∧ conn.peer ≠ peer
    | .synAck => ∀ conn, connections[header.connId]? = some conn →
        conn.state = .established ∧ conn.lastActivity = now
    | .data => ∀ conn, connections[header.connId]? = some conn → conn.state = .established →
        conn.peer = peer ∨ data.length ≤ headerSize ∨
        decrypt psk header.nonce (data.drop headerSize) = none ∨
        conn.lastActivity = now ∧
          (header.streamId ≠ StreamId.control.toU16 ∨ (rateLimiter.checkCmd peer.ip now).2 = false)
    | .heartbeat => ∀ conn, connections[header.connId]? = some conn → conn.state = .established →
        conn.peer ≠ peer ∧ conn.lastActivity = now
    | .rst | .ack => True

end

section
variable {decrypt : Psk → Nonce → Bytes → Option Bytes} {data : Bytes} {peer : SocketAddr}
  {psk : Psk} {now : Nat} {connections : ConnMap} {rateLimiter : RateLimiter}

theorem syn_alike (decoded : PacketHeader.decode data = some (header, rest))
    (kind : header.pktType = .syn) :
    SameDecision (handlePacketInner decrypt data peer psk now connections rateLimiter)
        (handlePacketTcp decrypt data peer psk now connections rateLimiter) ↔
      (rateLimiter.checkSyn peer.ip now).2 = false ∨ connections.size < maxConnections ∨
        ∃ conn, connections[header.connId]? = some conn ∧ conn.peer ≠ peer := by
  simp only [handlePacketInner, handlePacketTcp, decoded, kind]
  cases (rateLimiter.checkSyn peer.ip now).2 with
  | false => simp [SameDecision.refl]
  | true =>
    by_cases full : connections.size < maxConnections
    · simp [Nat.not_le.mpr full, full, SameDecision.refl]
    · simp only [Bool.not_true, Bool.false_eq_true, if_false, if_pos (Nat.not_lt.mp full)]
      cases present : connections[header.connId]? with
      | some conn =>
        by_cases foreign : conn.peer = peer
        · simp only [foreign, ne_eq, not_true_eq_false, if_false, full, Bool.true_eq_false,
            false_or, Option.some.injEq, exists_eq_left', iff_false]
          intro alike
          cases alike.reply
        · simp [foreign, SameDecision.refl]
      | none =>
        simp only [full, Bool.true_eq_false, reduceCtorEq, false_and, exists_false, or_self,
          iff_false]
        intro alike
        cases alike.reply

theorem synAck_alike (decoded : PacketHeader.decode data = some (header, rest))
    (kind : header.pktType = .synAck) :
    SameDecision (handlePacketInner decrypt data peer psk now connections rateLimiter)
        (handlePacketTcp decrypt data peer psk now connections rateLimiter) ↔
      ∀ conn, connections[header.connId]? = some conn →
        conn.state = .established ∧ conn.lastActivity = now := by
  simp only [handlePacketInner, handlePacketTcp, decoded, kind]
  cases present : connections[header.connId]? with
  | none => simp [SameDecision.refl]
  | some conn =>
    simp only [Option.some.injEq, forall_eq']
    constructor
    · intro alike
      have same := (insert_eq_self present).mp alike.connections
      exact ⟨(congrArg Connection.state same).symm, (congrArg Connection.lastActivity same).symm⟩
    · rintro ⟨state, activity⟩
      refine ⟨(insert_eq_self present).mpr ?_, rfl, rfl⟩
      rw [← state, ← activity]

theorem heartbeat_alike (decoded : PacketHeader.decode data = some (header, rest))
    (kind : header.pktType = .heartbeat) :
    SameDecision (handlePacketInner decrypt data peer psk now connections rateLimiter)
        (handlePacketTcp decrypt data peer psk now connections rateLimiter) ↔
      ∀ conn, connections[header.connId]? = some conn → conn.state = .established →
        conn.peer ≠ peer ∧ conn.lastActivity = now := by
  simp only [handlePacketInner, handlePacketTcp, decoded, kind]
  cases present : connections[header.connId]? with
  | none => simp [SameDecision.refl]
  | some conn =>
    simp only [Option.some.injEq, forall_eq']
    by_cases open_ : conn.state = .established
    · by_cases own : conn.peer = peer
      · simp only [open_, own, ne_eq, not_true_eq_false, or_self, if_false, if_true, false_and,
          forall_const, iff_false]
        intro alike
        cases alike.reply
      · simp only [open_, own, ne_eq, not_false_eq_true, or_true, if_true, true_and, forall_const]
        constructor
        · intro alike
          exact (touch_eq_self present).mp alike.connections.symm
        · intro activity
          exact ⟨((touch_eq_self present).mpr activity).symm, rfl, rfl⟩
    · simp [open_, SameDecision.refl]

/-- Data of a foreign peer: ignored by one handler, processed by the other. -/
theorem plaintext_ignored (present : connections[header.connId]? = some conn) :
    SameDecision (.ignored connections rateLimiter)
        (handlePlaintext header plaintext peer now connections rateLimiter) ↔
      conn.lastActivity = now ∧
        (header.streamId ≠ StreamId.control.toU16 ∨ (rateLimiter.checkCmd peer.ip now).2 = false) := by
  rw [handlePlaintext_present present]
  have same : connections = touch connections header.connId now ↔ conn.lastActivity = now :=
    eq_comm.trans (touch_eq_self present)
  by_cases control : header.streamId = StreamId.control.toU16
  · simp only [control, if_true, ne_eq, not_true_eq_false, false_or]
    cases (rateLimiter.checkCmd peer.ip now).2 with
    | false =>
      constructor
      · intro alike
        exact ⟨same.mp alike.connections, rfl⟩
      · rintro ⟨activity, -⟩
        exact ⟨same.mpr activity, rfl, rfl⟩
    | true =>
      constructor
      · intro alike
        cases alike.control
      · rintro ⟨-, refused⟩
        cases refused
  · simp only [control, if_false, ne_eq, not_false_eq_true, true_or, and_true]
    constructor
    · intro alike
      exact same.mp alike.connections
    · intro activity
      exact ⟨same.mpr activity, rfl, rfl⟩

theorem data_alike (decoded : PacketHeader.decode data = some (header, rest))
    (kind : header.pktType = .data) :
    SameDecision (handlePacketInner decrypt data peer psk now connections rateLimiter)
        (handlePacketTcp decrypt data peer psk now connections rateLimiter) ↔
      ∀ conn, connections[header.connId]? = some conn → conn.state = .established →
        conn.peer = peer ∨ data.length ≤ headerSize ∨
        decrypt psk header.nonce (data.drop headerSize) = none ∨
        conn.lastActivity = now ∧
          (header.streamId ≠ StreamId.control.toU16 ∨
            (rateLimiter.checkCmd peer.ip now).2 = false) := by
  simp only [handlePacketInner, handlePacketTcp, decoded, kind]
  cases present : connections[header.connId]? with
  | none => simp [SameDecision.refl]
  | some conn =>
    simp only [Option.some.injEq, forall_eq']
    by_cases open_ : conn.state = .established
    · by_cases own : conn.peer = peer
      · simp [open_, own, SameDecision.refl]
      · simp only [open_, own, and_false, if_false, if_true, false_or, forall_const]
        by_cases short : data.length ≤ headerSize
        · simp [short, SameDecision.refl]
        · simp only [short, if_false, false_or]
          cases opened : decrypt psk header.nonce (data.drop headerSize) with
          | none => simp [SameDecision.refl]
          | some plaintext =>
            simp only [reduceCtorEq, false_or]
            exact plaintext_ignored present
    · simp [open_, SameDecision.refl]

/-- The handlers decide alike exactly when no missing guard had work to do. -/
theorem transports_alike_iff (decrypt : Psk → Nonce → Bytes → Option Bytes) (data : Bytes)
    (peer : SocketAddr) (psk : Psk) (now : Nat) (connections : ConnMap)
    (rateLimiter : RateLimiter) :
    SameDecision (handlePacketInner decrypt data peer psk now connections rateLimiter)
        (handlePacketTcp decrypt data peer psk now connections rateLimiter) ↔
      GuardsIdle decrypt data peer psk now connections rateLimiter := by
  cases decoded : PacketHeader.decode data with
  | none => simp [GuardsIdle, handlePacketInner, handlePacketTcp, decoded, SameDecision.refl]
  | some parsed =>
    obtain ⟨header, rest⟩ := parsed
    cases kind : header.pktType with
    | syn => simp only [GuardsIdle, decoded, kind, syn_alike decoded kind]
    | synAck => simp only [GuardsIdle, decoded, kind, synAck_alike decoded kind]
    | data => simp only [GuardsIdle, decoded, kind, data_alike decoded kind]
    | heartbeat => simp only [GuardsIdle, decoded, kind, heartbeat_alike decoded kind]
    | rst =>
      simp [GuardsIdle, handlePacketInner, handlePacketTcp, decoded, kind, SameDecision.refl]
    | ack =>
      simp [GuardsIdle, handlePacketInner, handlePacketTcp, decoded, kind, SameDecision.refl]

end

/-- An established connection 1 of the first host, last heard of at time 0. -/
def oneConnection : ConnMap :=
  (∅ : ConnMap).insert 1 ⟨1, .v4 0xC0A80001 5000, .established, 0, 0, 0⟩

/-- The heartbeat of a second host on connection 1 refreshes it over TCP only. -/
theorem transports_differ :
    ¬SameDecision
      (handlePacketInner (fun _ _ _ => none) (Connection.buildHeartbeat 1) (.v4 0xC0A80002 5000)
        (fill 32 []) 1 oneConnection .new)
      (handlePacketTcp (fun _ _ _ => none) (Connection.buildHeartbeat 1) (.v4 0xC0A80002 5000)
        (fill 32 []) 1 oneConnection .new) := by
  intro alike
  have entries := congrArg (fun connections : ConnMap => connections[(1 : UInt64)]?)
    alike.connections
  simp [handlePacketInner, handlePacketTcp, Connection.buildHeartbeat, Connection.buildBare,
    PacketHeader.decode_bare, oneConnection, touch, Handled.ignored] at entries

end LanLink.Daemon
