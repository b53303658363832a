import LanLink.Daemon.Machine

/-! Repeated packets. The daemon compares neither nonces nor sequence numbers,
so a packet that was executed once is executed again whenever its connection,
its sender and the command quota still admit it. -/
namespace LanLink.Daemon
open Words LanLink.Frame Crypto

/-- Whether a packet reaches the control handler once it decrypts. -/
def accepts (transport : Transport) (side : Side) (data : Bytes) (header : PacketHeader)
    (peer : SocketAddr) (now : Nat) : Bool :=
  header.pktType = .data && headerSize < data.length &&
  header.streamId = StreamId.control.toU16 && (side.rateLimiter.checkCmd peer.ip now).2 &&
  match side.connections[header.connId]? with
  | some conn => conn.state = .established && (transport = .tcp || conn.peer = peer)
  | none => false

def packetKey (transport : Transport) (data : Bytes) (header : PacketHeader) : Executed :=
  ⟨transport, header.connId, header.nonce, data.drop headerSize⟩

/-- The packet was not executed before, or is refused this time. -/
def unreplayed (transport : Transport) (side : Side) (executed : List Executed) (data : Bytes)
    (peer : SocketAddr) (now : Nat) : Prop :=
  ∀ header rest, PacketHeader.decode data = some (header, rest) →
    accepts transport side data header peer now = true →
    packetKey transport data header ∉ executed

/-- No executed packet arrives again while the daemon would still accept it. -/
def Fresh (s : State) : Event → Prop
  | .datagram data peer now => unreplayed .udp s.udp s.executed (data.take maxPacket) peer now
  | .frame data peer now => unreplayed .tcp s.tcp s.executed data peer now
  | .tick _ | .nextSeq _ _ => True

section
variable {decrypt : Psk → Nonce → Bytes → Option Bytes} {data : Bytes} {peer : SocketAddr}
  {psk : Psk} {now : Nat} {connections : ConnMap} {rateLimiter : RateLimiter}

theorem handlePlaintext_control (present : connections[header.connId]? = some conn) :
    (handlePlaintext header plaintext peer now connections rateLimiter).control =
      if header.streamId = StreamId.control.toU16 ∧ (rateLimiter.checkCmd peer.ip now).2 = true
      then some ⟨header.connId, peer, plaintext⟩ else none := by
  rw [handlePlaintext_present present]
  by_cases control : header.streamId = StreamId.control.toU16
  · simp [control]
  · simp [control, Handled.ignored]

/-- Only data packets reach the control handler. -/
theorem handlePacketInner_other (decoded : PacketHeader.decode data = some (header, rest))
    (other : header.pktType ≠ .data) :
    (handlePacketInner decrypt data peer psk now connections rateLimiter).control = none := by
  simp only [handlePacketInner, decoded]
  cases kind : header.pktType with
  | data => exact absurd kind other
  | syn =>
    dsimp only
    repeat' split
    all_goals rfl
  | synAck =>
    dsimp only
    split <;> rfl
  | heartbeat =>
    dsimp only
    repeat' split
    all_goals rfl
  | rst => rfl
  | ack => rfl

theorem handlePacketTcp_other (decoded : PacketHeader.decode data = some (header, rest))
    (other : header.pktType ≠ .data) :
    (handlePacketTcp decrypt data peer psk now connections rateLimiter).control = none := by
  simp only [handlePacketTcp, decoded]
  cases kind : header.pktType with
  | data => exact absurd kind other
  | syn =>
    dsimp only
    repeat' split
    all_goals rfl
  | heartbeat =>
    dsimp only
    repeat' split
    all_goals rfl
  | synAck => rfl
  | rst => rfl
  | ack => rfl

/-- The tail of the data branch, after the connection was found acceptable. -/
theorem opened_control (present : connections[header.connId]? = some conn)
    (kind : header.pktType = .data) (state : conn.state = .established)
    (admitted : (transport = .tcp || conn.peer = peer) = true) :
    (if data.length ≤ headerSize then Handled.ignored connections rateLimiter
      else match decrypt psk header.nonce (data.drop headerSize) with
        | some plaintext => handlePlaintext header plaintext peer now connections rateLimiter
        | none => .ignored connections rateLimiter).control =
      if accepts transport ⟨connections, rateLimiter⟩ data header peer now then
        (decrypt psk header.nonce (data.drop headerSize)).map (⟨header.connId, peer, ·⟩)
      else none := by
  simp only [accepts, kind, present, state, admitted, decide_true, Bool.true_and, Bool.and_true,
    Bool.and_eq_true, decide_eq_true_eq]
  by_cases short : data.length ≤ headerSize
  · simp [short, Nat.not_lt.mpr short, Handled.ignored]
  · simp only [short, if_false, Nat.not_le.mp short, true_and]
    cases decrypt psk header.nonce (data.drop headerSize) with
    | none => simp [Handled.ignored]
    | some plaintext => simp only [handlePlaintext_control present, Option.map_some]

theorem handlePacketInner_control (decoded : PacketHeader.decode data = some (header, rest)) :
    (handlePacketInner decrypt data peer psk now connections rateLimiter).control =
      if accepts .udp ⟨connections, rateLimiter⟩ data header peer now then
        (decrypt psk header.nonce (data.drop headerSize)).map (⟨header.connId, peer, ·⟩)
      else none := by
  by_cases kind : header.pktType = .data
  · simp only [handlePacketInner, decoded, kind]
    cases present : connections[header.connId]? with
    | none => simp [accepts, present, Handled.ignored]
    | some conn =>
      by_cases own : conn.state = .established ∧ conn.peer = peer
      · simp only [own, and_self, if_true]
        exact opened_control present kind own.1 (by simp [own.2])
      · have refused : accepts .udp ⟨connections, rateLimiter⟩ data header peer now = false := by
          rw [Bool.eq_false_iff]
          intro accepted
          simp only [accepts, present, Bool.and_eq_true, Bool.or_eq_true, decide_eq_true_eq,
            reduceCtorEq, false_or] at accepted
          exact own accepted.2
        simp [own, refused, Handled.ignored]
  · simp [handlePacketInner_other decoded kind, accepts, kind]

theorem handlePacketTcp_control (decoded : PacketHeader.decode data = some (header, rest)) :
    (handlePacketTcp decrypt data peer psk now connections rateLimiter).control =
      if accepts .tcp ⟨connections, rateLimiter⟩ data header peer now then
        (decrypt psk header.nonce (data.drop headerSize)).map (⟨header.connId, peer, ·⟩)
      else none := by
  by_cases kind : header.pktType = .data
  · simp only [handlePacketTcp, decoded, kind]
    cases present : connections[header.connId]? with
    | none => simp [accepts, present, Handled.ignored]
    | some conn =>
      by_cases state : conn.state = .established
      · simp only [state, if_true]
        exact opened_control present kind state rfl
      · simp [accepts, present, state, Handled.ignored]
  · simp [handlePacketTcp_other decoded kind, accepts, kind]

/-- Every executed packet decrypts under the key. -/
def Authentic (decrypt : Psk → Nonce → Bytes → Option Bytes) (psk : Psk)
    (executed : List Executed) : Prop :=
  ∀ key ∈ executed, decrypt psk key.nonce key.ciphertext ≠ none

/-- One packet: the record stays free of repetitions exactly when the packet is fresh. -/
theorem record_nodup {h : Handled} {side : Side} {executed : List Executed}
    (control : ∀ header rest, PacketHeader.decode data = some (header, rest) →
      h.control = if accepts transport side data header peer now then
        (decrypt psk header.nonce (data.drop headerSize)).map (⟨header.connId, peer, ·⟩) else none)
    (authentic : Authentic decrypt psk executed) :
    Authentic decrypt psk (executed ++ h.record transport data) ∧
      ((executed ++ h.record transport data).Nodup ↔
        executed.Nodup ∧ unreplayed transport side executed data peer now) := by
  cases decoded : PacketHeader.decode data with
  | none =>
    have nothing : h.record transport data = [] := by
      rw [Handled.record]
      rw [decoded]
      cases h.control <;> rfl
    simp [nothing, authentic, unreplayed, decoded]
  | some parsed =>
    obtain ⟨header, rest⟩ := parsed
    have fresh : unreplayed transport side executed data peer now ↔
        (accepts transport side data header peer now = true →
          packetKey transport data header ∉ executed) := by
      simp [unreplayed, decoded]
    have call := control header rest decoded
    cases accepted : accepts transport side data header peer now with
    | false =>
      simp only [accepted, Bool.false_eq_true, if_false] at call
      simp [Handled.record, call, authentic, fresh, accepted]
    | true =>
      simp only [accepted, if_true] at call
      cases plain : decrypt psk header.nonce (data.drop headerSize) with
      | none =>
        rw [plain, Option.map_none] at call
        have unseen : packetKey transport data header ∉ executed :=
          fun member => authentic _ member plain
        simp [Handled.record, call, authentic, fresh, unseen]
      | some plaintext =>
        rw [plain, Option.map_some] at call
        have recorded : h.record transport data = [packetKey transport data header] := by
          simp [Handled.record, call, decoded, packetKey]
        rw [recorded, fresh]
        constructor
        · intro key member
          rcases List.mem_append.mp member with earlier | last
          · exact authentic key earlier
          · rw [List.mem_singleton.mp last]
            simp [packetKey, plain]
        · rw [List.nodup_append_comm, List.singleton_append, List.nodup_cons]
          simp only [accepted, forall_const, and_comm]

theorem step_record (authentic : Authentic decrypt psk s.executed)
    (stepped : State.step decrypt psk s event = some t) :
    Authentic decrypt psk t.executed ∧ (t.executed.Nodup ↔ s.executed.Nodup ∧ Fresh s event) := by
  cases event with
  | datagram data peer now =>
    obtain ⟨-, ⟨⟩⟩ := Option.ite_none_right_eq_some.mp stepped
    exact record_nodup (fun _ _ decoded => handlePacketInner_control decoded) authentic
  | frame data peer now =>
    obtain ⟨-, ⟨⟩⟩ := Option.ite_none_right_eq_some.mp stepped
    exact record_nodup (fun _ _ decoded => handlePacketTcp_control decoded) authentic
  | tick now =>
    obtain ⟨-, ⟨⟩⟩ := Option.ite_none_right_eq_some.mp stepped
    exact ⟨authentic, by simp [Fresh]⟩
  | nextSeq transport connId =>
    cases transport <;> cases stepped <;> exact ⟨authentic, by simp [Fresh]⟩

/-- In a run of the daemon every packet is executed at most once exactly when
no executed packet arrives again while the daemon would still accept it. -/
theorem executed_once_iff
    (run : Runs.exec (State.step decrypt psk) (State.start began) events = some s) :
    s.executed.Nodup ↔ Runs.Meets (State.step decrypt psk) Fresh (State.start began) events := by
  have kept := Runs.guarded_iff (P := fun s => s.executed.Nodup)
    (I := fun s => Authentic decrypt psk s.executed) (g := Fresh)
    (fun authentic stepped => step_record authentic stepped) run (by simp [Authentic, State.start])
  simpa [State.start] using kept

end

/-- The left mouse button pressed, as encrypted for connection 1 under the zero key. -/
def clickSealed : Bytes :=
  [0xe3, 0x08, 0x9c, 0x39, 0x62, 0x17, 0x3c, 0xd4, 0xd0, 0xa5, 0x53, 0x57, 0x4f, 0xa7, 0xcc, 0x34,
    0x30, 0x71, 0x46, 0x62, 0xc2, 0x42]

/-- The cipher on that one packet. -/
def clickDecrypt (psk : Psk) (nonce : Nonce) (ciphertext : Bytes) : Option Bytes :=
  if psk = fill 32 [] ∧ nonce = makeNonce 1 1 ∧ ciphertext = clickSealed then
    some [6, 0, 0, 0, 1, 1] else none

def clickHeader : PacketHeader where
  connId := 1
  pktType := .data
  flags := .reliable
  streamId := StreamId.control.toU16
  seq := 1
  ackSeq := 0
  ackBitmap := 0
  payloadLen := 22
  nonce := makeNonce 1 1

def clickPacket : Bytes := clickHeader.encode ++ clickSealed

def clickKey : Executed := ⟨.udp, 1, makeNonce 1 1, clickSealed⟩

def clickHost : SocketAddr := .v4 0xC0A80001 5000

def clickRun (times : Nat) : List Event :=
  .datagram (Connection.buildBare .syn 1) clickHost 0 ::
    List.replicate times (.datagram clickPacket clickHost 0)

/-- Connection 1 of the host is open, and the host has used part of its quota. -/
structure Ready (s : State) (used : UInt32) : Prop where
  clock : s.clock = 0
  entry : s.udp.connections[(1 : UInt64)]? = some ⟨1, clickHost, .established, 0, 0, 0⟩
  quota : s.udp.rateLimiter.cmdCounts[clickHost.ip]?.getD (0, 0) = (0, used)

theorem ready_opened : ∃ s, State.step clickDecrypt (fill 32 []) (State.start 0)
      (.datagram (Connection.buildBare .syn 1) clickHost 0) = some s ∧
    s.executed = [] ∧ Ready s 0 := by
  have whole : (Connection.buildBare .syn 1).take maxPacket = Connection.buildBare .syn 1 := by
    decide
  refine ⟨_, rfl, ?_, rfl, ?_, ?_⟩ <;> simp only [whole]
  · simp [handlePacketInner, Handled.record, Connection.buildBare, PacketHeader.decode_bare,
      State.start, Side.new, RateLimiter.checkSyn, Counts.check, RateLimiter.new, rateWindow,
      synRateLimit, maxConnections]
  · simp [handlePacketInner, Connection.buildBare, PacketHeader.decode_bare, RateLimiter.checkSyn,
      Counts.check, State.start, Side.new, RateLimiter.new, accept, Connection.new, rateWindow,
      synRateLimit, maxConnections]
  · simp [handlePacketInner, Connection.buildBare, PacketHeader.decode_bare, RateLimiter.checkSyn,
      Counts.check, State.start, Side.new, RateLimiter.new, rateWindow, synRateLimit,
      maxConnections]

/-- As long as the quota lasts, the packet is executed every time it arrives. -/
theorem ready_clicked (ready : Ready s used) (left : used + 1 ≤ cmdRateLimit) :
    ∃ t, State.step clickDecrypt (fill 32 []) s (.datagram clickPacket clickHost 0) = some t ∧
      t.executed = s.executed ++ [clickKey] ∧ Ready t (used + 1) := by
  have whole : clickPacket.take maxPacket = clickPacket := by decide
  have sized : headerSize < clickPacket.length := by decide
  have sealed : clickPacket.drop headerSize = clickSealed := by decide
  have opened : clickDecrypt (fill 32 []) clickHeader.nonce clickSealed =
      some [6, 0, 0, 0, 1, 1] := by decide
  have decoded : PacketHeader.decode clickPacket = some (clickHeader, clickSealed) :=
    PacketHeader.decode_encode _ _
  have kind : clickHeader.pktType = .data := rfl
  have control : clickHeader.streamId = StreamId.control.toU16 := rfl
  have entry : s.udp.connections[clickHeader.connId]? =
      some ⟨1, clickHost, .established, 0, 0, 0⟩ := ready.entry
  have quota := ready.quota
  have handled : handlePacketInner clickDecrypt clickPacket clickHost (fill 32 []) 0
      s.udp.connections s.udp.rateLimiter =
      ⟨touch s.udp.connections clickHeader.connId 0, (s.udp.rateLimiter.checkCmd clickHost.ip 0).1,
        some ⟨clickHeader.connId, clickHost, [6, 0, 0, 0, 1, 1]⟩, none⟩ := by
    have allowed : (s.udp.rateLimiter.checkCmd clickHost.ip 0).2 = true := by
      simp [RateLimiter.checkCmd, Counts.check, quota, rateWindow, left]
    simp only [handlePacketInner, decoded, kind, entry, and_self, if_true, Nat.not_le.mpr sized,
      if_false, sealed, opened, handlePlaintext_present entry, control, allowed]
  refine ⟨_, if_pos (Nat.le_of_eq ready.clock), ?_, rfl, ?_, ?_⟩ <;> simp only [whole, handled]
  · simp [Handled.record, decoded, sealed, clickKey, clickHeader]
  · exact touch_entry entry
  · simp [RateLimiter.checkCmd, Counts.check, quota, rateWindow]

theorem executed_once_iff_click : ∃ s,
    Runs.exec (State.step clickDecrypt (fill 32 [])) (State.start 0) (clickRun 1) = some s ∧
    s.executed = [clickKey] ∧
    Runs.Meets (State.step clickDecrypt (fill 32 [])) Fresh (State.start 0) (clickRun 1) := by
  obtain ⟨first, opened, nothing, ready⟩ := ready_opened
  obtain ⟨s, clicked, executed, -⟩ := ready_clicked ready (by decide)
  have run : Runs.exec (State.step clickDecrypt (fill 32 [])) (State.start 0) (clickRun 1) =
      some s := Runs.exec_cons.mpr ⟨first, opened, Runs.exec_cons.mpr ⟨s, clicked, rfl⟩⟩
  rw [nothing, List.nil_append] at executed
  exact ⟨s, run, executed, (executed_once_iff run).mp (by simp [executed])⟩

/-- The same datagram sent twice presses the button twice. -/
theorem executed_twice : ∃ s,
    Runs.exec (State.step clickDecrypt (fill 32 [])) (State.start 0) (clickRun 2) = some s ∧
    s.executed = [clickKey, clickKey] := by
  obtain ⟨first, opened, nothing, ready⟩ := ready_opened
  obtain ⟨s, clicked, executed, again⟩ := ready_clicked ready (by decide)
  obtain ⟨t, repeated, executedAgain, -⟩ := ready_clicked again (by decide)
  refine ⟨t, Runs.exec_cons.mpr ⟨first, opened, Runs.exec_cons.mpr ⟨s, clicked,
    Runs.exec_cons.mpr ⟨t, repeated, rfl⟩⟩⟩, ?_⟩
  rw [executedAgain, executed, nothing]
  rfl

end LanLink.Daemon
