import LanLink.Core.Runs
import LanLink.Daemon.Packets

/-! The daemon as a state machine. The UDP loop and the TCP clients have their
own connections and limits; only the UDP side is cleaned up by the heartbeat
tick. Next to the state runs a record of the packets whose control message was
executed. -/
namespace LanLink.Daemon
open Words LanLink.Frame Crypto

inductive Transport where
  | udp | tcp
  deriving DecidableEq, Repr

structure Side where
  connections : ConnMap
  rateLimiter : RateLimiter

/-- An encrypted packet on a connection: authentication covers the nonce and
the ciphertext, and nothing else of the packet. -/
structure Executed where
  transport : Transport
  connId : UInt64
  nonce : Nonce
  ciphertext : Bytes
  deriving DecidableEq

structure State where
  udp : Side
  tcp : Side
  lastHb : Nat
  clock : Nat
  executed : List Executed

def Side.new : Side := ⟨∅, .new⟩

def State.start (now : Nat) : State := ⟨.new, .new, now, now, []⟩

/-- `nextSeq` is a control handler or a running command taking the next
sequence number of a connection for a packet it sends. -/
inductive Event where
  | datagram (data : Bytes) (peer : SocketAddr) (now : Nat)
  | frame (data : Bytes) (peer : SocketAddr) (now : Nat)
  | tick (now : Nat)
  | nextSeq (transport : Transport) (connId : UInt64)

def takeSeq (connections : ConnMap) (connId : UInt64) : ConnMap :=
  match connections[connId]? with
  | some conn => connections.insert connId { conn with sendSeq := conn.sendSeq + 1 }
  | none => connections

/-- The record of a packet whose plaintext went to the control handler. -/
def Handled.record (h : Handled) (transport : Transport) (data : Bytes) : List Executed :=
  match h.control, PacketHeader.decode data with
  | some call, some (header, _) =>
    [⟨transport, call.connId, header.nonce, data.drop headerSize⟩]
  | _, _ => []

section
variable (decrypt : Psk → Nonce → Bytes → Option Bytes) (psk : Psk)

/-- A datagram is cut to the receive buffer; a frame longer than the buffer
ends its connection unread. -/
def State.step (s : State) : Event → Option State
  | .datagram data peer now =>
    if s.clock ≤ now then
      let data := data.take maxPacket
      let h := handlePacketInner decrypt data peer psk now s.udp.connections s.udp.rateLimiter
      some { s with udp := ⟨h.connections, h.rateLimiter⟩, clock := now,
                    executed := s.executed ++ h.record .udp data }
    else none
  | .frame data peer now =>
    if s.clock ≤ now ∧ 0 < data.length ∧ data.length ≤ maxPacket + 4 then
      let h := handlePacketTcp decrypt data peer psk now s.tcp.connections s.tcp.rateLimiter
      some { s with tcp := ⟨h.connections, h.rateLimiter⟩, clock := now,
                    executed := s.executed ++ h.record .tcp data }
    else none
  | .tick now =>
    if s.clock ≤ now ∧ heartbeatInterval ≤ now - s.lastHb then
      let alive (_ : UInt64) (conn : Connection) : Bool := now - conn.lastActivity < timeout
      some { s with udp := ⟨s.udp.connections.filter alive, s.udp.rateLimiter.gc now⟩,
                    lastHb := now, clock := now }
    else none
  | .nextSeq .udp connId => some { s with udp.connections := takeSeq s.udp.connections connId }
  | .nextSeq .tcp connId => some { s with tcp.connections := takeSeq s.tcp.connections connId }

end

/-- The daemon never keeps a connection that is not established. -/
def Established (connections : ConnMap) : Prop :=
  ∀ (connId : UInt64) (conn : Connection), connections[connId]? = some conn →
    conn.state = .established

section
variable {connections : ConnMap} {connId : UInt64} {conn : Connection}

theorem Established.insert (established : Established connections)
    (state : conn.state = .established) : Established (connections.insert connId conn) := by
  intro other entry present
  rw [Std.ExtHashMap.getElem?_insert] at present
  split at present
  · cases present
    exact state
  · exact established other entry present

theorem Established.erase (established : Established connections) :
    Established (connections.erase connId) := by
  intro other entry present
  rw [Std.ExtHashMap.getElem?_erase] at present
  split at present
  · cases present
  · exact established other entry present

theorem Established.touch (established : Established connections) :
    Established (touch connections connId now) := by
  rw [Daemon.touch]
  split
  · rename_i conn present
    exact established.insert (established connId conn present)
  · exact established

theorem Established.takeSeq (established : Established connections) :
    Established (takeSeq connections connId) := by
  rw [Daemon.takeSeq]
  split
  · rename_i conn present
    exact established.insert (established connId conn present)
  · exact established

theorem Established.handlePlaintext (established : Established connections) :
    Established
      (handlePlaintext header plaintext peer now connections rateLimiter).connections := by
  have touched : Established (Daemon.touch connections header.connId now) := established.touch
  simp only [Daemon.handlePlaintext]
  repeat' split
  all_goals exact touched

theorem Established.handlePacketInner (established : Established connections) :
    Established
      (handlePacketInner decrypt data peer psk now connections rateLimiter).connections := by
  rw [Daemon.handlePacketInner]
  split
  · exact established
  rename_i header _ _
  cases type : header.pktType with
  | syn =>
    dsimp only
    repeat' split
    all_goals first
      | exact established
      | exact established.insert rfl
  | synAck =>
    dsimp only
    split
    · exact established.insert rfl
    · exact established
  | data =>
    dsimp only
    split
    · split
      · split
        · exact established
        · split
          · exact established.handlePlaintext
          · exact established
      · exact established
    · exact established
  | heartbeat =>
    dsimp only
    split
    · split
      · exact established
      · exact established.touch
    · exact established
  | rst => exact established.erase
  | ack => exact established

end

/-- A reachable UDP map holds established connections only. -/
theorem run_established
    (run : Runs.exec (State.step decrypt psk) (State.start began) events = some s) :
    Established s.udp.connections := by
  refine Runs.invariant (P := fun s => Established s.udp.connections) ?_ run ?_
  · intro s event t established stepped
    cases event with
    | datagram data peer now =>
      obtain ⟨-, ⟨⟩⟩ := Option.ite_none_right_eq_some.mp stepped
      exact established.handlePacketInner
    | frame data peer now =>
      obtain ⟨-, ⟨⟩⟩ := Option.ite_none_right_eq_some.mp stepped
      exact established
    | tick now =>
      obtain ⟨-, ⟨⟩⟩ := Option.ite_none_right_eq_some.mp stepped
      intro connId conn present
      rw [Std.ExtHashMap.getElem?_filter'] at present
      exact established connId conn (Option.filter_eq_some_iff.mp present).1
    | nextSeq transport connId =>
      cases transport with
      | udp =>
        cases stepped
        exact established.takeSeq
      | tcp =>
        cases stepped
        exact established
  · intro connId conn present
    simp [State.start, Side.new] at present

end LanLink.Daemon
