import LanLink.Protocol.Frame

/-! Connections and rate limits of the daemon. Hash maps are extensional, so
equal maps have equal entries. Times are nanoseconds of a monotonic clock; a
packet is handled at one instant. The stream multiplexer of a connection is
never read and is left out. -/
namespace LanLink.Daemon
open Words LanLink.Frame

inductive IpAddr where
  | v4 (bits : UInt32)
  | v6 (bits : BitVec 128)
  deriving DecidableEq, Hashable

inductive SocketAddr where
  | v4 (bits : UInt32) (port : UInt16)
  | v6 (bits : BitVec 128) (port : UInt16) (flowinfo scopeId : UInt32)
  deriving DecidableEq

def SocketAddr.ip : SocketAddr → IpAddr
  | .v4 bits _ => .v4 bits
  | .v6 bits _ _ _ => .v6 bits

inductive ConnState where
  | listening | synSent | established | closed
  deriving DecidableEq, Repr

structure Connection where
  id : UInt64
  peer : SocketAddr
  state : ConnState
  created : Nat
  lastActivity : Nat
  sendSeq : UInt64
  deriving DecidableEq

-- The laws a map needs of its keys, under one name for all modules.
instance instEquivBEqUInt64 : EquivBEq UInt64 := inferInstance
instance instLawfulHashableUInt64 : LawfulHashable UInt64 := inferInstance
instance : EquivBEq IpAddr := inferInstance
instance : LawfulHashable IpAddr := inferInstance

abbrev ConnMap := Std.ExtHashMap UInt64 Connection

def Connection.new (id : UInt64) (peer : SocketAddr) (now : Nat) : Connection :=
  ⟨id, peer, .listening, now, now, 0⟩

/-- The header-only packets of the handshake and the keep-alive. -/
def Connection.buildBare (pktType : PacketType) (connId : UInt64) : Bytes :=
  PacketHeader.encode
    { connId, pktType, flags := .empty, streamId := StreamId.control.toU16, seq := 0, ackSeq := 0,
      ackBitmap := 0, payloadLen := 0, nonce := fill 12 [] }

def Connection.buildSynAck : UInt64 → Bytes := buildBare .synAck

def Connection.buildHeartbeat : UInt64 → Bytes := buildBare .heartbeat

def second : Nat := 1000000000

def heartbeatInterval : Nat := 5 * second
def timeout : Nat := 30 * second
def synRateLimit : UInt32 := 5
def cmdRateLimit : UInt32 := 30
def rateWindow : Nat := 60 * second
def maxConnections : Nat := 100

/-- Window start and number of calls in it, by source address. -/
abbrev Counts := Std.ExtHashMap IpAddr (Nat × UInt32)

structure RateLimiter where
  synCounts : Counts
  cmdCounts : Counts

def RateLimiter.new : RateLimiter := ⟨∅, ∅⟩

/-- Consume one unit of an address's quota; the answer says whether it was there. -/
def Counts.check (counts : Counts) (limit : UInt32) (ip : IpAddr) (now : Nat) : Counts × Bool :=
  let entry := counts[ip]?.getD (now, 0)
  if now - entry.1 > rateWindow then (counts.insert ip (now, 1), true)
  else (counts.insert ip (entry.1, entry.2 + 1), entry.2 + 1 ≤ limit)

def RateLimiter.checkSyn (r : RateLimiter) (ip : IpAddr) (now : Nat) : RateLimiter × Bool :=
  let checked := Counts.check r.synCounts synRateLimit ip now
  ({ r with synCounts := checked.1 }, checked.2)

def RateLimiter.checkCmd (r : RateLimiter) (ip : IpAddr) (now : Nat) : RateLimiter × Bool :=
  let checked := Counts.check r.cmdCounts cmdRateLimit ip now
  ({ r with cmdCounts := checked.1 }, checked.2)

/-- Entries older than two windows go. -/
def RateLimiter.gc (r : RateLimiter) (now : Nat) : RateLimiter :=
  let recent (_ : IpAddr) (entry : Nat × UInt32) : Bool := now - entry.1 < 2 * rateWindow
  ⟨r.synCounts.filter recent, r.cmdCounts.filter recent⟩

end LanLink.Daemon
