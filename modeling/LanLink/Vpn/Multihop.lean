import LanLink.Vpn.DhtNearest

/-! The table of routes over several hops. An instant is a count of nanoseconds
and may lie before the start of the clock. A function that fails changes nothing.
The list under a table is the order in which the table is iterated. -/
namespace LanLink.Vpn
open Words Bits Maps

def maxRouteEntries : Nat := 1000

def defaultRouteTimeoutSecs : Nat := 300

def metricPerHop : UInt32 := 100

def metricRelayPenalty : UInt32 := 50

def metricDirectPenalty : UInt32 := 10

def kCandidatesMax : Nat := 10

def seconds (n : Nat) : Int := n * second

inductive RouterError where
  | unreachable (target : String)
  | timeout
  | noRoute (nodeId : NodeID)
  | sendFailed (message : String)
  | nodeOffline (nodeId : NodeID)
  | invalidData (message : String)
  deriving DecidableEq

inductive ConnectionType where
  | lan | vpn | relay | unknown
  deriving DecidableEq, Repr

structure MultiHopEntry where
  target : NodeID
  nextHop : NodeID
  hopCount : UInt8
  metric : UInt32
  connectionType : ConnectionType
  lastActive : Int
  expiresAt : Int
  candidates : List (NodeID × String)
  deriving DecidableEq

/-- The largest metric is 255 * 100 + 999, so that the word never wraps. -/
def calculateMetric (hopCount : UInt8) (type : ConnectionType) : UInt32 :=
  let base := hopCount.toUInt32 * metricPerHop
  match type with
  | .relay => base + metricRelayPenalty
  | .lan | .vpn => base + metricDirectPenalty
  | .unknown => base + 999

def MultiHopEntry.new (target nextHop : NodeID) (hopCount : UInt8) (type : ConnectionType)
    (candidates : List (NodeID × String)) (now : Int) : MultiHopEntry where
  target := target
  nextHop := nextHop
  hopCount := hopCount
  metric := calculateMetric hopCount type
  connectionType := type
  lastActive := now
  expiresAt := now + seconds defaultRouteTimeoutSecs
  candidates := candidates

def MultiHopEntry.isExpired (entry : MultiHopEntry) (now : Int) : Bool := entry.expiresAt ≤ now

structure MultihopManager where
  localId : NodeID
  routes : Map NodeID MultiHopEntry
  dht : Option DhtManager
  maxEntries : Nat

def MultihopManager.new (localId : NodeID) : MultihopManager := ⟨localId, ∅, none, maxRouteEntries⟩

/-- The first of the routes that were active least recently. -/
def leastActive : List (Σ _ : NodeID, MultiHopEntry) → Option (Σ _ : NodeID, MultiHopEntry)
  | [] => none
  | route :: rest =>
    match leastActive rest with
    | some other => if other.2.lastActive < route.2.lastActive then some other else some route
    | none => some route

/-- A full table drops the entry that was active least recently. -/
def MultihopManager.insertOrEvict (m : MultihopManager) (entry : MultiHopEntry) :
    MultihopManager :=
  if entry.target ∈ m.routes then { m with routes := m.routes.insert entry.target entry }
  else if m.routes.entries.length < m.maxEntries then
    { m with routes := m.routes.insert entry.target entry }
  else
    match leastActive m.routes.entries with
    | some oldest => { m with routes := (m.routes.erase oldest.1).insert entry.target entry }
    | none => { m with routes := m.routes.insert entry.target entry }

/-- The first 16 bytes of the distance as a 128-bit number. -/
def xorDistanceU128 (a b : NodeID) : Nat := ofBigEndian ((xorBytes a.toList b.toList).take 16)

def MultihopManager.discoverRoute (m : MultihopManager) (target : NodeID) (now : Int) :
    Except RouterError MultihopManager :=
  if target = m.localId then .error (.invalidData "cannot route to self")
  else
    match m.dht with
    | none => .error (.sendFailed "DHT not bound")
    | some dht =>
      let sorted := (dht.findNode target).mergeSort fun a b =>
        xorDistanceU128 a.1 target ≤ xorDistanceU128 b.1 target
      match sorted with
      | [] => .error (.noRoute target)
      | (nextHop, _) :: others =>
        let hopCount := if nextHop = target then 1 else 2
        let type := if nextHop = target then .lan else .relay
        let candidates := (others.filter fun node => node.1 ≠ nextHop).take kCandidatesMax
        .ok (m.insertOrEvict (.new target nextHop hopCount type candidates now))

def MultihopManager.addDirectRoute (m : MultihopManager) (target : NodeID) (addr : String)
    (now : Int) : MultihopManager :=
  if target = m.localId then m
  else m.insertOrEvict (.new target target 1 .lan [(target, addr)] now)

def MultihopManager.findRoute (m : MultihopManager) (target : NodeID) (now : Int) :
    Option MultiHopEntry :=
  (m.routes.lookup target).filter fun entry => !entry.isExpired now

def MultihopManager.removeRoute (m : MultihopManager) (target : NodeID) :
    MultihopManager × Option MultiHopEntry :=
  ({ m with routes := m.routes.erase target }, m.routes.lookup target)

/-- The route expired a second ago. -/
def MultihopManager.markInvalid (m : MultihopManager) (target : NodeID) (now : Int) :
    MultihopManager :=
  match m.routes.lookup target with
  | some entry =>
    { m with routes := m.routes.insert target { entry with expiresAt := now - seconds 1 } }
  | none => m

/-- The first candidate that is neither the next hop nor the local node. -/
def MultiHopEntry.alternative (entry : MultiHopEntry) (localId : NodeID) :
    Option (NodeID × String) :=
  entry.candidates.find? fun node => node.1 ≠ entry.nextHop ∧ node.1 ≠ localId

/-- The candidates stay. -/
def MultiHopEntry.switched (entry : MultiHopEntry) (target nextHop : NodeID) (now : Int) :
    MultiHopEntry where
  target := target
  nextHop := nextHop
  hopCount := entry.hopCount
  metric := calculateMetric entry.hopCount .relay
  connectionType := .relay
  lastActive := now
  expiresAt := now + seconds defaultRouteTimeoutSecs
  candidates := entry.candidates

def MultihopManager.findAlternative (m : MultihopManager) (target : NodeID) (now : Int) :
    Except RouterError MultihopManager :=
  match m.routes.lookup target with
  | none => .error (.noRoute target)
  | some entry =>
    match entry.alternative m.localId with
    | none => .error (.noRoute target)
    | some (nextBest, _) =>
      .ok { m with routes := m.routes.insert target (entry.switched target nextBest now) }

def MultihopManager.findRoutesByNextHop (m : MultihopManager) (nextHop : NodeID) : List NodeID :=
  (m.routes.entries.filter fun route => route.2.nextHop = nextHop).map Sigma.fst

end LanLink.Vpn
