import LanLink.Vpn.Multihop

/-! Healing of routes when a node fails. Callbacks only observe: an operation
returns the events it emits, in order. The loop over the affected routes reads
the clock for every target anew; times of states are seconds of the system clock. -/
namespace LanLink.Vpn
open Words Maps

inductive HealMsgType where
  | healPing | healPong | partitionSync
  deriving DecidableEq, Repr

structure SelfHealMessage where
  msgType : HealMsgType
  senderId : NodeID
  timestamp : UInt64
  payload : Bytes
  deriving DecidableEq

structure SelfHealNodeState where
  nodeId : NodeID
  lastSeen : UInt64
  failedAttempts : UInt32
  isOffline : Bool
  lastRecoveryAttempt : UInt64
  deriving DecidableEq

def SelfHealNodeState.new (nodeId : NodeID) (now : UInt64) : SelfHealNodeState :=
  ⟨nodeId, now, 0, false, 0⟩

def SelfHealNodeState.markOffline (s : SelfHealNodeState) : SelfHealNodeState :=
  { s with isOffline := true, failedAttempts := 0 }

def SelfHealNodeState.markOnline (s : SelfHealNodeState) (now : UInt64) : SelfHealNodeState :=
  { s with isOffline := false, lastSeen := now, failedAttempts := 0 }

inductive HealEvent where
  | nodeOffline (nodeId : NodeID) (timestamp : UInt64)
  | nodeRecovered (nodeId : NodeID) (timestamp : UInt64)
  | pathFailed (target nextHop : NodeID)
  | pathRestored (target nextHop : NodeID)
  | partitionDetected (nodes : List NodeID)
  | partitionMerged
  | stateRestored (nodeCount : Nat)
  deriving DecidableEq

structure SelfHealManager where
  localId : NodeID
  states : Map NodeID SelfHealNodeState
  multihop : Option MultihopManager
  dht : Option DhtManager
  healPongs : List NodeID

def SelfHealManager.new (localId : NodeID) : SelfHealManager := ⟨localId, ∅, none, none, []⟩

def SelfHealManager.addNode (h : SelfHealManager) (nodeId : NodeID) (nowSecs : UInt64) :
    SelfHealManager :=
  if nodeId ∈ h.states then h
  else { h with states := h.states.insert nodeId (.new nodeId nowSecs) }

/-- The change of a state that is created when it is missing. -/
def SelfHealManager.updateState (h : SelfHealManager) (nodeId : NodeID) (nowSecs : UInt64)
    (change : SelfHealNodeState → SelfHealNodeState) : SelfHealManager :=
  let state := (h.states.lookup nodeId).getD (.new nodeId nowSecs)
  { h with states := h.states.insert nodeId (change state) }

def restored (m : MultihopManager) (target : NodeID) (now : Int) : List HealEvent :=
  match m.findRoute target now with
  | some entry => [.pathRestored target entry.nextHop]
  | none => []

/-- A route through the failed node: it is invalidated, then switched to a
candidate, or else discovered again. -/
def healRoute (dht : Option DhtManager) (nodeId : NodeID) (m : MultihopManager) (target : NodeID)
    (now : Int) : MultihopManager × List HealEvent :=
  let failed := .pathFailed target nodeId
  let m := m.markInvalid target now
  match m.findAlternative target now with
  | .ok m => (m, failed :: restored m target now)
  | .error _ =>
    if dht.isSome then
      match m.discoverRoute target now with
      | .ok m => (m, [failed])
      | .error _ => (m, [failed])
    else (m, [failed])

def SelfHealManager.onNodeOffline (h : SelfHealManager) (nodeId : NodeID)
    (clock : NodeID → Int) (nowSecs : UInt64) : SelfHealManager × List HealEvent :=
  let h := h.updateState nodeId nowSecs .markOffline
  match h.multihop with
  | none => (h, [.nodeOffline nodeId nowSecs])
  | some m =>
    let (m, _) := m.removeRoute nodeId
    let (m, events) := (m.findRoutesByNextHop nodeId).foldl (fun (m, events) target =>
      let (m, emitted) := healRoute h.dht nodeId m target (clock target)
      (m, events ++ emitted)) (m, [])
    ({ h with multihop := some m }, events ++ [.nodeOffline nodeId nowSecs])

def SelfHealManager.onNodeRecovered (h : SelfHealManager) (nodeId : NodeID) (now : Int)
    (nowSecs : UInt64) : SelfHealManager × List HealEvent :=
  let h := h.updateState nodeId nowSecs (.markOnline · nowSecs)
  let multihop := h.multihop.map fun m =>
    if (m.findRoute nodeId now).isNone && h.dht.isSome then
      match m.discoverRoute nodeId now with
      | .ok m => m
      | .error _ => m
    else m
  ({ h with multihop }, [.nodeRecovered nodeId nowSecs])

def SelfHealManager.handlePathFailure (h : SelfHealManager) (target : NodeID) (now : Int) :
    SelfHealManager × List HealEvent :=
  match h.multihop with
  | none => (h, [])
  | some m =>
    let m := m.markInvalid target now
    match m.findAlternative target now with
    | .ok m => ({ h with multihop := some m }, restored m target now)
    | .error _ =>
      if h.dht.isSome then
        match m.discoverRoute target now with
        | .ok m => ({ h with multihop := some m }, restored m target now)
        | .error _ => ({ h with multihop := some m }, [])
      else ({ h with multihop := some m }, [])

def SelfHealManager.handleHealPong (h : SelfHealManager) (sender : NodeID) : SelfHealManager :=
  { h with healPongs := h.healPongs ++ [sender] }

/-- A ping is answered; a pong waits for the healing loop; a node that synchronises
a partition is known from then on, and has recovered if it was offline. -/
def SelfHealManager.processHealMessage (h : SelfHealManager) (msg : SelfHealMessage)
    (now : Int) (nowSecs : UInt64) :
    SelfHealManager × Option SelfHealMessage × List HealEvent :=
  match msg.msgType with
  | .healPing => (h, some ⟨.healPong, h.localId, nowSecs, msg.senderId.toList⟩, [])
  | .healPong => (h.handleHealPong msg.senderId, none, [])
  | .partitionSync =>
    let h := h.addNode msg.senderId nowSecs
    match h.states.lookup msg.senderId with
    | some state =>
      if state.isOffline then
        let (h, events) := h.onNodeRecovered msg.senderId now nowSecs
        (h, none, events)
      else (h, none, [])
    | none => (h, none, [])

end LanLink.Vpn
