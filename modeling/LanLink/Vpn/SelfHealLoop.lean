import LanLink.Core.Runs
import LanLink.Vpn.SelfHeal

/-! The healing loop beside the handlers. The heartbeat manager calls the handlers one
at a time; the loop runs in a thread of its own, and between two of its critical
sections any handler may run. What is left of its round is a list of operations. The
saving of states to a file changes nothing here and is left out. Differences of times
wrap as they do in a release build. -/
namespace LanLink.Vpn
open Words Maps

def defaultRecoveryCheckSecs : Nat := 30

def defaultMaxFailedAttempts : UInt32 := 5

def SelfHealNodeState.recordFailedAttempt (s : SelfHealNodeState) (now : UInt64) :
    SelfHealNodeState :=
  { s with failedAttempts := s.failedAttempts + 1, lastRecoveryAttempt := now }

def SelfHealNodeState.hasExceededMaxAttempts (s : SelfHealNodeState) (max : UInt32) : Bool :=
  max ≤ s.failedAttempts

/-- The filter of the recovery check. -/
def SelfHealNodeState.recoveryDue (s : SelfHealNodeState) (max : UInt32) (now : UInt64) : Bool :=
  s.isOffline && !s.hasExceededMaxAttempts max &&
    (s.lastRecoveryAttempt == 0 ||
      decide (defaultRecoveryCheckSecs ≤ (now - s.lastRecoveryAttempt).toNat))

namespace SelfHealManager

/-- A node without a state counts as online. -/
def isOffline (h : SelfHealManager) (nodeId : NodeID) : Bool :=
  (h.states.lookup nodeId).any SelfHealNodeState.isOffline

/-- The change of a state that is there. -/
def changeState (h : SelfHealManager) (nodeId : NodeID)
    (change : SelfHealNodeState → SelfHealNodeState) : SelfHealManager :=
  match h.states.lookup nodeId with
  | some state => { h with states := h.states.insert nodeId (change state) }
  | none => h

def onNodeOnline (h : SelfHealManager) (nodeId : NodeID) (now : Int) (nowSecs : UInt64) :
    SelfHealManager × List HealEvent :=
  let wasOffline := h.isOffline nodeId
  let h := h.addNode nodeId nowSecs
  if wasOffline then h.onNodeRecovered nodeId now nowSecs else (h, [])

def onHeartbeatReceived (h : SelfHealManager) (nodeId : NodeID) (now : Int) (nowSecs : UInt64) :
    SelfHealManager × List HealEvent :=
  let h := h.addNode nodeId nowSecs
  if h.isOffline nodeId then
    (h.changeState nodeId (.markOnline · nowSecs)).onNodeRecovered nodeId now nowSecs
  else (h.changeState nodeId ({ · with lastSeen := nowSecs }), [])

/-- The loop looks for a route to a node that answered and has none. -/
def rebuildRoute (h : SelfHealManager) (nodeId : NodeID) (now : Int) : SelfHealManager :=
  { h with multihop := h.multihop.map fun m =>
    if (m.findRoute nodeId now).isNone && h.dht.isSome then
      match m.discoverRoute nodeId now with
      | .ok m => m
      | .error _ => m
    else m }

/-- A discovery for an offline node. A lookup that finds any next hop succeeds. -/
def probe (h : SelfHealManager) (nodeId : NodeID) (now : Int) : Option SelfHealManager :=
  match h.dht, h.multihop with
  | some _, some m =>
    match m.discoverRoute nodeId now with
    | .ok m => some { h with multihop := some m }
    | .error _ => none
  | _, _ => none

/-- The nodes whose recovery is tried, in the order of the table. -/
def recoveryDue (h : SelfHealManager) (max : UInt32) (secs : NodeID → UInt64) : List NodeID :=
  ((h.states.entries.map Sigma.snd).filter fun s => s.recoveryDue max (secs s.nodeId)).map
    SelfHealNodeState.nodeId

end SelfHealManager

/-- What the loop still has to do in its round. -/
inductive HealOp where
  | takePongs
  | checkPong (sender : NodeID)
  | markPong (sender : NodeID)
  | rebuild (sender : NodeID)
  | announce (nodeId : NodeID)
  | recoveryCheck
  | recordAttempt (nodeId : NodeID)
  | probe (nodeId : NodeID)
  | markProbed (nodeId : NodeID)
  | checked (instant : Int)

/-- The manager with its loop. A node is silent when nothing came from it since its
last offline notice; the events are those of the last step. -/
structure Healing where
  manager : SelfHealManager
  maxFailed : UInt32
  lastRecoveryCheck : Int
  todo : List HealOp
  silent : List NodeID
  events : List HealEvent

inductive HealInput where
  | nodeOffline (nodeId : NodeID) (clock : NodeID → Int) (nowSecs : UInt64)
  | nodeOnline (nodeId : NodeID) (now : Int) (nowSecs : UInt64)
  | heartbeatReceived (nodeId : NodeID) (now : Int) (nowSecs : UInt64)
  | healMessage (msg : SelfHealMessage) (now : Int) (nowSecs : UInt64)
  | pathFailure (target : NodeID) (now : Int)
  /-- Other components change the routes and the nodes of the network. -/
  | network (multihop : Option MultihopManager) (dht : Option DhtManager)
  /-- The loop does its next operation. -/
  | loop (now : Int) (secs : NodeID → UInt64)

namespace Healing

/-- The loop has not begun its first round. -/
def start (h : SelfHealManager) (maxFailed : UInt32) (now : Int) : Healing :=
  ⟨h, maxFailed, now, [], [], []⟩

def runOp (s : Healing) (rest : List HealOp) (now : Int) (secs : NodeID → UInt64) :
    HealOp → Healing
  | .takePongs =>
    { s with
      manager := { s.manager with healPongs := [] }
      todo := s.manager.healPongs.map HealOp.checkPong ++ rest
      events := [] }
  | .checkPong sender =>
    let found := s.manager.isOffline sender
    { s with
      todo := if found then .markPong sender :: .rebuild sender :: .announce sender :: rest
        else rest
      events := [] }
  | .markPong sender =>
    { s with
      manager := s.manager.updateState sender (secs sender) (.markOnline · (secs sender))
      todo := rest
      events := [] }
  | .rebuild sender =>
    { s with manager := s.manager.rebuildRoute sender now, todo := rest, events := [] }
  | .announce nodeId => { s with todo := rest, events := [.nodeRecovered nodeId (secs nodeId)] }
  | .recoveryCheck =>
    let due := s.manager.recoveryDue s.maxFailed secs
    { s with
      todo := if seconds defaultRecoveryCheckSecs ≤ max 0 (now - s.lastRecoveryCheck) then
          due.flatMap (fun nodeId => [.recordAttempt nodeId, .probe nodeId]) ++ .checked now :: rest
        else rest
      events := [] }
  | .recordAttempt nodeId =>
    { s with
      manager := s.manager.changeState nodeId (.recordFailedAttempt · (secs nodeId))
      todo := rest
      events := [] }
  | .probe nodeId =>
    match s.manager.probe nodeId now with
    | some manager =>
      { s with manager, todo := .markProbed nodeId :: .announce nodeId :: rest, events := [] }
    | none => { s with todo := rest, events := [] }
  | .markProbed nodeId =>
    { s with
      manager := s.manager.changeState nodeId (.markOnline · (secs nodeId))
      todo := rest
      events := [] }
  | .checked instant => { s with lastRecoveryCheck := instant, todo := rest, events := [] }

/-- A handler ran; the nodes that are silent now are given. -/
def handled (s : Healing) (result : SelfHealManager × List HealEvent) (silent : List NodeID) :
    Healing :=
  { s with manager := result.1, silent, events := result.2 }

/-- The silent nodes after a sign of one. -/
def without (s : Healing) (nodeId : NodeID) : List NodeID := s.silent.filter (· ≠ nodeId)

/-- A loop that is through with its round begins the next one. -/
def next (s : Healing) : HealInput → Healing
  | .nodeOffline nodeId clock nowSecs =>
    s.handled (s.manager.onNodeOffline nodeId clock nowSecs) (nodeId :: s.silent)
  | .nodeOnline nodeId now nowSecs =>
    s.handled (s.manager.onNodeOnline nodeId now nowSecs) (s.without nodeId)
  | .heartbeatReceived nodeId now nowSecs =>
    s.handled (s.manager.onHeartbeatReceived nodeId now nowSecs) (s.without nodeId)
  | .healMessage msg now nowSecs =>
    let result := s.manager.processHealMessage msg now nowSecs
    s.handled (result.1, result.2.2)
      (match msg.msgType with
        | .healPing => s.silent
        | .healPong | .partitionSync => s.without msg.senderId)
  | .pathFailure target now => s.handled (s.manager.handlePathFailure target now) s.silent
  | .network multihop dht => s.handled ({ s.manager with multihop, dht }, []) s.silent
  | .loop now secs =>
    match s.todo with
    | [] => { s with todo := [.takePongs, .recoveryCheck], events := [] }
    | op :: rest => s.runOp rest now secs op

/-- No step of the manager aborts. -/
def step (s : Healing) (input : HealInput) : Option Healing := some (s.next input)

end Healing
end LanLink.Vpn
