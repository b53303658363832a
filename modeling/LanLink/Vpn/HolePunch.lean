import LanLink.Core.Runs
import LanLink.Vpn.DhtSearch
import LanLink.Vpn.LanRouter

/-! Hole punching. Calls of `punch_hole` may run in several threads: every access to a
locked table or to the socket is one step, and steps of other calls may come in between.
What the socket answers is an input of a step. -/
namespace LanLink.Vpn
open Words Maps Runs

def punchRetryCount : Nat := 3

def punchPacketSize : Nat := 64

/-- `LLHP` -/
def punchMagic : Bytes := [0x4C, 0x4C, 0x48, 0x50]

/-- `LLKA` -/
def keepalivePacket : Bytes := [0x4C, 0x4C, 0x4B, 0x41]

inductive NatType where
  | cone | restricted | symmetric | unknown
  deriving DecidableEq, Repr

inductive PunchResult where
  | success
  | failed (reason : String)
  | degradedToRelay (reason : String)
  deriving DecidableEq

/-- An attempt under way; its other fields are never read. -/
structure HolePunchConn where
  target : NodeID
  publicAddr : SocketAddr

structure HolePunchManager where
  localId : NodeID
  natType : NatType
  activePunches : Map NodeID HolePunchConn
  punchedPeers : Map NodeID SocketAddr
  /-- Whether a socket was bound. -/
  socket : Bool

def HolePunchManager.new (localId : NodeID) (socket : Bool) : HolePunchManager :=
  ⟨localId, .unknown, ∅, ∅, socket⟩

/-- The part of a node id that a packet carries. -/
def idPrefix (id : NodeID) : Bytes := id.toList.take 28

def buildPunchPacket (localId target : NodeID) : Bytes :=
  let packet := punchMagic ++ idPrefix localId ++ idPrefix target
  packet.take punchPacketSize ++ List.replicate (punchPacketSize - packet.length) 0

/-- The buffer of zeros after a datagram came in. -/
def punchBuffer (datagram : Bytes) : Bytes := (fill punchPacketSize datagram).toList

def isValidPunchResponse (buf : Bytes) (expectedPeer : NodeID) : Bool :=
  if buf.length < 4 + 28 then false
  else if buf.take 4 ≠ punchMagic then false
  else (buf.drop 4).take 28 == idPrefix expectedPeer

inductive PunchRecv where
  | datagram (data : Bytes) (src : SocketAddr)
  | wouldBlock
  | error (e : String)

/-- The next access of a call of `punch_hole`, or what it returned. -/
inductive PunchStage where
  | checkNat
  | checkPunched
  | bind
  | record
  | send (attempt : Nat) (lastError : String)
  | recv (attempt : Nat) (lastError : String)
  | insertPeer (src : SocketAddr)
  | cleanSuccess
  | cleanFailure (lastError : String)
  | done (result : Except String PunchResult)

/-- A call with the packets that it sent. -/
structure PunchCall where
  remoteId : NodeID
  remoteAddr : SocketAddr
  stage : PunchStage
  sent : List (Bytes × SocketAddr)

/-- What a step takes from outside: nothing, the failure of binding or of sending if any,
or what was received. -/
inductive PunchInput where
  | locked
  | bound (fault : Option String)
  | sent (fault : Option String)
  | received (answer : PunchRecv)

def PunchCall.enter (c : PunchCall) (stage : PunchStage) : PunchCall := { c with stage }

def PunchCall.retry (c : PunchCall) (attempt : Nat) (lastError : String) : PunchCall :=
  if attempt + 1 < punchRetryCount then c.enter (.send (attempt + 1) lastError)
  else c.enter (.cleanFailure lastError)

def exhausted (lastError : String) : PunchResult :=
  .degradedToRelay (s!"all {punchRetryCount} attempts failed: " ++
    if lastError.isEmpty then "no response" else lastError)

def PunchCall.step (c : PunchCall) (m : HolePunchManager) :
    PunchInput → Option (HolePunchManager × PunchCall)
  | .locked =>
    match c.stage with
    | .checkNat =>
      if m.natType = .symmetric then
        some (m, c.enter (.done (.ok (.degradedToRelay "symmetric NAT cannot punch"))))
      else some (m, c.enter .checkPunched)
    | .checkPunched =>
      if c.remoteId ∈ m.punchedPeers then some (m, c.enter (.done (.ok .success)))
      else some (m, c.enter .bind)
    | .bind => if m.socket then some (m, c.enter .record) else none
    | .record =>
      some ({ m with activePunches := m.activePunches.insert c.remoteId ⟨c.remoteId, c.remoteAddr⟩ },
        c.enter (.send 0 ""))
    | .insertPeer src =>
      some ({ m with punchedPeers := m.punchedPeers.insert c.remoteId src }, c.enter .cleanSuccess)
    | .cleanSuccess =>
      some ({ m with activePunches := m.activePunches.erase c.remoteId },
        c.enter (.done (.ok .success)))
    | .cleanFailure lastError =>
      some ({ m with activePunches := m.activePunches.erase c.remoteId },
        c.enter (.done (.ok (exhausted lastError))))
    | .send _ _ | .recv _ _ | .done _ => none
  | .bound fault =>
    match c.stage with
    | .bind =>
      if m.socket then none
      else match fault with
        | some e => some (m, c.enter (.done (.error e)))
        | none => some (m, c.enter .record)
    | _ => none
  | .sent fault =>
    match c.stage with
    | .send attempt lastError =>
      match fault with
      | some e => some (m, c.enter (.recv attempt ("send error: " ++ e)))
      | none =>
        let packet := (buildPunchPacket m.localId c.remoteId, c.remoteAddr)
        some (m, { c with stage := .recv attempt lastError, sent := c.sent ++ [packet] })
    | _ => none
  | .received answer =>
    match c.stage with
    | .recv attempt lastError =>
      match answer with
      | .datagram data src =>
        if isValidPunchResponse (punchBuffer data) c.remoteId then some (m, c.enter (.insertPeer src))
        else some (m, c.retry attempt lastError)
      | .wouldBlock => some (m, c.retry attempt lastError)
      | .error e => some (m, c.retry attempt ("recv error: " ++ e))
    | _ => none

/-- The manager, its calls, the datagrams that were received and the keepalives that were sent. -/
structure PunchSystem where
  manager : HolePunchManager
  calls : List PunchCall
  received : List (Bytes × SocketAddr)
  keepalives : List (Bytes × SocketAddr)

/-- `remove_peer` and `clear` are two locked accesses each. -/
inductive PunchAction where
  | punchHole (remoteId : NodeID) (remoteAddr : SocketAddr)
  | advance (i : Nat) (input : PunchInput)
  | setNatType (natType : NatType)
  | sendKeepalive (peerId : NodeID) (fault : Option String)
  | removePunched (peerId : NodeID)
  | removeActive (peerId : NodeID)
  | clearPunched
  | clearActive

def PunchInput.datagrams : PunchInput → List (Bytes × SocketAddr)
  | .received (.datagram data src) => [(data, src)]
  | _ => []

def HolePunchManager.sendKeepalive (m : HolePunchManager) (peerId : NodeID) (fault : Option String) :
    Except String (Bytes × SocketAddr) :=
  match m.punchedPeers.lookup peerId with
  | none => .error "peer not punched"
  | some addr =>
    if !m.socket then .error "no UDP socket"
    else match fault with
      | some e => .error ("keepalive send failed: " ++ e)
      | none => .ok (keepalivePacket, addr)

namespace PunchSystem

def new (localId : NodeID) (socket : Bool) : PunchSystem := ⟨.new localId socket, [], [], []⟩

def step (s : PunchSystem) : PunchAction → Option PunchSystem
  | .punchHole remoteId remoteAddr =>
    some { s with calls := s.calls ++ [⟨remoteId, remoteAddr, .checkNat, []⟩] }
  | .advance i input => do
    let call ← s.calls[i]?
    let (manager, call) ← call.step s.manager input
    return { s with
      manager, calls := s.calls.set i call, received := s.received ++ input.datagrams }
  | .setNatType natType => some { s with manager := { s.manager with natType } }
  | .sendKeepalive peerId fault =>
    match s.manager.sendKeepalive peerId fault with
    | .error _ => some s
    | .ok packet => some { s with keepalives := s.keepalives ++ [packet] }
  | .removePunched peerId =>
    some { s with manager :=
      { s.manager with punchedPeers := s.manager.punchedPeers.erase peerId } }
  | .removeActive peerId =>
    some { s with manager :=
      { s.manager with activePunches := s.manager.activePunches.erase peerId } }
  | .clearPunched => some { s with manager := { s.manager with punchedPeers := ∅ } }
  | .clearActive => some { s with manager := { s.manager with activePunches := ∅ } }

end PunchSystem

/-- The call has recorded its attempt and not removed it yet. -/
def PunchStage.busy : PunchStage → Bool
  | .send _ _ | .recv _ _ | .insertPeer _ | .cleanSuccess | .cleanFailure _ => true
  | .checkNat | .checkPunched | .bind | .record | .done _ => false

/-- Where a call stands: what it sent, and the evidence for a peer that it has found. -/
def PunchStage.Sound (found : Prop) (heard : SocketAddr → Prop) (sent : Nat) : PunchStage → Prop
  | .checkNat | .checkPunched | .bind | .record => sent = 0
  | .send attempt _ => sent ≤ attempt ∧ attempt < punchRetryCount
  | .recv attempt _ => sent ≤ attempt + 1 ∧ attempt < punchRetryCount
  | .insertPeer src => sent ≤ punchRetryCount ∧ heard src
  | .cleanSuccess => sent ≤ punchRetryCount ∧ found
  | .cleanFailure _ => sent ≤ punchRetryCount
  | .done result => sent ≤ punchRetryCount ∧ (result = .ok .success → found) ∧
      ∀ reason, result ≠ .ok (.failed reason)

theorem PunchStage.Sound.sent_le {stage : PunchStage} (sound : stage.Sound found heard sent) :
    sent ≤ punchRetryCount := by
  cases stage with
  | checkNat | checkPunched | bind | record => exact (show sent = 0 from sound) ▸ Nat.zero_le _
  | send => exact sound.1.trans (Nat.le_of_lt sound.2)
  | recv => exact sound.1.trans sound.2
  | insertPeer | cleanSuccess | done => exact sound.1
  | cleanFailure => exact sound

structure PunchCall.Sound (localId : NodeID) (heard : NodeID → SocketAddr → Prop) (c : PunchCall) :
    Prop where
  packets : ∀ packet ∈ c.sent, packet = (buildPunchPacket localId c.remoteId, c.remoteAddr)
  stage : c.stage.Sound (∃ src, heard c.remoteId src) (heard c.remoteId) c.sent.length

section
variable {m m' : HolePunchManager} {c c' : PunchCall} {input : PunchInput}
  {heard : NodeID → SocketAddr → Prop}

theorem PunchCall.retry_kept (c : PunchCall) (attempt : Nat) (lastError : String) :
    (c.retry attempt lastError).remoteId = c.remoteId ∧
    (c.retry attempt lastError).remoteAddr = c.remoteAddr ∧ (c.retry attempt lastError).sent = c.sent := by
  rw [retry]
  split <;> exact ⟨rfl, rfl, rfl⟩

theorem PunchCall.retry_busy (c : PunchCall) (attempt : Nat) (lastError : String) :
    (c.retry attempt lastError).stage.busy := by
  rw [retry]
  split <;> rfl

theorem PunchCall.retry_sound {c : PunchCall} {localId : NodeID} (sound : c.Sound localId heard)
    (receiving : c.stage = .recv attempt lastError) (next : String) :
    (c.retry attempt next).Sound localId heard := by
  have stage := sound.stage
  rw [receiving] at stage
  rw [retry]
  split
  · rename_i more
    exact ⟨sound.packets, stage.1, more⟩
  · exact ⟨sound.packets, stage.1.trans stage.2⟩

theorem PunchCall.Sound.mono {heard' : NodeID → SocketAddr → Prop} {localId : NodeID}
    (sound : c.Sound localId heard) (more : ∀ id src, heard id src → heard' id src) :
    c.Sound localId heard' := by
  refine ⟨sound.packets, ?_⟩
  have stage := sound.stage
  have found : (∃ src, heard c.remoteId src) → ∃ src, heard' c.remoteId src :=
    fun ⟨src, known⟩ => ⟨src, more _ _ known⟩
  cases at_stage : c.stage with
  | insertPeer src =>
    rw [at_stage] at stage
    exact ⟨stage.1, more _ _ stage.2⟩
  | cleanSuccess =>
    rw [at_stage] at stage
    exact ⟨stage.1, found stage.2⟩
  | done result =>
    rw [at_stage] at stage
    exact ⟨stage.1, found ∘ stage.2.1, stage.2.2⟩
  | checkNat | checkPunched | bind | record | send | recv | cleanFailure =>
    rw [at_stage] at stage
    exact stage

/-- A step records the attempt of its call, or removes it, or leaves the recorded
attempts as they are. -/
theorem PunchCall.step_active (stepped : c.step m input = some (m', c')) :
    c'.remoteId = c.remoteId ∧
    ((m'.activePunches = m.activePunches ∧ (c.stage.busy → c'.stage.busy)) ∨
      (c'.stage.busy ∧ ∃ conn, m'.activePunches = m.activePunches.insert c.remoteId conn) ∨
      m'.activePunches = m.activePunches.erase c.remoteId) := by
  revert stepped
  fun_cases PunchCall.step c m input
  all_goals
    intro stepped
    cases stepped
  -- recording and cleaning change the table; every other step keeps it
  all_goals first
    | exact ⟨(c.retry_kept _ _).1, .inl ⟨rfl, fun _ => c.retry_busy _ _⟩⟩
    | exact ⟨rfl, .inr (.inl ⟨rfl, _, rfl⟩)⟩
    | exact ⟨rfl, .inr (.inr rfl)⟩
    | exact ⟨rfl, .inl ⟨rfl, by simp_all [PunchCall.enter, PunchStage.busy]⟩⟩

/-- What a step of a call finds out is heard: a valid response that came in, or a peer
that the table holds. -/
theorem PunchCall.step_sound (sound : c.Sound m.localId heard)
    (table : ∀ id src, m.punchedPeers.lookup id = some src → heard id src)
    (evidence : ∀ data src, (data, src) ∈ input.datagrams →
      isValidPunchResponse (punchBuffer data) c.remoteId → heard c.remoteId src)
    (stepped : c.step m input = some (m', c')) :
    c'.Sound m.localId heard ∧ m'.localId = m.localId ∧
    ∀ id src, m'.punchedPeers.lookup id = some src → heard id src := by
  have stage := sound.stage
  revert stepped
  fun_cases PunchCall.step c m input
  all_goals
    intro stepped
    cases stepped
  case case1.refl at_stage _ =>
    rw [at_stage] at stage
    exact ⟨⟨sound.packets, by simp [PunchCall.enter, PunchStage.Sound, show c.sent.length = 0 from stage]⟩,
      rfl, table⟩
  case case3.refl at_stage known =>
    rw [at_stage] at stage
    obtain ⟨src, found⟩ := exists_lookup known
    exact ⟨⟨sound.packets, (show c.sent.length = 0 from stage) ▸ Nat.zero_le _,
      fun _ => ⟨src, table _ _ found⟩, by simp⟩, rfl, table⟩
  case case2.refl at_stage _ | case4.refl at_stage _ | case5.refl at_stage _ |
      case16.refl at_stage _ =>
    rw [at_stage] at stage
    exact ⟨⟨sound.packets, stage⟩, rfl, table⟩
  case case7.refl at_stage =>
    rw [at_stage] at stage
    exact ⟨⟨sound.packets, Nat.le_of_eq stage, by decide⟩, rfl, table⟩
  case case8.refl src at_stage =>
    rw [at_stage] at stage
    refine ⟨⟨sound.packets, stage.1, src, stage.2⟩, rfl, fun id other found => ?_⟩
    by_cases same : id = c.remoteId
    · subst same
      rw [AList.lookup_insert] at found
      exact Option.some.inj found ▸ stage.2
    · rw [AList.lookup_insert_ne same] at found
      exact table id other found
  case case9.refl at_stage =>
    rw [at_stage] at stage
    exact ⟨⟨sound.packets, stage.1, fun _ => stage.2, by simp⟩, rfl, table⟩
  case case10.refl lastError at_stage =>
    rw [at_stage] at stage
    exact ⟨⟨sound.packets, stage, by simp [exhausted], by simp [exhausted]⟩, rfl, table⟩
  case case15.refl at_stage _ e =>
    rw [at_stage] at stage
    exact ⟨⟨sound.packets, (show c.sent.length = 0 from stage) ▸ Nat.zero_le _, by simp, by simp⟩,
      rfl, table⟩
  case case18.refl attempt lastError at_stage e =>
    rw [at_stage] at stage
    exact ⟨⟨sound.packets, stage.1.trans (Nat.le_succ _), stage.2⟩, rfl, table⟩
  case case19.refl attempt lastError at_stage packet =>
    rw [at_stage] at stage
    refine ⟨⟨fun other member => ?_, ?_⟩, rfl, table⟩
    · rcases List.mem_append.mp member with old | new
      · exact sound.packets other old
      · exact List.mem_singleton.mp new
    · exact ⟨by simpa using stage.1, stage.2⟩
  case case21.refl attempt lastError at_stage data src valid =>
    rw [at_stage] at stage
    exact ⟨⟨sound.packets, stage.1.trans stage.2, evidence data src List.mem_cons_self valid⟩,
      rfl, table⟩
  case case22.refl attempt lastError at_stage data src _ =>
    exact ⟨PunchCall.retry_sound sound at_stage _, rfl, table⟩
  case case23.refl attempt lastError at_stage =>
    exact ⟨PunchCall.retry_sound sound at_stage _, rfl, table⟩
  case case24.refl attempt lastError at_stage e =>
    exact ⟨PunchCall.retry_sound sound at_stage _, rfl, table⟩

end

theorem idPrefix_length (id : NodeID) : (idPrefix id).length = 28 := by
  simp [idPrefix]

/-- The buffer keeps a punch packet as it is. -/
theorem buildPunchPacket_eq (localId target : NodeID) : buildPunchPacket localId target =
    punchMagic ++ idPrefix localId ++ idPrefix target ++ [0, 0, 0, 0] := by
  have length : (punchMagic ++ idPrefix localId ++ idPrefix target).length = 60 := by
    simp [idPrefix_length, punchMagic]
  simp only [buildPunchPacket, length, punchPacketSize]
  rw [List.take_of_length_le (by omega)]
  rfl

theorem punchBuffer_build (localId target : NodeID) :
    punchBuffer (buildPunchPacket localId target) = buildPunchPacket localId target := by
  have length : (buildPunchPacket localId target).length = punchPacketSize := by
    simp [buildPunchPacket_eq, idPrefix_length, punchMagic, punchPacketSize]
  rw [punchBuffer, fill_of_enough (Nat.le_of_eq length.symm), List.take_of_length_le (Nat.le_of_eq length)]

/-- A response is known by the front of its sender's id alone; for whom it was made is
not looked at. -/
theorem buildPunchPacket_valid_iff (sender target expected : NodeID) :
    isValidPunchResponse (punchBuffer (buildPunchPacket sender target)) expected ↔
      idPrefix sender = idPrefix expected := by
  have front : (buildPunchPacket sender target).take 4 = punchMagic := by
    simp [buildPunchPacket_eq, punchMagic]
  have middle : ((buildPunchPacket sender target).drop 4).take 28 = idPrefix sender := by
    simp [buildPunchPacket_eq, punchMagic, idPrefix_length]
  have length : ¬ (buildPunchPacket sender target).length < 4 + 28 := by
    simp [buildPunchPacket_eq, idPrefix_length, punchMagic]
  rw [punchBuffer_build, isValidPunchResponse, if_neg length, front, middle]
  simp

/-- A datagram came from the address that reads as a packet of the node. -/
def PunchSystem.Heard (s : PunchSystem) (id : NodeID) (src : SocketAddr) : Prop :=
  ∃ data, (data, src) ∈ s.received ∧ isValidPunchResponse (punchBuffer data) id

structure PunchSystem.Sound (localId : NodeID) (s : PunchSystem) : Prop where
  self : s.manager.localId = localId
  active : ∀ id ∈ s.manager.activePunches, ∃ c ∈ s.calls, c.remoteId = id ∧ c.stage.busy
  table : ∀ id src, s.manager.punchedPeers.lookup id = some src → s.Heard id src
  calls : ∀ c ∈ s.calls, c.Sound localId s.Heard
  keepalives : ∀ packet ∈ s.keepalives, packet.1 = keepalivePacket ∧ ∃ id, s.Heard id packet.2

section
variable {localId : NodeID} {s t : PunchSystem}

theorem PunchSystem.Heard.append {id : NodeID} (heard : s.Heard id src)
    (later : t.received = s.received ++ more) :
    t.Heard id src := by
  obtain ⟨data, member, valid⟩ := heard
  exact ⟨data, later ▸ List.mem_append_left _ member, valid⟩

theorem PunchSystem.Sound.new (localId : NodeID) (socket : Bool) :
    PunchSystem.Sound localId (.new localId socket) where
  self := rfl
  active := by
    intro id member
    cases member
  table := by
    intro id src found
    cases found
  calls := by simp [PunchSystem.new]
  keepalives := by simp [PunchSystem.new]

/-- Entries of either table may be removed at any time. -/
theorem PunchSystem.Sound.with_manager (sound : s.Sound localId) (m : HolePunchManager)
    (same : m.localId = s.manager.localId)
    (fewer : ∀ id ∈ m.activePunches, id ∈ s.manager.activePunches)
    (less : ∀ id src, m.punchedPeers.lookup id = some src →
      s.manager.punchedPeers.lookup id = some src) :
    PunchSystem.Sound localId { s with manager := m } where
  self := same.trans sound.self
  active := fun id member => sound.active id (fewer id member)
  table := fun id src found => sound.table id src (less id src found)
  calls := sound.calls
  keepalives := sound.keepalives

theorem mem_set_of_ne {α : Type} {l : List α} {i : Nat} {a b c : α} (found : l[i]? = some c)
    (member : b ∈ l) (other : b ≠ c) : b ∈ l.set i a := by
  obtain ⟨j, there⟩ := List.mem_iff_getElem?.mp member
  refine List.mem_iff_getElem?.mpr ⟨j, ?_⟩
  rw [List.getElem?_set_ne, there]
  rintro rfl
  rw [found] at there
  exact other (Option.some.inj there).symm

theorem PunchSystem.Sound.advance (sound : s.Sound localId)
    (stepped : s.step (.advance i input) = some t) : t.Sound localId := by
  obtain ⟨c, found, stepped⟩ := Option.bind_eq_some_iff.mp stepped
  obtain ⟨⟨m, c'⟩, called, stepped⟩ := Option.bind_eq_some_iff.mp stepped
  cases stepped
  have present := List.mem_of_getElem? found
  have inside := (List.getElem?_eq_some_iff.mp found).1
  let next : PunchSystem := { s with
    manager := m, calls := s.calls.set i c', received := s.received ++ input.datagrams }
  have more (id : NodeID) (src : SocketAddr) (heard : s.Heard id src) : next.Heard id src :=
    heard.append rfl
  obtain ⟨sound', same, table⟩ : c'.Sound s.manager.localId next.Heard ∧
      m.localId = s.manager.localId ∧
      ∀ id src, m.punchedPeers.lookup id = some src → next.Heard id src := PunchCall.step_sound
    (sound.self ▸ (sound.calls c present).mono more) (fun id src found => more id src (sound.table id src found))
    (fun data src arrived valid => ⟨data, List.mem_append_right _ arrived, valid⟩) called
  obtain ⟨sameId, changed⟩ := PunchCall.step_active called
  have kept (id : NodeID) (active : id ∈ s.manager.activePunches)
      (other : id ≠ c.remoteId ∨ (c.stage.busy → c'.stage.busy)) :
      ∃ d ∈ s.calls.set i c', d.remoteId = id ∧ d.stage.busy := by
    obtain ⟨d, member, rfl, busy⟩ := sound.active id active
    by_cases this : d = c
    · subst this
      exact ⟨c', List.mem_set inside c', sameId, other.resolve_left (by simp) busy⟩
    · exact ⟨d, mem_set_of_ne found member this, rfl, busy⟩
  refine ⟨same.trans sound.self, ?_, table, ?_, ?_⟩
  · intro id active
    rcases changed with ⟨same, busy⟩ | ⟨busy, conn, inserted⟩ | erased
    · exact kept id (same ▸ active) (.inr busy)
    · rw [inserted, AList.mem_insert] at active
      rcases active with rfl | active
      · exact ⟨c', List.mem_set inside c', sameId, busy⟩
      · exact kept id active (.inr fun _ => busy)
    · rw [erased, AList.mem_erase] at active
      exact kept id active.2 (.inl active.1)
  · intro d member
    rcases List.mem_or_eq_of_mem_set member with old | rfl
    · exact (sound.calls d old).mono more
    · exact sound.self ▸ sound'
  · intro packet member
    obtain ⟨keepalive, id, heard⟩ := sound.keepalives packet member
    exact ⟨keepalive, id, more id packet.2 heard⟩

theorem PunchSystem.Sound.step (sound : s.Sound localId) (stepped : s.step action = some t) :
    t.Sound localId := by
  cases action with
  | advance i input => exact sound.advance stepped
  | punchHole remoteId remoteAddr =>
    cases stepped
    refine { sound with active := fun id active => ?_, calls := fun c member => ?_ }
    · obtain ⟨c, member, same⟩ := sound.active id active
      exact ⟨c, List.mem_append_left _ member, same⟩
    · rcases List.mem_append.mp member with old | new
      · exact sound.calls c old
      · rw [List.mem_singleton.mp new]
        exact ⟨by simp, rfl⟩
  | setNatType natType =>
    cases stepped
    exact sound.with_manager _ rfl (fun _ active => active) (fun _ _ found => found)
  | sendKeepalive peerId fault =>
    rw [PunchSystem.step] at stepped
    split at stepped
    · cases stepped
      exact sound
    · rename_i packet sent
      cases stepped
      refine { sound with keepalives := fun other member => ?_ }
      rcases List.mem_append.mp member with old | new
      · exact sound.keepalives other old
      · rw [List.mem_singleton.mp new]
        rw [HolePunchManager.sendKeepalive] at sent
        split at sent
        · cases sent
        · rename_i addr found
          split at sent
          · cases sent
          · split at sent <;> cases sent
            exact ⟨rfl, peerId, sound.table peerId addr found⟩
  | removePunched peerId =>
    cases stepped
    exact sound.with_manager _ rfl (fun _ active => active) 
      (fun _ _ found => (lookup_of_lookup_erase found).2)
  | removeActive peerId =>
    cases stepped
    exact sound.with_manager _ rfl (fun _ active => (AList.mem_erase.mp active).2) (fun _ _ found => found)
  | clearPunched =>
    cases stepped
    refine sound.with_manager _ rfl (fun _ active => active) (fun _ _ found => ?_)
    cases found
  | clearActive =>
    cases stepped
    refine sound.with_manager _ rfl (fun _ active => ?_) (fun _ _ found => found)
    cases active

end

/-- Over all interleavings of calls: an attempt on record belongs to a call that is still
under way; a peer in the table, a success and a keepalive have a packet of that peer as
evidence; a call sends its own packet to its own address, three times at most, and never
reports a plain failure. -/
theorem punch_evidence (localId : NodeID) (socket : Bool) (actions : List PunchAction)
    (s : PunchSystem) (run : exec PunchSystem.step (.new localId socket) actions = some s) :
    (∀ id ∈ s.manager.activePunches, ∃ c ∈ s.calls, c.remoteId = id ∧ c.stage.busy) ∧
    (∀ id src, s.manager.punchedPeers.lookup id = some src → s.Heard id src) ∧
    (∀ c ∈ s.calls, c.sent.length ≤ punchRetryCount ∧
      (∀ packet ∈ c.sent, packet = (buildPunchPacket localId c.remoteId, c.remoteAddr)) ∧
      ∀ result, c.stage = .done result → (result = .ok .success → ∃ src, s.Heard c.remoteId src) ∧
        ∀ reason, result ≠ .ok (.failed reason)) ∧
    ∀ packet ∈ s.keepalives, packet.1 = keepalivePacket ∧ ∃ id, s.Heard id packet.2 := by
  have sound := Runs.invariant PunchSystem.Sound.step run (.new localId socket)
  refine ⟨sound.active, sound.table, fun c member => ?_, sound.keepalives⟩
  obtain ⟨packets, stage⟩ := sound.calls c member
  refine ⟨stage.sent_le, packets, fun result done => ?_⟩
  rw [done] at stage
  exact stage.2

def punchedPeer : SocketAddr := ⟨"10.0.0.2", 34781⟩

def punchedPacket : Bytes × SocketAddr := (buildPunchPacket zeroId zeroId, punchedPeer)

/-- A call that finds its peer in the second attempt, and a keepalive. -/
def punchedRun : List PunchAction :=
  [.punchHole zeroId punchedPeer, .advance 0 .locked, .advance 0 .locked, .advance 0 .locked,
    .advance 0 .locked, .advance 0 (.sent none), .advance 0 (.received .wouldBlock),
    .advance 0 (.sent none), .advance 0 (.received (.datagram punchedPacket.1 punchedPeer)),
    .advance 0 .locked, .advance 0 .locked, .sendKeepalive zeroId none]

def punchedSystem : PunchSystem where
  manager := { HolePunchManager.new zeroId true with
    punchedPeers := AList.insert zeroId punchedPeer ∅ }
  calls := [⟨zeroId, punchedPeer, .done (.ok .success), [punchedPacket, punchedPacket]⟩]
  received := [punchedPacket]
  keepalives := [(keepalivePacket, punchedPeer)]

set_option maxRecDepth 4000 in
theorem punchedRun_eq : exec PunchSystem.step (.new zeroId true) punchedRun = some punchedSystem := rfl

theorem punch_evidence_found : punchedSystem.Heard zeroId punchedPeer :=
  (punch_evidence zeroId true punchedRun punchedSystem punchedRun_eq).2.1 zeroId punchedPeer rfl

/-- Where every datagram that arrives is a punch packet that some node built and sent from
its own address, and no two nodes agree on the front of their ids, every peer in the table
stands there with its own address: even if the packet was for another node. -/
theorem punched_address (nodes : NodeID → Prop) (addrOf : NodeID → SocketAddr)
    (distinct : ∀ a b, nodes a → nodes b → idPrefix a = idPrefix b → a = b)
    (localId : NodeID) (socket : Bool) (actions : List PunchAction) (s : PunchSystem)
    (run : exec PunchSystem.step (.new localId socket) actions = some s)
    (honest : ∀ data src, (data, src) ∈ s.received → ∃ node target, nodes node ∧
      data = buildPunchPacket node target ∧ src = addrOf node)
    (id : NodeID) (src : SocketAddr) (known : nodes id)
    (found : s.manager.punchedPeers.lookup id = some src) : src = addrOf id := by
  have sound := Runs.invariant PunchSystem.Sound.step run (.new localId socket)
  obtain ⟨data, arrived, valid⟩ := sound.table id src found
  obtain ⟨node, target, member, rfl, rfl⟩ := honest data src arrived
  have same := (buildPunchPacket_valid_iff node target id).mp valid
  rw [distinct node id member known same]

def nodeAddress (id : NodeID) : SocketAddr :=
  if id = idOf 1 then ⟨"10.0.0.1", 34780⟩ else ⟨"10.0.0.2", 34781⟩

/-- The call for the second node hears the first one, and then a packet of the second node that
was meant for the first. -/
def strayedRun : List PunchAction :=
  [.punchHole (idOf 2) ⟨"10.0.0.7", 1⟩, .advance 0 .locked, .advance 0 .locked, .advance 0 .locked,
    .advance 0 .locked, .advance 0 (.sent none),
    .advance 0 (.received (.datagram (buildPunchPacket (idOf 1) (idOf 9)) (nodeAddress (idOf 1)))),
    .advance 0 (.sent none),
    .advance 0 (.received (.datagram (buildPunchPacket (idOf 2) (idOf 1)) (nodeAddress (idOf 2)))),
    .advance 0 .locked, .advance 0 .locked]

theorem strayedRun_runs : (exec PunchSystem.step (.new (idOf 9) true) strayedRun).isSome := by
  decide +kernel

def strayedSystem : PunchSystem :=
  (exec PunchSystem.step (.new (idOf 9) true) strayedRun).get strayedRun_runs

theorem punched_address_found : ∃ src, strayedSystem.manager.punchedPeers.lookup (idOf 2) = some src ∧
    src = nodeAddress (idOf 2) ∧ strayedSystem.received.length = 2 := by
  have found : (strayedSystem.manager.punchedPeers.lookup (idOf 2)).isSome := by decide +kernel
  have received : strayedSystem.received =
      [(buildPunchPacket (idOf 1) (idOf 9), nodeAddress (idOf 1)),
        (buildPunchPacket (idOf 2) (idOf 1), nodeAddress (idOf 2))] := by decide +kernel
  obtain ⟨src, found⟩ := Option.isSome_iff_exists.mp found
  refine ⟨src, found, ?_, by rw [received]; rfl⟩
  refine punched_address (fun id => id = idOf 1 ∨ id = idOf 2) nodeAddress ?_ (idOf 9) true strayedRun
    strayedSystem (Option.some_get strayedRun_runs).symm ?_ (idOf 2) src (.inr rfl) found
  · have apart : idPrefix (idOf 1) ≠ idPrefix (idOf 2) := by decide
    rintro a b (rfl | rfl) (rfl | rfl) same
    · rfl
    · exact absurd same apart
    · exact absurd same.symm apart
    · rfl
  · intro data src member
    rw [received] at member
    rcases List.mem_cons.mp member with first | second
    · obtain ⟨rfl, rfl⟩ := Prod.mk.inj first
      exact ⟨idOf 1, idOf 9, .inl rfl, rfl, rfl⟩
    · obtain ⟨rfl, rfl⟩ := Prod.mk.inj (List.mem_singleton.mp second)
      exact ⟨idOf 2, idOf 1, .inr rfl, rfl, rfl⟩

end LanLink.Vpn
