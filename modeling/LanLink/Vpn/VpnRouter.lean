import LanLink.Core.Runs
import LanLink.Vpn.LanRouter
import LanLink.Vpn.Relay

/-! A network of VPN routers. Each sends over its LAN router if it can, else over TCP to the
address it knows for a node or for the next hop to it, and each hands the data that its server
receives to its listeners. Which stream the pool of connections gives, and what the resolver,
the LAN router and the system answer, are inputs. -/
namespace LanLink.Routers
open Words Maps Runs LanLink.Vpn

def toHex (id : NodeID) : String := String.ofList (Hex.encode id.toList)

/-- A TCP stream to the server of a node: the bytes that are not read yet. Next to it run the
messages written on it as a whole and those read from it. -/
structure Conn where
  node : NodeID
  addr : String
  pending : Bytes
  /-- The server has not closed it. -/
  reading : Bool
  written : List Message
  handled : List Message

def Conn.open (node : NodeID) (addr : String) : Conn := ⟨node, addr, [], true, [], []⟩

def Conn.write (c : Conn) (msg : Message) : Conn :=
  { c with pending := c.pending ++ msg.toBytes, written := c.written ++ [msg] }

/-- A router with its relay manager; a listener is the list of its calls. -/
structure Node where
  knownAddrs : Map NodeID String
  relayTable : Map NodeID String
  knownNodes : Map String (NodeID × ConnectionType × NodeStatus)
  received : List (NodeID × Message)
  listeners : List (List (String × Bytes))

/-- What the relay manager sends, and to which address. Over a relay it sends the target. -/
def Node.route (n : Node) (target : NodeID) (msg : Message) : Option (String × Message) :=
  match n.knownAddrs.lookup target with
  | some addr => some (addr, msg)
  | none => (n.relayTable.lookup target).map fun nextHop => (nextHop, ⟨.relay, target.toList⟩)

/-- What comes of `send_message`: an error, a stream of the pool or a new one, or a write
that stops in the middle. -/
inductive Outcome where
  | failed (e : String)
  | reused (c : Nat)
  | connected
  | broken (c : Nat) (n : Nat) (e : String)

/-- The write did not stop in the middle. -/
def Outcome.Whole : Outcome → Prop
  | .broken .. => False
  | _ => True

structure World where
  node : NodeID → Node
  conns : List Conn

/-- At first a router has the listeners of its program and empty tables. -/
def World.start (listeners : NodeID → Nat) : World :=
  ⟨fun n => ⟨∅, ∅, ∅, [], List.replicate (listeners n) []⟩, []⟩

def World.setNode (w : World) (n : NodeID) (node : Node) : World :=
  { w with node := Function.update w.node n node }

def World.updateNode (w : World) (n : NodeID) (name : String) (id : NodeID) (type : ConnectionType) :
    World :=
  w.setNode n { w.node n with knownNodes := (w.node n).knownNodes.insert name (id, type, .online) }

/-- `host` says whose server is at an address. -/
def World.sendMessage (host : String → Option NodeID) (w : World) (addr : String) (msg : Message) :
    Outcome → Option (Except String Unit × World)
  | .failed e => some (.error e, w)
  | .reused c =>
    match w.conns[c]? with
    | some conn =>
      if conn.addr = addr then some (.ok (), { w with conns := w.conns.set c (conn.write msg) })
      else none
    | none => none
  | .connected => (host addr).map fun node =>
    (.ok (), { w with conns := w.conns ++ [(Conn.open node addr).write msg] })
  | .broken c n e =>
    match w.conns[c]? with
    | some conn =>
      if conn.addr = addr then
        let pending := conn.pending ++ msg.toBytes.take n
        some (.error e, { w with conns := w.conns.set c { conn with pending } })
      else none
    | none => none

/-- `VpnRouter::send`. `lan` is the answer of the LAN router, if there is one. -/
def World.send (host : String → Option NodeID) (w : World) (n : NodeID) (target : String)
    (data : Bytes) (resolved : Except AddressError NodeID) (lan : Option (Except RouterError Unit))
    (outcome : Outcome) : Option (Except RouterError Unit × World) :=
  match ParsedAddress.parse target with
  | .error e => some (.error (.invalidData e.text), w)
  | .ok parsed =>
    match resolved with
    | .error e => some (.error (.unreachable e.text), w)
    | .ok nodeId =>
      match lan with
      | some (.ok ()) => some (.ok (), w.updateNode n parsed.name nodeId .lan)
      | some (.error _) | none =>
        match (w.node n).route nodeId ⟨.data, data⟩ with
        | none => some (.error (.sendFailed ("unreachable: " ++ toHex nodeId)), w)
        | some (addr, msg) =>
          match w.sendMessage host addr msg outcome with
          | none => none
          | some (.error e, w) => some (.error (.sendFailed e), w)
          | some (.ok (), w) => some (.ok (), w.updateNode n parsed.name nodeId .vpn)

/-- One round of a server's thread for a stream: a message, or the end of the thread at an
error or when nothing came for a while. -/
def World.read (w : World) (c : Nat) : Option World :=
  match w.conns[c]? with
  | none => none
  | some conn =>
    if conn.reading then
      match TcpServer.readMessage ⟨conn.pending, .wouldBlock⟩ with
      | (.ok (some (sender, msg)), stream) =>
        let node := w.node conn.node
        some { w.setNode conn.node { node with received := node.received ++ [(sender, msg)] } with
          conns := w.conns.set c
            { conn with pending := stream.bytes, handled := conn.handled ++ [msg] } }
      | (_, stream) =>
        some { w with conns := w.conns.set c { conn with pending := stream.bytes, reading := false } }
    else none

/-- Every data message goes to every listener. -/
def dispatch (listeners : List (List (String × Bytes))) :
    List (NodeID × Message) → List (List (String × Bytes))
  | [] => listeners
  | (sender, msg) :: rest =>
    dispatch (if msg.msgType = .data then listeners.map (· ++ [(toHex sender, msg.payload)])
      else listeners) rest

inductive Action where
  | registerNode (n : NodeID) (id : NodeID) (addr : String)
  | setRelay (n : NodeID) (target : NodeID) (nextHop : String)
  | registerListener (n : NodeID)
  | send (n : NodeID) (target : String) (data : Bytes) (resolved : Except AddressError NodeID)
    (lan : Option (Except RouterError Unit)) (outcome : Outcome)
  | read (c : Nat)
  | poll (n : NodeID)

def World.step (host : String → Option NodeID) (w : World) : Action → Option World
  | .registerNode n id addr =>
    some (w.setNode n { w.node n with knownAddrs := (w.node n).knownAddrs.insert id addr })
  | .setRelay n target nextHop =>
    some (w.setNode n { w.node n with relayTable := (w.node n).relayTable.insert target nextHop })
  | .registerListener n =>
    some (w.setNode n { w.node n with listeners := (w.node n).listeners ++ [[]] })
  | .send n target data resolved lan outcome =>
    (w.send host n target data resolved lan outcome).map (·.2)
  | .read c => w.read c
  | .poll n =>
    some (w.setNode n { w.node n with
      received := []
      listeners := dispatch (w.node n).listeners (w.node n).received })

/-- The payloads that listeners are given. -/
def dataOf (messages : List Message) : List Bytes :=
  messages.filterMap fun msg => if msg.msgType = .data then some msg.payload else none

@[simp] theorem dataOf_nil : dataOf [] = [] := rfl

@[simp] theorem dataOf_append (first second : List Message) :
    dataOf (first ++ second) = dataOf first ++ dataOf second :=
  List.filterMap_append

/-- The data put on the streams to a node, and the data that its server read from them. -/
def World.written (w : World) (n : NodeID) : List Bytes :=
  w.conns.flatMap fun c => if c.node = n then dataOf c.written else []

def World.handled (w : World) (n : NodeID) : List Bytes :=
  w.conns.flatMap fun c => if c.node = n then dataOf c.handled else []

section counting
variable {α β : Type}

theorem count_flatMap_set [BEq β] {l : List α} (found : l[i]? = some a) (b : α) (f : α → List β) (y : β) :
    ((l.set i b).flatMap f).count y + (f a).count y = (l.flatMap f).count y + (f b).count y := by
  induction l generalizing i with
  | nil => cases found
  | cons x rest ih =>
    cases i with
    | zero =>
      cases found
      simp only [List.set_cons_zero, List.flatMap_cons, List.count_append]
      omega
    | succ i =>
      have rest := ih found
      simp only [List.set_cons_succ, List.flatMap_cons, List.count_append]
      omega

theorem count_flatMap_le [BEq β] {l : List α} {f g : α → List β} {y : β}
    (each : ∀ a ∈ l, (f a).count y ≤ (g a).count y) :
    (l.flatMap f).count y ≤ (l.flatMap g).count y := by
  induction l with
  | nil => exact le_rfl
  | cons x rest ih =>
    have first := each x List.mem_cons_self
    have later := ih fun a member => each a (List.mem_cons_of_mem x member)
    simp only [List.flatMap_cons, List.count_append]
    omega

theorem flatMap_set {l : List α} (found : l[i]? = some a) {f : α → List β} (same : f b = f a) :
    (l.set i b).flatMap f = l.flatMap f := by
  induction l generalizing i with
  | nil => cases found
  | cons x rest ih =>
    cases i with
    | zero =>
      cases found
      simp [same]
    | succ i => simp [ih found]

end counting

/-- The server reads the messages of a stream from the front. -/
structure Framed (c : Conn) : Prop where
  unread : ∃ rest, c.written = c.handled ++ rest ∧
    (c.reading → c.pending = rest.flatMap Message.toBytes)
  words : ∀ msg ∈ c.written, msg.payload.length < 2 ^ 32

/-- What a listener was given and what waits for it. -/
def World.line (w : World) (n : NodeID) (calls : List (String × Bytes)) : List Bytes :=
  calls.map (·.2) ++ dataOf ((w.node n).received.map (·.2))

/-- How the calls of a listener, and the data that waits for it, stand to what was read. -/
structure Called (k : NodeID → Nat) (w : World) (n : NodeID) (i : Nat)
    (calls : List (String × Bytes)) : Prop where
  sender : ∀ call ∈ calls, call.1 = toHex zeroId
  atMost : ∀ payload, (w.line n calls).count payload ≤ (w.handled n).count payload
  exactly : i < k n → ∀ payload, (w.line n calls).count payload = (w.handled n).count payload
  ordered : i < k n → ∀ c ∈ w.conns, c.node = n → (dataOf c.handled).Sublist (w.line n calls)

structure Serving (k : NodeID → Nat) (w : World) : Prop where
  framed : ∀ c ∈ w.conns, Framed c
  sender : ∀ n, ∀ entry ∈ (w.node n).received, entry.1 = zeroId
  waiting : ∀ n payload,
    (dataOf ((w.node n).received.map (·.2))).count payload ≤ (w.handled n).count payload
  enough : ∀ n, k n ≤ (w.node n).listeners.length
  called : ∀ n i calls, (w.node n).listeners[i]? = some calls → Called k w n i calls

section
variable {k : NodeID → Nat} {w v : World} {host : String → Option NodeID} {n : NodeID}

theorem start_serving (k : NodeID → Nat) : Serving k (.start k) where
  framed c member := absurd member List.not_mem_nil
  sender n entry member := absurd member List.not_mem_nil
  waiting n payload := le_rfl
  enough n := by simp [World.start]
  called n i calls found := by
    have empty : calls = [] := by
      simp only [World.start, List.getElem?_replicate] at found
      split at found
      · exact (Option.some.inj found).symm
      · cases found
    subst empty
    exact ⟨by simp, fun _ => le_rfl, fun _ _ => rfl, fun _ c member => absurd member List.not_mem_nil⟩

/-- A listener's calls matter only with what waits for it, and a stream only by what was
read from it. -/
theorem Called.congr (called : Called k w n i calls) (sender : ∀ call ∈ after, call.1 = toHex zeroId)
    (line : v.line n after = w.line n calls) (handled : v.handled n = w.handled n)
    (before : ∀ c ∈ v.conns, c.node = n → dataOf c.handled = [] ∨
      ∃ d ∈ w.conns, d.node = n ∧ d.handled = c.handled) : Called k v n i after := by
  refine ⟨sender, fun payload => ?_, fun first payload => ?_, fun first c member own => ?_⟩
  · rw [line, handled]
    exact called.atMost payload
  · rw [line, handled]
    exact called.exactly first payload
  · rw [line]
    rcases before c member own with none | ⟨d, there, same, read⟩
    · rw [none]
      exact List.nil_sublist _
    · rw [← read]
      exact called.ordered first d there same

/-- Only the queue, the listeners and what was read matter to what is served. -/
theorem Serving.congr (serving : Serving k w)
    (nodes : ∀ n, (v.node n).received = (w.node n).received ∧
      (v.node n).listeners = (w.node n).listeners)
    (framed : ∀ c ∈ v.conns, Framed c) (handled : ∀ n, v.handled n = w.handled n)
    (before : ∀ c ∈ v.conns, ∀ n, c.node = n → dataOf c.handled = [] ∨
      ∃ d ∈ w.conns, d.node = n ∧ d.handled = c.handled) : Serving k v := by
  refine ⟨framed, fun n => (nodes n).1 ▸ serving.sender n, fun n payload => ?_,
    fun n => (nodes n).2 ▸ serving.enough n, fun n i calls found => ?_⟩
  · rw [(nodes n).1, handled n]
    exact serving.waiting n payload
  · have called := serving.called n i calls ((nodes n).2 ▸ found)
    have line : v.line n calls = w.line n calls := by
      rw [World.line, World.line, (nodes n).1]
    exact called.congr called.sender line (handled n) fun c member own => before c member n own

theorem setNode_node (w : World) (n m : NodeID) (node : Node) :
    (w.setNode n node).node m = if m = n then node else w.node m :=
  Function.update_apply w.node n node m

/-- The other tables of a router change nothing. -/
theorem Serving.setNode (serving : Serving k w) (received : node.received = (w.node n).received)
    (listeners : node.listeners = (w.node n).listeners) : Serving k (w.setNode n node) := by
  refine serving.congr (fun m => ?_) serving.framed (fun _ => rfl)
    fun c member m own => .inr ⟨c, member, own, rfl⟩
  rw [setNode_node]
  split
  · rename_i same
    subst same
    exact ⟨received, listeners⟩
  · exact ⟨rfl, rfl⟩

theorem Framed.write (framed : Framed c) (word : msg.payload.length < 2 ^ 32) : Framed (c.write msg) := by
  obtain ⟨rest, split, unread⟩ := framed.unread
  refine ⟨⟨rest ++ [msg], by simp [Conn.write, split], fun reading => ?_⟩, fun other member => ?_⟩
  · simp [Conn.write, unread reading]
  · rcases List.mem_append.mp member with old | new
    · exact framed.words other old
    · rw [List.mem_singleton.mp new]
      exact word

/-- A whole message on a stream leaves what was read as it was. -/
theorem Serving.write (serving : Serving k w) (found : w.conns[c]? = some conn)
    (word : msg.payload.length < 2 ^ 32) :
    Serving k { w with conns := w.conns.set c (conn.write msg) } := by
  have there := List.mem_of_getElem? found
  refine serving.congr (fun _ => ⟨rfl, rfl⟩) (fun d member => ?_) (fun m => ?_) fun d member m own => ?_
  · rcases List.mem_or_eq_of_mem_set member with old | rfl
    · exact serving.framed d old
    · exact (serving.framed conn there).write word
  · exact flatMap_set found rfl
  · rcases List.mem_or_eq_of_mem_set member with old | rfl
    · exact .inr ⟨d, old, own, rfl⟩
    · exact .inr ⟨conn, there, own, rfl⟩

theorem Serving.connect (serving : Serving k w) (word : msg.payload.length < 2 ^ 32) :
    Serving k { w with conns := w.conns ++ [(Conn.open node addr).write msg] } := by
  refine serving.congr (fun _ => ⟨rfl, rfl⟩) (fun d member => ?_) (fun m => ?_) fun d member m own => ?_
  · rcases List.mem_append.mp member with old | new
    · exact serving.framed d old
    · rw [List.mem_singleton.mp new]
      exact Framed.write ⟨⟨[], rfl, fun _ => rfl⟩, by simp [Conn.open]⟩ word
  · simp [World.handled, Conn.write, Conn.open]
  · rcases List.mem_append.mp member with old | new
    · exact .inr ⟨d, old, own, rfl⟩
    · rw [List.mem_singleton.mp new]
      exact .inl rfl

/-- The end of a server's thread leaves what was read as it was. -/
theorem Serving.close (serving : Serving k w) (found : w.conns[c]? = some conn) (pending : Bytes) :
    Serving k { w with conns := w.conns.set c { conn with pending, reading := false } } := by
  have there := List.mem_of_getElem? found
  refine serving.congr (fun _ => ⟨rfl, rfl⟩) (fun d member => ?_) (fun m => ?_) fun d member m own => ?_
  · rcases List.mem_or_eq_of_mem_set member with old | rfl
    · exact serving.framed d old
    · obtain ⟨⟨rest, split, -⟩, words⟩ := serving.framed conn there
      exact ⟨⟨rest, split, nofun⟩, words⟩
  · exact flatMap_set found rfl
  · rcases List.mem_or_eq_of_mem_set member with old | rfl
    · exact .inr ⟨d, old, own, rfl⟩
    · exact .inr ⟨conn, there, own, rfl⟩

/-- A router with one more message in its queue, read from one of its streams. -/
def World.receive (w : World) (c : Nat) (conn : Conn) (msg : Message) (pending : Bytes) : World :=
  let node := w.node conn.node
  { w.setNode conn.node { node with received := node.received ++ [(zeroId, msg)] } with
    conns := w.conns.set c { conn with pending, handled := conn.handled ++ [msg] } }

def arrived (conn : Conn) (msg : Message) (n : NodeID) : List Bytes :=
  if conn.node = n then dataOf [msg] else []

theorem receive_received (w : World) (c : Nat) (conn : Conn) (msg : Message) (pending : Bytes)
    (n : NodeID) :
    dataOf (((w.receive c conn msg pending).node n).received.map (·.2)) =
      dataOf ((w.node n).received.map (·.2)) ++ arrived conn msg n := by
  rw [World.receive, setNode_node, arrived]
  by_cases own : conn.node = n
  · subst own
    simp
  · simp [own, Ne.symm own]

theorem receive_handled (found : w.conns[c]? = some conn) (msg : Message) (pending : Bytes)
    (n : NodeID) (payload : Bytes) :
    ((w.receive c conn msg pending).handled n).count payload =
      (w.handled n).count payload + (arrived conn msg n).count payload := by
  have counted := count_flatMap_set found { conn with pending, handled := conn.handled ++ [msg] }
    (fun c => if c.node = n then dataOf c.handled else []) payload
  rw [World.handled, World.handled, World.receive, arrived]
  by_cases own : conn.node = n
  · simp only [own, if_true, dataOf_append, List.count_append] at counted ⊢
    omega
  · simp only [own, if_false, List.count_nil] at counted ⊢
    omega

theorem receive_listeners (w : World) (c : Nat) (conn : Conn) (msg : Message) (pending : Bytes)
    (n : NodeID) :
    ((w.receive c conn msg pending).node n).listeners = (w.node n).listeners := by
  rw [World.receive, setNode_node]
  split
  · rename_i own
    rw [own]
  · rfl

/-- A message that the server reads waits for every listener of its node. -/
theorem Serving.receive (serving : Serving k w) (found : w.conns[c]? = some conn)
    (framed : Framed { conn with pending, handled := conn.handled ++ [msg] }) :
    Serving k (w.receive c conn msg pending) := by
  have there := List.mem_of_getElem? found
  have line (n : NodeID) (calls : List (String × Bytes)) :
      (w.receive c conn msg pending).line n calls = w.line n calls ++ arrived conn msg n := by
    rw [World.line, World.line, receive_received, List.append_assoc]
  refine ⟨fun d member => ?_, fun n entry member => ?_, fun n payload => ?_, fun n => ?_,
    fun n i calls here => ?_⟩
  · rcases List.mem_or_eq_of_mem_set member with old | rfl
    · exact serving.framed d old
    · exact framed
  · rw [World.receive, setNode_node] at member
    split at member
    · rcases List.mem_append.mp member with old | new
      · exact serving.sender _ entry old
      · rw [List.mem_singleton.mp new]
    · exact serving.sender n entry member
  · rw [receive_received, receive_handled found, List.count_append]
    exact Nat.add_le_add_right (serving.waiting n payload) _
  · rw [receive_listeners]
    exact serving.enough n
  · rw [receive_listeners] at here
    obtain ⟨sender, atMost, exactly, ordered⟩ := serving.called n i calls here
    refine ⟨sender, fun payload => ?_, fun first payload => ?_, fun first d member own => ?_⟩
    · rw [line, receive_handled found, List.count_append]
      exact Nat.add_le_add_right (atMost payload) _
    · rw [line, receive_handled found, List.count_append, exactly first]
    · rw [line]
      rcases List.mem_or_eq_of_mem_set member with old | rfl
      · exact (ordered first d old own).trans (List.sublist_append_left _ _)
      · rw [arrived, if_pos own, dataOf_append]
        exact (ordered first conn there own).append_right _

/-- The server closes a stream at a message that is too large. -/
theorem readMessage_large {msg : Message} (word : msg.payload.length < 2 ^ 32)
    (large : maxMessage < msg.payload.length) (rest : Bytes) (ending : ErrorKind) :
    (TcpServer.readMessage ⟨msg.toBytes ++ rest, ending⟩).1 =
      .error (.parseError "message too large") := by
  have word : msg.payload.length < 256 ^ 4 := word
  have len := ofBigEndian_bigEndian word
  have split : msg.toBytes ++ rest =
      bigEndian 4 msg.payload.length ++ ([msg.msgType.toU8] ++ (msg.payload ++ rest)) := by
    simp [Message.toBytes]
  simp only [TcpServer.readMessage, split, TcpStream.readExact_append _ (bigEndian_length 4 _), len,
    large, if_true]

theorem Serving.read (serving : Serving k w) (stepped : w.read c = some v) : Serving k v := by
  rw [World.read] at stepped
  split at stepped
  · cases stepped
  · rename_i conn found
    split at stepped
    · rename_i reading
      have framed := serving.framed conn (List.mem_of_getElem? found)
      obtain ⟨⟨rest, split, unread⟩, words⟩ := framed
      rw [unread reading] at stepped
      cases rest with
      | nil =>
        cases stepped
        exact serving.close found _
      | cons msg rest =>
        rw [List.flatMap_cons] at stepped
        by_cases small : msg.payload.length ≤ maxMessage
        · rw [TcpServer.readMessage_toBytes small] at stepped
          cases stepped
          refine serving.receive found ⟨⟨rest, ?_, fun _ => rfl⟩, words⟩
          rw [split]
          simp
        · have word := words msg (by simp [split])
          have refused := readMessage_large word (Nat.lt_of_not_le small)
            (rest.flatMap Message.toBytes) .wouldBlock
          split at stepped
          · rename_i answered
            rw [answered] at refused
            cases refused
          · cases stepped
            exact serving.close found _
    · cases stepped

/-- The calls that the messages of a queue make. -/
def callsOf (received : List (NodeID × Message)) : List (String × Bytes) :=
  received.filterMap fun (sender, msg) =>
    if msg.msgType = .data then some (toHex sender, msg.payload) else none

theorem callsOf_payloads (received : List (NodeID × Message)) :
    (callsOf received).map (·.2) = dataOf (received.map (·.2)) := by
  rw [callsOf, dataOf, List.map_filterMap, List.filterMap_map]
  congr 1
  funext entry
  dsimp only [Function.comp]
  split <;> rfl

theorem callsOf_sender (zero : ∀ entry ∈ received, entry.1 = zeroId) :
    ∀ call ∈ callsOf received, call.1 = toHex zeroId := by
  intro call member
  obtain ⟨entry, there, made⟩ := List.mem_filterMap.mp member
  dsimp only at made
  split at made
  · cases made
    exact congrArg toHex (zero entry there)
  · cases made

/-- A listener is called with all data that waited, in its order. -/
theorem dispatch_getElem? (listeners : List (List (String × Bytes)))
    (received : List (NodeID × Message)) (i : Nat) :
    (dispatch listeners received)[i]? = listeners[i]?.map (· ++ callsOf received) := by
  induction received generalizing listeners with
  | nil => simp [dispatch, callsOf]
  | cons entry rest ih =>
    obtain ⟨sender, msg⟩ := entry
    rw [dispatch, ih]
    by_cases data : msg.msgType = .data
    · rw [if_pos data, List.getElem?_map, Option.map_map]
      congr 1
      funext calls
      simp [callsOf, data]
    · rw [if_neg data]
      simp [callsOf, data]

theorem dispatch_length (listeners : List (List (String × Bytes)))
    (received : List (NodeID × Message)) :
    (dispatch listeners received).length = listeners.length := by
  induction received generalizing listeners with
  | nil => rfl
  | cons entry rest ih =>
    rw [dispatch, ih]
    split <;> simp

/-- A poll hands what waits for the listeners to them. -/
theorem Serving.poll (serving : Serving k w) (n : NodeID) :
    Serving k (w.setNode n { w.node n with
      received := [], listeners := dispatch (w.node n).listeners (w.node n).received }) := by
  refine ⟨serving.framed, fun m entry member => ?_, fun m payload => ?_, fun m => ?_,
    fun m i calls here => ?_⟩
  · rw [setNode_node] at member
    split at member
    · cases member
    · exact serving.sender m entry member
  · rw [setNode_node]
    split
    · exact Nat.zero_le _
    · exact serving.waiting m payload
  · rw [setNode_node]
    split
    · rename_i own
      rw [dispatch_length, own]
      exact serving.enough n
    · exact serving.enough m
  · by_cases own : m = n
    · subst own
      rw [setNode_node, if_pos rfl, dispatch_getElem?] at here
      obtain ⟨before, found, rfl⟩ := Option.map_eq_some_iff.mp here
      have called := serving.called m i before found
      refine called.congr (fun call member => ?_) ?_ rfl fun c member own => .inr ⟨c, member, own, rfl⟩
      · rcases List.mem_append.mp member with old | new
        · exact called.sender call old
        · exact callsOf_sender (serving.sender m) call new
      · simp [World.line, setNode_node, callsOf_payloads]
    · rw [setNode_node, if_neg own] at here
      have called := serving.called m i calls here
      refine called.congr called.sender ?_ rfl fun c member own => .inr ⟨c, member, own, rfl⟩
      rw [World.line, World.line, setNode_node, if_neg own]

/-- A new listener is behind those of the start, and is called with what waits. -/
theorem Serving.registerListener (serving : Serving k w) (n : NodeID) :
    Serving k (w.setNode n { w.node n with listeners := (w.node n).listeners ++ [[]] }) := by
  have received (m : NodeID) :
      ((w.setNode n { w.node n with listeners := (w.node n).listeners ++ [[]] }).node m).received =
        (w.node m).received := by
    rw [setNode_node]
    split
    · rename_i own
      rw [own]
    · rfl
  have line (m : NodeID) (calls : List (String × Bytes)) :
      (w.setNode n { w.node n with listeners := (w.node n).listeners ++ [[]] }).line m calls =
        w.line m calls := by
    rw [World.line, World.line, received]
  refine ⟨serving.framed, fun m => received m ▸ serving.sender m, fun m => received m ▸ serving.waiting m,
    fun m => ?_, fun m i calls here => ?_⟩
  · have enough := serving.enough m
    rw [setNode_node]
    split
    · rename_i own
      simp only [List.length_append, ← own]
      omega
    · exact enough
  · have kept (found : (w.node m).listeners[i]? = some calls) : Called k _ m i calls :=
      (serving.called m i calls found).congr (serving.called m i calls found).sender (line m calls) rfl
        fun c member own => .inr ⟨c, member, own, rfl⟩
    rw [setNode_node] at here
    split at here
    · rename_i own
      subst own
      rw [List.getElem?_append] at here
      split at here
      · exact kept here
      · rename_i last
        have late : ¬ i < k m := fun first => last (Nat.lt_of_lt_of_le first (serving.enough m))
        have empty : calls = [] := by
          rw [List.getElem?_singleton] at here
          split at here
          · exact (Option.some.inj here).symm
          · cases here
        subst empty
        refine ⟨nofun, fun payload => ?_, fun first => absurd first late, fun first => absurd first late⟩
        rw [line]
        exact serving.waiting m payload
    · exact kept here

/-- Every stream leads to the server at its address. -/
def Homed (host : String → Option NodeID) (w : World) : Prop :=
  ∀ c ∈ w.conns, host c.addr = some c.node

/-- Without a write that stops in the middle, a message is on a stream as a whole or not
at all. -/
theorem sendMessage_cases {outcome : Outcome} (whole : outcome.Whole)
    (sent : w.sendMessage host addr msg outcome = some (answer, v)) :
    (∃ e, answer = .error e ∧ v = w) ∨
    (answer = .ok () ∧ ∃ c conn, w.conns[c]? = some conn ∧ conn.addr = addr ∧
      v = { w with conns := w.conns.set c (conn.write msg) }) ∨
    (answer = .ok () ∧ ∃ node, host addr = some node ∧
      v = { w with conns := w.conns ++ [(Conn.open node addr).write msg] }) := by
  cases outcome with
  | failed e =>
    cases sent
    exact .inl ⟨e, rfl, rfl⟩
  | reused c =>
    rw [World.sendMessage] at sent
    split at sent
    · rename_i conn found
      split at sent
      · rename_i same
        cases sent
        exact .inr (.inl ⟨rfl, c, conn, found, same, rfl⟩)
      · cases sent
    · cases sent
  | connected =>
    obtain ⟨node, home, done⟩ := Option.map_eq_some_iff.mp sent
    cases done
    exact .inr (.inr ⟨rfl, node, home, rfl⟩)
  | broken => exact whole.elim

theorem Serving.sendMessage (serving : Serving k w) {outcome : Outcome} (whole : outcome.Whole)
    (word : msg.payload.length < 2 ^ 32)
    (sent : w.sendMessage host addr msg outcome = some (answer, v)) : Serving k v := by
  rcases sendMessage_cases whole sent with
    ⟨e, -, rfl⟩ | ⟨-, c, conn, found, -, rfl⟩ | ⟨-, node, -, rfl⟩
  · exact serving
  · exact serving.write found word
  · exact serving.connect word

theorem Homed.sendMessage (homed : Homed host w) {outcome : Outcome} (whole : outcome.Whole)
    (sent : w.sendMessage host addr msg outcome = some (answer, v)) : Homed host v := by
  intro d member
  rcases sendMessage_cases whole sent with
    ⟨e, -, rfl⟩ | ⟨-, c, conn, found, -, rfl⟩ | ⟨-, node, home, rfl⟩
  · exact homed d member
  · rcases List.mem_or_eq_of_mem_set member with old | rfl
    · exact homed d old
    · exact homed conn (List.mem_of_getElem? found)
  · rcases List.mem_append.mp member with old | new
    · exact homed d old
    · rw [List.mem_singleton.mp new]
      exact home

/-- A message that is sent is one more on the streams to the server at the address. -/
theorem sendMessage_written (homed : Homed host w) {outcome : Outcome} (whole : outcome.Whole)
    (sent : w.sendMessage host addr msg outcome = some (.ok (), v)) (m : NodeID) (payload : Bytes) :
    (v.written m).count payload = (w.written m).count payload +
      (if host addr = some m then dataOf [msg] else []).count payload := by
  rcases sendMessage_cases whole sent with
    ⟨e, failed, -⟩ | ⟨-, c, conn, found, rfl, rfl⟩ | ⟨-, node, home, rfl⟩
  · cases failed
  · have counted := count_flatMap_set found (conn.write msg)
      (fun c => if c.node = m then dataOf c.written else []) payload
    rw [homed conn (List.mem_of_getElem? found), World.written, World.written]
    by_cases own : conn.node = m
    · simp only [Conn.write, own, if_true, dataOf_append, List.count_append] at counted ⊢
      omega
    · simp only [Conn.write, own, if_false, List.count_nil, Option.some.injEq] at counted ⊢
      omega
  · rw [home, World.written, World.written, List.flatMap_append, List.count_append]
    by_cases own : node = m
    · simp [Conn.write, Conn.open, own]
    · simp [Conn.write, Conn.open, own]

theorem sendMessage_failed {outcome : Outcome} (whole : outcome.Whole)
    (sent : w.sendMessage host addr msg outcome = some (.error e, v)) : v = w := by
  rcases sendMessage_cases whole sent with ⟨e, -, same⟩ | ⟨done, -⟩ | ⟨done, -⟩
  · exact same
  · cases done
  · cases done

/-- What a call of `send` does: an error without a message, the LAN router's answer, or what
comes of the message for the route. -/
theorem send_cases {lan : Option (Except RouterError Unit)}
    (sent : w.send host n target data resolved lan outcome = some (answer, v)) :
    (∃ e, answer = .error e ∧ v = w) ∨
    (∃ name id, lan = some (.ok ()) ∧ answer = .ok () ∧ v = w.updateNode n name id .lan) ∨
    ∃ id addr msg, lan ≠ some (.ok ()) ∧ resolved = .ok id ∧
      (w.node n).route id ⟨.data, data⟩ = some (addr, msg) ∧
      ((∃ e told, w.sendMessage host addr msg outcome = some (.error e, v) ∧ answer = .error told) ∨
        ∃ name u, w.sendMessage host addr msg outcome = some (.ok (), u) ∧ answer = .ok () ∧
          v = u.updateNode n name id .vpn) := by
  rw [World.send] at sent
  split at sent
  · cases sent
    exact .inl ⟨_, rfl, rfl⟩
  · rename_i parsed _
    split at sent
    · cases sent
      exact .inl ⟨_, rfl, rfl⟩
    · rename_i id
      split at sent
      case h_1 =>
        cases sent
        exact .inr (.inl ⟨parsed.name, id, rfl, rfl, rfl⟩)
      all_goals
        split at sent
        · cases sent
          exact .inl ⟨_, rfl, rfl⟩
        · rename_i addr msg routed
          refine .inr (.inr ⟨id, addr, msg, nofun, rfl, routed, ?_⟩)
          split at sent
          · cases sent
          · rename_i e u failed
            cases sent
            exact .inl ⟨e, _, failed, rfl⟩
          · rename_i u done
            cases sent
            exact .inr ⟨parsed.name, u, done, rfl, rfl⟩

theorem route_word {node : Node} {id : NodeID} (word : data.length < 2 ^ 32)
    (routed : node.route id ⟨.data, data⟩ = some (addr, msg)) : msg.payload.length < 2 ^ 32 := by
  rw [Node.route] at routed
  split at routed
  · cases routed
    exact word
  · obtain ⟨nextHop, -, done⟩ := Option.map_eq_some_iff.mp routed
    cases done
    simp

/-- Over a relay goes no data. -/
theorem route_data {node : Node} {id : NodeID} (routed : node.route id ⟨.data, data⟩ = some (addr, msg)) :
    (if host addr = some m then dataOf [msg] else []) =
      match node.knownAddrs.lookup id with
      | some known => if host known = some m then [data] else []
      | none => [] := by
  rw [Node.route] at routed
  split at routed
  · cases routed
    rfl
  · obtain ⟨nextHop, -, done⟩ := Option.map_eq_some_iff.mp routed
    cases done
    exact ite_self _

theorem Serving.send (serving : Serving k w) (word : data.length < 2 ^ 32) {outcome : Outcome}
    (whole : outcome.Whole) {lan : Option (Except RouterError Unit)}
    (sent : w.send host n target data resolved lan outcome = some (answer, v)) : Serving k v := by
  rcases send_cases sent with ⟨e, -, rfl⟩ | ⟨name, id, -, -, rfl⟩ |
    ⟨id, addr, msg, -, -, routed, ⟨e, told, failed, -⟩ | ⟨name, u, done, -, rfl⟩⟩
  · exact serving
  · exact serving.setNode rfl rfl
  · exact serving.sendMessage whole (route_word word routed) failed
  · exact (serving.sendMessage whole (route_word word routed) done).setNode rfl rfl

theorem Homed.send (homed : Homed host w) {outcome : Outcome} (whole : outcome.Whole)
    {lan : Option (Except RouterError Unit)}
    (sent : w.send host n target data resolved lan outcome = some (answer, v)) : Homed host v := by
  rcases send_cases sent with ⟨e, -, rfl⟩ | ⟨name, id, -, -, rfl⟩ |
    ⟨id, addr, msg, -, -, routed, ⟨e, told, failed, -⟩ | ⟨name, u, done, -, rfl⟩⟩
  · exact homed
  · exact homed
  · exact homed.sendMessage whole failed
  · have kept : Homed host u := homed.sendMessage whole done
    exact kept

end

/-- The data that a call of `send` carries to a node itself, if it reports success: not what the
LAN router took, and not what was meant to be relayed. -/
def World.carried (host : String → Option NodeID) (w : World) (m : NodeID) : Action → List Bytes
  | .send n target data resolved lan outcome =>
    match w.send host n target data resolved lan outcome, lan, resolved with
    | some (.ok (), _), none, .ok id | some (.ok (), _), some (.error _), .ok id =>
      match (w.node n).knownAddrs.lookup id with
      | some addr => if host addr = some m then [data] else []
      | none => []
    | _, _, _ => []
  | _ => []

def World.carriedBy (host : String → Option NodeID) (w : World) (m : NodeID) : List Action → List Bytes
  | [] => []
  | a :: rest => w.carried host m a ++
    match w.step host a with
    | some v => v.carriedBy host m rest
    | none => []

/-- Data of less than 4 GiB, and no write that stops in the middle. -/
def Action.Whole : Action → Prop
  | .send _ _ data _ _ outcome => data.length < 2 ^ 32 ∧ outcome.Whole
  | _ => True

/-- The servers of a node read all that is on its streams, and it was polled. -/
structure World.Drained (w : World) (n : NodeID) : Prop where
  polled : (w.node n).received = []
  read : ∀ c ∈ w.conns, c.node = n → c.reading ∧ c.pending = []

section
variable {k : NodeID → Nat} {w v : World} {host : String → Option NodeID} {n : NodeID} {a : Action}

theorem step_serving (serving : Serving k w) (whole : a.Whole) (stepped : w.step host a = some v) :
    Serving k v := by
  cases a with
  | registerNode n id addr =>
    cases stepped
    exact serving.setNode rfl rfl
  | setRelay n target nextHop =>
    cases stepped
    exact serving.setNode rfl rfl
  | registerListener n =>
    cases stepped
    exact serving.registerListener n
  | send n target data resolved lan outcome =>
    obtain ⟨⟨answer, u⟩, sent, rfl⟩ := Option.map_eq_some_iff.mp stepped
    exact serving.send whole.1 whole.2 sent
  | read c => exact serving.read stepped
  | poll n =>
    cases stepped
    exact serving.poll n

theorem read_written (host : String → Option NodeID) (stepped : w.read c = some v) :
    (∀ m, v.written m = w.written m) ∧ (Homed host w → Homed host v) := by
  have kept {conn after : Conn} {nodes : NodeID → Node} (found : w.conns[c]? = some conn)
      (node : after.node = conn.node) (addr : after.addr = conn.addr)
      (written : after.written = conn.written) :
      (∀ m, World.written ⟨nodes, w.conns.set c after⟩ m = w.written m) ∧
        (Homed host w → Homed host ⟨nodes, w.conns.set c after⟩) := by
    refine ⟨fun m => flatMap_set found (by rw [node, written]), fun homed d member => ?_⟩
    rcases List.mem_or_eq_of_mem_set member with old | rfl
    · exact homed d old
    · rw [addr, node]
      exact homed conn (List.mem_of_getElem? found)
  rw [World.read] at stepped
  split at stepped
  · cases stepped
  · rename_i conn found
    split at stepped
    · split at stepped
      · cases stepped
        exact kept found rfl rfl rfl
      · cases stepped
        exact kept found rfl rfl rfl
    · cases stepped

theorem step_homed (homed : Homed host w) (whole : a.Whole) (stepped : w.step host a = some v) :
    Homed host v := by
  cases a with
  | registerNode | setRelay | registerListener | poll =>
    cases stepped
    exact homed
  | send n target data resolved lan outcome =>
    obtain ⟨⟨answer, u⟩, sent, rfl⟩ := Option.map_eq_some_iff.mp stepped
    exact homed.send whole.2 sent
  | read c => exact (read_written host stepped).2 homed

/-- What a step puts on the streams to a node is what it carries to it. -/
theorem step_written (homed : Homed host w) (whole : a.Whole) (stepped : w.step host a = some v)
    (m : NodeID) (payload : Bytes) :
    (v.written m).count payload = (w.written m).count payload + (w.carried host m a).count payload := by
  cases a with
  | registerNode | setRelay | registerListener | poll =>
    cases stepped
    rfl
  | read c =>
    rw [(read_written host stepped).1]
    rfl
  | send n target data resolved lan outcome =>
    obtain ⟨⟨answer, u⟩, sent, rfl⟩ := Option.map_eq_some_iff.mp stepped
    simp only [World.carried, sent]
    rcases send_cases sent with ⟨e, rfl, rfl⟩ | ⟨name, id, rfl, rfl, rfl⟩ |
      ⟨id, addr, msg, other, rfl, routed, ⟨e, told, failed, rfl⟩ | ⟨name, u, done, rfl, rfl⟩⟩
    · rfl
    · rfl
    · rw [sendMessage_failed whole.2 failed]
      rfl
    · have written := sendMessage_written homed whole.2 done m payload
      rw [route_data routed] at written
      match lan, other with
      | none, _ => exact written
      | some (.error _), _ => exact written
      | some (.ok ()), other => exact absurd rfl other

theorem run_written (homed : Homed host w)
    (whole : Meets (World.step host) (fun _ a => a.Whole) w actions)
    (run : exec (World.step host) w actions = some v) (m : NodeID) (payload : Bytes) :
    (v.written m).count payload =
      (w.written m).count payload + (w.carriedBy host m actions).count payload := by
  induction actions generalizing w with
  | nil =>
    cases Option.some.inj run
    rfl
  | cons a rest ih =>
    obtain ⟨u, stepped, run⟩ := exec_cons.mp run
    have later := ih (step_homed homed whole.1 stepped) (whole.2 u stepped) run
    have here := step_written homed whole.1 stepped m payload
    rw [World.carriedBy, stepped, List.count_append]
    dsimp only
    omega

theorem Framed.handled_le (framed : Framed c) (payload : Bytes) :
    (dataOf c.handled).count payload ≤ (dataOf c.written).count payload := by
  obtain ⟨rest, split, -⟩ := framed.unread
  rw [split, dataOf_append, List.count_append]
  exact Nat.le_add_right _ _

theorem Framed.handled_all (framed : Framed c) (reading : c.reading) (none : c.pending = []) :
    c.handled = c.written := by
  obtain ⟨⟨rest, split, unread⟩, -⟩ := framed
  have empty : rest = [] := by
    have bytes := (unread reading).symm.trans none
    cases rest with
    | nil => rfl
    | cons msg rest => simp [Message.toBytes] at bytes
  simp [split, empty]

theorem Serving.handled_le (serving : Serving k w) (n : NodeID) (payload : Bytes) :
    (w.handled n).count payload ≤ (w.written n).count payload := by
  refine count_flatMap_le fun c member => ?_
  split
  · exact (serving.framed c member).handled_le payload
  · exact le_rfl

theorem Serving.handled_drained (serving : Serving k w) (drained : w.Drained n) :
    w.handled n = w.written n := by
  refine List.flatMap_congr fun c member => ?_
  split
  · rename_i own
    obtain ⟨reading, none⟩ := drained.read c member own
    rw [(serving.framed c member).handled_all reading none]
  · rfl

/-- In every run a listener is called with data that was carried to its node, no more often than
it was carried, and every time under the name of nobody. A listener of the start has been called
with all of it, and with the data of one stream in its order, once the node is drained. -/
theorem listeners_called (k : NodeID → Nat) {actions : List Action} {calls : List (String × Bytes)}
    (whole : Meets (World.step host) (fun _ a => a.Whole) (.start k) actions)
    (run : exec (World.step host) (.start k) actions = some w)
    (found : (w.node n).listeners[i]? = some calls) :
    (∀ call ∈ calls, call.1 = toHex zeroId) ∧
    (∀ payload, (calls.map (·.2)).count payload ≤
      ((World.start k).carriedBy host n actions).count payload) ∧
    (i < k n → w.Drained n →
      (calls.map (·.2)).Perm ((World.start k).carriedBy host n actions) ∧
      ∀ c ∈ w.conns, c.node = n → (dataOf c.written).Sublist (calls.map (·.2))) := by
  have serving : Serving k w :=
    guarded_invariant (fun serving => step_serving serving) whole run (start_serving k)
  have homed : Homed host (.start k) := fun c member => absurd member List.not_mem_nil
  have written (payload : Bytes) : (w.written n).count payload =
      ((World.start k).carriedBy host n actions).count payload := by
    rw [run_written homed whole run]
    exact Nat.zero_add _
  have called := serving.called n i calls found
  refine ⟨called.sender, fun payload => ?_, fun first drained => ?_⟩
  · have atMost := called.atMost payload
    have handled := serving.handled_le n payload
    rw [World.line, List.count_append] at atMost
    rw [← written]
    omega
  · have line : w.line n calls = calls.map (·.2) := by
      simp [World.line, drained.polled]
    refine ⟨List.perm_iff_count.mpr fun payload => ?_, fun c member own => ?_⟩
    · rw [← written, ← serving.handled_drained drained, ← called.exactly first, line]
    · obtain ⟨reading, none⟩ := drained.read c member own
      rw [← line, ← (serving.framed c member).handled_all reading none]
      exact called.ordered first c member own

end

def peerId : NodeID := List.Vector.replicate 32 2

def peerHost (addr : String) : Option NodeID :=
  if addr = "10.0.0.2:9877" then some peerId else none

/-- One router knows the address of its peer, and sends it data. -/
def greeting : List Action :=
  [.registerNode zeroId peerId "10.0.0.2:9877",
    .send zeroId "node:peer" [104, 105] (.ok peerId) none .connected, .read 0, .poll peerId]

theorem greeting_runs :
    (exec (World.step peerHost) (.start fun _ => 1) greeting).isSome := by
  decide +kernel

def greeted : World := (exec (World.step peerHost) (.start fun _ => 1) greeting).get greeting_runs

theorem listeners_called_hi :
    greeted.Drained peerId ∧
      ([[104, 105]] : List Bytes).Perm
        ((World.start fun _ => 1).carriedBy peerHost peerId greeting) := by
  have drained : greeted.Drained peerId := ⟨by decide +kernel, by decide +kernel⟩
  have whole : Meets (World.step peerHost) (fun _ a => a.Whole) (.start fun _ => 1) greeting := by
    simp [greeting, Meets, Action.Whole, Outcome.Whole]
  have found : (greeted.node peerId).listeners[0]? = some [(toHex zeroId, [104, 105])] := by
    decide +kernel
  have called := listeners_called _ whole (Option.some_get greeting_runs).symm found
  exact ⟨drained, (called.2.2 (by decide) drained).1⟩

end LanLink.Routers
