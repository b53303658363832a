import LanLink.Core.Json
import LanLink.Core.Lines
import LanLink.Core.StableSort
import LanLink.Registry.Center
import LanLink.Vpn.LanRouter

/-! The list of bootstrap nodes, which is built node by node or read from a text. The text that is
called YAML is read line by line; nothing but a host line and a port line counts. -/
namespace LanLink.Bootstrap
open Json Lines
open LanLink.Center (isWhitespace)
open LanLink.Vpn (parseU16)

def defaultBootstrapPort : UInt16 := 9876

structure BootstrapNode where
  host : String
  port : UInt16
  priority : UInt32
  deriving DecidableEq

def BootstrapNode.new (host : String) (port : UInt16) : BootstrapNode := ⟨host, port, 0⟩

/-- The nodes are tried in their order. -/
abbrev BootstrapConfig := List BootstrapNode

def priorityKey (node : BootstrapNode) : Nat := node.priority.toNat

def BootstrapConfig.addNode (nodes : BootstrapConfig) (node : BootstrapNode) : BootstrapConfig :=
  StableSort.sort priorityKey (nodes ++ [node])

/-- The last field of a name counts. -/
def index (value : Value) (name : String) : Value :=
  match value with
  | .object fields => ((fields.filter fun entry => entry.1 = name).getLast?.map (·.2)).getD .null
  | _ => .null

/-- The node at a place of the list. Numbers are cut to their last bits. -/
def nodeOf (i : Nat) (node : Value) : Except String BootstrapNode :=
  match asString (index node "host") with
  | none => .error "missing host"
  | some host =>
    .ok ⟨host, .ofNat ((asNat (2 ^ 64) (index node "port")).getD defaultBootstrapPort.toNat),
      .ofNat ((asNat (2 ^ 64) (index node "priority")).getD i)⟩

def listed (value : Value) : List Value :=
  match index (index value "bootstrap") "nodes" with
  | .array nodes => nodes
  | _ => []

/-- The loop over the nodes from a place on. -/
def readNodes : Nat → List Value → BootstrapConfig → Except String BootstrapConfig
  | _, [], nodes => .ok nodes
  | i, node :: rest, nodes =>
    match nodeOf i node with
    | .error e => .error e
    | .ok node => readNodes (i + 1) rest (nodes ++ [node])

/-- `parse` is the library that reads the text of a value. -/
def fromJson (parse : String → Except String Value) (json : String) : Except String BootstrapConfig :=
  match parse json with
  | .error e => .error e
  | .ok value => (readNodes 0 (listed value) []).map (StableSort.sort priorityKey)

/-- What was read of the lines so far. -/
structure Reading where
  nodes : BootstrapConfig
  currentHost : Option String
  currentPort : UInt16

def Reading.take (s : Reading) (line : List Char) : Reading :=
  let line := strip isWhitespace line
  if "- host:".toList <+: line then
    let s : Reading := match s.currentHost with
      | some host => ⟨s.nodes ++ [.new host s.currentPort], none, defaultBootstrapPort⟩
      | none => s
    let host := strip (· = '"') (strip isWhitespace (trimStartMatches "- host:".toList line))
    { s with currentHost := some (.ofList host) }
  else if "port:".toList <+: line then
    match parseU16 (strip isWhitespace (trimStartMatches "port:".toList line)) with
    | some port => { s with currentPort := port }
    | none => s
  else s

def Reading.finish (s : Reading) : BootstrapConfig :=
  match s.currentHost with
  | some host => s.nodes ++ [.new host s.currentPort]
  | none => s.nodes

def fromYamlSimple (yaml : String) : BootstrapConfig :=
  ((lines yaml.toList).foldl Reading.take ⟨[], none, defaultBootstrapPort⟩).finish

/-- The nodes that are listed, if each has a host. -/
def listedNodes (values : List Value) : Except String (List BootstrapNode) :=
  values.zipIdx.mapM fun entry => nodeOf entry.2 entry.1

theorem readNodes_eq (i : Nat) (values : List Value) (nodes : BootstrapConfig) :
    readNodes i values nodes =
      ((values.zipIdx i).mapM fun entry => nodeOf entry.2 entry.1).map (nodes ++ ·) := by
  induction values generalizing i nodes with
  | nil => exact congrArg Except.ok (List.append_nil nodes).symm
  | cons value rest ih =>
    rw [readNodes, List.zipIdx_cons, List.mapM_cons]
    cases nodeOf i value with
    | error e => rfl
    | ok node =>
      dsimp only
      rw [ih]
      cases (rest.zipIdx (i + 1)).mapM fun entry => nodeOf entry.2 entry.1 with
      | error e => rfl
      | ok found => exact congrArg Except.ok (List.append_assoc ..)

/-- A configuration that is read is the one that its nodes build when they are added one by one. -/
theorem json_added (parse : String → Except String Value) (json : String) :
    fromJson parse json = (parse json).bind fun value =>
      (listedNodes (listed value)).map (·.foldl BootstrapConfig.addNode []) := by
  have once (nodes : List BootstrapNode) : nodes.foldl BootstrapConfig.addNode [] =
      StableSort.sort priorityKey nodes := by
    have empty : StableSort.sort priorityKey [] = [] := List.mergeSort_nil
    rw [← List.nil_append nodes, ← StableSort.foldl_sort, empty]
    rfl
  rw [fromJson]
  cases parse json with
  | error e => rfl
  | ok value =>
    dsimp only [Except.bind]
    rw [readNodes_eq, listedNodes]
    cases (listed value).zipIdx.mapM fun entry => nodeOf entry.2 entry.1 with
    | error e => rfl
    | ok nodes => exact congrArg Except.ok (once nodes).symm

/-- What a line says. -/
inductive Item where
  | host (name : String)
  | port (number : UInt16)
  | other
  deriving DecidableEq

def item (line : List Char) : Item :=
  let line := strip isWhitespace line
  if "- host:".toList <+: line then
    .host (.ofList (strip (· = '"') (strip isWhitespace (trimStartMatches "- host:".toList line))))
  else if "port:".toList <+: line then
    match parseU16 (strip isWhitespace (trimStartMatches "port:".toList line)) with
    | some port => .port port
    | none => .other
  else .other

def Item.isHost : Item → Bool
  | .host _ => true
  | _ => false

def Item.port? : Item → Option UInt16
  | .port number => some number
  | _ => none

/-- The last port of some lines. -/
def lastPort (items : List Item) (before : UInt16) : UInt16 :=
  (items.filterMap Item.port?).getLast?.getD before

def Reading.next (s : Reading) : Item → Reading
  | .host name =>
    match s.currentHost with
    | some host => ⟨s.nodes ++ [.new host s.currentPort], some name, defaultBootstrapPort⟩
    | none => { s with currentHost := some name }
  | .port number => { s with currentPort := number }
  | .other => s

theorem Reading.take_eq (s : Reading) (line : List Char) : s.take line = s.next (item line) := by
  rw [take, item]
  dsimp only
  by_cases host : "- host:".toList <+: strip isWhitespace line
  · rw [if_pos host, if_pos host, next]
    cases s.currentHost <;> rfl
  · rw [if_neg host, if_neg host]
    by_cases port : "port:".toList <+: strip isWhitespace line
    · rw [if_pos port, if_pos port]
      cases parseU16 (strip isWhitespace (trimStartMatches "port:".toList (strip isWhitespace line))) <;> rfl
    · rw [if_neg port, if_neg port, next]

/-- What the lines of a text are to the reader. -/
def yamlItems (yaml : String) : List Item := (lines yaml.toList).map item

theorem fromYamlSimple_eq (yaml : String) : fromYamlSimple yaml =
    ((yamlItems yaml).foldl Reading.next ⟨[], none, defaultBootstrapPort⟩).finish := by
  rw [fromYamlSimple, yamlItems, List.foldl_map]
  congr 2
  funext s line
  exact s.take_eq line

namespace Reading
variable {s : Reading}

/-- The hosts so far: those that are written down and the current one. -/
def hosts (s : Reading) : Nat := s.nodes.length + s.currentHost.toList.length

theorem length_finish (s : Reading) : s.finish.length = s.hosts := by
  rw [finish, hosts]
  cases s.currentHost <;> simp

theorem hosts_next (s : Reading) (i : Item) : (s.next i).hosts = s.hosts + i.isHost.toNat := by
  cases i with
  | host name =>
    rw [next, hosts, hosts]
    cases s.currentHost <;> simp [Item.isHost]
  | port number => rfl
  | other => rfl

theorem hosts_run (s : Reading) (items : List Item) :
    (items.foldl next s).hosts = s.hosts + items.countP Item.isHost := by
  induction items generalizing s with
  | nil => rfl
  | cons i rest ih =>
    rw [List.foldl_cons, ih, hosts_next, List.countP_cons]
    cases i.isHost
    · simp
    · simp
      omega

/-- What is written down stays. -/
theorem nodes_run (s : Reading) (items : List Item) : s.nodes <+: (items.foldl next s).finish := by
  induction items generalizing s with
  | nil =>
    rw [List.foldl_nil, finish]
    cases s.currentHost with
    | some host => exact List.prefix_append ..
    | none => exact List.prefix_rfl
  | cons i rest ih =>
    refine List.IsPrefix.trans ?_ (ih (s.next i))
    cases i with
    | host name =>
      rw [next]
      cases s.currentHost with
      | some host => exact List.prefix_append ..
      | none => exact List.prefix_rfl
    | port number => exact List.prefix_rfl
    | other => exact List.prefix_rfl

/-- Lines without a host change the port only. -/
theorem ports_run (closed : ∀ i ∈ items, i.isHost = false) :
    items.foldl next s = { s with currentPort := lastPort items s.currentPort } := by
  induction items generalizing s with
  | nil => rfl
  | cons i rest ih =>
    rw [List.foldl_cons, ih fun j member => closed j (List.mem_cons_of_mem i member)]
    cases i with
    | host name => cases closed (.host name) List.mem_cons_self
    | port number =>
      have last : lastPort (.port number :: rest) s.currentPort = lastPort rest number := by
        simp [lastPort, Item.port?, List.getLast?_cons]
      rw [last]
      rfl
    | other => rfl

theorem currentHost_run (s : Reading) (items : List Item) :
    (items.foldl next s).currentHost.isSome = (s.currentHost.isSome || items.any Item.isHost) := by
  induction items generalizing s with
  | nil => simp
  | cons i rest ih =>
    rw [List.foldl_cons, ih, List.any_cons, ← Bool.or_assoc]
    congr 1
    cases i with
    | host name =>
      rw [next]
      cases s.currentHost <;> rfl
    | port number => exact (Bool.or_false _).symm
    | other => exact (Bool.or_false _).symm

/-- The port of a host that is read behind some lines: ports before the first host count for it. -/
theorem port_host (before inside : List Item) (name : String) (closed : ∀ i ∈ inside, i.isHost = false) :
    let s := (before ++ .host name :: inside).foldl next ⟨[], none, defaultBootstrapPort⟩
    s.nodes.length = before.countP Item.isHost ∧ s.currentHost = some name ∧
      s.currentPort =
        lastPort (if before.any Item.isHost then inside else before ++ inside) defaultBootstrapPort := by
  have count := hosts_run ⟨[], none, defaultBootstrapPort⟩ before
  have current := currentHost_run ⟨[], none, defaultBootstrapPort⟩ before
  rw [List.foldl_append, List.foldl_cons, ports_run closed]
  by_cases first : before.any Item.isHost
  · rw [first, Option.isSome_none, Bool.false_or] at current
    obtain ⟨host, found⟩ := Option.isSome_iff_exists.mp current
    rw [hosts, found] at count
    rw [next, found, if_pos first]
    refine ⟨?_, rfl, rfl⟩
    simpa [hosts] using count
  · have none : ∀ i ∈ before, i.isHost = false := by simpa using first
    have zero : before.countP Item.isHost = 0 := List.countP_eq_zero.mpr fun i member => by
      simp [none i member]
    rw [ports_run none, if_neg first, zero]
    refine ⟨rfl, rfl, ?_⟩
    simp only [next, lastPort, List.filterMap_append]
    cases ports : (inside.filterMap Item.port?).getLast? with
    | none => simp [List.getLast?_append, ports]
    | some port => simp [List.getLast?_append, ports]

end Reading

/-- There is a node for each host line of the text, in their order. Its port is that of the last
port line before the next host line, and of the first node also that of one before all hosts. -/
theorem yaml_nodes (yaml : String) :
    (fromYamlSimple yaml).length = (yamlItems yaml).countP Item.isHost ∧
    ∀ before name inside after, yamlItems yaml = before ++ .host name :: (inside ++ after) →
      (∀ i ∈ inside, i.isHost = false) → (∀ i ∈ after.head?, i.isHost) →
      (fromYamlSimple yaml)[before.countP Item.isHost]? = some (.new name
        (lastPort (if before.any Item.isHost then inside else before ++ inside)
          defaultBootstrapPort)) := by
  rw [fromYamlSimple_eq]
  generalize yamlItems yaml = found
  constructor
  · rw [Reading.length_finish, Reading.hosts_run]
    exact Nat.zero_add _
  · rintro before name inside after rfl closed ends
    obtain ⟨length, host, port⟩ := Reading.port_host before inside name closed
    rw [← List.cons_append, ← List.append_assoc, List.foldl_append]
    generalize (before ++ .host name :: inside).foldl Reading.next _ = s at *
    rw [← port, ← length]
    cases after with
    | nil => simp [Reading.finish, host]
    | cons i rest =>
      cases i with
      | host next =>
        obtain ⟨more, kept⟩ := Reading.nodes_run (s.next (.host next)) rest
        rw [List.foldl_cons, ← kept, Reading.next, host]
        simp
      | port number => cases ends _ rfl
      | other => cases ends _ rfl

/-- The port before the first host is overruled by the one behind it. -/
theorem yaml_nodes_two :
    (fromYamlSimple "port: 1\n- host: \"a\"\n  port: 7\n- host: b")[0]? = some (.new "a" 7) :=
  (yaml_nodes "port: 1\n- host: \"a\"\n  port: 7\n- host: b").2 [.port 1] "a" [.port 7] [.host "b"]
    (by decide) (by decide) (by decide)

end LanLink.Bootstrap
