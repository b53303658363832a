import LanLink.Core.Maps
import LanLink.Core.Runs
import LanLink.Vpn.Relay

/-! The pool of TCP connections and the tasks that share it. Every call holds the mutex
of the pool from its first access to its last, so a run is a sequence of whole calls.
`TcpClient::send_message` is a get, a write on the stream and a return by one task.
What `peer_addr`, `connect`, `try_clone` and the clock answer is an input of each call. -/
namespace LanLink.Vpn
open Maps Runs

section
variable {α : Type}

/-- A loop that changes the first element it is looking for and then stops. -/
def setFirst (p : α → Bool) (f : α → α) (l : List α) : List α :=
  l.replaceF fun x => if p x then some (f x) else none

theorem setFirst_append {p : α → Bool} (before : ∀ y ∈ front, ¬ p y) (found : p x) (f : α → α)
    (rest : List α) : setFirst p f (front ++ x :: rest) = front ++ f x :: rest := by
  induction front with
  | nil => simp [setFirst, found]
  | cons y front ih =>
    have missed : ¬ p y := before y List.mem_cons_self
    have tail := ih fun z member => before z (List.mem_cons_of_mem y member)
    rw [setFirst] at tail ⊢
    rw [List.cons_append, List.replaceF_cons_of_none _ (by simp [missed]), tail, List.cons_append]

theorem setFirst_of_find? {p : α → Bool} {l : List α} (found : l.find? p = some x) (f : α → α) :
    p x ∧ ∃ front rest, l = front ++ x :: rest ∧ setFirst p f l = front ++ f x :: rest := by
  obtain ⟨here, front, rest, rfl, before⟩ := List.find?_eq_some_iff_append.mp found
  have missed : ∀ y ∈ front, ¬ p y := by
    intro y member
    simpa using before y member
  exact ⟨here, front, rest, rfl, setFirst_append missed here f rest⟩

end

/-- A socket of the operating system; handles cloned from one another are one socket. -/
structure Socket where
  fd : Nat
  deriving DecidableEq, Repr

structure PooledConnection where
  stream : Socket
  lastUsed : Nat
  inUse : Bool
  deriving DecidableEq

def PooledConnection.isIdle (conn : PooledConnection) (now maxIdle : Nat) : Bool :=
  !conn.inUse && decide (maxIdle < now - conn.lastUsed)

def PooledConnection.use (now : Nat) (conn : PooledConnection) : PooledConnection :=
  { conn with inUse := true, lastUsed := now }

def PooledConnection.release (now : Nat) (conn : PooledConnection) : PooledConnection :=
  { conn with inUse := false, lastUsed := now }

@[simp] theorem PooledConnection.use_stream (now : Nat) (conn : PooledConnection) :
    (conn.use now).stream = conn.stream := rfl

@[simp] theorem PooledConnection.release_stream (now : Nat) (conn : PooledConnection) :
    (conn.release now).stream = conn.stream := rfl

structure ConnectionPool where
  connections : Map String (List PooledConnection)
  maxSize : Nat
  maxIdle : Nat
  activeCount : UInt64

/-- What the system answers during a call: the streams with a peer, the time, and the
error of a clone, or of what it takes to open a connection. -/
structure Sockets where
  peerAddrOk : Socket → Bool
  now : Nat
  fault : Option ErrorKind

namespace ConnectionPool

def new (maxSize : Nat) : ConnectionPool := ⟨∅, maxSize, 60 * 1000000000, 0⟩

/-- The connections of an address; an address that was never asked for has none. -/
def pool (p : ConnectionPool) (addr : String) : List PooledConnection :=
  (p.connections.lookup addr).getD []

def setPool (p : ConnectionPool) (addr : String) (conns : List PooledConnection) :
    ConnectionPool := { p with connections := p.connections.insert addr conns }

def free (sys : Sockets) (conn : PooledConnection) : Bool :=
  !conn.inUse && sys.peerAddrOk conn.stream

def taken (sys : Sockets) (conn : PooledConnection) : Bool :=
  conn.inUse && sys.peerAddrOk conn.stream

/-- A connection whose clone fails stays marked; nobody gets it. -/
def getConnection (p : ConnectionPool) (addr : String) (sys : Sockets) (opened : Socket) :
    Except RelayError Socket × ConnectionPool :=
  match (p.pool addr).find? (free sys) with
  | some conn =>
    let marked := setFirst (free sys) (.use sys.now) (p.pool addr)
    (match sys.fault with
      | some kind => .error (.ioError kind)
      | none => .ok conn.stream,
      { p.setPool addr marked with activeCount := p.activeCount + 1 })
  | none =>
    if (p.pool addr).length < p.maxSize then
      match sys.fault with
      | some kind => (.error (.ioError kind), p.setPool addr (p.pool addr))
      | none => (.ok opened,
        { p.setPool addr (p.pool addr ++ [⟨opened, sys.now, true⟩]) with
          activeCount := p.activeCount + 1 })
    else (.error .poolFull, p.setPool addr (p.pool addr))

/-- The first connection in use is freed; the stream that comes back is only dropped. -/
def returnConnection (p : ConnectionPool) (addr : String) (sys : Sockets) : ConnectionPool :=
  match (p.pool addr).find? (taken sys) with
  | some _ =>
    let freed := setFirst (taken sys) (.release sys.now) (p.pool addr)
    { p.setPool addr freed with activeCount := p.activeCount - 1 }
  | none => { p with activeCount := p.activeCount - 1 }

/-- The clock is read anew for every connection. -/
def cleanupIdle (p : ConnectionPool) (now : Socket → Nat) : ConnectionPool :=
  let retain := List.filter fun conn => !conn.isIdle (now conn.stream) p.maxIdle
  { p with connections := mapValues retain p.connections }

def clear (p : ConnectionPool) : ConnectionPool := { p with connections := ∅, activeCount := 0 }

def streams (p : ConnectionPool) (addr : String) : List Socket :=
  (p.pool addr).map PooledConnection.stream

variable {p : ConnectionPool} {addr a : String} {sys : Sockets}

theorem pool_setPool (p : ConnectionPool) (addr a : String) (conns : List PooledConnection) :
    (p.setPool addr conns).pool a = if a = addr then conns else p.pool a := by
  rw [pool, setPool]
  split
  case isTrue same => rw [same, AList.lookup_insert, Option.getD_some]
  case isFalse other => rw [AList.lookup_insert_ne other, pool]

@[simp] theorem pool_setPool_self (p : ConnectionPool) (addr a : String) :
    (p.setPool addr (p.pool addr)).pool a = p.pool a := by
  rw [pool_setPool]
  split
  case isTrue same => rw [same]
  case isFalse => rfl

theorem pool_cleanupIdle (p : ConnectionPool) (now : Socket → Nat) (a : String) :
    (p.cleanupIdle now).pool a =
      (p.pool a).filter fun conn => !conn.isIdle (now conn.stream) p.maxIdle := by
  rw [pool, cleanupIdle, lookup_mapValues, pool]
  cases p.connections.lookup a with
  | none => rfl
  | some conns => rfl

/-- A call hands out a free connection, opens one, or fails and leaves the pool alone. -/
theorem getConnection_cases (p : ConnectionPool) (addr : String) (sys : Sockets)
    (opened : Socket) :
    (∃ conn, (p.pool addr).find? (free sys) = some conn ∧
      ((p.getConnection addr sys opened).1 = .ok conn.stream ∨
        ∃ e, (p.getConnection addr sys opened).1 = .error e) ∧
      ∀ a, (p.getConnection addr sys opened).2.pool a =
        if a = addr then setFirst (free sys) (.use sys.now) (p.pool addr) else p.pool a) ∨
    ((p.getConnection addr sys opened).1 = .ok opened ∧
      ∀ a, (p.getConnection addr sys opened).2.pool a =
        if a = addr then p.pool addr ++ [⟨opened, sys.now, true⟩] else p.pool a) ∨
    ((∃ e, (p.getConnection addr sys opened).1 = .error e) ∧
      ∀ a, (p.getConnection addr sys opened).2.pool a = p.pool a) := by
  rw [getConnection]
  split
  case h_1 conn found =>
    refine .inl ⟨conn, found, ?_, (pool_setPool p addr · _)⟩
    cases sys.fault with
    | none => exact .inl rfl
    | some kind => exact .inr ⟨_, rfl⟩
  case h_2 =>
    right
    split
    · cases sys.fault with
      | none => exact .inl ⟨rfl, (pool_setPool p addr · _)⟩
      | some kind => exact .inr ⟨⟨_, rfl⟩, pool_setPool_self p addr⟩
    · exact .inr ⟨⟨_, rfl⟩, pool_setPool_self p addr⟩

theorem returnConnection_cases (p : ConnectionPool) (addr : String) (sys : Sockets) :
    (∃ conn, (p.pool addr).find? (taken sys) = some conn ∧
      ∀ a, (p.returnConnection addr sys).pool a =
        if a = addr then setFirst (taken sys) (.release sys.now) (p.pool addr) else p.pool a) ∨
    ((p.pool addr).find? (taken sys) = none ∧
      ∀ a, (p.returnConnection addr sys).pool a = p.pool a) := by
  rw [returnConnection]
  split
  case h_1 conn found =>
    exact .inl ⟨conn, found, (pool_setPool p addr · _)⟩
  case h_2 missing => exact .inr ⟨missing, fun _ => rfl⟩

end ConnectionPool

section
variable {conns : List PooledConnection} {p : PooledConnection → Bool}
  {f : PooledConnection → PooledConnection}

theorem streams_setFirst (found : conns.find? p = some conn)
    (keeps : ∀ c, (f c).stream = c.stream) :
    (setFirst p f conns).map PooledConnection.stream = conns.map PooledConnection.stream := by
  obtain ⟨-, front, rest, rfl, set⟩ := setFirst_of_find? found f
  rw [set]
  simp [keeps]

/-- Where streams are told apart, only the connection that was found is another one. -/
theorem mem_setFirst (distinct : (conns.map PooledConnection.stream).Nodup)
    (found : conns.find? p = some conn) (f : PooledConnection → PooledConnection)
    (c : PooledConnection) :
    c ∈ setFirst p f conns ↔ c = f conn ∨ c ∈ conns ∧ c.stream ≠ conn.stream := by
  obtain ⟨-, front, rest, rfl, set⟩ := setFirst_of_find? found f
  rw [List.map_append, List.map_cons, List.nodup_middle, List.nodup_cons] at distinct
  have other : ∀ d ∈ front ++ rest, d.stream ≠ conn.stream := by
    intro d member same
    apply distinct.1
    rw [← List.map_append, ← same]
    exact List.mem_map_of_mem member
  rw [set]
  constructor
  · intro member
    rcases List.mem_append.mp member with before | after
    · exact .inr ⟨List.mem_append_left _ before, other c (List.mem_append_left _ before)⟩
    · rcases List.mem_cons.mp after with rfl | after
      · exact .inl rfl
      · exact .inr ⟨by simp [after], other c (List.mem_append_right _ after)⟩
  · rintro (rfl | ⟨member, different⟩)
    · simp
    · rcases List.mem_append.mp member with before | after
      · exact List.mem_append_left _ before
      · rcases List.mem_cons.mp after with rfl | after
        · exact absurd rfl different
        · simp [after]

end

/-- A stream that a task got and has not returned. -/
structure Holding where
  task : Nat
  stream : Socket
  deriving DecidableEq

/-- The pool, the streams that tasks hold, and the number of the next socket. -/
structure Shared where
  pool : ConnectionPool
  held : List Holding
  opened : Nat

inductive PoolCall where
  | getConnection (task : Nat) (addr : String) (sys : Sockets)
  | returnConnection (task : Nat) (addr : String) (stream : Socket) (sys : Sockets)
  | cleanupIdle (now : Socket → Nat)
  | clear

namespace Shared

def start (maxSize : Nat) : Shared := ⟨.new maxSize, [], 0⟩

def streams (w : Shared) : List Socket := w.held.map Holding.stream

/-- A task returns only what it holds, under any address. -/
def step (w : Shared) : PoolCall → Option Shared
  | .getConnection task addr sys =>
    match w.pool.getConnection addr sys ⟨w.opened⟩ with
    | (.ok stream, pool) => some ⟨pool, ⟨task, stream⟩ :: w.held, w.opened + 1⟩
    | (.error _, pool) => some ⟨pool, w.held, w.opened + 1⟩
  | .returnConnection task addr stream sys =>
    if ⟨task, stream⟩ ∈ w.held then
      some { w with
        pool := w.pool.returnConnection addr sys, held := w.held.erase ⟨task, stream⟩ }
    else none
  | .cleanupIdle now => some { w with pool := w.pool.cleanupIdle now }
  | .clear => some { w with pool := w.pool.clear }

/-- No stream is held twice, and a pooled one that is held is marked in use. -/
structure Exclusive (w : Shared) : Prop where
  single : w.streams.Nodup
  marked : ∀ addr, ∀ conn ∈ w.pool.pool addr, conn.stream ∈ w.streams → conn.inUse = true

/-- The connection that a return frees is the returned one, or nobody holds it. -/
def ReturnsOwn (w : Shared) : PoolCall → Prop
  | .returnConnection _ addr stream sys =>
    ∀ conn ∈ (w.pool.pool addr).find? (ConnectionPool.taken sys),
      conn.stream = stream ∨ conn.stream ∉ w.streams
  | .getConnection _ _ _ | .cleanupIdle _ | .clear => True

instance (w : Shared) (call : PoolCall) : Decidable (ReturnsOwn w call) :=
  match call with
  | .returnConnection _ addr _ sys =>
    Option.decidableForallMem ((w.pool.pool addr).find? (ConnectionPool.taken sys))
  | .getConnection _ _ _ | .cleanupIdle _ | .clear => isTrue trivial

/-- A socket is pooled once, and the next one is new. -/
structure Sound (w : Shared) : Prop where
  distinct : ∀ addr, (w.pool.streams addr).Nodup
  apart : ∀ {addr other stream}, stream ∈ w.pool.streams addr →
    stream ∈ w.pool.streams other → addr = other
  pooled : ∀ {addr stream}, stream ∈ w.pool.streams addr → stream.fd < w.opened
  handed : ∀ {stream}, stream ∈ w.streams → stream.fd < w.opened

variable {w next : Shared}

/-- The connections of one address become the given ones, all others stay. -/
def Replaces (w next : Shared) (addr : String) (conns : List PooledConnection) : Prop :=
  ∀ a, next.pool.pool a = if a = addr then conns else w.pool.pool a

/-- What a call does to the connections of each address and to the streams held. -/
inductive Effect (w next : Shared) : PoolCall → Prop
  | reused (found : (w.pool.pool addr).find? (ConnectionPool.free sys) = some conn)
      (pool : Replaces w next addr
        (setFirst (ConnectionPool.free sys) (.use sys.now) (w.pool.pool addr)))
      (held : next.streams = conn.stream :: w.streams ∨ next.streams = w.streams)
      (opened : next.opened = w.opened + 1) : Effect w next (.getConnection task addr sys)
  | connected (pool : Replaces w next addr (w.pool.pool addr ++ [⟨⟨w.opened⟩, sys.now, true⟩]))
      (held : next.streams = ⟨w.opened⟩ :: w.streams)
      (opened : next.opened = w.opened + 1) : Effect w next (.getConnection task addr sys)
  | refused (pool : ∀ a, next.pool.pool a = w.pool.pool a) (held : next.streams = w.streams)
      (opened : next.opened = w.opened + 1) : Effect w next (.getConnection task addr sys)
  | released (found : (w.pool.pool addr).find? (ConnectionPool.taken sys) = some conn)
      (pool : Replaces w next addr
        (setFirst (ConnectionPool.taken sys) (.release sys.now) (w.pool.pool addr)))
      (member : ⟨task, stream⟩ ∈ w.held) (held : next.held = w.held.erase ⟨task, stream⟩)
      (opened : next.opened = w.opened) : Effect w next (.returnConnection task addr stream sys)
  | dropped (missing : (w.pool.pool addr).find? (ConnectionPool.taken sys) = none)
      (pool : ∀ a, next.pool.pool a = w.pool.pool a)
      (held : next.held = w.held.erase ⟨task, stream⟩)
      (opened : next.opened = w.opened) : Effect w next (.returnConnection task addr stream sys)
  | swept (pool : ∀ a, (next.pool.pool a).Sublist (w.pool.pool a)) (held : next.held = w.held)
      (opened : next.opened = w.opened) : Effect w next (.cleanupIdle now)
  | cleared (pool : ∀ a, (next.pool.pool a).Sublist (w.pool.pool a)) (held : next.held = w.held)
      (opened : next.opened = w.opened) : Effect w next .clear

theorem effect_of_get (stepped : step w (.getConnection task addr sys) = some next) :
    Effect w next (.getConnection task addr sys) := by
  simp only [step] at stepped
  rcases got : w.pool.getConnection addr sys ⟨w.opened⟩ with ⟨result, pool⟩
  have outcomes := ConnectionPool.getConnection_cases w.pool addr sys ⟨w.opened⟩
  rw [got] at stepped outcomes
  rcases outcomes with ⟨conn, found, rfl | ⟨e, rfl⟩, changed⟩ | ⟨rfl, changed⟩ | ⟨⟨e, rfl⟩, same⟩
  all_goals cases Option.some.inj stepped
  · exact .reused found changed (.inl rfl) rfl
  · exact .reused found changed (.inr rfl) rfl
  · exact .connected changed rfl rfl
  · exact .refused same rfl rfl

theorem effect_of_return
    (stepped : step w (.returnConnection task addr stream sys) = some next) :
    Effect w next (.returnConnection task addr stream sys) := by
  rw [step] at stepped
  split at stepped
  case isFalse => cases stepped
  case isTrue member =>
    cases Option.some.inj stepped
    rcases ConnectionPool.returnConnection_cases w.pool addr sys with
      ⟨conn, found, changed⟩ | ⟨missing, same⟩
    · exact .released found changed member rfl rfl
    · exact .dropped missing same rfl rfl

theorem effect_of_step (stepped : step w call = some next) : Effect w next call := by
  cases call with
  | getConnection task addr sys => exact effect_of_get stepped
  | returnConnection task addr stream sys => exact effect_of_return stepped
  | cleanupIdle now =>
    cases Option.some.inj stepped
    refine .swept (fun a => ?_) rfl rfl
    rw [ConnectionPool.pool_cleanupIdle]
    exact List.filter_sublist
  | clear =>
    cases Option.some.inj stepped
    exact .cleared (fun a => List.nil_sublist _) rfl rfl

theorem Sound.of_sublist (sound : Sound w)
    (fewer : ∀ addr, (next.pool.streams addr).Sublist (w.pool.streams addr))
    (later : w.opened ≤ next.opened)
    (handed : ∀ {stream}, stream ∈ next.streams → stream.fd < next.opened) : Sound next where
  distinct addr := (sound.distinct addr).sublist (fewer addr)
  apart here there := sound.apart ((fewer _).subset here) ((fewer _).subset there)
  pooled member := (sound.pooled ((fewer _).subset member)).trans_le later
  handed := handed

/-- The streams of a pool in which one address has got one more connection. -/
theorem streams_connect
    (pool : Replaces w next addr (w.pool.pool addr ++ [⟨stream, now, true⟩])) (a : String) :
    next.pool.streams a = w.pool.streams a ++ if a = addr then [stream] else [] := by
  rw [ConnectionPool.streams, pool a]
  split
  case isTrue same => rw [same, List.map_append, ConnectionPool.streams, List.map_singleton]
  case isFalse => rw [List.append_nil, ConnectionPool.streams]

theorem mem_streams_connect
    (pool : Replaces w next addr (w.pool.pool addr ++ [⟨stream, now, true⟩])) (a : String)
    (s : Socket) :
    s ∈ next.pool.streams a ↔ s ∈ w.pool.streams a ∨ a = addr ∧ s = stream := by
  rw [streams_connect pool, List.mem_append]
  split
  case isTrue same => simp [same]
  case isFalse other => simp [other]

theorem Sound.connect (sound : Sound w)
    (pool : Replaces w next addr (w.pool.pool addr ++ [⟨⟨w.opened⟩, now, true⟩]))
    (held : next.streams = ⟨w.opened⟩ :: w.streams) (opened : next.opened = w.opened + 1) :
    Sound next := by
  have unknown (a : String) : ⟨w.opened⟩ ∉ w.pool.streams a := by
    intro member
    exact Nat.lt_irrefl _ (sound.pooled member)
  have mem := mem_streams_connect pool
  constructor
  · intro a
    rw [streams_connect pool]
    split
    case isTrue same =>
      rw [List.nodup_append_comm]
      exact List.nodup_cons.mpr ⟨unknown a, sound.distinct a⟩
    case isFalse =>
      rw [List.append_nil]
      exact sound.distinct a
  · intro a b stream here there
    rcases (mem a stream).mp here with here | ⟨rfl, rfl⟩
    · rcases (mem b stream).mp there with there | ⟨rfl, rfl⟩
      · exact sound.apart here there
      · exact absurd here (unknown a)
    · rcases (mem b _).mp there with there | ⟨rfl, -⟩
      · exact absurd there (unknown b)
      · rfl
  · intro a stream member
    rw [opened]
    rcases (mem a stream).mp member with old | ⟨-, rfl⟩
    · exact Nat.lt_succ_of_lt (sound.pooled old)
    · exact Nat.lt_succ_self _
  · intro stream member
    rw [opened]
    rw [held] at member
    rcases List.mem_cons.mp member with rfl | old
    · exact Nat.lt_succ_self _
    · exact Nat.lt_succ_of_lt (sound.handed old)

theorem streams_set {p : PooledConnection → Bool} {f : PooledConnection → PooledConnection}
    (found : (w.pool.pool addr).find? p = some conn) (keeps : ∀ c, (f c).stream = c.stream)
    (pool : Replaces w next addr (setFirst p f (w.pool.pool addr))) (a : String) :
    next.pool.streams a = w.pool.streams a := by
  rw [ConnectionPool.streams, pool a, ConnectionPool.streams]
  split
  case isTrue same => rw [same, streams_setFirst found keeps]
  case isFalse => rfl

theorem streams_erase_subset (held : next.held = w.held.erase h) (member : stream ∈ next.streams) :
    stream ∈ w.streams := by
  rw [streams, held] at member
  exact List.map_subset _ List.erase_subset member

theorem step_sound (sound : Sound w) (stepped : step w call = some next) : Sound next := by
  have fewer (same : ∀ a, next.pool.streams a = w.pool.streams a) (a : String) :
      (next.pool.streams a).Sublist (w.pool.streams a) := by
    rw [same]
  have unchanged (same : ∀ a, next.pool.pool a = w.pool.pool a) (a : String) :
      next.pool.streams a = w.pool.streams a := by
    rw [ConnectionPool.streams, same, ConnectionPool.streams]
  cases effect_of_step stepped with
  | reused found pool held opened =>
    apply sound.of_sublist (fewer (streams_set found (PooledConnection.use_stream _) pool)) (by omega)
    intro stream member
    rw [opened]
    apply Nat.lt_succ_of_lt
    rcases held with held | held
    · rw [held] at member
      rcases List.mem_cons.mp member with rfl | old
      · exact sound.pooled (List.mem_map_of_mem (List.mem_of_find?_eq_some found))
      · exact sound.handed old
    · exact sound.handed (held ▸ member)
  | connected pool held opened => exact sound.connect pool held opened
  | refused pool held opened =>
    apply sound.of_sublist (fewer (unchanged pool)) (by omega)
    intro stream member
    exact opened ▸ Nat.lt_succ_of_lt (sound.handed (held ▸ member))
  | released found pool member held opened =>
    apply sound.of_sublist (fewer (streams_set found (PooledConnection.release_stream _) pool)) (by omega)
    intro stream member
    exact opened ▸ sound.handed (streams_erase_subset held member)
  | dropped missing pool held opened =>
    apply sound.of_sublist (fewer (unchanged pool)) (by omega)
    intro stream member
    exact opened ▸ sound.handed (streams_erase_subset held member)
  | swept pool held opened | cleared pool held opened =>
    apply sound.of_sublist (fun a => (pool a).map _) (by omega)
    intro stream member
    rw [streams, held] at member
    exact opened ▸ sound.handed member

/-- What is handed out was free, so nobody held it. -/
theorem Exclusive.reuse (sound : Sound w) (exclusive : Exclusive w)
    (found : (w.pool.pool addr).find? (ConnectionPool.free sys) = some conn)
    (pool : Replaces w next addr
        (setFirst (ConnectionPool.free sys) (.use sys.now) (w.pool.pool addr)))
    (held : next.streams = conn.stream :: w.streams ∨ next.streams = w.streams) :
    Exclusive next := by
  have member : conn ∈ w.pool.pool addr := List.mem_of_find?_eq_some found
  have unheld : conn.stream ∉ w.streams := by
    intro holds
    have idle := List.find?_some found
    simp [ConnectionPool.free, exclusive.marked addr conn member holds] at idle
  have known : ∀ {stream}, stream ∈ next.streams → stream ≠ conn.stream → stream ∈ w.streams := by
    intro stream holds other
    rcases held with held | held
    · rw [held] at holds
      exact (List.mem_cons.mp holds).resolve_left other
    · exact held ▸ holds
  constructor
  · rcases held with held | held
    · rw [held]
      exact List.nodup_cons.mpr ⟨unheld, exclusive.single⟩
    · rw [held]
      exact exclusive.single
  · intro a c pooled holds
    rw [pool a] at pooled
    split at pooled
    case isTrue same =>
      rcases (mem_setFirst (sound.distinct addr) found _ c).mp pooled with rfl | ⟨old, other⟩
      · rfl
      · exact exclusive.marked addr c old (known holds other)
    case isFalse away =>
      refine exclusive.marked a c pooled (known holds ?_)
      intro same
      apply away
      apply sound.apart (List.mem_map_of_mem pooled)
      rw [same]
      exact List.mem_map_of_mem member

theorem Exclusive.connect (sound : Sound w) (exclusive : Exclusive w)
    (pool : Replaces w next addr (w.pool.pool addr ++ [⟨⟨w.opened⟩, now, true⟩]))
    (held : next.streams = ⟨w.opened⟩ :: w.streams) : Exclusive next := by
  have old : ∀ a, ∀ c ∈ w.pool.pool a, c.stream ∈ next.streams → c.inUse = true := by
    intro a c pooled holds
    rw [held] at holds
    rcases List.mem_cons.mp holds with same | holds
    · have before := sound.pooled (List.mem_map_of_mem pooled)
      rw [same] at before
      exact absurd before (Nat.lt_irrefl _)
    · exact exclusive.marked a c pooled holds
  constructor
  · rw [held]
    exact List.nodup_cons.mpr ⟨fun holds => Nat.lt_irrefl _ (sound.handed holds), exclusive.single⟩
  · intro a c pooled holds
    rw [pool a] at pooled
    split at pooled
    case isTrue same =>
      rcases List.mem_append.mp pooled with before | new
      · exact old addr c before holds
      · rw [List.mem_singleton.mp new]
    case isFalse => exact old a c pooled holds

theorem Exclusive.fewer (exclusive : Exclusive w)
    (pool : ∀ a, ∀ c ∈ next.pool.pool a, c ∈ w.pool.pool a)
    (held : next.streams.Sublist w.streams) : Exclusive next where
  single := exclusive.single.sublist held
  marked a c pooled holds := exclusive.marked a c (pool a c pooled) (held.subset holds)

/-- After a return, what is held is what was held without the returned stream. -/
theorem mem_streams_erase (single : w.streams.Nodup) (member : ⟨task, stream⟩ ∈ w.held)
    (held : next.held = w.held.erase ⟨task, stream⟩) (other : Socket) :
    other ∈ next.streams ↔ other ≠ stream ∧ other ∈ w.streams := by
  have split := List.perm_cons_erase member
  rw [← held] at split
  have streams : w.streams.Perm (stream :: next.streams) := split.map Holding.stream
  have absent := (List.nodup_cons.mp (streams.nodup_iff.mp single)).1
  rw [streams.mem_iff, List.mem_cons]
  constructor
  · intro holds
    refine ⟨?_, .inr holds⟩
    rintro rfl
    exact absent holds
  · rintro ⟨different, same | holds⟩
    · exact absurd same different
    · exact holds

theorem exclusive_released_iff (sound : Sound w) (exclusive : Exclusive w)
    (found : (w.pool.pool addr).find? (ConnectionPool.taken sys) = some conn)
    (pool : Replaces w next addr
        (setFirst (ConnectionPool.taken sys) (.release sys.now) (w.pool.pool addr)))
    (member : ⟨task, stream⟩ ∈ w.held) (held : next.held = w.held.erase ⟨task, stream⟩) :
    Exclusive next ↔ conn.stream = stream ∨ conn.stream ∉ w.streams := by
  have pooled := mem_setFirst (sound.distinct addr) found (.release sys.now)
  have holds := mem_streams_erase exclusive.single member held
  constructor
  · intro after
    by_contra another
    rw [not_or, not_not] at another
    have freed : conn.release sys.now ∈ next.pool.pool addr := by
      rw [pool addr, if_pos rfl]
      exact (pooled _).mpr (.inl rfl)
    have marked := after.marked addr _ freed ((holds _).mpr another)
    cases marked
  · intro own
    have fewer : next.streams.Sublist w.streams := by
      rw [streams, held]
      exact List.erase_sublist.map _
    refine ⟨exclusive.single.sublist fewer, ?_⟩
    intro a c there holding
    rw [pool a] at there
    split at there
    case isTrue same =>
      rcases (pooled c).mp there with rfl | ⟨old, -⟩
      · obtain ⟨different, still⟩ := (holds _).mp holding
        exact absurd still (own.resolve_left different)
      · exact exclusive.marked addr c old (fewer.subset holding)
    case isFalse => exact exclusive.marked a c there (fewer.subset holding)

theorem step_exclusive_iff (sound : Sound w) (exclusive : Exclusive w)
    (stepped : step w call = some next) : Exclusive next ↔ ReturnsOwn w call := by
  cases effect_of_step stepped with
  | reused found pool held opened =>
    exact iff_of_true (exclusive.reuse sound found pool held) trivial
  | connected pool held opened => exact iff_of_true (exclusive.connect sound pool held) trivial
  | refused pool held opened =>
    refine iff_of_true (exclusive.fewer ?_ (held ▸ List.Sublist.refl _)) trivial
    intro a c member
    exact pool a ▸ member
  | released found pool member held opened =>
    rw [exclusive_released_iff sound exclusive found pool member held]
    simp [ReturnsOwn, found]
  | dropped missing pool held opened =>
    refine iff_of_true (exclusive.fewer (fun a c member => pool a ▸ member) ?_) ?_
    · rw [streams, held]
      exact List.erase_sublist.map _
    · simp [ReturnsOwn, missing]
  | swept pool held opened | cleared pool held opened =>
    refine iff_of_true (exclusive.fewer (fun a c member => (pool a).subset member) ?_) trivial
    rw [streams, held, streams]

theorem start_sound (maxSize : Nat) : Sound (start maxSize) where
  distinct _ := List.nodup_nil
  apart member _ := by cases member
  pooled member := by cases member
  handed member := by cases member

theorem start_exclusive (maxSize : Nat) : Exclusive (start maxSize) where
  single := List.nodup_nil
  marked _ _ member := by cases member

/-- In a run of calls by any tasks, connections stay exclusive exactly as long as every
return frees the connection it is for, or one that nobody holds. -/
theorem exclusive_iff_returnsOwn (run : exec step (start maxSize) calls = some w) :
    Always step Exclusive (start maxSize) calls ↔ Meets step ReturnsOwn (start maxSize) calls :=
  always_iff step_sound step_exclusive_iff run (start_sound maxSize) (start_exclusive maxSize)

/-- Every socket has a peer and no call of the system fails. -/
def healthy : Sockets := ⟨fun _ => true, 0, none⟩

/-- Two tasks return in the order in which they got their streams. -/
def orderly : List PoolCall := [
  .getConnection 1 "10.0.0.2:7000" healthy,
  .getConnection 2 "10.0.0.2:7000" healthy,
  .returnConnection 1 "10.0.0.2:7000" ⟨0⟩ healthy,
  .returnConnection 2 "10.0.0.2:7000" ⟨1⟩ healthy,
  .getConnection 3 "10.0.0.2:7000" healthy]

theorem exclusive_iff_returnsOwn_orderly :
    (exec step (start 10) orderly).map Shared.held = some [⟨3, ⟨0⟩⟩] ∧
      Always step Exclusive (start 10) orderly :=
  ⟨by decide, (exclusive_iff_returnsOwn rfl).mpr (by decide)⟩

/-- The task that came second returns first: it frees the stream of the other one, and a
third task gets that stream while it is still written to. -/
theorem stream_shared : ∃ w,
    exec step (start 10) [
      .getConnection 1 "10.0.0.2:7000" healthy,
      .getConnection 2 "10.0.0.2:7000" healthy,
      .returnConnection 2 "10.0.0.2:7000" ⟨1⟩ healthy,
      .getConnection 3 "10.0.0.2:7000" healthy] = some w ∧
    ⟨0⟩ ∈ w.pool.streams "10.0.0.2:7000" ∧ ⟨1, ⟨0⟩⟩ ∈ w.held ∧ ⟨3, ⟨0⟩⟩ ∈ w.held ∧
    ¬ Exclusive w := by
  refine ⟨_, rfl, by decide, by decide, by decide, ?_⟩
  intro exclusive
  exact absurd exclusive.single (by decide)

end Shared
end LanLink.Vpn
