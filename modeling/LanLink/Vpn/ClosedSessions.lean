import LanLink.Core.Maps
import LanLink.Vpn.Session

/-! The session manager and the sessions its callers hold. Every call of the manager
takes its lock for the whole of its work, so that a run is any order of whole calls;
`Session` values are handed out as copies on which the callers work by themselves. -/
namespace LanLink.Vpn
open Words Maps Runs
open LanLink.Center (nodeIdToHex)

structure SessionManager where
  sessions : Map NodeID Session
  localId : NodeID
  defaultTimeout : Nat

namespace SessionManager

def new (localId : NodeID) : SessionManager :=
  ⟨∅, localId, defaultSessionTimeoutSecs * 1000000000⟩

def withTimeout (localId : NodeID) (timeout : Nat) : SessionManager := ⟨∅, localId, timeout⟩

def put (m : SessionManager) (remoteId : NodeID) (session : Session) : SessionManager :=
  { m with sessions := m.sessions.insert remoteId session }

/-- An expired session is replaced by a new one. -/
def getOrCreate (m : SessionManager) (remoteId : NodeID) (now : Nat) : Session × SessionManager :=
  let session := Session.withTimeout m.localId remoteId m.defaultTimeout now
  match m.sessions.lookup remoteId with
  | some found => if found.isExpired now then (session, m.put remoteId session) else (found, m)
  | none => (session, m.put remoteId session)

def get (m : SessionManager) (remoteId : NodeID) : Option Session := m.sessions.lookup remoteId

def updateState (m : SessionManager) (remoteId : NodeID) (newState : SessionState) (now : Nat) :
    Except SessionError Unit × SessionManager :=
  match m.sessions.lookup remoteId with
  | some session =>
    let (answer, session) := session.transition newState now
    (answer, m.put remoteId session)
  | none => (.error (.notFound (nodeIdToHex remoteId)), m)

def setKeys (m : SessionManager) (remoteId : NodeID) (sendKey recvKey : Bytes) (now : Nat) :
    Except SessionError Unit × SessionManager :=
  match m.sessions.lookup remoteId with
  | some session => (.ok (), m.put remoteId (session.setKeys sendKey recvKey now))
  | none => (.error (.notFound (nodeIdToHex remoteId)), m)

def touch (m : SessionManager) (remoteId : NodeID) (now : Nat) :
    Except SessionError Unit × SessionManager :=
  match m.sessions.lookup remoteId with
  | some session => (.ok (), m.put remoteId (session.touch now))
  | none => (.error (.notFound (nodeIdToHex remoteId)), m)

/-- The caller gets the session as it is. -/
def remove (m : SessionManager) (remoteId : NodeID) : Option Session × SessionManager :=
  (m.sessions.lookup remoteId, { m with sessions := m.sessions.erase remoteId })

/-- The session that is taken out is closed; the caller does not get it. -/
def secureRemove (m : SessionManager) (remoteId : NodeID) : Option Session × SessionManager :=
  let (session, m) := m.remove remoteId
  (session.map Session.secureClose, m)

def cleanupExpired (m : SessionManager) (now : Nat) : List NodeID × SessionManager :=
  let expired := ((pairs m.sessions).filter fun entry => entry.2.isExpired now).map Prod.fst
  (expired, expired.foldl (fun m id => (m.secureRemove id).2) m)

end SessionManager

/-- The calls of a `Session` that change it. -/
inductive SessionCall where
  | transition (newState : SessionState)
  | setKeys (sendKey recvKey : Bytes)
  | secureClose
  | touch
  | nextSendCounter
  | verifyRecvCounter (counter : UInt64)

def SessionCall.run (checks : Bool) (s : Session) (now : Nat) : SessionCall → Option Session
  | transition newState => some (s.transition newState now).2
  | setKeys sendKey recvKey => some (s.setKeys sendKey recvKey now)
  | secureClose => some s.secureClose
  | touch => some (s.touch now)
  | nextSendCounter => (s.nextSendCounter checks now).map Prod.snd
  | verifyRecvCounter counter => (s.verifyRecvCounter checks counter now).map Prod.snd

inductive SessionOp where
  | create (localId remoteId : NodeID) (now : Nat)
  | call (held : Nat) (call : SessionCall) (now : Nat)
  | getOrCreate (remoteId : NodeID) (now : Nat)
  | get (remoteId : NodeID)
  | updateState (remoteId : NodeID) (newState : SessionState) (now : Nat)
  | setKeys (remoteId : NodeID) (sendKey recvKey : Bytes) (now : Nat)
  | touch (remoteId : NodeID) (now : Nat)
  | remove (remoteId : NodeID)
  | secureRemove (remoteId : NodeID)
  | cleanupExpired (now : Nat)

/-- The manager and the sessions that its callers made or were given. -/
structure Sessions where
  manager : SessionManager
  held : List Session

namespace Sessions

def step (checks : Bool) (s : Sessions) : SessionOp → Option Sessions
  | .create localId remoteId now =>
    some { s with held := s.held ++ [Session.new localId remoteId now] }
  | .call i call now => do
    let session ← s.held[i]?
    let session ← call.run checks session now
    return { s with held := s.held.set i session }
  | .getOrCreate remoteId now =>
    let (session, manager) := s.manager.getOrCreate remoteId now
    some ⟨manager, s.held ++ [session]⟩
  | .get remoteId => some { s with held := s.held ++ (s.manager.get remoteId).toList }
  | .updateState remoteId newState now =>
    some { s with manager := (s.manager.updateState remoteId newState now).2 }
  | .setKeys remoteId sendKey recvKey now =>
    some { s with manager := (s.manager.setKeys remoteId sendKey recvKey now).2 }
  | .touch remoteId now => some { s with manager := (s.manager.touch remoteId now).2 }
  | .remove remoteId =>
    let (session, manager) := s.manager.remove remoteId
    some ⟨manager, s.held ++ session.toList⟩
  | .secureRemove remoteId => some { s with manager := (s.manager.secureRemove remoteId).2 }
  | .cleanupExpired now => some { s with manager := (s.manager.cleanupExpired now).2 }

end Sessions

/-- A session without keys wherever it is closed. -/
def Session.Keyless (s : Session) : Prop := s.state = .closed → s.keys = none

/-- The call does not close a session that has keys and gives no keys to a closed one. -/
def SessionCall.Erased (s : Session) : SessionCall → Prop
  | transition newState =>
    newState = .closed → .closed ∈ s.state.validTransitions → s.keys = none
  | setKeys _ _ => s.state ≠ .closed
  | _ => True

def Sessions.ClosedKeyless (s : Sessions) : Prop :=
  (∀ session ∈ s.held, session.Keyless) ∧
    ∀ id session, s.manager.sessions.lookup id = some session → session.Keyless

def Sessions.KeysErased (s : Sessions) : SessionOp → Prop
  | .call i call _ => ∀ session, s.held[i]? = some session → call.Erased session
  | .updateState remoteId newState _ => ∀ session, s.manager.sessions.lookup remoteId = some session →
      (SessionCall.transition newState).Erased session
  | .setKeys remoteId sendKey recvKey _ => ∀ session,
      s.manager.sessions.lookup remoteId = some session →
        (SessionCall.setKeys sendKey recvKey).Erased session
  | _ => True

/-- A closed session stays closed, wherever it is held. In the table it may be taken out,
and `get_or_create` may put a new session in the place of an expired one. -/
def Sessions.StaysClosed (checks : Bool) (s : Sessions) (op : SessionOp) : Prop :=
  ∀ t, s.step checks op = some t →
    (∀ (i : Nat) (session : Session), s.held[i]? = some session → session.state = .closed →
      ∃ later, t.held[i]? = some later ∧ later.state = .closed) ∧
    ∀ id (session later : Session), s.manager.sessions.lookup id = some session → session.state = .closed →
      t.manager.sessions.lookup id = some later → later.state = .closed ∨
        ∃ now, op = .getOrCreate id now ∧ session.isExpired now

section
variable {checks : Bool} {s t : Session} {now : Nat}

theorem transition_keyless (keyless : s.Keyless) (newState : SessionState) (now : Nat) :
    (s.transition newState now).2.Keyless ↔ (SessionCall.transition newState).Erased s := by
  by_cases valid : newState ∈ s.state.validTransitions
  · rw [Session.transition, if_pos valid]
    constructor
    · intro after closes _
      exact after closes
    · intro erased closes
      exact erased closes (closes ▸ valid)
  · rw [Session.transition, if_neg valid]
    refine iff_of_true keyless fun closes reachable => absurd (closes ▸ reachable) valid

/-- A call sets the state or the keys, or it keeps both. -/
theorem SessionCall.run_cases {call : SessionCall} (ran : call.run checks s now = some t) :
    (∃ newState, call = .transition newState ∧ t = (s.transition newState now).2) ∨
    (∃ sendKey recvKey, call = .setKeys sendKey recvKey ∧ t = s.setKeys sendKey recvKey now) ∨
    (call = .secureClose ∧ t = s.secureClose) ∨
    (call.Erased s ∧ t.state = s.state ∧ t.keys = s.keys) := by
  cases call with
  | transition newState => exact .inl ⟨newState, rfl, (Option.some.inj ran).symm⟩
  | setKeys sendKey recvKey => exact .inr (.inl ⟨sendKey, recvKey, rfl, (Option.some.inj ran).symm⟩)
  | secureClose => exact .inr (.inr (.inl ⟨rfl, (Option.some.inj ran).symm⟩))
  | touch =>
    cases Option.some.inj ran
    exact .inr (.inr (.inr ⟨trivial, rfl, rfl⟩))
  | nextSendCounter =>
    obtain ⟨⟨counter, _⟩, counted, rfl⟩ := Option.map_eq_some_iff.mp ran
    exact .inr (.inr (.inr ⟨trivial, Session.nextSendCounter_kept counted⟩))
  | verifyRecvCounter counter =>
    obtain ⟨⟨answer, _⟩, verified, rfl⟩ := Option.map_eq_some_iff.mp ran
    exact .inr (.inr (.inr ⟨trivial, Session.verifyRecvCounter_kept verified⟩))

theorem SessionCall.run_keyless (keyless : s.Keyless) {call : SessionCall}
    (ran : call.run checks s now = some t) : t.Keyless ↔ call.Erased s := by
  obtain ⟨newState, rfl, rfl⟩ | ⟨sendKey, recvKey, rfl, rfl⟩ | ⟨rfl, rfl⟩ |
    ⟨erased, state, keys⟩ := run_cases ran
  · exact transition_keyless keyless newState now
  · simp [Session.Keyless, Session.setKeys, Session.touch, Erased]
  · simp [Session.Keyless, Session.secureClose, Erased]
  · rw [Session.Keyless, state, keys]
    exact iff_of_true keyless erased

theorem transition_closed (closed : s.state = .closed) (newState : SessionState) (now : Nat) :
    (s.transition newState now).2 = s := by
  rw [Session.transition, closed]
  rfl

theorem SessionCall.run_closed (closed : s.state = .closed) {call : SessionCall}
    (ran : call.run checks s now = some t) : t.state = .closed := by
  obtain ⟨newState, rfl, rfl⟩ | ⟨sendKey, recvKey, rfl, rfl⟩ | ⟨rfl, rfl⟩ |
    ⟨erased, state, keys⟩ := run_cases ran
  · rw [transition_closed closed]
    exact closed
  · exact closed
  · rfl
  · rw [state, closed]

end

theorem forall_set_iff {P : α → Prop} {l : List α} (all : ∀ x ∈ l, P x)
    (there : l[i]? = some x) (y : α) : (∀ z ∈ l.set i y, P z) ↔ P y := by
  obtain ⟨bound, -⟩ := List.getElem?_eq_some_iff.mp there
  constructor
  · intro after
    exact after y (List.mem_set bound y)
  · intro new z member
    rcases List.mem_or_eq_of_mem_set member with old | rfl
    · exact all z old
    · exact new

theorem forall_insert_iff {K V : Type} [DecidableEq K] {P : V → Prop} {m : Map K V}
    (all : ∀ k v, m.lookup k = some v → P v) (key : K) (new : V) :
    (∀ k v, (m.insert key new).lookup k = some v → P v) ↔ P new := by
  constructor
  · intro after
    exact after key new (AList.lookup_insert m)
  · intro good k v found
    by_cases same : k = key
    · rw [same, AList.lookup_insert] at found
      exact Option.some.inj found ▸ good
    · rw [AList.lookup_insert_ne same] at found
      exact all k v found

theorem SessionManager.lookup_of_removed {m : SessionManager} {ids : List NodeID} {id : NodeID}
    (found : (ids.foldl (fun m id => (m.secureRemove id).2) m).sessions.lookup id = some session) :
    m.sessions.lookup id = some session := by
  induction ids generalizing m with
  | nil => exact found
  | cons first rest ih => exact (lookup_of_lookup_erase (ih found)).2

namespace Sessions
variable {checks : Bool} {s t : Sessions}

theorem new_keyless (localId remoteId : NodeID) (now : Nat) :
    (Session.new localId remoteId now).Keyless := fun _ => rfl

theorem getOrCreate_keyless (keyless : s.ClosedKeyless) (remoteId : NodeID) (now : Nat) :
    (s.manager.getOrCreate remoteId now).1.Keyless ∧
      ∀ id session, (s.manager.getOrCreate remoteId now).2.sessions.lookup id = some session →
        session.Keyless := by
  have created : (Session.withTimeout s.manager.localId remoteId s.manager.defaultTimeout now).Keyless :=
    fun _ => rfl
  have replaced := (forall_insert_iff keyless.2 remoteId _).mpr created
  rw [SessionManager.getOrCreate]
  cases found : s.manager.sessions.lookup remoteId with
  | none => exact ⟨created, replaced⟩
  | some session =>
    dsimp only
    split
    · exact ⟨created, replaced⟩
    · exact ⟨keyless.2 remoteId session found, keyless.2⟩

theorem held_append_keyless (keyless : s.ClosedKeyless) {more : List Session}
    (good : ∀ session ∈ more, session.Keyless) : ∀ session ∈ s.held ++ more, session.Keyless :=
  List.forall_mem_append.mpr ⟨keyless.1, good⟩

theorem lookup_toList_keyless (keyless : s.ClosedKeyless) (id : NodeID) :
    ∀ session ∈ (s.manager.sessions.lookup id).toList, session.Keyless := by
  intro session member
  exact keyless.2 id session (by simpa using member)

theorem put_keyless_iff (keyless : s.ClosedKeyless) (id : NodeID) (session : Session) :
    ClosedKeyless { s with manager := s.manager.put id session } ↔ session.Keyless := by
  simp only [ClosedKeyless, SessionManager.put, forall_insert_iff keyless.2]
  exact and_iff_right keyless.1

/-- One operation keeps the closed sessions without keys exactly if it erases the keys
of what it closes. -/
theorem closedKeyless_iff (keyless : s.ClosedKeyless) (stepped : s.step checks op = some t) :
    t.ClosedKeyless ↔ s.KeysErased op := by
  cases op with
  | create localId remoteId now =>
    cases Option.some.inj stepped
    have good : ∀ session ∈ s.held ++ [.new localId remoteId now], session.Keyless :=
      held_append_keyless keyless (by simpa using new_keyless localId remoteId now)
    exact iff_of_true ⟨good, keyless.2⟩ trivial
  | call i call now =>
    obtain ⟨session, there, rest⟩ := Option.bind_eq_some_iff.mp stepped
    obtain ⟨after, ran, ended⟩ := Option.bind_eq_some_iff.mp rest
    cases ended
    have before := keyless.1 session (List.mem_of_getElem? there)
    simp only [ClosedKeyless, KeysErased, there, Option.some.injEq, forall_eq',
      forall_set_iff keyless.1 there, SessionCall.run_keyless before ran]
    exact and_iff_left keyless.2
  | getOrCreate remoteId now =>
    cases Option.some.inj stepped
    obtain ⟨given, kept⟩ := getOrCreate_keyless keyless remoteId now
    have good : ∀ session ∈ s.held ++ [(s.manager.getOrCreate remoteId now).1], session.Keyless :=
      held_append_keyless keyless (by simpa using given)
    exact iff_of_true ⟨good, kept⟩ trivial
  | get remoteId =>
    cases Option.some.inj stepped
    have good := held_append_keyless keyless (lookup_toList_keyless keyless remoteId)
    exact iff_of_true ⟨good, keyless.2⟩ trivial
  | updateState remoteId newState now =>
    cases Option.some.inj stepped
    cases found : s.manager.sessions.lookup remoteId with
    | none =>
      simp only [KeysErased, SessionManager.updateState, found]
      exact iff_of_true keyless (by simp)
    | some session =>
      simp only [KeysErased, SessionManager.updateState, found, put_keyless_iff keyless,
        transition_keyless (keyless.2 remoteId session found), Option.some.injEq, forall_eq']
  | setKeys remoteId sendKey recvKey now =>
    cases Option.some.inj stepped
    cases found : s.manager.sessions.lookup remoteId with
    | none =>
      simp only [KeysErased, SessionManager.setKeys, found]
      exact iff_of_true keyless (by simp)
    | some session =>
      have ran : (SessionCall.setKeys sendKey recvKey).run checks session now =
          some (session.setKeys sendKey recvKey now) := rfl
      have set := SessionCall.run_keyless (keyless.2 remoteId session found) ran
      simp only [KeysErased, SessionManager.setKeys, found, put_keyless_iff keyless, set,
        Option.some.injEq, forall_eq']
  | touch remoteId now =>
    cases Option.some.inj stepped
    cases found : s.manager.sessions.lookup remoteId with
    | none =>
      simp only [KeysErased, SessionManager.touch, found]
      exact iff_of_true keyless trivial
    | some session =>
      simp only [KeysErased, SessionManager.touch, found, put_keyless_iff keyless]
      exact iff_of_true (keyless.2 remoteId session found) trivial
  | remove remoteId =>
    cases Option.some.inj stepped
    have good := held_append_keyless keyless (lookup_toList_keyless keyless remoteId)
    have left : ∀ id session, (s.manager.sessions.erase remoteId).lookup id = some session →
        session.Keyless := fun id session found =>
      keyless.2 id session (lookup_of_lookup_erase found).2
    exact iff_of_true ⟨good, left⟩ trivial
  | secureRemove remoteId =>
    cases Option.some.inj stepped
    have left : ∀ id session, (s.manager.sessions.erase remoteId).lookup id = some session →
        session.Keyless := fun id session found =>
      keyless.2 id session (lookup_of_lookup_erase found).2
    exact iff_of_true ⟨keyless.1, left⟩ trivial
  | cleanupExpired now =>
    cases Option.some.inj stepped
    refine iff_of_true ⟨keyless.1, fun id session found => ?_⟩ trivial
    exact keyless.2 id session (SessionManager.lookup_of_removed found)

section
variable {id remoteId : NodeID} {session before after later : Session} {now : Nat}

theorem held_append_closed {l : List Session} (i : Nat)
    (there : l[i]? = some session) (closed : session.state = .closed)
    (more : List Session) : ∃ later, (l ++ more)[i]? = some later ∧ later.state = .closed := by
  obtain ⟨bound, -⟩ := List.getElem?_eq_some_iff.mp there
  exact ⟨session, (List.getElem?_append_left bound).trans there, closed⟩

theorem held_set_closed {l : List Session} (old : l[i]? = some before)
    (kept : before.state = .closed → after.state = .closed) (j : Nat) (there : l[j]? = some session)
    (closed : session.state = .closed) :
    ∃ later, (l.set i after)[j]? = some later ∧ later.state = .closed := by
  by_cases same : i = j
  · subst same
    obtain ⟨bound, -⟩ := List.getElem?_eq_some_iff.mp old
    cases Option.some.inj (old.symm.trans there)
    exact ⟨after, List.getElem?_set_self bound, kept closed⟩
  · exact ⟨session, (List.getElem?_set_ne same).trans there, closed⟩

theorem still_closed {m : SessionManager} (there : m.sessions.lookup id = some session)
    (closed : session.state = .closed) (found : m.sessions.lookup id = some later) :
    later.state = .closed :=
  Option.some.inj (there.symm.trans found) ▸ closed

/-- An entry that is written over by what its own session became. -/
theorem put_closed {m : SessionManager} (old : m.sessions.lookup remoteId = some before)
    (kept : before.state = .closed → after.state = .closed)
    (there : m.sessions.lookup id = some session) (closed : session.state = .closed)
    (found : (m.put remoteId after).sessions.lookup id = some later) : later.state = .closed := by
  by_cases same : id = remoteId
  · subst same
    cases Option.some.inj (old.symm.trans there)
    rw [SessionManager.put, AList.lookup_insert] at found
    exact Option.some.inj found ▸ kept closed
  · rw [SessionManager.put, AList.lookup_insert_ne same, there] at found
    exact Option.some.inj found ▸ closed

theorem getOrCreate_closed {m : SessionManager} (there : m.sessions.lookup id = some session)
    (closed : session.state = .closed)
    (found : (m.getOrCreate remoteId now).2.sessions.lookup id = some later) :
    later.state = .closed ∨ id = remoteId ∧ session.isExpired now := by
  by_cases same : id = remoteId
  · subst same
    by_cases expired : session.isExpired now
    · exact .inr ⟨rfl, expired⟩
    · simp only [SessionManager.getOrCreate, there, expired, Bool.false_eq_true, if_false] at found
      exact .inl (Option.some.inj found ▸ closed)
  · refine .inl ?_
    have kept : m.sessions.lookup id = some later := by
      rw [SessionManager.getOrCreate] at found
      split at found
      · split at found
        · rwa [SessionManager.put, AList.lookup_insert_ne same] at found
        · exact found
      · rwa [SessionManager.put, AList.lookup_insert_ne same] at found
    exact still_closed there closed kept

end

/-- No operation takes a session out of `Closed`. -/
theorem stays_closed (checks : Bool) (s : Sessions) (op : SessionOp) : s.StaysClosed checks op := by
  intro t stepped
  cases op with
  | create localId remoteId now =>
    cases Option.some.inj stepped
    refine ⟨fun i session there closed => held_append_closed i there closed _, ?_⟩
    exact fun id session later there closed found => .inl (still_closed there closed found)
  | call i call now =>
    obtain ⟨before, old, rest⟩ := Option.bind_eq_some_iff.mp stepped
    obtain ⟨after, ran, ended⟩ := Option.bind_eq_some_iff.mp rest
    cases ended
    refine ⟨fun j session there closed =>
      held_set_closed old (fun was => SessionCall.run_closed was ran) j there closed, ?_⟩
    exact fun id session later there closed found => .inl (still_closed there closed found)
  | getOrCreate remoteId now =>
    cases Option.some.inj stepped
    refine ⟨fun i session there closed => held_append_closed i there closed _, ?_⟩
    intro id session later there closed found
    rcases getOrCreate_closed there closed found with stays | ⟨rfl, expired⟩
    · exact .inl stays
    · exact .inr ⟨now, rfl, expired⟩
  | get remoteId =>
    cases Option.some.inj stepped
    refine ⟨fun i session there closed => held_append_closed i there closed _, ?_⟩
    exact fun id session later there closed found => .inl (still_closed there closed found)
  | updateState remoteId newState now =>
    cases Option.some.inj stepped
    refine ⟨fun i session there closed => ⟨session, there, closed⟩, ?_⟩
    intro id session later there closed found
    rw [SessionManager.updateState] at found
    split at found
    · rename_i before old
      have kept (was : before.state = .closed) :
          (before.transition newState now).2.state = .closed := by
        rw [transition_closed was, was]
      exact .inl (put_closed old kept there closed found)
    · exact .inl (still_closed there closed found)
  | setKeys remoteId sendKey recvKey now =>
    cases Option.some.inj stepped
    refine ⟨fun i session there closed => ⟨session, there, closed⟩, ?_⟩
    intro id session later there closed found
    rw [SessionManager.setKeys] at found
    split at found
    · rename_i before old
      have kept (was : before.state = .closed) :
          (before.setKeys sendKey recvKey now).state = .closed := was
      exact .inl (put_closed old kept there closed found)
    · exact .inl (still_closed there closed found)
  | touch remoteId now =>
    cases Option.some.inj stepped
    refine ⟨fun i session there closed => ⟨session, there, closed⟩, ?_⟩
    intro id session later there closed found
    rw [SessionManager.touch] at found
    split at found
    · rename_i before old
      have kept (was : before.state = .closed) : (before.touch now).state = .closed := was
      exact .inl (put_closed old kept there closed found)
    · exact .inl (still_closed there closed found)
  | remove remoteId =>
    cases Option.some.inj stepped
    refine ⟨fun i session there closed => held_append_closed i there closed _, ?_⟩
    intro id session later there closed found
    exact .inl (still_closed there closed (lookup_of_lookup_erase found).2)
  | secureRemove remoteId =>
    cases Option.some.inj stepped
    refine ⟨fun i session there closed => ⟨session, there, closed⟩, ?_⟩
    intro id session later there closed found
    exact .inl (still_closed there closed (lookup_of_lookup_erase found).2)
  | cleanupExpired now =>
    cases Option.some.inj stepped
    refine ⟨fun i session there closed => ⟨session, there, closed⟩, ?_⟩
    intro id session later there closed found
    exact .inl (still_closed there closed (SessionManager.lookup_of_removed found))

def initial (localId : NodeID) (timeout : Nat) : Sessions := ⟨.withTimeout localId timeout, []⟩

/-- Only a call on a session can abort, on a counter or for want of the session. -/
theorem erased_of_aborted (aborted : s.step checks op = none) : s.KeysErased op := by
  cases op with
  | call i call now =>
    intro session there
    simp only [step, there, Option.bind_eq_bind, Option.bind_some, Option.bind_eq_none_iff] at aborted
    cases call with
    | transition newState => exact nomatch aborted _ rfl
    | setKeys sendKey recvKey => exact nomatch aborted _ rfl
    | secureClose => trivial
    | touch => trivial
    | nextSendCounter => trivial
    | verifyRecvCounter counter => trivial
  | updateState remoteId newState now => exact nomatch aborted
  | setKeys remoteId sendKey recvKey now => exact nomatch aborted
  | _ => trivial

theorem initial_keyless (localId : NodeID) (timeout : Nat) :
    (initial localId timeout).ClosedKeyless := by
  simp [ClosedKeyless, initial, SessionManager.withTimeout]

/-- In a run from a new manager every closed session is without keys and stays closed exactly
if every operation erases the keys of what it closes. -/
theorem closed_sessions_iff (checks : Bool) (localId : NodeID) (timeout : Nat)
    (ops : List SessionOp) :
    Always (step checks) ClosedKeyless (initial localId timeout) ops ∧
      Meets (step checks) (StaysClosed checks) (initial localId timeout) ops ↔
    Meets (step checks) KeysErased (initial localId timeout) ops := by
  have stays : Meets (step checks) (StaysClosed checks) (initial localId timeout) ops :=
    meets_of_forall fun op _ s => stays_closed checks s op
  have keyless : Always (step checks) ClosedKeyless (initial localId timeout) ops ↔
      Meets (step checks) KeysErased (initial localId timeout) ops :=
    always_iff_of_aborts (I := fun _ => True) (fun _ _ _ => trivial)
    (fun _ _ aborted => erased_of_aborted aborted)
    (fun _ holds stepped => closedKeyless_iff holds stepped) trivial
    (initial_keyless localId timeout)
  rw [keyless]
  exact and_iff_left stays

/-- An attempt that is given its keys in the handshake and then closed as failed. -/
def abandoned : List SessionOp :=
  [.getOrCreate (.replicate 32 2) 0, .updateState (.replicate 32 2) .handshake 1,
    .setKeys (.replicate 32 2) [1, 2, 3] [4, 5, 6] 2, .updateState (.replicate 32 2) .closed 3]

theorem closed_with_keys :
    (∃ t session, exec (step true) (initial (.replicate 32 1) 10) abandoned = some t ∧
      t.manager.get (.replicate 32 2) = some session ∧ session.state = .closed ∧
      session.keys = some ⟨[1, 2, 3], [4, 5, 6], 2⟩) ∧
    ¬ Always (step true) ClosedKeyless (initial (.replicate 32 1) 10) abandoned := by
  refine ⟨⟨_, _, rfl, rfl, rfl, rfl⟩, fun always => ?_⟩
  have last := (((always.2 _ rfl).2 _ rfl).2 _ rfl).2 _ rfl
  exact nomatch last.2 (.replicate 32 2) _ rfl rfl

end Sessions
end LanLink.Vpn
