import LanLink.Daemon.Host

/-! The execs of one connection among those of others. The global map is keyed by
the clients' identifiers alone; while a message meets no running exec of another
connection, the execs of each connection are what they are without the others. -/
namespace LanLink.Host

section
variable {File : Type}

def State.ended (s : State File) (conn : ConnId) (k : Nat) : Bool :=
  (s.execs conn)[k]?.all Running.ended

/-- The running exec of the connection that the identifier leads to. -/
def State.live (s : State File) (conn : ConnId) (id : UInt32) : Option Nat :=
  match s.execMap id with
  | some (c, k) => if c = conn ∧ !s.ended c k then some k else none
  | none => none

/-- No other connection has a running exec under the identifier. -/
def FreeExec (s : State File) (conn : ConnId) (id : UInt32) : Prop :=
  ∀ entry ∈ s.execMap id, entry.1 = conn ∨ s.ended entry.1 entry.2

instance (s : State File) (conn : ConnId) (id : UInt32) : Decidable (FreeExec s conn id) :=
  inferInstanceAs (Decidable (∀ entry ∈ s.execMap id, _ ∨ _))

/-- The execs of a connection in a run and in the run of that connection alone. -/
structure ExecAgree (d : ConnId) (s s' : State File) : Prop where
  execs : s.execs d = s'.execs d
  live : ∀ id, s.live d id = s'.live d id
  inside : ∀ id k, s.execMap id = some (d, k) → k < (s.execs d).length
  inside' : ∀ id k, s'.execMap id = some (d, k) → k < (s'.execs d).length
  alone : ∀ id c k, s'.execMap id = some (c, k) → c = d

variable {s s' t : State File} {conn d : ConnId} {id : UInt32} {action : Exec.Action}

/-- A step that a message causes does not end an exec. -/
theorem Running.apply_ended (r : Running) (outside : ¬ internal action) :
    (r.apply action).ended = r.ended := by
  rw [apply]
  split
  · rfl
  · cases action with
    | command cmd =>
      simp only [Exec.State.step]
      split <;> rename_i stepped
      · split at stepped <;> cases stepped
        rfl
      · rfl
    | dropSender =>
      simp only [Exec.State.step]
      split <;> rename_i stepped
      · split at stepped <;> cases stepped
        rfl
      · rfl
    | _ => exact absurd rfl outside

theorem Running.apply_of_ended {r : Running} (ended : r.ended) (action : Exec.Action) :
    r.apply action = r := if_pos ended

theorem State.modifyExec_execs (s : State File) (c : ConnId) (k : Nat) (f : Running → Running)
    (d : ConnId) : (s.modifyExec c k f).execs d =
      if d = c then (s.execs d).modify k f else s.execs d := by
  rw [modifyExec]
  split
  · rename_i same
    subst same
    exact Function.update_self ..
  · rename_i apart
    exact Function.update_of_ne apart ..

theorem State.modifyExec_ended (s : State File) (c : ConnId) (k : Nat) {f : Running → Running}
    (keeps : ∀ r, (f r).ended = r.ended) (d : ConnId) (j : Nat) :
    (s.modifyExec c k f).ended d j = s.ended d j := by
  unfold ended
  rw [modifyExec_execs]
  split
  · rw [List.getElem?_modify]
    cases (s.execs d)[j]? with
    | none => rfl
    | some r =>
      simp only [Option.map_eq_map, Option.map_some, Option.all_some]
      split
      · exact keeps r
      · rfl
  · rfl

/-- An exec that has ended does not notice a message. -/
theorem State.modify_ended (finished : s.ended c k) (action : Exec.Action) :
    (s.execs c).modify k (·.apply action) = s.execs c := by
  apply List.ext_getElem?
  intro j
  rw [List.getElem?_modify]
  cases found : (s.execs c)[j]? with
  | none => rfl
  | some r =>
    simp only [Option.map_eq_map, Option.map_some, Option.some.injEq]
    split
    · rename_i same
      subst same
      exact Running.apply_of_ended (by simpa [State.ended, found] using finished) action
    · rfl

theorem State.signal_execMap (s : State File) (id : UInt32) (action : Exec.Action) :
    (s.signal id action).execMap = s.execMap := by
  rw [signal]
  split <;> rfl

theorem State.signal_ended (s : State File) (id : UInt32) (outside : ¬ internal action)
    (d : ConnId) (j : Nat) : (s.signal id action).ended d j = s.ended d j := by
  rw [signal]
  split
  · exact s.modifyExec_ended _ _ (fun r => r.apply_ended outside) d j
  · rfl

theorem State.signal_live (s : State File) (id : UInt32) (outside : ¬ internal action)
    (d : ConnId) (other : UInt32) : (s.signal id action).live d other = s.live d other := by
  simp only [live, signal_execMap, signal_ended s id outside]

/-- What a message does to the execs of its own connection. -/
theorem State.signal_own (s : State File) (conn : ConnId) (id : UInt32) (action : Exec.Action) :
    (s.signal id action).execs conn =
      (s.live conn id).elim (s.execs conn) fun k => (s.execs conn).modify k (·.apply action) := by
  rw [signal, live]
  cases found : s.execMap id with
  | none => rfl
  | some entry =>
    obtain ⟨c, k⟩ := entry
    simp only [modifyExec_execs]
    by_cases own : conn = c
    · subst own
      by_cases finished : s.ended conn k
      · simp [finished, modify_ended finished]
      · simp [finished]
    · have apart : ¬ c = conn := fun same => own same.symm
      simp [own, apart]

/-- A message leaves the execs of another connection alone. -/
theorem State.signal_other (free : FreeExec s conn id) (apart : conn ≠ d)
    (action : Exec.Action) : (s.signal id action).execs d = s.execs d := by
  rw [signal]
  cases found : s.execMap id with
  | none => rfl
  | some entry =>
    obtain ⟨c, k⟩ := entry
    simp only [modifyExec_execs]
    split
    · rename_i same
      subst same
      rcases free (d, k) found with own | finished
      · exact absurd own.symm apart
      · exact modify_ended finished action
    · rfl

theorem State.live_congr (execs : t.execs d = s.execs d) (map : t.execMap = s.execMap)
    (id : UInt32) : t.live d id = s.live d id := by
  unfold live
  rw [map]
  cases s.execMap id with
  | none => rfl
  | some entry =>
    obtain ⟨c, k⟩ := entry
    by_cases own : c = d
    · subst own
      simp [ended, execs]
    · simp [own]

theorem ExecAgree.congr (agree : ExecAgree d s s') {t t' : State File} (execs : t.execs = s.execs)
    (map : t.execMap = s.execMap) (execs' : t'.execs = s'.execs) (map' : t'.execMap = s'.execMap) :
    ExecAgree d t t' where
  execs := by rw [execs, execs', agree.execs]
  live := fun id => ((State.live_congr (congrFun execs d) map id).trans (agree.live id)).trans
    (State.live_congr (congrFun execs' d) map' id).symm
  inside := by simpa only [execs, map] using agree.inside
  inside' := by simpa only [execs', map'] using agree.inside'
  alone := by simpa only [map'] using agree.alone

theorem State.signal_length (s : State File) (id : UInt32) (action : Exec.Action) (d : ConnId) :
    ((s.signal id action).execs d).length = (s.execs d).length := by
  rw [signal]
  split
  · rw [modifyExec_execs]
    split <;> simp
  · rfl

theorem ExecAgree.signal_own (agree : ExecAgree d s s') (outside : ¬ internal action)
    (id : UInt32) : ExecAgree d (s.signal id action) (s'.signal id action) where
  execs := by rw [State.signal_own, State.signal_own, agree.live, agree.execs]
  live := by
    intro other
    rw [State.signal_live s id outside, State.signal_live s' id outside, agree.live]
  inside := by simpa only [State.signal_execMap, State.signal_length] using agree.inside
  inside' := by simpa only [State.signal_execMap, State.signal_length] using agree.inside'
  alone := by simpa only [State.signal_execMap] using agree.alone

theorem ExecAgree.signal_other (agree : ExecAgree d s s') (outside : ¬ internal action)
    (free : FreeExec s conn id) (apart : conn ≠ d) : ExecAgree d (s.signal id action) s' where
  execs := (State.signal_other free apart action).trans agree.execs
  live := fun other => (State.signal_live s id outside d other).trans (agree.live other)
  inside := by simpa only [State.signal_execMap, State.signal_length] using agree.inside
  inside' := agree.inside'
  alone := agree.alone

/-- An exec under another identifier is left alone. -/
theorem State.insert_live_of_ne (s : State File)
    (inside : conn = d → ∀ id k, s.execMap id = some (d, k) → k < (s.execs d).length)
    (same : other ≠ id) (r : Running) : (s.insert conn id r).live d other = s.live d other := by
  simp only [live, ended, insert, Function.update_of_ne same]
  cases found : s.execMap other with
  | none => rfl
  | some entry =>
    obtain ⟨c, k⟩ := entry
    by_cases own : c = d
    · subst own
      by_cases mine : conn = c
      · subst mine
        simp [List.getElem?_append_left (inside rfl other k found)]
      · simp [Function.update_of_ne (Ne.symm mine)]
    · simp [own]

theorem State.insert_live_own (s : State File) (d : ConnId) (id : UInt32) {r : Running}
    (running : ¬ r.ended) (inside : ∀ id k, s.execMap id = some (d, k) → k < (s.execs d).length)
    (other : UInt32) : (s.insert d id r).live d other =
      if other = id then some (s.execs d).length else s.live d other := by
  by_cases same : other = id
  · subst same
    simp [live, ended, insert, running]
  · rw [if_neg same]
    exact s.insert_live_of_ne (fun _ => inside) same r

theorem State.insert_live_other (s : State File) (apart : conn ≠ d) (id : UInt32) (r : Running)
    (other : UInt32) : (s.insert conn id r).live d other =
      if other = id then none else s.live d other := by
  by_cases same : other = id
  · subst same
    simp [live, insert, apart]
  · rw [if_neg same]
    exact s.insert_live_of_ne (fun mine => absurd mine apart) same r

theorem FreeExec.live_none (free : FreeExec s conn id) (apart : conn ≠ d) : s.live d id = none := by
  rw [State.live]
  cases found : s.execMap id with
  | none => rfl
  | some entry =>
    obtain ⟨c, k⟩ := entry
    rcases free (c, k) found with own | finished
    · subst own
      simp [apart]
    · simp [finished]

theorem State.insert_inside (s : State File) (d : ConnId) (id : UInt32) (r : Running)
    (inside : ∀ id k, s.execMap id = some (d, k) → k < (s.execs d).length) :
    ∀ other k, (s.insert d id r).execMap other = some (d, k) →
      k < ((s.insert d id r).execs d).length := by
  intro other k found
  by_cases same : other = id
  · subst same
    simp only [insert, Function.update_self, Option.some.injEq, Prod.mk.injEq, true_and] at found
    simp [insert, ← found]
  · simp only [insert, Function.update_of_ne same] at found
    have before := inside other k found
    simp only [insert, Function.update_self, List.length_append, List.length_singleton]
    omega

theorem ExecAgree.insert_own (agree : ExecAgree d s s') (id : UInt32) {r : Running}
    (running : ¬ r.ended) : ExecAgree d (s.insert d id r) (s'.insert d id r) where
  execs := by simp [State.insert, agree.execs]
  live := by
    intro other
    rw [s.insert_live_own d id running agree.inside, s'.insert_live_own d id running agree.inside',
      agree.live, agree.execs]
  inside := s.insert_inside d id r agree.inside
  inside' := s'.insert_inside d id r agree.inside'
  alone := by
    intro other c k found
    by_cases same : other = id
    · subst same
      simp only [State.insert, Function.update_self, Option.some.injEq, Prod.mk.injEq] at found
      exact found.1.symm
    · simp only [State.insert, Function.update_of_ne same] at found
      exact agree.alone other c k found

theorem ExecAgree.insert_other (agree : ExecAgree d s s') (free : FreeExec s conn id)
    (apart : conn ≠ d) (r : Running) : ExecAgree d (s.insert conn id r) s' where
  execs := by
    simp only [State.insert, Function.update_of_ne (Ne.symm apart)]
    exact agree.execs
  live := by
    intro other
    rw [s.insert_live_other apart]
    split
    · rename_i same
      rw [same, ← agree.live, free.live_none apart]
    · exact agree.live other
  inside := by
    intro other k found
    simp only [State.insert, Function.update_of_ne (Ne.symm apart)]
    by_cases same : other = id
    · subst same
      simp [State.insert, apart] at found
    · simp only [State.insert, Function.update_of_ne same] at found
      exact agree.inside other k found
  inside' := agree.inside'
  alone := agree.alone

theorem FreeExec.signal (free : FreeExec s conn id) (outside : ¬ internal action) :
    FreeExec (s.signal id action) conn id := by
  intro entry found
  rw [State.signal_execMap] at found
  rw [State.signal_ended s id outside]
  exact free entry found

/-- A step of an exec may end it; the identifiers then no longer lead to it. -/
theorem State.modifyExec_live (s : State File) (d : ConnId) (k : Nat) (f : Running → Running)
    (stays : s.ended d k → (s.modifyExec d k f).ended d k) (id : UInt32) :
    (s.modifyExec d k f).live d id =
      (s.live d id).filter fun j => !(s.modifyExec d k f).ended d j := by
  have others : ∀ j, j ≠ k → (s.modifyExec d k f).ended d j = s.ended d j := by
    intro j different
    unfold ended
    rw [modifyExec_execs, if_pos rfl, List.getElem?_modify_ne f _ (Ne.symm different)]
  unfold live
  show (match s.execMap id with | some (c, j) => _ | none => _) = _
  cases s.execMap id with
  | none => rfl
  | some entry =>
    obtain ⟨c, j⟩ := entry
    by_cases own : c = d
    · subst own
      by_cases same : j = k
      · subst same
        by_cases finished : s.ended c j
        · simp [finished, stays finished]
        · simp [finished, Option.filter]
      · by_cases finished : s.ended c j
        · simp [finished, others j same]
        · simp [finished, others j same, Option.filter]
    · simp [own]

theorem ExecAgree.modify_own (agree : ExecAgree d s s') (k : Nat) (f : Running → Running)
    (stays : s.ended d k → (s.modifyExec d k f).ended d k) :
    ExecAgree d (s.modifyExec d k f) (s'.modifyExec d k f) := by
  have execs : (s.modifyExec d k f).execs d = (s'.modifyExec d k f).execs d := by
    rw [State.modifyExec_execs, State.modifyExec_execs, agree.execs]
  have ended : ∀ j, (s.modifyExec d k f).ended d j = (s'.modifyExec d k f).ended d j := by
    intro j
    rw [State.ended, State.ended, execs]
  have before : s.ended d k = s'.ended d k := by rw [State.ended, State.ended, agree.execs]
  refine ⟨execs, ?_, ?_, ?_, agree.alone⟩
  · intro id
    rw [s.modifyExec_live d k f stays, s'.modifyExec_live d k f (by rwa [← before, ← ended]),
      agree.live]
    simp only [ended]
  · intro id j found
    rw [State.modifyExec_execs, if_pos rfl, List.length_modify]
    exact agree.inside id j found
  · intro id j found
    rw [State.modifyExec_execs, if_pos rfl, List.length_modify]
    exact agree.inside' id j found

theorem ExecAgree.modify_other (agree : ExecAgree d s s') (apart : conn ≠ d) (k : Nat)
    (f : Running → Running) : ExecAgree d (s.modifyExec conn k f) s' := by
  have execs : (s.modifyExec conn k f).execs d = s.execs d := by
    rw [State.modifyExec_execs, if_neg (Ne.symm apart)]
  refine ⟨execs.trans agree.execs, ?_, ?_, agree.inside', agree.alone⟩
  · intro id
    rw [← agree.live id]
    exact State.live_congr execs rfl id
  · intro id j found
    rw [execs]
    exact agree.inside id j found

end

end LanLink.Host
