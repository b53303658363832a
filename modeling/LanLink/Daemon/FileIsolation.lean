import LanLink.Daemon.Host

/-! The file transfers of one connection among those of others. Transfers are
found by the clients' identifiers alone and files by their paths; while a message
meets neither a transfer nor a file of another connection, those of each
connection are what they are without the others. -/
namespace LanLink.Host
open Words LanLink.Files

section
variable {File : Type}

/-- The transfer of the connection that the identifier leads to. -/
def State.owned (s : State File) (conn : ConnId) (id : UInt32) : Option (Transfer File) :=
  (s.table.transfers id).filter fun transfer => s.pushed transfer.file = some conn

/-- No other connection has an open transfer under the identifier. -/
def FreeTransfer (s : State File) (conn : ConnId) (id : UInt32) : Prop :=
  ∀ transfer ∈ s.table.transfers id, s.pushed transfer.file = some conn

/-- No other connection has pushed the file. -/
def FreeFile (s : State File) (conn : ConnId) (file : File) : Prop :=
  ∀ c ∈ s.pushed file, c = conn

instance (s : State File) (conn : ConnId) (id : UInt32) : Decidable (FreeTransfer s conn id) :=
  inferInstanceAs (Decidable (∀ transfer ∈ s.table.transfers id, _ = _))

instance (s : State File) (conn : ConnId) (file : File) : Decidable (FreeFile s conn file) :=
  Option.decidableForallMem (p := (· = conn)) (s.pushed file)

/-- The transfers of a connection in a run and in the run of that connection
alone. -/
structure FileAgree (d : ConnId) (s s' : State File) : Prop where
  pushed : ∀ file, s.pushed file = some d ↔ s'.pushed file = some d
  files : ∀ file, s.pushed file = some d → s.table.files file = s'.table.files file
  owned : ∀ id, s.owned d id = s'.owned d id
  opened : ∀ id transfer, s.table.transfers id = some transfer →
    (s.pushed transfer.file).isSome
  alone : ∀ id transfer, s'.table.transfers id = some transfer →
    s'.pushed transfer.file = some d

variable {s s' t : State File} {conn d : ConnId} {id : UInt32} {transfer : Transfer File}

theorem State.owned_eq (found : s.table.transfers id = some transfer)
    (own : s.pushed transfer.file = some d) : s.owned d id = some transfer := by
  simp [owned, found, own]

theorem State.owned_none
    (foreign : ∀ transfer, s.table.transfers id = some transfer → s.pushed transfer.file ≠ some d) :
    s.owned d id = none := by
  rw [owned]
  cases found : s.table.transfers id with
  | none => rfl
  | some transfer => simp [foreign transfer found]

theorem State.owned_congr (transfers : t.table.transfers id = s.table.transfers id)
    (pushed : ∀ transfer, s.table.transfers id = some transfer →
      (t.pushed transfer.file = some d ↔ s.pushed transfer.file = some d)) :
    t.owned d id = s.owned d id := by
  unfold owned
  rw [transfers]
  cases found : s.table.transfers id with
  | none => rfl
  | some transfer => simp [Option.filter, pushed transfer found]

theorem State.transfer_of_owned (own : s.owned d id = some transfer) :
    s.table.transfers id = some transfer ∧ s.pushed transfer.file = some d := by
  simpa [owned, Option.filter_eq_some_iff] using own

theorem FileAgree.congr (agree : FileAgree d s s') {t t' : State File}
    (table : t.table = s.table) (pushed : t.pushed = s.pushed)
    (table' : t'.table = s'.table) (pushed' : t'.pushed = s'.pushed) :
    FileAgree d t t' where
  pushed := by simpa only [pushed, pushed'] using agree.pushed
  files := by simpa only [table, pushed, table'] using agree.files
  owned := by simpa only [State.owned, table, pushed, table', pushed'] using agree.owned
  opened := by simpa only [table, pushed] using agree.opened
  alone := by simpa only [table', pushed'] using agree.alone

variable [DecidableEq File]

/-- The change a successful open makes. -/
structure Opens (s t : State File) (conn : ConnId) (id : UInt32) (transfer : Transfer File) :
    Prop where
  transfers : t.table.transfers = Function.update s.table.transfers id (some transfer)
  files : t.table.files = Function.update s.table.files transfer.file (some [])
  pushed : t.pushed = Function.update s.pushed transfer.file (some conn)

theorem State.filePush_opens (s : State File) (resolve : String → File) (conn : ConnId)
    (id : UInt32) (path : String) (size : UInt64) :
    Opens s { s with table := (s.table.filePush resolve id path size true).1,
                     pushed := Function.update s.pushed (resolve path) (some conn) }
      conn id ⟨path, resolve path, 0, size⟩ := ⟨rfl, rfl, rfl⟩

/-- The change a chunk makes. -/
structure Writes (s t : State File) (id : UInt32) (transfer : Transfer File)
    (after : Option (Transfer File)) (content : Bytes) : Prop where
  transfers : t.table.transfers = Function.update s.table.transfers id after
  files : t.table.files = Function.update s.table.files transfer.file (some content)
  pushed : t.pushed = s.pushed

theorem Opens.pushed_iff (opens : Opens s t conn id transfer) (free : FreeFile s conn transfer.file)
    (file : File) (known : (s.pushed file).isSome) (d : ConnId) :
    t.pushed file = some d ↔ s.pushed file = some d := by
  rw [opens.pushed]
  by_cases same : file = transfer.file
  · subst same
    obtain ⟨c, found⟩ := Option.isSome_iff_exists.mp known
    rw [Function.update_self, found, free c found]
  · rw [Function.update_of_ne same]

theorem Opens.pushed_own (opens : Opens s t d id transfer) (own : s.pushed file = some d) :
    t.pushed file = some d := by
  rw [opens.pushed]
  by_cases same : file = transfer.file
  · rw [same, Function.update_self]
  · rw [Function.update_of_ne same, own]

theorem Opens.owned_new (opens : Opens s t d id transfer) : t.owned d id = some transfer := by
  refine State.owned_eq ?_ ?_
  · rw [opens.transfers, Function.update_self]
  · rw [opens.pushed, Function.update_self]

theorem Opens.opened (opens : Opens s t conn id transfer)
    (opened : ∀ id transfer, s.table.transfers id = some transfer →
      (s.pushed transfer.file).isSome) :
    ∀ other old, t.table.transfers other = some old → (t.pushed old.file).isSome := by
  intro other old found
  rw [opens.transfers] at found
  rw [opens.pushed]
  by_cases file : old.file = transfer.file
  · simp [file]
  · rw [Function.update_of_ne file]
    by_cases same : other = id
    · subst same
      rw [Function.update_self, Option.some.injEq] at found
      exact absurd (congrArg Transfer.file found.symm) file
    · rw [Function.update_of_ne same] at found
      exact opened other old found

theorem FileAgree.opens_other (agree : FileAgree d s s') (opens : Opens s t conn id transfer)
    (apart : conn ≠ d) (freeTransfer : FreeTransfer s conn id)
    (free : FreeFile s conn transfer.file) : FileAgree d t s' := by
  have foreign : s.pushed transfer.file ≠ some d := fun own => apart (free d own).symm
  have others : ∀ file, t.pushed file = some d ↔ s.pushed file = some d := by
    intro file
    rw [opens.pushed]
    by_cases same : file = transfer.file
    · subst same
      simp [apart, foreign]
    · rw [Function.update_of_ne same]
  refine ⟨fun file => (others file).trans (agree.pushed file), ?_, ?_, opens.opened agree.opened,
    agree.alone⟩
  · intro file own
    have before := (others file).mp own
    have apart : file ≠ transfer.file := fun same => foreign (same ▸ before)
    rw [opens.files, Function.update_of_ne apart]
    exact agree.files file before
  · intro other
    rw [← agree.owned other]
    by_cases same : other = id
    · subst same
      rw [State.owned_none (s := s), State.owned_none]
      · intro new found own
        rw [opens.transfers, Function.update_self, Option.some.injEq] at found
        exact foreign ((others _).mp (found ▸ own))
      · intro old found own
        rw [freeTransfer old found, Option.some.injEq] at own
        exact apart own
    · exact State.owned_congr (by rw [opens.transfers, Function.update_of_ne same])
        (fun old _ => others old.file)

theorem FileAgree.opens_own (agree : FileAgree d s s') {t' : State File}
    (opens : Opens s t d id transfer) (opens' : Opens s' t' d id transfer)
    (free : FreeFile s d transfer.file) : FileAgree d t t' := by
  refine ⟨?_, ?_, ?_, opens.opened agree.opened, ?_⟩
  · intro file
    rw [opens.pushed, opens'.pushed]
    by_cases same : file = transfer.file
    · simp [same]
    · simp only [Function.update_of_ne same, agree.pushed]
  · intro file own
    rw [opens.files, opens'.files]
    by_cases same : file = transfer.file
    · simp [same]
    · rw [opens.pushed, Function.update_of_ne same] at own
      simp only [Function.update_of_ne same, agree.files file own]
  · intro other
    by_cases same : other = id
    · subst same
      rw [opens.owned_new, opens'.owned_new]
    · calc t.owned d other
        _ = s.owned d other := State.owned_congr
            (by rw [opens.transfers, Function.update_of_ne same])
            (fun old found => opens.pushed_iff free old.file (agree.opened other old found) d)
        _ = s'.owned d other := agree.owned other
        _ = t'.owned d other := (State.owned_congr
            (by rw [opens'.transfers, Function.update_of_ne same])
            (fun old found => iff_of_true (opens'.pushed_own (agree.alone other old found))
              (agree.alone other old found))).symm
  · intro other old found
    by_cases same : other = id
    · subst same
      rw [opens'.transfers, Function.update_self, Option.some.injEq] at found
      rw [opens'.pushed, ← found, Function.update_self]
    · rw [opens'.transfers, Function.update_of_ne same] at found
      exact opens'.pushed_own (agree.alone other old found)

section
variable {after : Option (Transfer File)} {content : Bytes}
  (writes : Writes s t id transfer after content)
  (file : ∀ moved, after = some moved → moved.file = transfer.file)
include writes file

/-- A handle stays on its file. -/
theorem Writes.same_file (found : s.table.transfers id = some transfer) :
    ∀ other new, t.table.transfers other = some new →
      ∃ old, s.table.transfers other = some old ∧ new.file = old.file := by
  intro other new present
  rw [writes.transfers] at present
  by_cases same : other = id
  · subst same
    rw [Function.update_self] at present
    exact ⟨transfer, found, file new present⟩
  · rw [Function.update_of_ne same] at present
    exact ⟨new, present, rfl⟩

theorem Writes.owned_other (found : s.table.transfers id = some transfer)
    (foreign : s.pushed transfer.file ≠ some d) (other : UInt32) :
    t.owned d other = s.owned d other := by
  by_cases same : other = id
  · subst same
    rw [State.owned_none (s := s), State.owned_none]
    · intro new present
      obtain ⟨old, found', moved⟩ := writes.same_file file found other new present
      rw [moved, writes.pushed, ← Option.some.inj (found.symm.trans found')]
      exact foreign
    · intro old found'
      rw [← Option.some.inj (found.symm.trans found')]
      exact foreign
  · exact State.owned_congr (by rw [writes.transfers, Function.update_of_ne same])
      (fun old _ => by rw [writes.pushed])

theorem Writes.owned_own (own : s.pushed transfer.file = some d) : t.owned d id = after := by
  cases moved : after with
  | none =>
    apply State.owned_none
    intro new present
    rw [writes.transfers, Function.update_self, moved] at present
    cases present
  | some new =>
    refine State.owned_eq ?_ ?_
    · rw [writes.transfers, Function.update_self, moved]
    · rw [writes.pushed, file new moved, own]

end

theorem FileAgree.writes_other (agree : FileAgree d s s')
    (writes : Writes s t id transfer after content) (apart : conn ≠ d)
    (found : s.table.transfers id = some transfer) (owner : s.pushed transfer.file = some conn)
    (file : ∀ moved, after = some moved → moved.file = transfer.file) : FileAgree d t s' := by
  have foreign : s.pushed transfer.file ≠ some d := by
    rw [owner, ne_eq, Option.some.injEq]
    exact apart
  refine ⟨?_, ?_, ?_, ?_, agree.alone⟩
  · rw [writes.pushed]
    exact agree.pushed
  · intro other own
    rw [writes.pushed] at own
    have different : other ≠ transfer.file := fun same => foreign (same ▸ own)
    rw [writes.files, Function.update_of_ne different]
    exact agree.files other own
  · intro other
    rw [writes.owned_other file found foreign, agree.owned]
  · intro other new present
    obtain ⟨old, found', moved⟩ := writes.same_file file found other new present
    rw [moved, writes.pushed]
    exact agree.opened other old found'

theorem FileAgree.writes_own (agree : FileAgree d s s') {t' : State File}
    (writes : Writes s t id transfer after content)
    (writes' : Writes s' t' id transfer after content)
    (found : s.table.transfers id = some transfer) (found' : s'.table.transfers id = some transfer)
    (own : s.pushed transfer.file = some d)
    (file : ∀ moved, after = some moved → moved.file = transfer.file) : FileAgree d t t' := by
  refine ⟨?_, ?_, ?_, ?_, ?_⟩
  · rw [writes.pushed, writes'.pushed]
    exact agree.pushed
  · intro other owned
    rw [writes.pushed] at owned
    rw [writes.files, writes'.files]
    by_cases same : other = transfer.file
    · simp [same]
    · simp only [Function.update_of_ne same, agree.files other owned]
  · intro other
    by_cases same : other = id
    · subst same
      rw [writes.owned_own file own, writes'.owned_own file ((agree.pushed _).mp own)]
    · calc t.owned d other
        _ = s.owned d other := State.owned_congr
            (by rw [writes.transfers, Function.update_of_ne same])
            (fun _ _ => by rw [writes.pushed])
        _ = s'.owned d other := agree.owned other
        _ = t'.owned d other := (State.owned_congr
            (by rw [writes'.transfers, Function.update_of_ne same])
            (fun _ _ => by rw [writes'.pushed])).symm
  · intro other new present
    obtain ⟨old, known, moved⟩ := writes.same_file file found other new present
    rw [moved, writes.pushed]
    exact agree.opened other old known
  · intro other new present
    obtain ⟨old, known, moved⟩ := writes'.same_file file found' other new present
    rw [moved, writes'.pushed]
    exact agree.alone other old known

theorem FileAgree.effect_own (agree : FileAgree d s s') (file : File) (content : Option Bytes) :
    FileAgree d { s with table.files := Function.update s.table.files file content }
      { s' with table.files := Function.update s'.table.files file content } where
  pushed := agree.pushed
  files := by
    intro other own
    by_cases same : other = file
    · simp [same]
    · simp only [Function.update_of_ne same]
      exact agree.files other own
  owned := agree.owned
  opened := agree.opened
  alone := agree.alone

theorem FileAgree.effect_other (agree : FileAgree d s s') (apart : conn ≠ d)
    (free : FreeFile s conn file) (content : Option Bytes) :
    FileAgree d { s with table.files := Function.update s.table.files file content } s' where
  pushed := agree.pushed
  files := by
    intro other own
    have different : other ≠ file := fun same => apart (free d (same ▸ own)).symm
    simp only [Function.update_of_ne different]
    exact agree.files other own
  owned := agree.owned
  opened := agree.opened
  alone := agree.alone

end

end LanLink.Host
