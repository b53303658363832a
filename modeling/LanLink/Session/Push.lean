import LanLink.Core.Runs
import LanLink.Daemon.Files

/-! Pushing a file: the client's loop over the chunks, the packets on their way
and the daemon's table of transfers. Packets may be lost, doubled and delivered
in any order; a packet that a limiter of the daemon rejects is a lost one. -/
namespace LanLink.FileTransfer
open Words LanLink.Control LanLink.Files

def chunkSize : Nat := 1024

/-- One call of `cmdPush` with the bytes read from the local file. -/
structure Push where
  fileId : UInt32
  remote : String
  data : Bytes
  /-- No vector is longer. -/
  addressable : data.length < 2 ^ 63

namespace Push
variable (p : Push)

def total : Nat := p.data.length

def opening : ControlMsg := .filePush p.fileId p.remote p.total.toUInt64

def chunkEnd (offset : Nat) : Nat := min (offset + chunkSize) p.total

def chunk (offset : Nat) : ControlMsg :=
  .fileChunk p.fileId offset.toUInt64 ((p.data.drop offset).take (p.chunkEnd offset - offset))

end Push

/-- Where `cmdPush` is: before its first packet, before a chunk of the loop or
waiting for its acknowledgement, and at the end with or without an error. -/
inductive Client where
  | start
  | sending (offset retry : Nat)
  | waiting (offset retry : Nat)
  | done
  | failed
  deriving DecidableEq

/-- The head of the loop over the chunks. -/
def Push.loop (p : Push) (offset : Nat) : Client :=
  if offset < p.total then .sending offset 0 else .done

/-- Acknowledgements of other files and of earlier offsets are skipped. -/
def Client.receive (p : Push) (offset retry : Nat) (id : UInt32) (ackOff : UInt64) : Client :=
  if id = p.fileId ∧ p.chunkEnd offset ≤ ackOff.toNat then p.loop (p.chunkEnd offset)
  else .waiting offset retry

/-- The client, the packets in flight and the daemon. -/
structure System (File : Type) where
  client : Client
  net : List ControlMsg
  table : FileTable File

inductive Action where
  | open (sent : Bool)
  | sendChunk (sent : Bool)
  | timeout
  | deliver (i : Nat) (outcome : Outcome)
  | duplicate (i : Nat)
  | lose (i : Nat)

section
variable {File : Type} [DecidableEq File]

/-- A packet leaves the net and its answer enters it. -/
def System.answer (s : System File) (i : Nat) (handled : FileTable File × Option ControlMsg) :
    System File :=
  { s with net := s.net.eraseIdx i ++ handled.2.toList, table := handled.1 }

def System.deliver (resolve : String → File) (p : Push) (s : System File) (i : Nat)
    (outcome : Outcome) : Option (System File) :=
  match s.net[i]? with
  | some (.filePush id path size) =>
    some (s.answer i (s.table.filePush resolve id path size outcome.opened))
  | some (.fileChunk id offset chunk) =>
    some (s.answer i (s.table.fileChunk id offset chunk outcome))
  | some (.fileAck id ackOff) =>
    match s.client with
    | .waiting offset retry =>
      some { s with client := Client.receive p offset retry id ackOff, net := s.net.eraseIdx i }
    | .done | .failed => some { s with net := s.net.eraseIdx i }
    -- it stays in the socket until the client waits
    | .start | .sending _ _ => none
  | _ => none

def System.step (resolve : String → File) (p : Push) (s : System File) :
    Action → Option (System File)
  | .open sent =>
    match s.client with
    | .start =>
      if sent then some { s with client := p.loop 0, net := s.net ++ [p.opening] }
      else some { s with client := .failed }
    | _ => none
  | .sendChunk sent =>
    match s.client with
    | .sending offset retry =>
      if sent then some { s with client := .waiting offset retry, net := s.net ++ [p.chunk offset] }
      else some { s with client := .failed }
    | _ => none
  | .timeout =>
    match s.client with
    | .waiting offset retry =>
      some { s with client := if retry + 1 < 4 then .sending offset (retry + 1) else .failed }
    | _ => none
  | .deliver i outcome => s.deliver resolve p i outcome
  | .duplicate i => s.net[i]?.map fun msg => { s with net := s.net ++ [msg] }
  | .lose i => s.net[i]?.map fun _ => { s with net := s.net.eraseIdx i }

end

section
variable {File : Type}

def System.start (table : FileTable File) : System File := ⟨.start, [], table⟩

/-- After a successful push, with no packet left, the remote file is the local one. -/
def Delivered (resolve : String → File) (p : Push) (s : System File) : Prop :=
  s.client = .done → s.net = [] → s.table.files (resolve p.remote) = some p.data

/-- The bytes the client takes as acknowledged. -/
def Client.progress (p : Push) : Client → Nat
  | .start | .failed => 0
  | .sending offset _ | .waiting offset _ => offset
  | .done => p.total

def isFilePush : ControlMsg → Bool
  | .filePush _ _ _ => true
  | _ => false

def isFileChunk : ControlMsg → Bool
  | .fileChunk _ _ _ => true
  | _ => false

def acknowledges : ControlMsg → Bool
  | .fileAck _ ackOff => 0 < ackOff
  | _ => false

/-- No chunk is acknowledged, neither to the client nor by a packet in flight. -/
def Unconfirmed (p : Push) (s : System File) : Prop :=
  s.client.progress p = 0 ∧ ∀ msg ∈ s.net, ¬ acknowledges msg

/-- The transfer is open, or another packet in flight can still open it. -/
def Secured (p : Push) (s : System File) (i : Nat) : Prop :=
  (s.table.transfers p.fileId).isSome ∨ (s.net.eraseIdx i).any isFilePush

/-- The file is opened only while no chunk of it is acknowledged; an empty file
is opened at all; the position of a chunk can be set. -/
def Allowed (p : Push) (s : System File) (i : Nat) (outcome : Outcome) (msg : ControlMsg) : Prop :=
  (isFilePush msg →
    (outcome.opened → Unconfirmed p s) ∧ (p.data = [] → outcome.opened ∨ Secured p s i)) ∧
  (isFileChunk msg → outcome.sought)

/-- After a failed push nothing is asked for. -/
def Orderly (p : Push) (s : System File) : Action → Prop
  | .deliver i outcome => s.client = .failed ∨ ∀ msg ∈ s.net[i]?, Allowed p s i outcome msg
  | .lose i => s.client = .failed ∨
      ∀ msg ∈ s.net[i]?, p.data = [] → isFilePush msg → Secured p s i
  | .open _ | .sendChunk _ | .timeout | .duplicate _ => True

instance (p : Push) (s : System File) : Decidable (Unconfirmed p s) :=
  inferInstanceAs (Decidable (_ ∧ _))

instance (p : Push) (s : System File) (i : Nat) : Decidable (Secured p s i) :=
  inferInstanceAs (Decidable (_ ∨ _))

instance (p : Push) (s : System File) (i : Nat) (outcome : Outcome) (msg : ControlMsg) :
    Decidable (Allowed p s i outcome msg) :=
  inferInstanceAs (Decidable (_ ∧ _))

instance (p : Push) (s : System File) : (action : Action) → Decidable (Orderly p s action)
  | .deliver _ _ => inferInstanceAs (Decidable (_ ∨ _))
  | .lose _ => inferInstanceAs (Decidable (_ ∨ _))
  | .open _ | .sendChunk _ | .timeout | .duplicate _ => isTrue trivial

/-- The packets of a push: its first one, the chunks the client has come to and
acknowledgements of bytes that are in the file. -/
inductive Sound (p : Push) (progress written : Nat) : ControlMsg → Prop where
  | opening : Sound p progress written p.opening
  | chunk (offset : Nat) (reached : offset ≤ progress) (inside : offset < p.total) :
      Sound p progress written (p.chunk offset)
  | ack (offset : Nat) (stored : offset ≤ written) :
      Sound p progress written (.fileAck p.fileId offset.toUInt64)

theorem Sound.mono (sound : Sound p progress written msg) (forward : progress ≤ progress')
    (more : written ≤ written') : Sound p progress' written' msg := by
  cases sound with
  | opening => exact .opening
  | chunk offset reached inside => exact .chunk offset (reached.trans forward) inside
  | ack offset stored => exact .ack offset (stored.trans more)

/-- Where the file stands: its first `written` bytes are there as soon as the
transfer is open or something was written. -/
structure Stored (resolve : String → File) (p : Push) (s : System File) (written : Nat) : Prop where
  known : ∀ msg ∈ s.net, Sound p (s.client.progress p) written msg
  confirmed : s.client.progress p ≤ written
  bounded : written ≤ p.total
  inside : ∀ offset retry, s.client = .sending offset retry ∨ s.client = .waiting offset retry →
    offset < p.total
  handle : ∀ transfer, s.table.transfers p.fileId = some transfer →
    transfer.file = resolve p.remote
  content : (s.table.transfers p.fileId).isSome ∨ 0 < written →
    s.table.files (resolve p.remote) = some (p.data.take written)
  secured : p.data = [] → s.client = .start ∨ (s.table.transfers p.fileId).isSome ∨
    s.net.any isFilePush

/-- A push that failed promises nothing. -/
def Progressing (resolve : String → File) (p : Push) (s : System File) : Prop :=
  s.client = .failed ∨ ∃ written, Stored resolve p s written

variable {resolve : String → File} {p : Push} {s t : System File} {written : Nat}

theorem chunkEnd_le (p : Push) (offset : Nat) : p.chunkEnd offset ≤ p.total := Nat.min_le_right _ _

theorem le_chunkEnd (inside : offset < p.total) : offset ≤ p.chunkEnd offset := by
  rw [Push.chunkEnd]
  omega

theorem loop_progress (inside : offset ≤ p.total) : (p.loop offset).progress p = offset := by
  rw [Push.loop]
  split
  · rfl
  · simp only [Client.progress]
    omega

theorem loop_inside (p : Push) (start offset retry : Nat)
    (at_loop : p.loop start = .sending offset retry ∨ p.loop start = .waiting offset retry) :
    offset < p.total := by
  rw [Push.loop] at at_loop
  split at at_loop
  · rename_i inside
    simp only [Client.sending.injEq, reduceCtorEq, or_false] at at_loop
    exact at_loop.1 ▸ inside
  · simp at at_loop

theorem toNat_offset (small : offset ≤ p.total) : offset.toUInt64.toNat = offset := by
  have bound := p.addressable
  rw [Push.total] at small
  exact toUInt64_toNat (by omega)

theorem Stored.delivered (stored : Stored resolve p s written) : Delivered resolve p s := by
  intro done empty
  have whole : written = p.total := by
    have confirmed := stored.confirmed
    rw [done] at confirmed
    exact Nat.le_antisymm stored.bounded confirmed
  have opened : (s.table.transfers p.fileId).isSome ∨ 0 < written := by
    by_cases none : p.data = []
    · rcases stored.secured none with start | isOpen | flying
      · simp [done] at start
      · exact Or.inl isOpen
      · simp [empty] at flying
    · exact Or.inr (whole ▸ List.length_pos_iff.mpr none)
  rw [stored.content opened, whole, Push.total, List.take_length]

theorem start_progressing (resolve : String → File) (p : Push) (table : FileTable File)
    (fresh : table.transfers p.fileId = none) : Progressing resolve p (.start table) := by
  refine Or.inr ⟨0, by simp [System.start], by simp [System.start, Client.progress], by omega,
    by simp [System.start], ?_, ?_, fun _ => Or.inl rfl⟩
  · intro transfer found
    simp [System.start, fresh] at found
  · simp [System.start, fresh]

/-- The net may change as long as the packets in it are sound. -/
theorem Stored.with_net (stored : Stored resolve p s written) (net : List ControlMsg)
    (known : ∀ msg ∈ net, Sound p (s.client.progress p) written msg)
    (secured : p.data = [] → s.client = .start ∨ (s.table.transfers p.fileId).isSome ∨
      net.any isFilePush) : Stored resolve p { s with net := net } written where
  known := known
  confirmed := stored.confirmed
  bounded := stored.bounded
  inside := stored.inside
  handle := stored.handle
  content := stored.content
  secured := secured

theorem Stored.taken (stored : Stored resolve p s written) (i : Nat) :
    ∀ msg ∈ s.net.eraseIdx i, Sound p (s.client.progress p) written msg :=
  fun msg member => stored.known msg (List.mem_of_mem_eraseIdx member)

theorem any_eraseIdx {net : List ControlMsg} (some : net.any isFilePush)
    (found : net[i]? = Option.some msg) (other : ¬ isFilePush msg) :
    (net.eraseIdx i).any isFilePush := by
  obtain ⟨packet, member, opens⟩ := List.any_eq_true.mp some
  obtain ⟨j, inside, rfl⟩ := List.mem_iff_getElem.mp member
  refine List.any_eq_true.mpr ⟨_, List.mem_eraseIdx_iff_getElem?.mpr ⟨j, ?_,
    List.getElem?_eq_getElem inside⟩, opens⟩
  rintro rfl
  rw [List.getElem?_eq_getElem inside] at found
  exact other (Option.some.inj found ▸ opens)

/-- A packet that does not open the file may be lost. -/
theorem Stored.lost (stored : Stored resolve p s written) (found : s.net[i]? = some msg)
    (secured : p.data = [] → isFilePush msg → Secured p s i) :
    Stored resolve p { s with net := s.net.eraseIdx i } written := by
  apply stored.with_net _ (stored.taken i)
  intro none
  by_cases opens : isFilePush msg
  · exact Or.inr (secured none opens)
  · rcases stored.secured none with start | isOpen | flying
    · exact Or.inl start
    · exact Or.inr (Or.inl isOpen)
    · exact Or.inr (Or.inr (any_eraseIdx flying found opens))

theorem Stored.sent (stored : Stored resolve p s written)
    (sound : Sound p (s.client.progress p) written msg) :
    Stored resolve p { s with net := s.net ++ [msg] } written := by
  refine stored.with_net _ ?_ ?_
  · intro other member
    rcases List.mem_append.mp member with old | new
    · exact stored.known other old
    · exact List.mem_singleton.mp new ▸ sound
  · intro none
    refine (stored.secured none).imp_right (Or.imp_right fun flying => ?_)
    simp [flying]

/-- The client moves inside the bytes that are in the file. -/
theorem Stored.moved (stored : Stored resolve p s written) (client : Client)
    (forward : s.client.progress p ≤ client.progress p) (confirmed : client.progress p ≤ written)
    (inside : ∀ offset retry, client = .sending offset retry ∨ client = .waiting offset retry →
      offset < p.total)
    (secured : p.data = [] → (s.table.transfers p.fileId).isSome ∨ s.net.any isFilePush) :
    Stored resolve p { s with client := client } written where
  known := fun msg member => (stored.known msg member).mono forward (Nat.le_refl _)
  confirmed := confirmed
  bounded := stored.bounded
  inside := inside
  handle := stored.handle
  content := stored.content
  secured := fun none => Or.inr (secured none)

theorem Stored.begun (stored : Stored resolve p s written) (begun : s.client ≠ .start)
    (none : p.data = []) : (s.table.transfers p.fileId).isSome ∨ s.net.any isFilePush :=
  (stored.secured none).resolve_left begun

/-- The client that waits for an acknowledgement takes one of written bytes only. -/
theorem Stored.received (stored : Stored resolve p s written)
    (waits : s.client = .waiting offset retry) (inFile : ackOff ≤ written) :
    Stored resolve p { s with client := Client.receive p offset retry p.fileId ackOff.toUInt64 }
      written := by
  have inside := stored.inside offset retry (Or.inr waits)
  have progress : s.client.progress p = offset := by simp [waits, Client.progress]
  rw [Client.receive]
  split
  · rename_i acked
    have reaches : p.chunkEnd offset ≤ ackOff := by
      simpa only [toNat_offset (inFile.trans stored.bounded)] using acked.2
    have loops := loop_progress (chunkEnd_le p offset)
    refine stored.moved _ ?_ ?_ (loop_inside p _) (stored.begun (by simp [waits]))
    · rw [progress, loops]
      exact le_chunkEnd inside
    · rw [loops]
      exact reaches.trans inFile
  · rw [← waits]
    exact stored

/-- What reaches the file of a chunk is a piece of the local file. -/
theorem written_piece (p : Push) (outcome : Outcome) (offset : Nat) :
    ∃ m ≤ p.chunkEnd offset - offset,
      outcome.written ((p.data.drop offset).take (p.chunkEnd offset - offset)) =
        (p.data.drop offset).take m ∧
      (outcome.failedAfter = none → m = p.chunkEnd offset - offset) := by
  rw [Outcome.written]
  split
  · rename_i n failed
    exact ⟨min n (p.chunkEnd offset - offset), Nat.min_le_right _ _, List.take_take ..,
      fun none => (nomatch failed.symm.trans none)⟩
  · exact ⟨_, Nat.le_refl _, rfl, fun _ => rfl⟩

theorem chunk_ack (inside : offset < p.total) :
    offset.toUInt64 + ((p.data.drop offset).take (p.chunkEnd offset - offset)).length.toUInt64 =
      (p.chunkEnd offset).toUInt64 := by
  have last := chunkEnd_le p offset
  have first := le_chunkEnd inside
  have length : ((p.data.drop offset).take (p.chunkEnd offset - offset)).length =
      p.chunkEnd offset - offset := by
    rw [Push.total] at last
    rw [List.length_take, List.length_drop]
    omega
  rw [length]
  calc offset.toUInt64 + (p.chunkEnd offset - offset).toUInt64
    _ = (offset + (p.chunkEnd offset - offset)).toUInt64 := (UInt64.ofNat_add _ _).symm
    _ = (p.chunkEnd offset).toUInt64 := by rw [Nat.add_sub_cancel' first]

section
variable [DecidableEq File]

/-- Opening the file before a chunk is acknowledged starts it again. -/
theorem Stored.opened (stored : Stored resolve p s written) (unconfirmed : Unconfirmed p s)
    (i : Nat) (size : UInt64) :
    Stored resolve p (s.answer i (s.table.filePush resolve p.fileId p.remote size true)) 0 where
  known := by
    intro msg member
    rcases List.mem_append.mp member with old | new
    · have sound := stored.taken i msg old
      cases sound with
      | opening => exact .opening
      | chunk offset reached inside => exact .chunk offset reached inside
      | ack offset inFile =>
        have zero := unconfirmed.2 _ (List.mem_of_mem_eraseIdx old)
        have small := toNat_offset (inFile.trans stored.bounded)
        simp only [acknowledges, UInt64.lt_iff_toNat_lt, small, decide_eq_true_eq] at zero
        exact .ack offset (Nat.le_of_not_lt zero)
    · simp only [FileTable.filePush, if_true, Option.toList_some, List.mem_singleton] at new
      subst new
      exact .ack 0 (Nat.le_refl _)
  confirmed := Nat.le_of_eq unconfirmed.1
  bounded := Nat.zero_le _
  inside := stored.inside
  handle := by
    intro transfer found
    simp only [System.answer, FileTable.filePush, if_true, Function.update_self,
      Option.some.injEq] at found
    rw [← found]
  content := fun _ => by simp [System.answer, FileTable.filePush]
  secured := fun _ => by simp [System.answer, FileTable.filePush]

/-- A chunk extends the written bytes or repeats some of them. -/
theorem Stored.wrote (stored : Stored resolve p s written)
    (found : s.table.transfers p.fileId = some transfer) (reached : offset ≤ s.client.progress p)
    (inside : offset < p.total) (outcome : Outcome) (sought : outcome.sought) (i : Nat) :
    ∃ more, Stored resolve p (s.answer i (s.table.fileChunk p.fileId offset.toUInt64
      ((p.data.drop offset).take (p.chunkEnd offset - offset)) outcome)) more := by
  obtain ⟨m, short, piece, whole⟩ := written_piece p outcome offset
  have last := chunkEnd_le p offset
  have first := le_chunkEnd inside
  have bounded := stored.bounded
  have before := stored.content (Or.inl (by simp [found]))
  have target := stored.handle transfer found
  simp only [FileTable.fileChunk, found]
  have grown : written ≤ max written (offset + m) := Nat.le_max_left _ _
  refine ⟨max written (offset + m), ?_, stored.confirmed.trans grown, by omega, stored.inside,
    ?_, ?_, ?_⟩
  · intro msg member
    rcases List.mem_append.mp member with old | new
    · exact (stored.taken i msg old).mono (Nat.le_refl _) grown
    · rcases transfer.handleChunk_reply p.fileId offset.toUInt64
        ((p.data.drop offset).take (p.chunkEnd offset - offset)) outcome with
        none | ⟨complete, acked⟩
      · simp [none] at new
      · simp only [acked, chunk_ack inside, Option.toList_some, List.mem_singleton] at new
        subst new
        refine .ack _ ?_
        rw [whole complete, Nat.add_sub_cancel' first]
        exact Nat.le_max_right _ _
  · intro after same
    simp only [System.answer, Function.update_self] at same
    exact (Transfer.handleChunk_file same).trans target
  · intro _
    have start : transfer.seek offset.toUInt64 outcome.sought = offset := by
      rw [Transfer.seek, if_pos sought, toNat_offset inside.le]
    simp only [System.answer, start, piece, target, Function.update_self, before, Option.getD_some]
    rw [writeAt_take (reached.trans stored.confirmed) bounded (by unfold Push.total at last; omega)]
  · intro none
    simp [Push.total, none] at inside

theorem deliver_progressing (stored : Stored resolve p s written) (running : s.client ≠ .failed)
    (orderly : Orderly p s (.deliver i outcome))
    (stepped : s.deliver resolve p i outcome = some t) : Progressing resolve p t := by
  have allowed := orderly.resolve_left running
  rw [System.deliver] at stepped
  split at stepped
  · rename_i id path size found
    have allowed := (allowed _ found).1 rfl
    cases stepped
    have sound := stored.known _ (List.mem_of_getElem? found)
    cases sound
    by_cases opened : outcome.opened
    · rw [opened]
      exact Or.inr ⟨0, stored.opened (allowed.1 opened) i _⟩
    · refine Or.inr ⟨written, ?_⟩
      have lost := stored.lost found (fun none _ => (allowed.2 none).resolve_left opened)
      simpa [System.answer, FileTable.filePush, opened] using lost
  · rename_i id offset chunk found
    have allowed := (allowed _ found).2 rfl
    cases stepped
    have sound := stored.known _ (List.mem_of_getElem? found)
    cases sound with
    | chunk offset reached inside =>
      cases isOpen : s.table.transfers p.fileId with
      | some transfer => exact Or.inr (stored.wrote isOpen reached inside outcome allowed i)
      | none =>
        refine Or.inr ⟨written, ?_⟩
        have lost := stored.lost found (fun _ opens => (nomatch opens))
        simpa [System.answer, FileTable.fileChunk, isOpen] using lost
  · rename_i id ackOff found
    have sound := stored.known _ (List.mem_of_getElem? found)
    have lost := stored.lost found (fun _ opens => (nomatch opens))
    split at stepped
    · rename_i offset retry waits
      cases stepped
      cases sound with
      | ack offset inFile => exact Or.inr ⟨written, lost.received waits inFile⟩
    · cases stepped
      exact Or.inr ⟨written, lost⟩
    · cases stepped
      exact Or.inr ⟨written, lost⟩
    · cases stepped
    · cases stepped
  · cases stepped

theorem step_failed (failed : s.client = .failed) (stepped : s.step resolve p action = some t) :
    t.client = .failed := by
  cases action with
  | «open» sent => simp [System.step, failed] at stepped
  | sendChunk sent => simp [System.step, failed] at stepped
  | timeout => simp [System.step, failed] at stepped
  | deliver i outcome =>
    simp only [System.step, System.deliver, failed] at stepped
    split at stepped
    · cases stepped
      exact failed
    · cases stepped
      exact failed
    · cases stepped
      rfl
    · cases stepped
  | duplicate i | lose i =>
    simp only [System.step, Option.map_eq_some_iff] at stepped
    obtain ⟨_, _, rfl⟩ := stepped
    exact failed

theorem step_progressing (progressing : Progressing resolve p s) (orderly : Orderly p s action)
    (stepped : s.step resolve p action = some t) : Progressing resolve p t := by
  by_cases failed : s.client = .failed
  · exact Or.inl (step_failed failed stepped)
  obtain ⟨written, stored⟩ := progressing.resolve_left failed
  cases action with
  | «open» sent =>
    simp only [System.step] at stepped
    split at stepped
    · rename_i start
      split at stepped
      · cases stepped
        have loops := loop_progress (Nat.zero_le p.total)
        have progress : s.client.progress p = 0 := by simp [start, Client.progress]
        refine Or.inr ⟨written, (stored.sent .opening).moved _ (progress.trans loops.symm).le
          (loops.trans_le (Nat.zero_le _)) (loop_inside p 0) ?_⟩
        simp [Push.opening, isFilePush]
      · cases stepped
        exact Or.inl rfl
    · cases stepped
  | sendChunk sent =>
    simp only [System.step] at stepped
    split at stepped
    · rename_i offset retry sends
      split at stepped
      · cases stepped
        have inside := stored.inside offset retry (Or.inl sends)
        have progress : s.client.progress p = offset := by simp [sends, Client.progress]
        have sent := stored.sent (.chunk offset progress.ge inside)
        refine Or.inr ⟨written, sent.moved _ progress.le (progress ▸ stored.confirmed) ?_
          (sent.begun (by simp [sends]))⟩
        simp only [reduceCtorEq, Client.waiting.injEq, false_or]
        rintro _ _ ⟨rfl, rfl⟩
        exact inside
      · cases stepped
        exact Or.inl rfl
    · cases stepped
  | timeout =>
    simp only [System.step] at stepped
    split at stepped
    · rename_i offset retry waits
      cases stepped
      split
      · have inside := stored.inside offset retry (Or.inr waits)
        have progress : s.client.progress p = offset := by simp [waits, Client.progress]
        refine Or.inr ⟨written, stored.moved _ progress.le (progress ▸ stored.confirmed) ?_
          (stored.begun (by simp [waits]))⟩
        simp only [reduceCtorEq, Client.sending.injEq, or_false]
        rintro _ _ ⟨rfl, rfl⟩
        exact inside
      · exact Or.inl rfl
    · cases stepped
  | deliver i outcome => exact deliver_progressing stored failed orderly stepped
  | duplicate i =>
    simp only [System.step, Option.map_eq_some_iff] at stepped
    obtain ⟨msg, found, rfl⟩ := stepped
    exact Or.inr ⟨written, stored.sent (stored.known msg (List.mem_of_getElem? found))⟩
  | lose i =>
    simp only [System.step, Option.map_eq_some_iff] at stepped
    obtain ⟨msg, found, rfl⟩ := stepped
    exact Or.inr ⟨written, stored.lost found (orderly.resolve_left failed msg found)⟩

end

end

/-- In every run of a push whose steps are orderly, a successful push has
brought the file over. -/
theorem delivered_of_orderly {File : Type} [DecidableEq File] (resolve : String → File) (p : Push)
    (table : FileTable File) (fresh : table.transfers p.fileId = none) (actions : List Action)
    (s : System File)
    (run : Runs.exec (System.step resolve p) (System.start table) actions = some s)
    (orderly : Runs.Meets (System.step resolve p) (Orderly p) (System.start table) actions) :
    Delivered resolve p s := by
  have progressing := Runs.guarded_invariant step_progressing orderly run
    (start_progressing resolve p table fresh)
  intro done
  rcases progressing with failed | ⟨written, stored⟩
  · simp [done] at failed
  · exact stored.delivered done

def oneByte : Push := ⟨5, "/tmp/copy", [7], by decide⟩

def noFiles : FileTable String := ⟨fun _ => none, fun _ => none⟩

/-- The operating system answers every call with success. -/
def succeeds : Outcome := ⟨true, true, none⟩

/-- Every packet arrives once, in order. -/
def straight : List Action :=
  [.open true, .deliver 0 succeeds, .sendChunk true, .deliver 1 succeeds, .deliver 0 succeeds,
    .deliver 0 succeeds]

theorem delivered_of_orderly_straight : ∃ s,
    Runs.exec (System.step id oneByte) (System.start noFiles) straight = some s ∧
    s.client = .done ∧ s.table.files "/tmp/copy" = some [7] := by
  refine ⟨_, rfl, rfl, ?_⟩
  exact delivered_of_orderly id oneByte noFiles rfl straight _ rfl (by decide) rfl rfl

/-- The network doubles the first packet, and its copy arrives after the end. -/
def doubled : List Action :=
  [.open true, .duplicate 0, .deliver 0 succeeds, .sendChunk true, .deliver 2 succeeds,
    .deliver 1 succeeds, .deliver 1 succeeds, .deliver 0 succeeds, .deliver 0 succeeds]

theorem file_truncated : ∃ s,
    Runs.exec (System.step id oneByte) (System.start noFiles) doubled = some s ∧
    s.client = .done ∧ s.net = [] ∧ ¬ Delivered id oneByte s := by
  refine ⟨_, rfl, rfl, rfl, fun delivered => ?_⟩
  exact absurd (delivered rfl rfl) (by decide)

end LanLink.FileTransfer
