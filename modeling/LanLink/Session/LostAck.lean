import LanLink.Session.Push

/-! The retry loop of a push after the acknowledgement of a chunk was lost: it goes on as long as
the daemon's transfer is open, and the last chunk closes it. -/
namespace LanLink.FileTransfer
open Words LanLink.Control LanLink.Files

variable {File : Type} [DecidableEq File] {resolve : String → File} {p : Push} {s t : System File}

/-- The client still asks for a chunk of a closed transfer, or has given up. -/
structure Unheard (p : Push) (offset : Nat) (s : System File) : Prop where
  asking : s.client = .failed ∨ ∃ retry, s.client = .sending offset retry ∨
    s.client = .waiting offset retry
  closed : s.table.transfers p.fileId = none
  net : ∀ msg ∈ s.net, msg = p.chunk offset

theorem Unheard.step (unheard : Unheard p offset s) (stepped : s.step resolve p action = some t) :
    Unheard p offset t := by
  obtain ⟨asking, closed, net⟩ := unheard
  have fewer (i : Nat) : ∀ msg ∈ s.net.eraseIdx i, msg = p.chunk offset :=
    fun msg member => net msg (List.mem_of_mem_eraseIdx member)
  cases action with
  | «open» sent =>
    rcases asking with failed | ⟨retry, sending | waiting⟩
    · simp [System.step, failed] at stepped
    · simp [System.step, sending] at stepped
    · simp [System.step, waiting] at stepped
  | sendChunk sent =>
    rcases asking with failed | ⟨retry, sending | waiting⟩
    · simp [System.step, failed] at stepped
    · simp only [System.step, sending] at stepped
      split at stepped
      · obtain rfl := Option.some.inj stepped
        refine ⟨.inr ⟨retry, .inr rfl⟩, closed, fun msg member => ?_⟩
        rcases List.mem_append.mp member with member | member
        · exact net msg member
        · exact List.mem_singleton.mp member
      · obtain rfl := Option.some.inj stepped
        exact ⟨.inl rfl, closed, net⟩
    · simp [System.step, waiting] at stepped
  | timeout =>
    rcases asking with failed | ⟨retry, sending | waiting⟩
    · simp [System.step, failed] at stepped
    · simp [System.step, sending] at stepped
    · simp only [System.step, waiting, Option.some.injEq] at stepped
      subst stepped
      refine ⟨?_, closed, net⟩
      dsimp only
      split
      · exact .inr ⟨retry + 1, .inl rfl⟩
      · exact .inl rfl
  | deliver i outcome =>
    cases found : s.net[i]? with
    | none => simp [System.step, System.deliver, found] at stepped
    | some msg =>
      have chunk := net msg (List.mem_of_getElem? found)
      simp only [System.step, System.deliver, found, chunk, Push.chunk, FileTable.fileChunk,
        closed, System.answer, Option.some.injEq] at stepped
      subst stepped
      refine ⟨asking, closed, fun msg member => ?_⟩
      exact fewer i msg (by simpa using member)
  | duplicate i =>
    simp only [System.step, Option.map_eq_some_iff] at stepped
    obtain ⟨msg, found, rfl⟩ := stepped
    refine ⟨asking, closed, fun other member => ?_⟩
    rcases List.mem_append.mp member with member | member
    · exact net other member
    · rw [List.mem_singleton.mp member]
      exact net msg (List.mem_of_getElem? found)
  | lose i =>
    simp only [System.step, Option.map_eq_some_iff] at stepped
    obtain ⟨msg, found, rfl⟩ := stepped
    exact ⟨asking, closed, fewer i⟩

/-- Sending the chunk again brings the acknowledgement, as long as the transfer is open. -/
theorem resent_acknowledged (resolve : String → File) (waiting : s.client = .waiting offset retry)
    (budget : retry + 1 < 4) (inside : offset < p.total) (quiet : s.net = [])
    (opened : (s.table.transfers p.fileId).isSome) :
    ∃ t, Runs.exec (System.step resolve p) s
      [.timeout, .sendChunk true, .deliver 0 succeeds, .deliver 0 succeeds] = some t ∧
      t.client = p.loop (p.chunkEnd offset) := by
  obtain ⟨transfer, found⟩ := Option.isSome_iff_exists.mp opened
  have acked : (s.table.fileChunk p.fileId offset.toUInt64
      ((p.data.drop offset).take (p.chunkEnd offset - offset)) succeeds).2 =
        some (.fileAck p.fileId (p.chunkEnd offset).toUInt64) := by
    simp only [FileTable.fileChunk, found]
    rcases transfer.handleChunk_reply p.fileId offset.toUInt64
        ((p.data.drop offset).take (p.chunkEnd offset - offset)) succeeds with silent | ⟨-, reply⟩
    · simp only [Transfer.handleChunk, succeeds, Option.isSome_none, Bool.false_eq_true,
        if_false] at silent
      split at silent <;> cases silent
    · rw [reply, chunk_ack inside]
  have covers : p.chunkEnd offset ≤ (p.chunkEnd offset).toUInt64.toNat :=
    (toNat_offset (chunkEnd_le p offset)).ge
  let sending : System File := { s with client := .sending offset (retry + 1) }
  let resent : System File := { s with client := .waiting offset (retry + 1), net := [p.chunk offset] }
  let answered := resent.answer 0 (s.table.fileChunk p.fileId offset.toUInt64
    ((p.data.drop offset).take (p.chunkEnd offset - offset)) succeeds)
  have timeout : s.step resolve p .timeout = some sending := by
    simp [System.step, waiting, budget, sending]
  have sent : sending.step resolve p (.sendChunk true) = some resent := by
    simp [System.step, quiet, sending, resent]
  have delivered : resent.step resolve p (.deliver 0 succeeds) = some answered := rfl
  have reply : answered.net[0]? = some (.fileAck p.fileId (p.chunkEnd offset).toUInt64) := by
    simp only [answered, System.answer, acked]
    rfl
  let past : System File := { answered with
    client := p.loop (p.chunkEnd offset), net := answered.net.eraseIdx 0 }
  have heard : answered.step resolve p (.deliver 0 succeeds) = some past := by
    have client : answered.client = .waiting offset (retry + 1) := rfl
    simp only [System.step, System.deliver, reply, client, Client.receive, covers, and_self, if_true]
    rfl
  refine ⟨past, Runs.exec_cons.mpr ⟨sending, timeout, ?_⟩, rfl⟩
  apply Runs.exec_cons.mpr ⟨resent, sent, Runs.exec_cons.mpr ⟨answered, delivered, ?_⟩⟩
  exact Runs.exec_cons.mpr ⟨past, heard, rfl⟩

/-- With no packet left, the client gets past the chunk exactly if its transfer is open. The
packets of the run are ones that the daemon's limit on commands lets through. -/
theorem lost_ack_iff (resolve : String → File) (waiting : s.client = .waiting offset retry)
    (budget : retry + 1 < 4) (inside : offset < p.total) (quiet : s.net = []) :
    (∃ actions t, Runs.exec (System.step resolve p) s actions = some t ∧
      t.client = p.loop (p.chunkEnd offset)) ↔ (s.table.transfers p.fileId).isSome := by
  constructor
  · rintro ⟨actions, t, run, past⟩
    by_contra shut
    have unheard : Unheard p offset s :=
      ⟨.inr ⟨retry, .inr waiting⟩, Option.not_isSome_iff_eq_none.mp shut,
        fun msg member => by rw [quiet] at member; cases member⟩
    have after := Runs.invariant (fun kept stepped => Unheard.step kept stepped) run unheard
    have further : offset < p.chunkEnd offset := by
      rw [Push.chunkEnd, chunkSize]
      omega
    have kept := after.asking
    rw [past, Push.loop] at kept
    split at kept
    · simp only [reduceCtorEq, Client.sending.injEq, false_or, or_false] at kept
      obtain ⟨_, same, -⟩ := kept
      omega
    · simp at kept
  · intro opened
    obtain ⟨t, run, past⟩ := resent_acknowledged resolve waiting budget inside quiet opened
    exact ⟨_, t, run, past⟩

/-- The acknowledgement of the only chunk is lost: the file is there, and the push fails. -/
theorem last_ack_lost : ∃ s,
    Runs.exec (System.step (fun path => path) oneByte) (System.start noFiles)
      [.open true, .deliver 0 succeeds, .sendChunk true, .deliver 1 succeeds, .lose 0, .lose 0] =
        some s ∧ s.table.files "/tmp/copy" = some [7] ∧
      ∀ actions t, Runs.exec (System.step (fun path => path) oneByte) s actions = some t →
        t.client ≠ .done := by
  refine ⟨_, rfl, rfl, fun actions t run done => ?_⟩
  have opened := (lost_ack_iff (fun path => path) rfl (by decide) (by decide) rfl).mp
    ⟨actions, t, run, done⟩
  cases opened

end LanLink.FileTransfer
