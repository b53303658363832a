import LanLink.Core.Runs
import LanLink.Session.Transparency

/-! Pulling a file: the client asks the daemon to read it and puts the output that comes
back into a local file. Over UDP a datagram may be lost, doubled and overtaken; over TCP the
two replies of the daemon stand in the stream one after the other. The serializer and the
cipher are parameters. -/
namespace LanLink.FilePull
open Words Runs LanLink.Frame Crypto Control Session

def utf8 (text : String) : Bytes := text.toByteArray.data.toList

/-- The output and the exit code of reading a file whose content, or whose error, is given:
a content that is no text is an error too, and the text of an error is output. -/
def readFile : Except String Bytes → Bytes × Option Int32
  | .ok bytes =>
    match String.fromUTF8? ⟨bytes.toArray⟩ with
    | some text => (utf8 text, some 0)
    | none => (utf8 "read error: stream did not contain valid UTF-8\n", some 1)
  | .error e => (utf8 ("read error: " ++ e ++ "\n"), some 1)

/-- The code outside the repository on one connection. -/
structure Wire where
  serialize : ControlMsg → Bytes
  deserialize : Bytes → Option ControlMsg
  encrypt : Psk → Nonce → Bytes → Option Bytes
  decrypt : Psk → Nonce → Bytes → Option Bytes
  psk : Psk
  connId : UInt64

/-- What a message needs from that code: it is read back, its ciphertext opens, and no
beginning of the ciphertext does. -/
structure Wire.Carries (w : Wire) (msg : ControlMsg) : Prop where
  roundTrip : w.deserialize (w.serialize msg) = some msg
  sealed : ∀ seq : UInt32, ∃ ciphertext,
    Opens w.encrypt w.decrypt w.psk (makeNonce w.connId seq) (w.serialize msg) ciphertext ∧
    ∀ n < ciphertext.length, w.decrypt w.psk (makeNonce w.connId seq) (ciphertext.take n) = none

/-- One call of `Pull`; the remote file stays as it is. -/
structure Pull where
  id : UInt32
  remote : String
  file : Except String Bytes

namespace Pull
variable (p : Pull)

def output : Bytes := (readFile p.file).1

def exit : Option Int32 := (readFile p.file).2

def request : ControlMsg := .nativeCmd p.id (.readFile p.remote)

/-- The whole output goes into one message. -/
def chunk : ControlMsg := .execChunk p.id 0 p.output

def done : ControlMsg := .execDone p.id p.exit

end Pull

/-- Where the command is: before its request, in its loop with what it has so far, and at its
end with the local file written, not written, or at the deadline. -/
inductive Client where
  | start
  | waiting (buf : Bytes)
  | written (content : Bytes)
  | failed
  | expired
  deriving DecidableEq

/-- One round of the loop. The exit code is not looked at. -/
def Client.receive (p : Pull) (buf : Bytes) (writable : Bool) : Option ControlMsg → Client
  | some (.execChunk id stream data) =>
    if id = p.id ∧ stream = 0 then .waiting (buf ++ data) else .waiting buf
  | some (.execDone id _) =>
    if id = p.id then if writable then .written buf else .failed
    else .waiting buf
  | _ => .waiting buf

@[simp] theorem Client.receive_chunk (p : Pull) (buf : Bytes) (writable : Bool) :
    Client.receive p buf writable (some p.chunk) = .waiting (buf ++ p.output) := by
  simp [Client.receive, Pull.chunk]

@[simp] theorem Client.receive_done (p : Pull) (buf : Bytes) (writable : Bool) :
    Client.receive p buf writable (some p.done) = if writable then .written buf else .failed := by
  simp [Client.receive, Pull.done]

section udp

/-- The client, the requests and the datagrams in flight, and the daemon's counter. -/
structure World where
  client : Client
  requests : List Bytes
  replies : List Bytes
  sendSeq : UInt64

def World.start : World := ⟨.start, [], [], 0⟩

inductive Action where
  | request (seq : UInt64) (sent : Bool)
  | execute (i : Nat) (chunkSent doneSent : Bool)
  | deliver (i : Nat) (writable : Bool)
  | duplicateRequest (i : Nat)
  | loseRequest (i : Nat)
  | duplicateReply (i : Nat)
  | loseReply (i : Nat)
  | expire

variable (w : Wire) (p : Pull)

/-- The datagram of a message if it is sent. -/
def datagram (seq : UInt64) (msg : ControlMsg) (sent : Bool) : List Bytes :=
  if sent then (sendControl w.serialize w.encrypt w.connId w.psk seq msg).toList else []

/-- The loop goes on after an error of the receiver. -/
def received (datagram : Bytes) : Option ControlMsg :=
  match recvControlUdp w.decrypt w.deserialize w.psk datagram with
  | .ok msg => msg
  | .error _ => none

/-- What the daemon reads of a datagram on the connection. Its buffer has room for one maximal
packet, and the length in the header is not looked at. -/
def requested (datagram : Bytes) : Option ControlMsg := do
  let (hdr, ct) ← parsePacket (datagram.take maxPacket)
  if hdr.connId ≠ w.connId ∨ hdr.pktType ≠ .data ∨ ct.isEmpty ∨
      hdr.streamId ≠ StreamId.control.toU16 then none
  else openControl w.decrypt w.deserialize w.psk hdr.nonce ct

def World.step (s : World) : Action → Option World
  | .request seq sent =>
    match s.client with
    | .start =>
      if sent then
        some { s with client := .waiting [], requests := s.requests ++ datagram w seq p.request sent }
      else some { s with client := .failed }
    | _ => none
  | .execute i chunkSent doneSent => s.requests[i]?.map fun data =>
    let s := { s with requests := s.requests.eraseIdx i }
    match requested w data with
    | some (.nativeCmd id (.readFile _)) =>
      { s with
        replies := s.replies ++
          datagram w s.sendSeq (.execChunk id 0 (readFile p.file).1) chunkSent ++
          datagram w (s.sendSeq + 1) (.execDone id (readFile p.file).2) doneSent
        sendSeq := s.sendSeq + 2 }
    | _ => s
  | .deliver i writable =>
    match s.client with
    | .waiting buf => s.replies[i]?.map fun datagram =>
      { s with
        client := Client.receive p buf writable (received w datagram)
        replies := s.replies.eraseIdx i }
    | _ => none
  | .duplicateRequest i => s.requests[i]?.map fun msg => { s with requests := s.requests ++ [msg] }
  | .loseRequest i => s.requests[i]?.map fun _ => { s with requests := s.requests.eraseIdx i }
  | .duplicateReply i => s.replies[i]?.map fun data => { s with replies := s.replies ++ [data] }
  | .loseReply i => s.replies[i]?.map fun _ => { s with replies := s.replies.eraseIdx i }
  | .expire =>
    match s.client with
    | .waiting _ => some { s with client := .expired }
    | _ => none

/-- The request fits the daemon's buffer: a path of up to 1380 bytes. -/
def Pull.Asks (p : Pull) : Prop := 20 + (utf8 p.remote).length ≤ maxPayload

/-- What the two sides need from the cipher and from the serializer, which writes a tag of four
bytes, the fields one after the other, and a length of eight bytes before a byte string. -/
structure Wire.Serves (w : Wire) (p : Pull) : Prop where
  request : w.Carries p.request
  requestSize : (w.serialize p.request).length = 20 + (utf8 p.remote).length
  chunk : w.Carries p.chunk
  done : w.Carries p.done
  chunkSize : (w.serialize p.chunk).length = 17 + p.output.length
  doneSize : (w.serialize p.done).length ≤ 13

/-- The output, a number of times; not once if its message is too long for a datagram. -/
def Copies (p : Pull) (content : Bytes) : Prop :=
  ∃ copies, content = (List.replicate copies p.output).flatten ∧
    (maxPayload < 17 + p.output.length → copies = 0)

variable {w p} {s t : World}

theorem Copies.none : Copies p [] := ⟨0, rfl, fun _ => rfl⟩

theorem Copies.more (copies : Copies p buf) (small : 17 + p.output.length ≤ maxPayload) :
    Copies p (buf ++ p.output) := by
  obtain ⟨k, rfl, -⟩ := copies
  refine ⟨k + 1, ?_, fun long => absurd small (Nat.not_le.mpr long)⟩
  rw [List.replicate_succ', List.flatten_append, List.flatten_singleton]

theorem trim_take (hdr : PacketHeader) (ct : Bytes) (n : Nat) :
    ∃ m ≤ n, trim hdr (ct.take n) = ct.take m := by
  refine ⟨_, Nat.min_le_right (min hdr.payloadLen.toNat (ct.take n).length) n, ?_⟩
  rw [trim, List.take_take]

/-- What the client gets of the datagram of a message: all of it or nothing. -/
theorem received_sent (carries : w.Carries msg)
    (sent : sendControl w.serialize w.encrypt w.connId w.psk seq msg = some data) :
    received w data = if (w.serialize msg).length ≤ maxPayload then some msg else none := by
  obtain ⟨ciphertext, cipher, cut⟩ := carries.sealed seq.toUInt32
  rw [sendControl, controlPacket_eq cipher, Option.some.injEq] at sent
  subst sent
  have length := cipher.length
  simp only [received, recvControlUdp_packet]
  by_cases small : (w.serialize msg).length ≤ maxPayload
  · have whole : ciphertext.take (maxPayload + 16) = ciphertext :=
      List.take_of_length_le (by omega)
    have fits : ciphertext.length < 2 ^ 16 := by
      rw [maxPayload] at small
      omega
    have filled : ciphertext.isEmpty = false := by
      cases ciphertext with
      | nil => simp at length
      | cons byte rest => rfl
    rw [whole, trim_whole fits, filled, openControl, cipher.decrypted, Option.bind_some,
      carries.roundTrip, if_pos small]
    rfl
  · obtain ⟨m, bound, piece⟩ := trim_take (replyHeader w.connId seq.toUInt32 ciphertext) ciphertext
      (maxPayload + 16)
    rw [piece, openControl, cut m (by omega), if_neg small]
    split <;> rfl

/-- What the daemon gets of the datagram of a message: all of it or nothing. -/
theorem requested_sent (carries : w.Carries msg)
    (sent : sendControl w.serialize w.encrypt w.connId w.psk seq msg = some data) :
    requested w data = if (w.serialize msg).length ≤ maxPayload then some msg else none := by
  obtain ⟨ciphertext, cipher, cut⟩ := carries.sealed seq.toUInt32
  rw [sendControl, controlPacket_eq cipher, Option.some.injEq] at sent
  subst sent
  have length := cipher.length
  have packet := take_packet (replyHeader w.connId seq.toUInt32 ciphertext) ciphertext (maxPayload + 16)
  have filled : (ciphertext.take (maxPayload + 16)).isEmpty = false := by
    rw [List.isEmpty_eq_false_iff, ← List.length_pos_iff, List.length_take, length]
    omega
  have opened : requested w ((replyHeader w.connId seq.toUInt32 ciphertext).encode ++ ciphertext) =
      openControl w.decrypt w.deserialize w.psk (makeNonce w.connId seq.toUInt32)
        (ciphertext.take (maxPayload + 16)) := by
    rw [requested, show maxPacket = headerSize + (maxPayload + 16) from rfl, packet, parsePacket,
      PacketHeader.decode_encode, Option.map_some, drop_packet]
    simp only [bind, Option.bind_some, filled]
    simp [replyHeader]
  rw [opened]
  by_cases small : (w.serialize msg).length ≤ maxPayload
  · rw [List.take_of_length_le (by omega), openControl, cipher.decrypted, Option.bind_some,
      carries.roundTrip, if_pos small]
  · rw [openControl, cut _ (by omega), if_neg small]
    rfl

theorem requested_request (serves : w.Serves p)
    (sent : sendControl w.serialize w.encrypt w.connId w.psk seq p.request = some data) :
    requested w data = some p.request ∧ p.Asks ∨ requested w data = none := by
  rw [requested_sent serves.request sent, serves.requestSize]
  split
  · rename_i small
    exact .inl ⟨rfl, small⟩
  · exact .inr rfl

theorem received_chunk (serves : w.Serves p)
    (sent : sendControl w.serialize w.encrypt w.connId w.psk seq p.chunk = some data) :
    received w data = if 17 + p.output.length ≤ maxPayload then some p.chunk else none := by
  rw [received_sent serves.chunk sent, serves.chunkSize]

theorem received_done (serves : w.Serves p)
    (sent : sendControl w.serialize w.encrypt w.connId w.psk seq p.done = some data) :
    received w data = some p.done := by
  have small : (w.serialize p.done).length ≤ maxPayload := serves.doneSize.trans (by decide)
  rw [received_sent serves.done sent, if_pos small]

/-- A datagram of one of the two replies. -/
def Reply (w : Wire) (p : Pull) (data : Bytes) : Prop :=
  ∃ seq msg, (msg = p.chunk ∨ msg = p.done) ∧
    sendControl w.serialize w.encrypt w.connId w.psk seq msg = some data

/-- A datagram of the request. -/
def Request (w : Wire) (p : Pull) (data : Bytes) : Prop :=
  ∃ seq, sendControl w.serialize w.encrypt w.connId w.psk seq p.request = some data

/-- Only copies of the output come together at the client, and only after its request. -/
structure Pulling (w : Wire) (p : Pull) (s : World) : Prop where
  requests : ∀ data ∈ s.requests, Request w p data
  replies : ∀ data ∈ s.replies, p.Asks ∧ Reply w p data
  buffered : ∀ buf, s.client = .waiting buf → Copies p buf
  stored : ∀ content, s.client = .written content → p.Asks ∧ Copies p content

theorem start_pulling : Pulling w p .start where
  requests _ member := absurd member List.not_mem_nil
  replies _ member := absurd member List.not_mem_nil
  buffered _ same := by cases same
  stored _ same := by cases same

theorem mem_datagram (member : data ∈ datagram w seq msg sent) :
    sendControl w.serialize w.encrypt w.connId w.psk seq msg = some data := by
  cases sent with
  | true => simpa [datagram] using member
  | false => simp [datagram] at member

theorem Pulling.received (pulling : Pulling w p s) (serves : w.Serves p)
    (waiting : s.client = .waiting buf) (member : data ∈ s.replies) (writable : Bool) :
    (∃ more, Client.receive p buf writable (received w data) = .waiting more ∧ Copies p more) ∨
    Client.receive p buf writable (FilePull.received w data) = .written buf ∨
    Client.receive p buf writable (FilePull.received w data) = .failed := by
  have copies := pulling.buffered buf waiting
  obtain ⟨-, seq, msg, rfl | rfl, sent⟩ := pulling.replies data member
  · rw [received_chunk serves sent]
    split
    · rename_i small
      exact .inl ⟨buf ++ p.output, by simp, copies.more small⟩
    · exact .inl ⟨buf, rfl, copies⟩
  · rw [received_done serves sent]
    cases writable
    · exact .inr (.inr (by simp))
    · exact .inr (.inl (by simp))

theorem Pulling.change (pulling : Pulling w p s) (same : t.client = s.client)
    (requests : ∀ data ∈ t.requests, Request w p data)
    (replies : ∀ data ∈ t.replies, p.Asks ∧ Reply w p data) :
    Pulling w p t where
  requests := requests
  replies := replies
  buffered buf waiting := pulling.buffered buf (same ▸ waiting)
  stored content written := pulling.stored content (same ▸ written)

theorem Pulling.ended (pulling : Pulling w p s) (requests : t.requests = s.requests)
    (replies : t.replies = s.replies) (ended : t.client = .failed ∨ t.client = .expired) :
    Pulling w p t where
  requests := requests ▸ pulling.requests
  replies := replies ▸ pulling.replies
  buffered buf waiting := by rw [waiting] at ended; simp at ended
  stored content written := by rw [written] at ended; simp at ended

theorem Pulling.execute (serves : w.Serves p) (pulling : Pulling w p s)
    (stepped : s.step w p (.execute i chunkSent doneSent) = some t) : Pulling w p t := by
  obtain ⟨data, found, rfl⟩ := Option.map_eq_some_iff.mp stepped
  have left (other : Bytes) (member : other ∈ s.requests.eraseIdx i) : Request w p other :=
    pulling.requests other (List.mem_of_mem_eraseIdx member)
  obtain ⟨seq, sent⟩ := pulling.requests data (List.mem_of_getElem? found)
  rcases requested_request serves sent with ⟨read, asks⟩ | read
  · simp only [read, Pull.request]
    refine pulling.change rfl left ?_
    intro reply member
    rcases List.mem_append.mp member with old | second
    · rcases List.mem_append.mp old with old | first
      · exact pulling.replies reply old
      · exact ⟨asks, _, p.chunk, .inl rfl, mem_datagram first⟩
    · exact ⟨asks, _, p.done, .inr rfl, mem_datagram second⟩
  · simp only [read]
    exact pulling.change rfl left pulling.replies

theorem Pulling.deliver (serves : w.Serves p) (pulling : Pulling w p s)
    (stepped : s.step w p (.deliver i writable) = some t) : Pulling w p t := by
  rw [World.step] at stepped
  split at stepped
  · rename_i buf waiting
    obtain ⟨data, found, rfl⟩ := Option.map_eq_some_iff.mp stepped
    have member := List.mem_of_getElem? found
    have left (other : Bytes) (kept : other ∈ s.replies.eraseIdx i) : p.Asks ∧ Reply w p other :=
      pulling.replies other (List.mem_of_mem_eraseIdx kept)
    have copies := pulling.buffered buf waiting
    have asks := (pulling.replies data member).1
    rcases pulling.received serves waiting member writable with ⟨more, same, grown⟩ | same | same <;>
      rw [same]
    · exact ⟨pulling.requests, left, fun _ other => by cases other; exact grown, by simp⟩
    · exact ⟨pulling.requests, left, by simp, fun _ other => by cases other; exact ⟨asks, copies⟩⟩
    · exact ⟨pulling.requests, left, by simp, by simp⟩
  · cases stepped

theorem Pulling.step (serves : w.Serves p) (pulling : Pulling w p s)
    (stepped : s.step w p action = some t) : Pulling w p t := by
  cases action with
  | request seq sent =>
    rw [World.step] at stepped
    split at stepped
    · split at stepped
      · cases stepped
        refine ⟨fun data member => ?_, pulling.replies, fun buf same => ?_, by simp⟩
        · rcases List.mem_append.mp member with old | new
          · exact pulling.requests data old
          · exact ⟨seq, mem_datagram new⟩
        · cases same
          exact .none
      · cases stepped
        exact pulling.ended rfl rfl (.inl rfl)
    · cases stepped
  | execute i chunkSent doneSent => exact pulling.execute serves stepped
  | deliver i writable => exact pulling.deliver serves stepped
  | duplicateRequest i =>
    obtain ⟨data, found, rfl⟩ := Option.map_eq_some_iff.mp stepped
    refine pulling.change rfl (fun other member => ?_) pulling.replies
    rcases List.mem_append.mp member with old | new
    · exact pulling.requests other old
    · rw [List.mem_singleton.mp new]
      exact pulling.requests data (List.mem_of_getElem? found)
  | loseRequest i =>
    obtain ⟨data, -, rfl⟩ := Option.map_eq_some_iff.mp stepped
    exact pulling.change rfl (fun other member => pulling.requests other (List.mem_of_mem_eraseIdx member))
      pulling.replies
  | duplicateReply i =>
    obtain ⟨data, found, rfl⟩ := Option.map_eq_some_iff.mp stepped
    refine pulling.change rfl pulling.requests fun other member => ?_
    rcases List.mem_append.mp member with old | new
    · exact pulling.replies other old
    · rw [List.mem_singleton.mp new]
      exact pulling.replies data (List.mem_of_getElem? found)
  | loseReply i =>
    obtain ⟨data, -, rfl⟩ := Option.map_eq_some_iff.mp stepped
    exact pulling.change rfl pulling.requests fun other member =>
      pulling.replies other (List.mem_of_mem_eraseIdx member)
  | expire =>
    rw [World.step] at stepped
    split at stepped
    · cases stepped
      exact pulling.ended rfl rfl (.inr rfl)
    · cases stepped

theorem run_pulling (serves : w.Serves p) (run : exec (World.step w p) .start actions = some s) :
    Pulling w p s :=
  Runs.invariant (Pulling.step serves) run start_pulling

/-- The client has its content so far, and both replies are in flight. -/
def Ready (w : Wire) (p : Pull) (buf : Bytes) (s : World) : Prop :=
  s.client = .waiting buf ∧ ∃ first second seq seq', s.replies = [first, second] ∧
    sendControl w.serialize w.encrypt w.connId w.psk seq p.chunk = some first ∧
    sendControl w.serialize w.encrypt w.connId w.psk seq' p.done = some second

theorem Wire.Carries.sent (carries : w.Carries msg) (seq : UInt64) :
    ∃ data, sendControl w.serialize w.encrypt w.connId w.psk seq msg = some data := by
  obtain ⟨ciphertext, cipher, -⟩ := carries.sealed seq.toUInt32
  exact ⟨_, controlPacket_eq cipher⟩

theorem start_ready (serves : w.Serves p) (asks : p.Asks) :
    ∃ s, exec (World.step w p) .start [.request 0 true, .execute 0 true true] = some s ∧
      Ready w p [] s := by
  obtain ⟨request, requestSent⟩ := serves.request.sent 0
  obtain ⟨first, firstSent⟩ := serves.chunk.sent 0
  obtain ⟨second, secondSent⟩ := serves.done.sent 1
  have read := requested_sent serves.request requestSent
  rw [serves.requestSize, if_pos (show 20 + (utf8 p.remote).length ≤ maxPayload from asks)] at read
  refine ⟨⟨.waiting [], [], [first, second], 2⟩, ?_, rfl, first, second, 0, 1, rfl, firstSent, secondSent⟩
  rw [Pull.chunk, Pull.output] at firstSent
  rw [Pull.done, Pull.exit] at secondSent
  rw [Pull.request] at requestSent read
  simp [exec, World.step, World.start, Pull.request, datagram, requestSent, read, firstSent, secondSent]

theorem Ready.more (serves : w.Serves p) (small : 17 + p.output.length ≤ maxPayload)
    (ready : Ready w p buf s) :
    ∃ t, exec (World.step w p) s [.duplicateReply 0, .deliver 2 true] = some t ∧
      Ready w p (buf ++ p.output) t := by
  obtain ⟨waiting, first, second, seq, seq', replies, firstSent, secondSent⟩ := ready
  have arrived := received_chunk serves firstSent
  rw [if_pos small] at arrived
  refine ⟨{ s with client := .waiting (buf ++ p.output) }, ?_, rfl, first, second, seq, seq', replies,
    firstSent, secondSent⟩
  simp [exec, World.step, waiting, replies, arrived]

theorem Ready.finish (serves : w.Serves p) (ready : Ready w p buf s) :
    ∃ t, exec (World.step w p) s [.deliver 1 true] = some t ∧ t.client = .written buf := by
  obtain ⟨waiting, first, second, seq, seq', replies, firstSent, secondSent⟩ := ready
  have arrived := received_done serves secondSent
  refine ⟨{ s with client := .written buf, replies := [first] }, ?_, rfl⟩
  simp [exec, World.step, waiting, replies, arrived]

theorem Ready.copies (serves : w.Serves p) (small : 17 + p.output.length ≤ maxPayload)
    (ready : Ready w p [] s) (copies : Nat) :
    ∃ actions t, exec (World.step w p) s actions = some t ∧
      Ready w p (List.replicate copies p.output).flatten t := by
  induction copies with
  | zero => exact ⟨[], s, rfl, ready⟩
  | succ copies ih =>
    obtain ⟨actions, middle, run, ready⟩ := ih
    obtain ⟨t, last, more⟩ := ready.more serves small
    refine ⟨_, t, exec_append.mpr ⟨middle, run, last⟩, ?_⟩
    rw [List.replicate_succ', List.flatten_append, List.flatten_singleton]
    exact more

theorem copies_written (serves : w.Serves p) (asks : p.Asks) (copies : Copies p content) :
    ∃ actions s, exec (World.step w p) .start actions = some s ∧ s.client = .written content := by
  obtain ⟨k, rfl, bound⟩ := copies
  obtain ⟨s, start, ready⟩ := start_ready serves asks
  obtain ⟨actions, t, run, ready⟩ : ∃ actions t, exec (World.step w p) s actions = some t ∧
      Ready w p (List.replicate k p.output).flatten t := by
    by_cases small : 17 + p.output.length ≤ maxPayload
    · exact ready.copies serves small k
    · rw [bound (Nat.lt_of_not_le small)]
      exact ⟨[], s, rfl, ready⟩
  obtain ⟨u, last, written⟩ := ready.finish serves
  exact ⟨_, u, exec_append.mpr ⟨s, start, exec_append.mpr ⟨t, run, last⟩⟩, written⟩

theorem written_iff (serves : w.Serves p) :
    (∃ actions s, exec (World.step w p) .start actions = some s ∧ s.client = .written content) ↔
      p.Asks ∧ Copies p content := by
  constructor
  · rintro ⟨actions, s, run, written⟩
    exact (run_pulling serves run).stored content written
  · rintro ⟨asks, copies⟩
    exact copies_written serves asks copies

theorem fromUTF8_utf8 (text : String) : String.fromUTF8? ⟨(utf8 text).toArray⟩ = some text := by
  simp only [utf8, Array.toArray_toList]
  rw [String.fromUTF8?, dif_pos text.isValidUTF8]
  rfl

theorem utf8_fromUTF8 (parsed : String.fromUTF8? ⟨(bytes : Bytes).toArray⟩ = some text) :
    utf8 text = bytes := by
  rw [String.fromUTF8?] at parsed
  split at parsed
  · cases parsed
    rfl
  · cases parsed

theorem utf8_append (a b : String) : utf8 (a ++ b) = utf8 a ++ utf8 b := by
  simp [utf8]

/-- The output is a text, and so is every number of copies of it. -/
theorem output_text (p : Pull) : ∃ text, utf8 text = p.output := by
  rw [Pull.output]
  cases p.file with
  | error e => exact ⟨_, rfl⟩
  | ok bytes =>
    rw [readFile]
    split <;> exact ⟨_, rfl⟩

theorem Copies.text (copies : Copies p content) : ∃ text, utf8 text = content := by
  obtain ⟨k, rfl, -⟩ := copies
  obtain ⟨text, same⟩ := output_text p
  induction k with
  | zero => exact ⟨"", rfl⟩
  | succ k ih =>
    obtain ⟨front, whole⟩ := ih
    refine ⟨front ++ text, ?_⟩
    rw [utf8_append, whole, same, List.replicate_succ', List.flatten_append, List.flatten_singleton]

theorem output_of_text (file : p.file = .ok (utf8 text)) : p.output = utf8 text := by
  rw [Pull.output, file, readFile, fromUTF8_utf8]

/-- What a pull over UDP may leave in the local file, if its path is of up to 1380 bytes: any
number of copies of the output, and none if the output is longer than 1383 bytes. So a file
comes out as it is only if it is a text of that size, or empty. With a longer path nothing is
ever written. -/
theorem pulled_over_udp_iff (w : Wire) (p : Pull) (serves : w.Serves p) :
    (∀ content, (∃ actions s, exec (World.step w p) .start actions = some s ∧
        s.client = .written content) ↔
      20 + (utf8 p.remote).length ≤ maxPayload ∧
      ∃ copies, content = (List.replicate copies p.output).flatten ∧
        (maxPayload < 17 + p.output.length → copies = 0)) ∧
    ∀ bytes, p.file = .ok bytes →
      ((∃ actions s, exec (World.step w p) .start actions = some s ∧ s.client = .written bytes) ↔
        20 + (utf8 p.remote).length ≤ maxPayload ∧
          (bytes = [] ∨ (∃ text, utf8 text = bytes) ∧ 17 + bytes.length ≤ maxPayload)) := by
  refine ⟨fun content => written_iff serves, fun bytes file => ?_⟩
  rw [written_iff serves, Pull.Asks]
  refine and_congr_right fun asks => ?_
  constructor
  · intro copies
    obtain ⟨text, rfl⟩ := copies.text
    obtain ⟨k, same, bound⟩ := copies
    rw [output_of_text file] at same bound
    by_cases small : 17 + (utf8 text).length ≤ maxPayload
    · exact .inr ⟨⟨text, rfl⟩, small⟩
    · rw [bound (Nat.lt_of_not_le small)] at same
      exact .inl same
  · rintro (rfl | ⟨⟨text, rfl⟩, small⟩)
    · exact .none
    · rw [← output_of_text file] at small ⊢
      exact Copies.none.more small

/-- A file that says `hi`, its two replies, and their packets as encrypted under the zero key
as the first two of connection 1. -/
def hiPull : Pull := ⟨1, "/tmp/hi", .ok [104, 105]⟩

def hiChunk : Bytes := [15, 0, 0, 0, 1, 0, 0, 0, 0, 2, 0, 0, 0, 0, 0, 0, 0, 104, 105]

/-- The request. -/
def hiRequest : Bytes :=
  [19, 0, 0, 0, 1, 0, 0, 0, 49, 0, 0, 0, 7, 0, 0, 0, 0, 0, 0, 0, 47, 116, 109, 112, 47, 104, 105]

def hiDone : Bytes := [16, 0, 0, 0, 1, 0, 0, 0, 1, 0, 0, 0, 0]

def hiChunkSealed : Bytes :=
  [0x49, 0xf0, 0xf6, 0xef, 0xef, 0x15, 0xc8, 0xf1, 0xb1, 0x9a, 0xcb, 0x49, 0xd9, 0x2b, 0x99, 0x08,
    0x67, 0xf8, 0x38, 0x59, 0x36, 0x15, 0x0d, 0xe3, 0x3a, 0x25, 0x27, 0x34, 0xe3, 0x86, 0xfb, 0x31,
    0x54, 0x9e, 0xba]

def hiDoneSealed : Bytes :=
  [0xf5, 0x08, 0x9c, 0x39, 0x62, 0x16, 0xa2, 0x8c, 0x45, 0x99, 0x7f, 0x34, 0x8f, 0x88, 0x4e, 0xd8,
    0x82, 0xc4, 0x7d, 0xaa, 0x45, 0x84, 0xa6, 0xfa, 0xb2, 0xc6, 0xae, 0xc3, 0x83]

theorem hi_output : hiPull.output = [104, 105] := by
  have file : hiPull.file = .ok (utf8 "hi") := congrArg Except.ok (by decide)
  exact output_of_text file

/-- The cipher on those two packets. -/
def hiEncrypt (nonce : Nonce) (plaintext : Bytes) : Option Bytes :=
  if nonce = makeNonce 1 0 ∧ plaintext = hiChunk then some hiChunkSealed
  else if nonce = makeNonce 1 1 ∧ plaintext = hiDone then some hiDoneSealed
  else none

def hiDecrypt (nonce : Nonce) (ciphertext : Bytes) : Option Bytes :=
  if nonce = makeNonce 1 0 ∧ ciphertext = hiChunkSealed then some hiChunk
  else if nonce = makeNonce 1 1 ∧ ciphertext = hiDoneSealed then some hiDone
  else none

def hiTag : Bytes := List.replicate 16 0xff

def untag (ciphertext : Bytes) : Option Bytes :=
  if 16 ≤ ciphertext.length ∧ ciphertext.drop (ciphertext.length - 16) = hiTag then
    some (ciphertext.take (ciphertext.length - 16))
  else none

def hiSerialize : ControlMsg → Bytes
  | .execChunk id stream data =>
    [15, 0, 0, 0] ++ littleEndian 4 id.toNat ++ [stream] ++ littleEndian 8 data.length ++ data
  | .execDone id (some code) =>
    [16, 0, 0, 0] ++ littleEndian 4 id.toNat ++ [1] ++ littleEndian 4 code.toBitVec.toNat
  | .nativeCmd id (.readFile path) =>
    [19, 0, 0, 0] ++ littleEndian 4 id.toNat ++ [49, 0, 0, 0] ++
      littleEndian 8 (utf8 path).length ++ utf8 path
  | _ => []

def hiDeserialize (bytes : Bytes) : Option ControlMsg :=
  if bytes = hiChunk then some (.execChunk 1 0 [104, 105])
  else if bytes = hiDone then some (.execDone 1 (some 0))
  else if bytes = hiRequest then some (.nativeCmd 1 (.readFile "/tmp/hi"))
  else none

/-- The known packets, and a plain tag on all others. -/
def hiWire : Wire where
  serialize := hiSerialize
  deserialize := hiDeserialize
  encrypt _ nonce plaintext := some ((hiEncrypt nonce plaintext).getD (plaintext ++ hiTag))
  decrypt _ nonce ciphertext := (hiDecrypt nonce ciphertext).or (untag ciphertext)
  psk := fill 32 []
  connId := 1

theorem hiDecrypt_length (opened : hiDecrypt nonce ciphertext = some plaintext) :
    ciphertext.length = plaintext.length + 16 := by
  rw [hiDecrypt] at opened
  split at opened
  · rename_i known
    cases opened
    rw [known.2]
    rfl
  · split at opened
    · rename_i known
      cases opened
      rw [known.2]
      rfl
    · cases opened

theorem hiDecrypt_other (notChunk : ciphertext ≠ hiChunkSealed) (notDone : ciphertext ≠ hiDoneSealed) :
    hiDecrypt nonce ciphertext = none := by
  simp [hiDecrypt, notChunk, notDone]

theorem hiWire_tagged (nonce : Nonce) (c p : Bytes) (opened : hiWire.decrypt hiWire.psk nonce c = some p) :
    c.length = p.length + 16 := by
  rcases Option.or_eq_some_iff.mp opened with known | ⟨-, tagged⟩
  · exact hiDecrypt_length known
  · obtain ⟨⟨long, -⟩, ⟨⟩⟩ := Option.ite_none_right_eq_some.mp tagged
    rw [List.length_take]
    omega

/-- A packet that is not one of the two opens by its tag. -/
theorem hiWire_plain (other : hiEncrypt nonce plaintext = none)
    (notChunk : ∀ n ≤ plaintext.length + 16, (plaintext ++ hiTag).take n ≠ hiChunkSealed)
    (notDone : ∀ n ≤ plaintext.length + 16, (plaintext ++ hiTag).take n ≠ hiDoneSealed)
    (tagged : untag (plaintext ++ hiTag) = some plaintext)
    (cut : ∀ n < plaintext.length + 16, untag ((plaintext ++ hiTag).take n) = none) :
    Opens hiWire.encrypt hiWire.decrypt hiWire.psk nonce plaintext (plaintext ++ hiTag) ∧
    ∀ n < (plaintext ++ hiTag).length,
      hiWire.decrypt hiWire.psk nonce ((plaintext ++ hiTag).take n) = none := by
  have size : (plaintext ++ hiTag).length = plaintext.length + 16 := by simp [hiTag]
  have whole : hiDecrypt nonce ((plaintext ++ hiTag).take (plaintext.length + 16)) = none :=
    hiDecrypt_other (notChunk _ le_rfl) (notDone _ le_rfl)
  rw [← size, List.take_length] at whole
  refine ⟨⟨by simp [hiWire, other], by simp [hiWire, whole, tagged], size, hiWire_tagged nonce⟩, ?_⟩
  intro n inside
  rw [size] at inside
  simp [hiWire, hiDecrypt_other (notChunk n inside.le) (notDone n inside.le), cut n inside]

theorem hi_chunk : hiPull.chunk = .execChunk 1 0 [104, 105] := by
  rw [Pull.chunk, hi_output]
  rfl

theorem hi_done : hiPull.done = .execDone 1 (some 0) := by
  have exit : hiPull.exit = some 0 := by
    have text : hiPull.file = .ok (utf8 "hi") := congrArg Except.ok (by decide)
    rw [Pull.exit, text, readFile, fromUTF8_utf8]
  rw [Pull.done, exit]
  rfl

theorem hi_path : utf8 "/tmp/hi" = [47, 116, 109, 112, 47, 104, 105] := by decide

theorem hi_request : hiSerialize hiPull.request = hiRequest := by
  simp only [Pull.request, hiPull, hiSerialize, hi_path]
  rfl

theorem hi_serves : hiWire.Serves hiPull where
  request := by
    have serialized : hiWire.serialize hiPull.request = hiRequest := hi_request
    refine ⟨by rw [serialized]; rfl, fun seq => ?_⟩
    rw [serialized]
    have other : hiEncrypt (makeNonce hiWire.connId seq) hiRequest = none := by
      have kinds : hiRequest ≠ hiChunk ∧ hiRequest ≠ hiDone := by decide
      simp [hiEncrypt, kinds]
    exact ⟨_, hiWire_plain other (by decide) (by decide) (by decide) (by decide)⟩
  requestSize := by
    have path : utf8 hiPull.remote = [47, 116, 109, 112, 47, 104, 105] := hi_path
    have serialized : hiWire.serialize hiPull.request = hiRequest := hi_request
    rw [serialized, path]
    rfl
  chunk := by
    rw [hi_chunk]
    refine ⟨rfl, fun seq => ?_⟩
    by_cases first : makeNonce 1 seq = makeNonce 1 0
    · rw [show hiWire.connId = 1 from rfl, first]
      exact ⟨hiChunkSealed, ⟨by decide, by decide, by decide, hiWire_tagged _⟩, by decide⟩
    · have other : hiEncrypt (makeNonce 1 seq) hiChunk = none := by
        have kind : hiChunk ≠ hiDone := by decide
        simp [hiEncrypt, first, kind]
      exact ⟨_, hiWire_plain other (by decide) (by decide) (by decide) (by decide)⟩
  done := by
    rw [hi_done]
    refine ⟨rfl, fun seq => ?_⟩
    by_cases second : makeNonce 1 seq = makeNonce 1 1
    · rw [show hiWire.connId = 1 from rfl, second]
      exact ⟨hiDoneSealed, ⟨by decide, by decide, by decide, hiWire_tagged _⟩, by decide⟩
    · have other : hiEncrypt (makeNonce 1 seq) hiDone = none := by
        have kind : hiDone ≠ hiChunk := by decide
        simp [hiEncrypt, second, kind]
      exact ⟨_, hiWire_plain other (by decide) (by decide) (by decide) (by decide)⟩
  chunkSize := by
    rw [hi_chunk, hi_output]
    rfl
  doneSize := by
    rw [hi_done]
    decide

theorem pulled_over_udp_hi :
    (∃ actions s, exec (World.step hiWire hiPull) .start actions = some s ∧
      s.client = .written [104, 105]) ∧
    ∃ actions s, exec (World.step hiWire hiPull) .start actions = some s ∧
      s.client = .written [104, 105, 104, 105] := by
  have pulled := pulled_over_udp_iff hiWire hiPull hi_serves
  have asks : 20 + (utf8 hiPull.remote).length ≤ maxPayload := by
    rw [show utf8 hiPull.remote = _ from hi_path]
    decide
  rw [hi_output] at pulled
  exact ⟨(pulled.2 _ rfl).mpr ⟨asks, .inr ⟨⟨"hi", by decide⟩, by decide⟩⟩,
    (pulled.1 _).mpr ⟨asks, 2, rfl, by decide⟩⟩

end udp

section tcp

/-- What is left of the stream behind one read: a length that is refused is gone, the frame
behind it is not. -/
def tcpRest (stream : Bytes) : Bytes :=
  if stream.length < 4 then []
  else
    let frameLen := ofBigEndian (stream.take 4)
    if frameLen = 0 ∨ maxFrame < frameLen then stream.drop 4 else stream.drop (4 + frameLen)

variable (w : Wire) (p : Pull)

def receivedTcp (stream : Bytes) : Option ControlMsg :=
  match recvControlTcp w.decrypt w.deserialize w.psk stream with
  | .ok msg => msg
  | .error _ => none

/-- The loop over what arrives on the stream, for the rounds up to the deadline. -/
def pullTcp (writable : Bool) : Nat → Bytes → Bytes → Client
  | 0, _, _ => .expired
  | rounds + 1, stream, buf =>
    match Client.receive p buf writable (receivedTcp w stream) with
    | .waiting more => pullTcp writable rounds (tcpRest stream) more
    | ended => ended

/-- Both replies, as the daemon writes them. -/
def replyStream (seq : UInt64) : Bytes :=
  tcpSend (buildControlPacketTcp w.serialize w.encrypt w.connId w.psk seq p.chunk) ++
  tcpSend (buildControlPacketTcp w.serialize w.encrypt w.connId w.psk (seq + 1) p.done)

/-- The two ciphertexts, and that no other piece of the stream opens. -/
structure Wire.Streams (w : Wire) (p : Pull) (seq : UInt64) (chunkText doneText : Bytes) : Prop where
  chunk : Opens w.encrypt w.decrypt w.psk (makeNonce w.connId seq.toUInt32) (w.serialize p.chunk) chunkText
  done : Opens w.encrypt w.decrypt w.psk (makeNonce w.connId (seq + 1).toUInt32) (w.serialize p.done) doneText
  chunkTrip : w.deserialize (w.serialize p.chunk) = some p.chunk
  doneTrip : w.deserialize (w.serialize p.done) = some p.done
  chunkSize : (w.serialize p.chunk).length = 17 + p.output.length
  doneSize : (w.serialize p.done).length ≤ 13
  authentic : ∀ nonce ciphertext plaintext, ciphertext <:+: replyStream w p seq →
    w.decrypt w.psk nonce ciphertext = some plaintext →
    (ciphertext = chunkText ∧ plaintext = w.serialize p.chunk) ∨
      (ciphertext = doneText ∧ plaintext = w.serialize p.done)

variable {w p}

theorem readFrame_sent (filled : 0 < data.length) (fits : data.length ≤ maxFrame) (rest : Bytes) :
    tcpReadFrame (tcpSend data ++ rest) = .ok (some data) ∧ tcpRest (tcpSend data ++ rest) = rest := by
  have word : data.length < 256 ^ 4 := by
    rw [maxFrame] at fits
    omega
  have long : ¬ (tcpSend data ++ rest).length < 4 := by simp [tcpSend]
  have front : (tcpSend data ++ rest).take 4 = bigEndian 4 data.length := by simp [tcpSend]
  have behind : (tcpSend data ++ rest).drop 4 = data ++ rest := by simp [tcpSend]
  have accepted : ¬ (data.length = 0 ∨ maxFrame < data.length) := by omega
  constructor
  · have whole : ¬ (data ++ rest).length < data.length := by simp
    rw [tcpReadFrame, if_neg long]
    simp only [front, behind, ofBigEndian_bigEndian word, accepted, if_false, whole, List.take_left]
  · rw [tcpRest, if_neg long, front, ofBigEndian_bigEndian word, if_neg accepted, ← List.drop_drop,
      behind, List.drop_left]

theorem receivedTcp_sent (cipher : Opens w.encrypt w.decrypt w.psk (makeNonce w.connId seq.toUInt32)
      (w.serialize msg) ciphertext) (trip : w.deserialize (w.serialize msg) = some msg)
    (fits : headerSize + ((w.serialize msg).length + 16) ≤ maxFrame) (rest : Bytes) :
    let sent := tcpSend (buildControlPacketTcp w.serialize w.encrypt w.connId w.psk seq msg)
    receivedTcp w (sent ++ rest) = some msg ∧ tcpRest (sent ++ rest) = rest := by
  have length := cipher.length
  have packet : buildControlPacketTcp w.serialize w.encrypt w.connId w.psk seq msg =
      (replyHeader w.connId seq.toUInt32 ciphertext).encode ++ ciphertext := by
    rw [buildControlPacketTcp, controlPacket_eq cipher, Option.getD_some]
  have size : ((replyHeader w.connId seq.toUInt32 ciphertext).encode ++ ciphertext).length =
      headerSize + ((w.serialize msg).length + 16) := by
    rw [List.length_append, PacketHeader.encode_length, length]
  have small : ciphertext.length < 2 ^ 16 := by
    simp only [maxFrame, headerSize] at fits
    omega
  obtain ⟨framed, left⟩ := readFrame_sent (by rw [size, headerSize]; omega) (size.trans_le fits) rest
  have kind : (replyHeader w.connId seq.toUInt32 ciphertext).pktType = .data := rfl
  have nonce : (replyHeader w.connId seq.toUInt32 ciphertext).nonce = makeNonce w.connId seq.toUInt32 := rfl
  simp only [packet]
  refine ⟨?_, left⟩
  simp only [receivedTcp, recvControlTcp, framed, bind, Except.bind, PacketHeader.decode_encode, kind,
    ne_eq, not_true_eq_false, if_false, drop_packet, trim_whole small, nonce, openControl,
    cipher.decrypted, Option.bind_some, trip]
  rfl

theorem tcpRest_suffix (stream : Bytes) : tcpRest stream <:+ stream := by
  rw [tcpRest]
  split
  · exact List.nil_suffix
  · dsimp only
    split <;> exact List.drop_suffix ..

theorem tcpReadFrame_ok (read : tcpReadFrame stream = .ok (some frame)) :
    frame <:+: stream ∧ frame.length ≤ maxFrame := by
  rw [tcpReadFrame] at read
  split at read
  · cases read
  · dsimp only at read
    split at read
    · cases read
    · rename_i small
      split at read
      · cases read
      · cases read
        refine ⟨(List.take_prefix ..).isInfix.trans (List.drop_suffix ..).isInfix, ?_⟩
        rw [List.length_take]
        omega

/-- A message that is read was wholly there. -/
theorem receivedTcp_whole (received : receivedTcp w stream = some msg) :
    ∃ frame, tcpReadFrame stream = .ok frame := by
  rw [receivedTcp, recvControlTcp] at received
  cases read : tcpReadFrame stream with
  | error e => simp [read, bind, Except.bind] at received
  | ok frame => exact ⟨frame, rfl⟩

/-- A message that is read has opened from a piece of the stream that fits a frame. -/
theorem receivedTcp_opened (received : receivedTcp w stream = some msg) :
    ∃ nonce ciphertext plaintext, ciphertext <:+: stream ∧
      (headerSize + ciphertext.length ≤ maxFrame) ∧
      w.decrypt w.psk nonce ciphertext = some plaintext ∧ w.deserialize plaintext = some msg := by
  rw [receivedTcp, recvControlTcp] at received
  cases read : tcpReadFrame stream with
  | error e => simp [read, bind, Except.bind] at received
  | ok frame =>
    cases frame with
    | none => simp [read, bind, Except.bind, pure, Except.pure] at received
    | some frame =>
      obtain ⟨infixed, short⟩ := tcpReadFrame_ok read
      simp only [read, bind, Except.bind] at received
      cases decoded : PacketHeader.decode frame with
      | none => simp [decoded, pure, Except.pure] at received
      | some parsed =>
        obtain ⟨hdr, rest⟩ := parsed
        have enough := PacketHeader.decode_length decoded
        simp only [decoded] at received
        split at received
        · rename_i opened
          split at opened
          · cases opened
            cases received
          · have opened := Except.ok.inj opened
            subst opened
            obtain ⟨plaintext, decrypted, parsed⟩ := Option.bind_eq_some_iff.mp received
            have piece : trim hdr (frame.drop headerSize) <:+: frame :=
              (List.take_prefix ..).isInfix.trans (List.drop_suffix ..).isInfix
            have cut := trim_length hdr (frame.drop headerSize)
            rw [List.length_drop] at cut
            exact ⟨_, _, plaintext, piece.trans infixed, by omega, decrypted, parsed⟩
        · cases received

/-- Wherever in the stream a read begins, it gives a reply or nothing, and the output only if
a frame holds it. -/
theorem receivedTcp_reply (streams : w.Streams p seq chunkText doneText)
    (inside : stream <:+ replyStream w p seq) (received : receivedTcp w stream = some msg) :
    (msg = p.chunk ∧ headerSize + (17 + p.output.length + 16) ≤ maxFrame) ∨ msg = p.done := by
  obtain ⟨nonce, ciphertext, plaintext, infixed, short, decrypted, parsed⟩ :=
    receivedTcp_opened received
  rcases streams.authentic _ _ _ (infixed.trans inside.isInfix) decrypted with
    ⟨rfl, rfl⟩ | ⟨rfl, rfl⟩
  · rw [streams.chunkTrip] at parsed
    cases parsed
    rw [streams.chunk.length, streams.chunkSize] at short
    exact .inl ⟨rfl, short⟩
  · rw [streams.doneTrip] at parsed
    cases parsed
    exact .inr rfl

/-- An output that no frame holds never reaches the buffer. -/
theorem pullTcp_long (streams : w.Streams p seq chunkText doneText)
    (long : maxFrame < headerSize + (17 + p.output.length + 16)) (rounds : Nat)
    (inside : stream <:+ replyStream w p seq) :
    pullTcp w p true rounds stream [] = .written [] ∨ pullTcp w p true rounds stream [] = .expired := by
  induction rounds generalizing stream with
  | zero => exact .inr rfl
  | succ rounds ih =>
    have later := ih ((tcpRest_suffix stream).trans inside)
    rw [pullTcp]
    cases read : receivedTcp w stream with
    | none => exact later
    | some msg =>
      rcases receivedTcp_reply streams inside read with ⟨-, fits⟩ | rfl
      · exact absurd fits (Nat.not_le.mpr long)
      · exact .inl (by simp)

/-- Once the whole reply is there and the client has two rounds of reading, over TCP the local
file gets the output exactly if a frame holds it, that is, up to 65465 bytes. Otherwise the client
loses its place in the stream, and the file ends up empty or is not written at all. -/
theorem pulled_over_tcp_iff (w : Wire) (p : Pull) (seq : UInt64) (chunkText doneText : Bytes)
    (streams : w.Streams p seq chunkText doneText) (rounds : Nat) (enough : 2 ≤ rounds) :
    (pullTcp w p true rounds (replyStream w p seq) [] = .written p.output ↔
      headerSize + (17 + p.output.length + 16) ≤ maxFrame) ∧
    (maxFrame < headerSize + (17 + p.output.length + 16) →
      pullTcp w p true rounds (replyStream w p seq) [] = .written [] ∨
      pullTcp w p true rounds (replyStream w p seq) [] = .expired) := by
  refine ⟨⟨fun written => ?_, fun fits => ?_⟩, fun long => pullTcp_long streams long rounds List.suffix_rfl⟩
  · by_contra long
    have long := Nat.lt_of_not_le long
    rcases pullTcp_long streams long rounds List.suffix_rfl with empty | expired
    · rw [empty] at written
      have none : p.output = [] := (Client.written.inj written).symm
      rw [none, maxFrame, headerSize] at long
      simp at long
    · rw [expired] at written
      cases written
  · obtain ⟨rounds, rfl⟩ := Nat.exists_eq_add_of_le' enough
    have doneFits : headerSize + ((w.serialize p.done).length + 16) ≤ maxFrame := by
      have := streams.doneSize
      rw [headerSize, maxFrame]
      omega
    obtain ⟨first, rest⟩ := receivedTcp_sent streams.chunk streams.chunkTrip
      (by rw [streams.chunkSize]; exact fits)
      (tcpSend (buildControlPacketTcp w.serialize w.encrypt w.connId w.psk (seq + 1) p.done))
    obtain ⟨second, -⟩ := receivedTcp_sent streams.done streams.doneTrip doneFits []
    rw [List.append_nil] at second
    simp only [replyStream, pullTcp, first, rest, second, Client.receive_chunk, Client.receive_done,
      List.nil_append, if_true]

/-- The same packets and no others. -/
def hiStream : Wire := { hiWire with encrypt := fun _ => hiEncrypt, decrypt := fun _ => hiDecrypt }

theorem hiStream_tagged (nonce : Nonce) (c p : Bytes)
    (opened : hiStream.decrypt hiStream.psk nonce c = some p) : c.length = p.length + 16 :=
  hiDecrypt_length opened

theorem hi_streams : hiStream.Streams hiPull 0 hiChunkSealed hiDoneSealed where
  chunk := by
    rw [hi_chunk]
    exact ⟨by decide, by decide, by decide, hiStream_tagged _⟩
  done := by
    rw [hi_done]
    exact ⟨by decide, by decide, by decide, hiStream_tagged _⟩
  chunkTrip := by
    rw [hi_chunk]
    rfl
  doneTrip := by
    rw [hi_done]
    rfl
  chunkSize := hi_serves.chunkSize
  doneSize := hi_serves.doneSize
  authentic nonce ciphertext plaintext _ opened := by
    have opened : hiDecrypt nonce ciphertext = some plaintext := opened
    rw [hi_chunk, hi_done]
    rw [hiDecrypt] at opened
    split at opened
    · rename_i known
      cases opened
      exact .inl ⟨known.2, rfl⟩
    · split at opened
      · rename_i known
        cases opened
        exact .inr ⟨known.2, rfl⟩
      · cases opened

theorem pulled_over_tcp_hi :
    pullTcp hiStream hiPull true 2 (replyStream hiStream hiPull 0) [] = .written hiPull.output :=
  (pulled_over_tcp_iff hiStream hiPull 0 hiChunkSealed hiDoneSealed hi_streams 2 (by decide)).1.mpr
    (by rw [hi_output]; decide)

end tcp

end LanLink.FilePull
