import LanLink.Core.Hex
import LanLink.Core.Json
import LanLink.Storage.Encrypt
import LanLink.Storage.Metadata
import LanLink.Storage.Version
import LanLink.Vpn.Command
import LanLink.Vpn.LanRouter

/-! The commands that bring a file to another node and back. What the router, the file
system, the clock and the random source answer is an input of a command; so are the texts
that arrive from other nodes while a command waits. -/
namespace LanLink.Backup
open Words Json LanLink.Chunk LanLink.Encrypt LanLink.Metadata LanLink.Vpn

/-- The last component of a path that is a name. -/
def fileName (path : String) : String :=
  match ((path.splitOn "/").filter fun part => part ≠ "" ∧ part ≠ ".").getLast? with
  | none | some ".." => path
  | some name => name

def hexText (bytes : Bytes) : String := String.ofList (Hex.encode bytes)

def truncateHex (hex : String) (n : Nat) : String :=
  if hex.length ≤ n + 3 then hex else String.ofList (hex.toList.take n) ++ "..."

def jsonText (value : Value) : String := String.ofList value.text

def chunkMetaValue (entry : ChunkMeta) : Value :=
  .object [("hash", ofVector entry.hash), ("index", .number entry.index.toNat),
    ("offset", ofU64 entry.offset), ("size", ofU64 entry.size)]

def manifestValue (manifest : FileManifest) : Value :=
  .object [("file_hash", ofVector manifest.fileHash), ("file_size", ofU64 manifest.fileSize),
    ("chunks", .array (manifest.chunks.map chunkMetaValue)),
    ("chunk_size", ofU64 manifest.chunkSize)]

def chunkMetaOf (value : Value) : Option ChunkMeta := do
  match ← record ["hash", "index", "offset", "size"] value with
  | [hash, index, offset, size] =>
    return ⟨← asVector 32 hash, (← asNat (2 ^ 32) index).toUInt32, ← asU64 offset, ← asU64 size⟩
  | _ => none

def asArray : Value → Option (List Value)
  | .array values => some values
  | _ => none

def manifestOf (value : Value) : Option FileManifest := do
  match ← record ["file_hash", "file_size", "chunks", "chunk_size"] value with
  | [fileHash, fileSize, chunks, chunkSize] =>
    return ⟨← asVector 32 fileHash, ← asU64 fileSize, ← (← asArray chunks).mapM chunkMetaOf,
      ← asU64 chunkSize⟩
  | _ => none

/-- A message with the text that stands before the error if it cannot be sent. -/
structure Outgoing where
  text : String
  failure : String

/-- Sends one message after the other up to the first that fails; gives what was sent. -/
def sendAll (fault : Nat → Option String) : Nat → List Outgoing → List String × Except String Unit
  | _, [] => ([], .ok ())
  | i, msg :: rest =>
    match fault i with
    | some e => ([], .error (msg.failure ++ e))
    | none =>
      let (sent, result) := sendAll fault (i + 1) rest
      (msg.text :: sent, result)

def chunkPayload (name : String) (total fileSize : Nat) (i : Nat) (chunk : EncryptedChunk) : Value :=
  .object [("chunk_index", .number i), ("data_hex", .string (hexText chunk.data)),
    ("file_name", .string name), ("file_size", .number fileSize),
    ("nonce_hex", .string (hexText chunk.nonce.toList)), ("total_chunks", .number total)]

def backupMessages (name : String) (fileSize : Nat) (manifest : FileManifest)
    (encrypted : List EncryptedChunk) : List Outgoing :=
  encrypted.mapIdx (fun i chunk => ⟨"BACKUP_CHUNK:" ++
    jsonText (chunkPayload name encrypted.length fileSize i chunk), s!"failed to send chunk {i}: "⟩) ++
  [⟨"BACKUP_META:" ++ name ++ ":" ++ jsonText (manifestValue manifest), "failed to send metadata: "⟩]

/-- What a command that sends a file gets from outside. -/
structure Upload where
  path : String
  target : String
  /-- The content of the file, or the error of reading it. -/
  file : Except String Bytes
  sendFault : Nat → Option String
  now : Nat

def encryptChunks (cipher : Cipher) (key : Key) (random : Nat → List.Vector UInt8 8)
    (chunks : List Bytes) : List EncryptedChunk :=
  chunks.mapIdx fun i chunk => Encryptor.encrypt cipher ⟨key⟩ (random i) i.toUInt32 chunk

def metadataErrorText : MetadataError → String
  | .alreadyExists name => s!"metadata for '{name}' already exists"
  | .notFound name => s!"metadata for '{name}' not found"

def backupReport (u : Upload) (key : Key) (size chunks : Nat) : String :=
  s!"Backup completed: {u.path} → {u.target}\n  File: {fileName u.path} ({size} bytes)\n" ++
  s!"  Chunks: {chunks}\n  Encrypted: yes\n  Key: {truncateHex (hexText key.toList) 16}"

/-- What was sent, and the report with the store that the file is registered in: a fresh one,
which replaces the saved one. -/
def executeBackup (sha256 : Bytes → Hash) (cipher : Cipher) (key : Key)
    (random : Nat → List.Vector UInt8 8) (u : Upload) :
    Option (List String × Except String (String × MetadataStore)) :=
  match ParsedAddress.parse u.target with
  | .error e => some ([], .error ("invalid target address: " ++ e.text))
  | .ok parsed =>
    match u.file with
    | .error e => some ([], .error (s!"failed to read '{u.path}': " ++ e))
    | .ok data => do
      let (manifest, chunks) ← Chunker.new.chunkData sha256 data
      let encrypted := encryptChunks cipher key random chunks
      let (sent, result) := sendAll u.sendFault 0
        (backupMessages (fileName u.path) data.length manifest encrypted)
      match result with
      | .error e => return (sent, .error e)
      | .ok () =>
        let blocks := manifest.chunks.map fun entry =>
          (⟨entry.hash, entry.index, [parsed.name], u.now⟩ : BlockLocation)
        match MetadataStore.new.register (fileName u.path) manifest.fileHash
            data.length.toUInt64 (some manifest) blocks parsed.name u.now with
        | .error e => return (sent, .error ("failed to register metadata: " ++ metadataErrorText e))
        | .ok store => return (sent, .ok (backupReport u key data.length chunks.length, store))

def blockPayload (name : String) (total fileSize : Nat) (i : Nat) (chunk : Bytes) : Value :=
  .object [("chunk_index", .number i), ("data_hex", .string (hexText chunk)),
    ("file_name", .string name), ("file_size", .number fileSize), ("total_chunks", .number total)]

def incrementMessages (name : String) (fileSize : Nat) (manifest : FileManifest)
    (chunks : List Bytes) : List Outgoing :=
  chunks.mapIdx (fun i chunk => ⟨"INCR_BLOCK:" ++
    jsonText (blockPayload name chunks.length fileSize i chunk), s!"failed to send block {i}: "⟩) ++
  [⟨"INCR_MANIFEST:" ++ name ++ ":" ++ jsonText (manifestValue manifest), "failed to send manifest: "⟩]

def incrementReport (u : Upload) (size chunks : Nat) (versionId : String) : String :=
  s!"Incremental sync completed: {u.path} → {u.target}\n  File: {fileName u.path} ({size} bytes)\n" ++
  s!"  Chunks: {chunks}\n  Version: {versionId}"

/-- What was sent, and the report with the version file after it. The version file is read
after the sends. -/
def executeIncrement (sha256 : Bytes → Hash) (versions : Except String Version.VersionManager)
    (flushFault : Option String) (u : Upload) :
    Option (List String × Except String (String × Version.VersionStore)) :=
  match ParsedAddress.parse u.target with
  | .error e => some ([], .error ("invalid target address: " ++ e.text))
  | .ok _ =>
    match u.file with
    | .error e => some ([], .error (s!"failed to read '{u.path}': " ++ e))
    | .ok data => do
      let (manifest, chunks) ← Chunker.new.chunkData sha256 data
      let (sent, result) := sendAll u.sendFault 0
        (incrementMessages (fileName u.path) data.length manifest chunks)
      match result, versions with
      | .error e, _ | .ok (), .error e => return (sent, .error e)
      | .ok (), .ok manager =>
        let entry := manager.entry manifest "increment" u.now
        match flushFault with
        | some e => return (sent, .error ("failed to save version: " ++ e))
        | none => return (sent, .ok (incrementReport u data.length chunks.length entry.versionId,
            (manager.insert (fileName u.path) entry).store))

/-- `trim_start_matches`: the pattern goes from the front as often as it is there. -/
def trimStartMatches (pattern : List Char) : Nat → List Char → List Char
  | 0, text => text
  | rounds + 1, text =>
    if pattern.isPrefixOf text then trimStartMatches pattern rounds (text.drop pattern.length)
    else text

/-- What a listener hands on: the first text that begins with its tag, without the tag. -/
def answerTo (tag : String) (arrived : List String) : Option String :=
  (arrived.find? fun msg => tag.toList.isPrefixOf msg.toList).map fun msg =>
    String.ofList (trimStartMatches tag.toList msg.length msg.toList)

/-- The library's answer about a text, and its words about a text that is no manifest or no
hexadecimal. -/
structure Serde where
  fromStr : String → Except String Value
  typeError : String → String
  hexError : String → String

/-- The part of a path before its last component. -/
def parentPath (path : String) : String :=
  String.ofList ((path.toList.reverse.dropWhile (· ≠ '/')).drop 1).reverse

/-- What `restore` gets from outside: the errors of its sends, the numbers in its tags, the
texts that arrive while it waits, and the errors of the file system. -/
structure Download where
  target : String
  localPath : String
  metaFault : Option String
  chunkFault : Nat → Option String
  metaRandom : UInt64
  chunkRandom : Nat → UInt64
  metaArrived : List String
  chunkArrived : Nat → List String
  dirFault : Option String
  writeFault : Option String

/-- The local file: untouched, with new content, or after a write that failed. -/
inductive LocalFile where
  | untouched
  | written (content : Bytes)
  | broken
  deriving DecidableEq

namespace Download
variable (json : Serde) (d : Download)

def metaTag : String := "RESTORE_META_RESP:" ++ s!"restore-meta-{d.metaRandom}:"

def chunkTag (i : Nat) : String := "RESTORE_CHUNK_RESP:" ++ s!"restore-chunk-{i}-{d.chunkRandom i}:"

def requestManifest : Except String FileManifest :=
  match d.metaFault with
  | some e => .error ("failed to request metadata: " ++ e)
  | none =>
    match answerTo d.metaTag d.metaArrived with
    | none => .error "timeout waiting for metadata response"
    | some text =>
      match json.fromStr text with
      | .error e => .error ("failed to parse manifest: " ++ e)
      | .ok value =>
        match manifestOf value with
        | none => .error ("failed to parse manifest: " ++ json.typeError text)
        | some manifest => .ok manifest

/-- The last field of a name is the one that a value of the library keeps. -/
def index (value : Value) (name : String) : Value :=
  match value with
  | .object fields => (fields.reverse.find? (·.1 = name)).elim .null (·.2)
  | _ => .null

def requestChunk (i : Nat) : Except String Bytes :=
  match d.chunkFault i with
  | some e => .error (s!"failed to request chunk {i}: " ++ e)
  | none =>
    match answerTo (d.chunkTag i) (d.chunkArrived i) with
    | none => .error s!"timeout waiting for chunk {i}"
    | some text =>
      match json.fromStr text with
      | .error e => .error ("invalid chunk response: " ++ e)
      | .ok value =>
        match asString (index value "data_hex") with
        | none => .error "missing data_hex in chunk response"
        | some hex =>
          match Hex.decode hex.toList with
          | none => .error ("invalid hex data: " ++ json.hexError hex)
          | some data => .ok data

def report (path : String) (manifest : FileManifest) : String :=
  s!"Restore completed: {d.target} → {d.localPath}\n  File: {fileName path} ({manifest.fileSize} bytes)\n" ++
  s!"  Chunks: {manifest.chunks.length}\n  Integrity: verified"

/-- The chunks are put together as they came. -/
def executeRestore (sha256 : Bytes → Hash) : Option (Except String String × LocalFile) :=
  match Command.splitn ':' 3 d.target.toList with
  | [_, _, path] =>
    match d.requestManifest json with
    | .error e => some (.error e, .untouched)
    | .ok manifest =>
      match (List.range manifest.chunks.length).mapM (d.requestChunk json) with
      | .error e => some (.error e, .untouched)
      | .ok chunks => do
        match ← Chunker.reassemble sha256 manifest chunks with
        | .error e => return (.error ("reassembly failed: " ++ e), .untouched)
        | .ok restored =>
          match d.dirFault, d.writeFault with
          | some e, _ =>
            return (.error (s!"failed to create directory '{parentPath d.localPath}': " ++ e), .untouched)
          | none, some e => return (.error (s!"failed to write '{d.localPath}': " ++ e), .broken)
          | none, none => return (.ok (d.report (String.ofList path) manifest), .written restored)
  | _ => some (.error s!"invalid restore target '{d.target}': expected node:<name>:<path>", .untouched)

end Download

/-- The library reads back the text of the value. -/
def Reads (json : Serde) (value : Value) : Prop := json.fromStr (jsonText value) = .ok value

section
variable {sha256 : Bytes → Hash} {cipher : Cipher} {key : Key}
  {random : Nat → List.Vector UInt8 8} {u : Upload} {data : Bytes} {manifest : FileManifest}
  {chunks : List Bytes} {json : Serde}

theorem sendAll_ok {messages : List Outgoing} (sends : sendAll fault i messages = (sent, .ok ())) :
    sent = messages.map (·.text) := by
  induction messages generalizing i sent with
  | nil =>
    cases sends
    rfl
  | cons msg rest ih =>
    rw [sendAll] at sends
    split at sends
    · cases sends
    · cases later : sendAll fault (i + 1) rest with
      | mk others result =>
        rw [later] at sends
        obtain ⟨rfl, rfl⟩ := Prod.mk.inj sends
        rw [ih later, List.map_cons]

theorem sendAll_faultless (faultless : ∀ i, fault i = none) (i : Nat) (messages : List Outgoing) :
    sendAll fault i messages = (messages.map (·.text), .ok ()) := by
  induction messages generalizing i with
  | nil => rfl
  | cons msg rest ih =>
    simp only [sendAll, faultless i]
    rw [ih]
    rfl

/-- The store that a backup registers its file in is fresh, so the file is not in it. -/
theorem executeBackup_faultless (parsed : ParsedAddress.parse u.target = .ok address)
    (file : u.file = .ok data) (faultless : ∀ i, u.sendFault i = none)
    (cut : Chunker.new.chunkData sha256 data = some (manifest, chunks)) :
    ∃ sent reported, executeBackup sha256 cipher key random u = some (sent, .ok reported) := by
  simp [executeBackup, parsed, file, cut, sendAll_faultless faultless, MetadataStore.register,
    MetadataStore.new]

/-- A backup that is reported has sent all its messages. -/
theorem executeBackup_ok (file : u.file = .ok data)
    (cut : Chunker.new.chunkData sha256 data = some (manifest, chunks))
    (done : executeBackup sha256 cipher key random u = some (sent, .ok reported)) :
    sent = (backupMessages (fileName u.path) data.length manifest
      (encryptChunks cipher key random chunks)).map (·.text) := by
  rw [executeBackup] at done
  split at done
  · cases done
  · simp only [file, cut, Option.bind_eq_bind, Option.bind_some] at done
    cases sends : sendAll u.sendFault 0 (backupMessages (fileName u.path) data.length manifest
        (encryptChunks cipher key random chunks)) with
    | mk others result =>
      rw [sends] at done
      cases result with
      | error e => cases done
      | ok =>
        dsimp only at done
        split at done
        · cases done
        · cases done
          exact sendAll_ok sends

theorem chunkMetaOf_value (entry : ChunkMeta) : chunkMetaOf (chunkMetaValue entry) = some entry := by
  have index := asNat_number entry.index.toNat_lt
  simp [chunkMetaOf, chunkMetaValue, record, field, index]

theorem manifestOf_value (manifest : FileManifest) :
    manifestOf (manifestValue manifest) = some manifest := by
  have entries : (manifest.chunks.map chunkMetaValue).mapM chunkMetaOf = some manifest.chunks := by
    rw [List.mapM_map, Function.comp_def]
    simpa using Blocks.mapM_eq_some (l := manifest.chunks) (g := id)
      fun entry _ => chunkMetaOf_value entry
  simp [manifestOf, manifestValue, record, field, asArray, entries]

/-- The message gives the chunk with the index, as far as a reader of it can tell. -/
def Carries (json : Serde) (msg : String) (i : Nat) (chunk : EncryptedChunk) : Prop :=
  ∃ text value, msg = "BACKUP_CHUNK:" ++ text ∧ json.fromStr text = .ok value ∧
    Download.index value "chunk_index" = .number i ∧
    (asString (Download.index value "nonce_hex")).bind (Hex.decode ·.toList) =
      some chunk.nonce.toList ∧
    (asString (Download.index value "data_hex")).bind (Hex.decode ·.toList) = some chunk.data

theorem carries_payload {name : String} {total size : Nat} {encrypted chunk : EncryptedChunk}
    (reads : Reads json (chunkPayload name total size j encrypted)) :
    Carries json ("BACKUP_CHUNK:" ++ jsonText (chunkPayload name total size j encrypted)) i chunk ↔
      i = j ∧ chunk = encrypted := by
  have indexed : Download.index (chunkPayload name total size j encrypted) "chunk_index" = .number j := rfl
  have nonce : Download.index (chunkPayload name total size j encrypted) "nonce_hex" =
    .string (hexText encrypted.nonce.toList) := rfl
  have content : Download.index (chunkPayload name total size j encrypted) "data_hex" =
    .string (hexText encrypted.data) := rfl
  constructor
  · rintro ⟨text, value, same, parsed, position, nonces, datas⟩
    obtain rfl : jsonText (chunkPayload name total size j encrypted) = text :=
      (String.append_right_inj _).mp same
    rw [Reads] at reads
    rw [reads] at parsed
    cases parsed
    rw [indexed] at position
    rw [nonce] at nonces
    rw [content] at datas
    simp only [asString_string, Option.bind_some, hexText, String.toList_ofList, Hex.decode_encode,
      Option.some.injEq] at nonces datas
    have position : j = i := by simpa using position
    obtain ⟨_, _⟩ := chunk
    obtain ⟨_, _⟩ := encrypted
    cases List.Vector.eq _ _ nonces
    cases datas
    exact ⟨position.symm, rfl⟩
  · rintro ⟨rfl, rfl⟩
    refine ⟨_, _, rfl, reads, indexed, ?_, ?_⟩
    · simp [nonce, hexText, Hex.decode_encode]
    · simp [content, hexText, Hex.decode_encode]

theorem encryptChunks_getElem? (i : Nat) : (encryptChunks cipher key random chunks)[i]? =
    chunks[i]?.map fun chunk => Encryptor.encrypt cipher ⟨key⟩ (random i) i.toUInt32 chunk := by
  rw [encryptChunks, List.getElem?_mapIdx]

/-- What the messages of a backup carry. -/
theorem carries_backup {name : String} {size : Nat} {encrypted : List EncryptedChunk}
    (reads : ∀ j stored, encrypted[j]? = some stored →
      Reads json (chunkPayload name encrypted.length size j stored)) (i : Nat) (chunk : EncryptedChunk) :
    (∃ msg ∈ (backupMessages name size manifest encrypted).map (·.text), Carries json msg i chunk) ↔
      encrypted[i]? = some chunk := by
  simp only [backupMessages, List.map_append, List.map_cons, List.map_nil, List.mem_append,
    List.mem_singleton]
  constructor
  · rintro ⟨msg, listed | rfl, carries⟩
    · obtain ⟨out, member, rfl⟩ := List.mem_map.mp listed
      obtain ⟨j, found⟩ := List.mem_iff_getElem?.mp member
      rw [List.getElem?_mapIdx, Option.map_eq_some_iff] at found
      obtain ⟨stored, found, rfl⟩ := found
      obtain ⟨rfl, rfl⟩ := (carries_payload (reads j stored found)).mp carries
      exact found
    · obtain ⟨text, -, same, -⟩ := carries
      have letters := congrArg String.toList same
      simp [String.toList_append] at letters
  · intro found
    refine ⟨"BACKUP_CHUNK:" ++ jsonText (chunkPayload name encrypted.length size i chunk),
      .inl (List.mem_map.mpr ⟨⟨_, s!"failed to send chunk {i}: "⟩, ?_, rfl⟩),
      (carries_payload (reads i chunk found)).mpr ⟨rfl, rfl⟩⟩
    refine List.mem_iff_getElem?.mpr ⟨i, ?_⟩
    rw [List.getElem?_mapIdx, found]
    rfl

/-- The default chunker never overflows, and its chunks reassemble. -/
theorem reassemble_chunkData (bound : data.length ≤ isizeMax) (few : chunks.length < 2 ^ 32)
    (cut : Chunker.new.chunkData sha256 data = some (manifest, chunks)) :
    manifest.chunks = (List.range (Blocks.count defaultChunkSize data.length)).map
      (blockMeta sha256 defaultChunkSize data) ∧ chunks = Blocks.blocks defaultChunkSize data ∧
    Chunker.reassemble sha256 manifest chunks = some (.ok data) := by
  have fits : data.length + defaultChunkSize < 2 ^ 64 := by
    rw [isizeMax] at bound
    rw [defaultChunkSize]
    omega
  have blocks := Chunker.new.chunkData_eq sha256 fits
  rw [cut] at blocks
  obtain ⟨rfl, rfl⟩ := Prod.mk.inj (Option.some.inj blocks)
  rw [Blocks.blocks_length] at few
  obtain ⟨manifest, chunks, again, -, whole⟩ :=
    chunk_round_trip sha256 Chunker.new ⟨data, bound⟩ fits few
  rw [cut] at again
  obtain ⟨rfl, rfl⟩ := Prod.mk.inj (Option.some.inj again)
  exact ⟨rfl, rfl, whole⟩

/-- What a function gives for every position is the list if it gives each of its members. -/
theorem mapM_range {f : Nat → Except String Bytes} {pieces : List Bytes}
    (each : ∀ i piece, pieces[i]? = some piece → f i = .ok piece) :
    (List.range pieces.length).mapM f = .ok pieces := by
  have results : (List.range pieces.length).mapM f =
      .ok ((List.range pieces.length).map (pieces.getD · [])) :=
    Blocks.mapM_eq_ok fun i member => by
      have inside := List.mem_range.mp member
      rw [List.getD_eq_getElem pieces [] inside]
      exact each i _ (List.getElem?_eq_getElem inside)
  rw [results]
  congr 1
  refine List.ext_getElem (by simp) fun i _ inside => ?_
  simp [inside]

/-- From the messages of a backup, in whatever order and however often they are taken, the
key gives the file back: what they carry for an index decrypts there, and all of it
reassembles to the file. -/
theorem backup_recoverable (lawful : cipher.Lawful) (file : u.file = .ok data)
    (bound : data.length ≤ isizeMax) (few : chunks.length < 2 ^ 32)
    (cut : Chunker.new.chunkData sha256 data = some (manifest, chunks))
    (reads : ∀ j stored, (encryptChunks cipher key random chunks)[j]? = some stored →
      Reads json (chunkPayload (fileName u.path) chunks.length data.length j stored))
    (done : executeBackup sha256 cipher key random u = some (sent, .ok reported)) :
    (∀ i < chunks.length, ∃ stored, ∃ msg ∈ sent, Carries json msg i stored) ∧
    ∀ stored : Nat → EncryptedChunk,
      (∀ i < chunks.length, ∃ msg ∈ sent, Carries json msg i (stored i)) →
      ∃ plain, (List.range chunks.length).mapM
          (fun i => Encryptor.decrypt cipher ⟨key⟩ i.toUInt32 (stored i)) = .ok plain ∧
        Chunker.reassemble sha256 manifest plain = some (.ok data) := by
  have length : (encryptChunks cipher key random chunks).length = chunks.length := by
    simp [encryptChunks]
  have carried (i : Nat) (stored : EncryptedChunk) :
      (∃ msg ∈ sent, Carries json msg i stored) ↔
        (encryptChunks cipher key random chunks)[i]? = some stored := by
    rw [executeBackup_ok file cut done]
    exact carries_backup (length.symm ▸ reads) i stored
  refine ⟨fun i present => ?_, fun stored taken => ⟨chunks, ?_, ?_⟩⟩
  · exact ⟨_, (carried i _).mpr (List.getElem?_eq_getElem (length.symm ▸ present))⟩
  · refine mapM_range fun i piece found => ?_
    have present := (List.getElem?_eq_some_iff.mp found).1
    have carries := (carried i _).mp (taken i present)
    rw [encryptChunks_getElem?, found, Option.map_some, Option.some.injEq] at carries
    rw [← carries]
    exact (Encryptor.decrypt_encrypt_iff lawful _).mpr ⟨rfl, rfl⟩
  · exact (reassemble_chunkData bound few cut).2.2

def zeroKey : Key := List.Vector.replicate 32 0

def zeroNonce : ChunkNonce := List.Vector.replicate 12 0

def zeroRandom (_ : Nat) : List.Vector UInt8 8 := List.Vector.replicate 8 0

def knownText : Bytes :=
  [0xcf, 0xa5, 0x43, 0x60, 0xde, 0x61, 0x26, 0x6f, 0xf2, 0xf2, 0xc0, 0xef, 0xdf, 0x70, 0xe6, 0x22,
    0x7f, 0xce, 0xcf]

/-- AES-256 in Galois/Counter mode on `1, 2, 3` under the key and the nonce of zeros. -/
def knownCipher : Cipher where
  encrypt key nonce plaintext :=
    if key = zeroKey ∧ nonce = zeroNonce ∧ plaintext = [1, 2, 3] then knownText
    else plaintext ++ List.replicate tagLen 0
  decrypt key nonce text :=
    if key = zeroKey ∧ nonce = zeroNonce ∧ text = knownText then some [1, 2, 3]
    else if text.drop (text.length - tagLen) = List.replicate tagLen 0 then
      some (text.take (text.length - tagLen))
    else none

theorem knownCipher_lawful : knownCipher.Lawful where
  decrypt_encrypt key nonce plaintext := by
    by_cases known : key = zeroKey ∧ nonce = zeroNonce ∧ plaintext = [1, 2, 3]
    · obtain ⟨rfl, rfl, rfl⟩ := known
      rfl
    · -- the known text does not end in zeros
      have other : plaintext ++ List.replicate tagLen 0 ≠ knownText := fun same => by
        have tags := congrArg (List.drop 3) same
        have length := congrArg List.length same
        have three : plaintext.length = 3 := by simpa [tagLen, knownText] using length
        rw [← three, List.drop_left, three] at tags
        exact absurd tags (by decide)
      simp [knownCipher, known, other]
  encrypt_length key nonce plaintext := by
    by_cases known : key = zeroKey ∧ nonce = zeroNonce ∧ plaintext = [1, 2, 3]
    · obtain ⟨rfl, rfl, rfl⟩ := known
      rfl
    · simp [knownCipher, known]

def knownUpload : Upload := ⟨"a", "node:lv1", .ok [1, 2, 3], fun _ => none, 0⟩

def knownManifest : FileManifest :=
  ⟨knownDigest [1, 2, 3], 3, [⟨knownDigest [1, 2, 3], 0, 0, 3⟩], 4194304⟩

/-- A library that reads the texts of the values. -/
def reading (values : List Value) : Serde where
  fromStr text :=
    match values.find? (fun value => value.text = text.toList) with
    | some value => .ok value
    | none => .error "expected value at line 1 column 1"
  typeError _ := "invalid type"
  hexError _ := "Odd number of digits"

theorem reads_found {values : List Value}
    (found : values.find? (fun other => other.text = value.text) = some value) :
    Reads (reading values) value := by
  simp [Reads, reading, jsonText, found]

def knownPayload : Value :=
  chunkPayload (fileName knownUpload.path) 1 3 0 ⟨zeroNonce, knownText⟩

theorem backup_recoverable_known : ∃ sent reported,
    executeBackup knownDigest knownCipher zeroKey zeroRandom knownUpload =
      some (sent, .ok reported) ∧
    (∀ i < 1, ∃ stored, ∃ msg ∈ sent, Carries (reading [knownPayload]) msg i stored) ∧
    ∀ stored : Nat → EncryptedChunk,
      (∀ i < 1, ∃ msg ∈ sent, Carries (reading [knownPayload]) msg i (stored i)) →
      ∃ plain, (List.range 1).mapM
          (fun i => Encryptor.decrypt knownCipher ⟨zeroKey⟩ i.toUInt32 (stored i)) = .ok plain ∧
        Chunker.reassemble knownDigest knownManifest plain = some (.ok [1, 2, 3]) := by
  have cut : Chunker.new.chunkData knownDigest [1, 2, 3] = some (knownManifest, [[1, 2, 3]]) := rfl
  obtain ⟨sent, reported, done⟩ : ∃ sent reported,
      executeBackup knownDigest knownCipher zeroKey zeroRandom knownUpload =
        some (sent, .ok reported) := executeBackup_faultless rfl rfl (fun _ => rfl) cut
  refine ⟨sent, reported, done, backup_recoverable knownCipher_lawful rfl (by decide) (by decide) cut ?_ done⟩
  intro j stored found
  cases j with
  | zero =>
    have encrypted : encryptChunks knownCipher zeroKey zeroRandom [[1, 2, 3]] =
        [⟨zeroNonce, knownText⟩] := by decide
    rw [encrypted] at found
    cases found
    exact reads_found (List.find?_cons_of_pos (by simp [knownPayload]))
  | succ j => cases found

/-- Whether the messages are sent depends on their number and on what their errors say. -/
theorem sendAll_result {messages others : List Outgoing}
    (same : messages.map (·.failure) = others.map (·.failure)) (i : Nat) :
    (sendAll fault i messages).2 = (sendAll fault i others).2 := by
  induction messages generalizing others i with
  | nil => rw [List.map_eq_nil_iff.mp same.symm]
  | cons msg rest ih =>
    cases others with
    | nil => cases same
    | cons other later =>
      obtain ⟨here, same⟩ := List.cons_eq_cons.mp same
      rw [sendAll, sendAll]
      cases fault i with
      | some e => simp [here]
      | none => exact ih same (i + 1)

theorem encode_take (bytes : Bytes) (n : Nat) :
    (Hex.encode bytes).take (2 * n) = Hex.encode (bytes.take n) := by
  induction bytes generalizing n with
  | nil => simp [Hex.encode]
  | cons byte rest ih =>
    cases n with
    | zero => simp [Hex.encode]
    | succ n =>
      rw [Nat.mul_succ, List.take_succ_cons]
      simp only [Hex.encode, List.flatMap_cons] at ih ⊢
      simp [ih n]

/-- A report shows eight bytes of a key. -/
theorem truncateHex_key (key : Key) : truncateHex (hexText key.toList) 16 =
    String.ofList (Hex.encode (key.toList.take 8)) ++ "..." := by
  have length : (hexText key.toList).length = 64 := by
    rw [hexText, String.length_ofList, Hex.encode_length, key.toList_length]
  rw [truncateHex, if_neg (by omega), hexText, String.toList_ofList, ← encode_take]

theorem backupReport_front {key other : Key} (front : key.toList.take 8 = other.toList.take 8) :
    backupReport u key = backupReport u other := by
  have shown : truncateHex (hexText key.toList) 16 = truncateHex (hexText other.toList) 16 := by
    rw [truncateHex_key, truncateHex_key, front]
  funext size chunks
  unfold backupReport
  rw [shown]

/-- The errors of the sends name the chunk, not what is in it. -/
theorem backupMessages_failure (name : String) (size : Nat) (manifest : FileManifest)
    (encrypted : List EncryptedChunk) :
    (backupMessages name size manifest encrypted).map (·.failure) =
      (List.range encrypted.length).map (fun i => s!"failed to send chunk {i}: ") ++
        ["failed to send metadata: "] := by
  rw [backupMessages, List.map_append, List.mapIdx_eq_zipIdx_map, List.range_eq_range',
    ← List.zipIdx_map_snd 0 encrypted, List.map_map, List.map_map]
  rfl

/-- The command tells and keeps nothing of the other bytes of its key: two keys with the same
first eight bytes give the same result, the same report and the same registered file. -/
theorem backup_key_lost (sha256 : Bytes → Hash) (cipher : Cipher)
    (random : Nat → List.Vector UInt8 8) (u : Upload) (key other : Key)
    (front : key.toList.take 8 = other.toList.take 8) :
    (executeBackup sha256 cipher key random u).map (·.2) =
      (executeBackup sha256 cipher other random u).map (·.2) := by
  have report := backupReport_front (u := u) front
  cases parsed : ParsedAddress.parse u.target with
  | error e => simp only [executeBackup, parsed]
  | ok address =>
    cases file : u.file with
    | error e => simp only [executeBackup, parsed, file]
    | ok data =>
      cases cut : Chunker.new.chunkData sha256 data with
      | none => simp only [executeBackup, parsed, file, cut, Option.bind_eq_bind, Option.bind_none]
      | some pieces =>
        obtain ⟨manifest, chunks⟩ := pieces
        have sends : (sendAll u.sendFault 0 (backupMessages (fileName u.path) data.length manifest
              (encryptChunks cipher key random chunks))).2 =
            (sendAll u.sendFault 0 (backupMessages (fileName u.path) data.length manifest
              (encryptChunks cipher other random chunks))).2 :=
          sendAll_result (by simp [backupMessages_failure, encryptChunks]) 0
        simp only [executeBackup, parsed, file, cut, Option.bind_eq_bind, Option.bind_some]
        generalize sendAll u.sendFault 0 (backupMessages (fileName u.path) data.length manifest
          (encryptChunks cipher key random chunks)) = one at sends ⊢
        generalize sendAll u.sendFault 0 (backupMessages (fileName u.path) data.length manifest
          (encryptChunks cipher other random chunks)) = two at sends ⊢
        obtain ⟨sent, result⟩ := one
        obtain ⟨sent', result'⟩ := two
        obtain rfl : result = result' := sends
        cases result with
        | error e => rfl
        | ok =>
          dsimp only
          split
          · rfl
          · rw [report]
            rfl

theorem backup_key_lost_late :
    (executeBackup knownDigest knownCipher zeroKey zeroRandom knownUpload).map (·.2) =
      (executeBackup knownDigest knownCipher (zeroKey.set 31 1) zeroRandom knownUpload).map (·.2) :=
  backup_key_lost knownDigest knownCipher zeroRandom knownUpload zeroKey (zeroKey.set 31 1)
    (by decide)

/-- Of the texts that arrive, the first with the tag goes on with the text. -/
def Answers (tag : String) (arrived : List String) (text : String) : Prop :=
  ∃ before after, arrived = before ++ (tag ++ text) :: after ∧
    ∀ msg ∈ before, ¬ tag.toList.isPrefixOf msg.toList

theorem trimStartMatches_of_not_prefix {pattern text : List Char}
    (other : ¬ pattern.isPrefixOf text) (rounds : Nat) : trimStartMatches pattern rounds text = text := by
  cases rounds with
  | zero => rfl
  | succ rounds => rw [trimStartMatches, if_neg other]

/-- A text that begins with a brace is handed on as it is. -/
theorem answerTo_object {tag : String} {letters : List Char} {fields : List (String × Value)}
    (letter : tag.toList = 'R' :: letters) (answers : Answers tag arrived (jsonText (.object fields))) :
    answerTo tag arrived = some (jsonText (.object fields)) := by
  obtain ⟨before, after, rfl, missed⟩ := answers
  have starts : tag.toList.isPrefixOf (tag ++ jsonText (.object fields)).toList := by
    simp [String.toList_append]
  have missed : before.find? (fun msg => tag.toList.isPrefixOf msg.toList) = none :=
    List.find?_eq_none.mpr missed
  have braces : ¬ tag.toList.isPrefixOf (jsonText (.object fields)).toList := by
    simp [letter, jsonText, Value.text]
  have length : (tag ++ jsonText (.object fields)).length =
      letters.length + (jsonText (.object fields)).length + 1 := by
    rw [String.length_append, ← String.length_toList, letter, List.length_cons]
    omega
  rw [answerTo, List.find?_append, missed, Option.none_or,
    List.find?_cons_of_pos (p := fun msg : String => tag.toList.isPrefixOf msg.toList) starts,
    Option.map_some, length, trimStartMatches, if_pos starts, String.toList_append,
    List.drop_left, trimStartMatches_of_not_prefix braces, String.ofList_toList]

/-- A node answers every request of `restore` with the manifest and the pieces, and nothing
else fails. -/
structure Served (json : Serde) (d : Download) (manifest : FileManifest) (pieces : List Bytes) :
    Prop where
  target : ∃ scheme node path, Command.splitn ':' 3 d.target.toList = [scheme, node, path]
  requested : d.metaFault = none ∧ ∀ i, d.chunkFault i = none
  metadata : Answers d.metaTag d.metaArrived (jsonText (manifestValue manifest)) ∧
    Reads json (manifestValue manifest)
  paired : pieces.length = manifest.chunks.length
  answered : ∀ i piece, pieces[i]? = some piece → ∃ fields,
    Answers (d.chunkTag i) (d.chunkArrived i) (jsonText (.object fields)) ∧
    Reads json (.object fields) ∧
    Download.index (.object fields) "data_hex" = .string (hexText piece)
  writable : d.dirFault = none ∧ d.writeFault = none

variable {d : Download} {pieces : List Bytes}

theorem Served.requestManifest (served : Served json d manifest pieces) :
    d.requestManifest json = .ok manifest := by
  obtain ⟨answers, parsed⟩ := served.metadata
  obtain ⟨fields, object⟩ : ∃ fields, manifestValue manifest = .object fields := ⟨_, rfl⟩
  rw [object] at answers parsed
  have answered := answerTo_object (String.toList_append ..) answers
  rw [Reads] at parsed
  simp only [Download.requestManifest, served.requested.1, answered, parsed]
  rw [← object, manifestOf_value]

theorem Served.requestChunk (served : Served json d manifest pieces)
    (found : pieces[i]? = some piece) : d.requestChunk json i = .ok piece := by
  obtain ⟨fields, answers, parsed, content⟩ := served.answered i piece found
  have answered := answerTo_object (String.toList_append ..) answers
  rw [Reads] at parsed
  simp only [Download.requestChunk, served.requested.2 i, answered, parsed, content, asString_string,
    hexText, String.toList_ofList, Hex.decode_encode]

/-- `restore` reassembles what it is served. -/
theorem Served.restored (sha256 : Bytes → Hash) (served : Served json d manifest pieces) :
    ∃ text, d.executeRestore json sha256 =
      (Chunker.reassemble sha256 manifest pieces).map fun
        | .error e => (.error ("reassembly failed: " ++ e), .untouched)
        | .ok restored => (.ok text, .written restored) := by
  obtain ⟨scheme, node, path, split⟩ := served.target
  have fetched : (List.range manifest.chunks.length).mapM (d.requestChunk json) = .ok pieces := by
    rw [← served.paired]
    exact mapM_range fun i piece found => served.requestChunk found
  refine ⟨d.report (String.ofList path) manifest, ?_⟩
  simp only [Download.executeRestore, split, served.requestManifest, fetched, served.writable.1,
    served.writable.2]
  cases Chunker.reassemble sha256 manifest pieces with
  | none => rfl
  | some result => cases result <;> rfl

/-- A ciphertext is longer than the size that the manifest records for its chunk. -/
theorem not_sized_encrypted (lawful : cipher.Lawful) (small : size < 2 ^ 62) (indices : List Nat)
    (nonempty : indices ≠ []) : ¬ Sized (indices.map (blockMeta sha256 size data))
      ((encryptChunks cipher key random (indices.map (Blocks.block size data))).map (·.data)) := by
  cases indices with
  | nil => exact absurd rfl nonempty
  | cons i rest =>
    intro sized
    rw [encryptChunks, List.map_cons, List.map_cons, List.mapIdx_cons, List.map_cons] at sized
    cases sized with
    | cons same _ =>
      have length : (Blocks.block size data i).length = min size (data.length - i * size) :=
        Blocks.block_length data i
      have words := congrArg UInt64.toNat same
      rw [Encryptor.encrypt_length lawful, blockMeta, toUInt64_toNat, toUInt64_toNat] at words
      · rw [tagLen] at words
        omega
      · omega
      · rw [tagLen]
        omega

theorem restored_plain (bound : data.length ≤ isizeMax) (few : chunks.length < 2 ^ 32)
    (cut : Chunker.new.chunkData sha256 data = some (manifest, chunks))
    (served : Served json d manifest chunks) :
    ∃ text, d.executeRestore json sha256 = some (.ok text, .written data) := by
  obtain ⟨text, restored⟩ := served.restored sha256
  exact ⟨text, by rw [restored, (reassemble_chunkData bound few cut).2.2]; rfl⟩

/-- An empty file has no chunk, so there is nothing to decrypt. -/
theorem restored_empty (bound : data.length ≤ isizeMax) (few : chunks.length < 2 ^ 32)
    (cut : Chunker.new.chunkData sha256 data = some (manifest, chunks)) (empty : data = [])
    (served : Served json d manifest ((encryptChunks cipher key random chunks).map (·.data))) :
    ∃ text, d.executeRestore json sha256 = some (.ok text, .written data) := by
  have none : chunks = [] := by
    rw [(reassemble_chunkData bound few cut).2.1, empty]
    rfl
  subst none
  exact restored_plain bound few cut served

theorem restored_encrypted (lawful : cipher.Lawful) (bound : data.length ≤ isizeMax)
    (few : chunks.length < 2 ^ 32)
    (cut : Chunker.new.chunkData sha256 data = some (manifest, chunks)) (nonempty : data ≠ [])
    (served : Served json d manifest ((encryptChunks cipher key random chunks).map (·.data))) :
    ∃ e, d.executeRestore json sha256 = some (.error e, .untouched) := by
  obtain ⟨entries, blocks, -⟩ := reassemble_chunkData bound few cut
  have indices : List.range (Blocks.count defaultChunkSize data.length) ≠ [] := by
    have first := (Blocks.lt_count (by decide) 0 data.length).mpr
      (by simpa using List.length_pos_iff.mpr nonempty : 0 * defaultChunkSize < data.length)
    exact List.ne_nil_of_mem (List.mem_range.mpr first)
  have unsized : ¬ Sized manifest.chunks ((encryptChunks cipher key random chunks).map (·.data)) := by
    rw [entries, blocks]
    exact not_sized_encrypted lawful (by decide) _ indices
  obtain ⟨message, refused⟩ := reassemble_mismatch sha256 fun matched => unsized matched.2
  obtain ⟨text, restored⟩ := served.restored sha256
  exact ⟨_, by rw [restored, refused]; rfl⟩

/-- The tags of the messages that bring a file to a node. -/
structure Tags where
  chunk : String
  manifest : String

def backupTags : Tags := ⟨"BACKUP_CHUNK:", "BACKUP_META:"⟩

def incrementTags : Tags := ⟨"INCR_BLOCK:", "INCR_MANIFEST:"⟩

/-- The message gives the bytes for the index, as far as a reader of it can tell. -/
def CarriesPiece (json : Serde) (tag msg : String) (i : Nat) (piece : Bytes) : Prop :=
  ∃ text value, msg = tag ++ text ∧ json.fromStr text = .ok value ∧
    Download.index value "chunk_index" = .number i ∧
    (asString (Download.index value "data_hex")).bind (Hex.decode ·.toList) = some piece

/-- The message gives the manifest of the file with the name. -/
def CarriesManifest (json : Serde) (tag name msg : String) (manifest : FileManifest) : Prop :=
  ∃ text value, msg = tag ++ (name ++ ":" ++ text) ∧ json.fromStr text = .ok value ∧
    manifestOf value = some manifest

/-- A node that has taken the messages may keep this manifest and these pieces of the file:
there is a piece for each chunk of the manifest, and a message gave it. -/
structure Kept (json : Serde) (tags : Tags) (name : String) (sent : List String)
    (manifest : FileManifest) (pieces : List Bytes) : Prop where
  told : ∃ msg ∈ sent, CarriesManifest json tags.manifest name msg manifest
  paired : pieces.length = manifest.chunks.length
  given : ∀ i piece, pieces[i]? = some piece →
    ∃ msg ∈ sent, CarriesPiece json tags.chunk msg i piece

/-- The messages of a file: one for each item with the bytes of it, and the manifest. -/
structure Sent (json : Serde) (tags : Tags) (name : String) (sent : List String)
    (manifest : FileManifest) (bytes : α → Bytes) (items : List α) : Prop where
  apart : ∀ a b, tags.chunk ++ a ≠ tags.manifest ++ b
  paired : items.length = manifest.chunks.length
  reads : Reads json (manifestValue manifest)
  listed : ∃ payload : Nat → α → Value,
    (∀ j item, items[j]? = some item → Reads json (payload j item)) ∧
    (∀ j item, Download.index (payload j item) "chunk_index" = .number j) ∧
    (∀ j item, Download.index (payload j item) "data_hex" = .string (hexText (bytes item))) ∧
    sent = items.mapIdx (fun j item => tags.chunk ++ jsonText (payload j item)) ++
      [tags.manifest ++ name ++ ":" ++ jsonText (manifestValue manifest)]

section kept
variable {tags : Tags} {name : String} {sent : List String} {α : Type} {bytes : α → Bytes}
  {items : List α}

theorem Sent.piece (whole : Sent json tags name sent manifest bytes items) (i : Nat) (piece : Bytes) :
    (∃ msg ∈ sent, CarriesPiece json tags.chunk msg i piece) ↔
      (items.map bytes)[i]? = some piece := by
  obtain ⟨payload, reads, index, content, rfl⟩ := whole.listed
  rw [List.getElem?_map, Option.map_eq_some_iff]
  constructor
  · rintro ⟨msg, member, text, value, rfl, parsed, position, datas⟩
    rcases List.mem_append.mp member with listed | last
    · obtain ⟨j, found⟩ := List.mem_iff_getElem?.mp listed
      rw [List.getElem?_mapIdx, Option.map_eq_some_iff] at found
      obtain ⟨item, found, same⟩ := found
      obtain rfl : jsonText (payload j item) = text := (String.append_right_inj _).mp same
      rw [reads j item found] at parsed
      cases parsed
      rw [index] at position
      rw [content] at datas
      have position : j = i := by simpa using position
      have datas : bytes item = piece := by simpa [hexText, Hex.decode_encode] using datas
      exact ⟨item, position ▸ found, datas⟩
    · rw [List.mem_singleton, String.append_assoc, String.append_assoc] at last
      exact absurd last (whole.apart _ _)
  · rintro ⟨item, found, rfl⟩
    refine ⟨_, List.mem_append_left _ (List.mem_iff_getElem?.mpr ⟨i, ?_⟩), _, _, rfl,
      reads i item found, index i item, ?_⟩
    · rw [List.getElem?_mapIdx, found]
      rfl
    · simp [content, hexText, Hex.decode_encode]

theorem Sent.told (whole : Sent json tags name sent manifest bytes items) (other : FileManifest) :
    (∃ msg ∈ sent, CarriesManifest json tags.manifest name msg other) ↔ other = manifest := by
  obtain ⟨payload, reads, index, content, rfl⟩ := whole.listed
  constructor
  · rintro ⟨msg, member, text, value, rfl, parsed, understood⟩
    rcases List.mem_append.mp member with listed | last
    · obtain ⟨j, found⟩ := List.mem_iff_getElem?.mp listed
      rw [List.getElem?_mapIdx, Option.map_eq_some_iff] at found
      obtain ⟨item, found, same⟩ := found
      exact absurd same (whole.apart _ _)
    · rw [List.mem_singleton, ← String.append_assoc, ← String.append_assoc,
        String.append_right_inj] at last
      rw [last, whole.reads] at parsed
      cases parsed
      rw [manifestOf_value] at understood
      exact (Option.some.inj understood).symm
  · rintro rfl
    refine ⟨_, List.mem_append_right _ List.mem_cons_self, _, _, ?_, whole.reads,
      manifestOf_value other⟩
    simp only [String.append_assoc]

/-- There is one file that a node can keep from the messages. -/
theorem Sent.kept (whole : Sent json tags name sent manifest bytes items) (other : FileManifest)
    (pieces : List Bytes) :
    Kept json tags name sent other pieces ↔ other = manifest ∧ pieces = items.map bytes := by
  constructor
  · rintro ⟨told, paired, given⟩
    obtain rfl := (whole.told other).mp told
    have length : pieces.length = (items.map bytes).length := by
      rw [paired, List.length_map, whole.paired]
    refine ⟨rfl, List.ext_getElem length fun i here there => ?_⟩
    have found := (whole.piece i _).mp (given i _ (List.getElem?_eq_getElem here))
    rw [List.getElem?_eq_getElem there] at found
    exact (Option.some.inj found).symm
  · rintro ⟨rfl, rfl⟩
    exact ⟨(whole.told other).mpr rfl, by rw [List.length_map, whole.paired],
      fun i piece found => (whole.piece i piece).mpr found⟩

end kept

/-- An increment that is reported has sent all its messages, and its manifest is the newest
version of the file. -/
theorem executeIncrement_ok {versions : Except String Version.VersionManager}
    (file : u.file = .ok data)
    (cut : Chunker.new.chunkData sha256 data = some (manifest, chunks))
    (done : executeIncrement sha256 versions flushFault u = some (sent, .ok reported)) :
    sent = (incrementMessages (fileName u.path) data.length manifest chunks).map (·.text) ∧
      ∃ entry older, reported.2.versions (fileName u.path) = entry :: older ∧
        entry.manifest = manifest := by
  rw [executeIncrement] at done
  split at done
  · cases done
  · simp only [file, cut, Option.bind_eq_bind, Option.bind_some] at done
    cases sends : sendAll u.sendFault 0
        (incrementMessages (fileName u.path) data.length manifest chunks) with
    | mk others result =>
      rw [sends] at done
      cases result with
      | error e => cases done
      | ok =>
        cases versions with
        | error e => cases done
        | ok manager =>
          dsimp only at done
          split at done
          · cases done
          · cases done
            exact ⟨sendAll_ok sends, _, _, (manager.listVersions_insert (fileName u.path) _
              (fileName u.path)).trans (if_pos rfl), rfl⟩

/-- The version file can be read and written. -/
theorem executeIncrement_faultless {manager : Version.VersionManager}
    (parsed : ParsedAddress.parse u.target = .ok address)
    (file : u.file = .ok data) (faultless : ∀ i, u.sendFault i = none)
    (cut : Chunker.new.chunkData sha256 data = some (manifest, chunks)) :
    ∃ sent reported, executeIncrement sha256 (.ok manager) none u = some (sent, .ok reported) := by
  simp [executeIncrement, parsed, file, cut, sendAll_faultless faultless]

theorem increment_sent {versions : Except String Version.VersionManager}
    (file : u.file = .ok data)
    (cut : Chunker.new.chunkData sha256 data = some (manifest, chunks))
    (paired : chunks.length = manifest.chunks.length)
    (told : Reads json (manifestValue manifest))
    (reads : ∀ j piece, chunks[j]? = some piece →
      Reads json (blockPayload (fileName u.path) chunks.length data.length j piece))
    (done : executeIncrement sha256 versions flushFault u = some (sent, .ok reported)) :
    Sent json incrementTags (fileName u.path) sent manifest id chunks where
  apart a b same := by
    have letters := congrArg String.toList same
    simp [incrementTags, String.toList_append] at letters
  paired := paired
  reads := told
  listed := by
    refine ⟨blockPayload (fileName u.path) chunks.length data.length, reads, fun _ _ => rfl,
      fun _ _ => rfl, ?_⟩
    rw [(executeIncrement_ok file cut done).1, incrementMessages, List.map_append,
      List.mapIdx_eq_zipIdx_map, List.mapIdx_eq_zipIdx_map, List.map_map]
    rfl

theorem backup_sent (file : u.file = .ok data)
    (cut : Chunker.new.chunkData sha256 data = some (manifest, chunks))
    (paired : chunks.length = manifest.chunks.length)
    (told : Reads json (manifestValue manifest))
    (reads : ∀ j stored, (encryptChunks cipher key random chunks)[j]? = some stored →
      Reads json (chunkPayload (fileName u.path) chunks.length data.length j stored))
    (done : executeBackup sha256 cipher key random u = some (sent, .ok reported)) :
    Sent json backupTags (fileName u.path) sent manifest EncryptedChunk.data
      (encryptChunks cipher key random chunks) where
  apart a b same := by
    have letters := congrArg String.toList same
    simp [backupTags, String.toList_append] at letters
  paired := by rw [encryptChunks, List.length_mapIdx, paired]
  reads := told
  listed := by
    have length : (encryptChunks cipher key random chunks).length = chunks.length := by
      simp [encryptChunks]
    refine ⟨chunkPayload (fileName u.path) chunks.length data.length, reads, fun _ _ => rfl,
      fun _ _ => rfl, ?_⟩
    rw [executeBackup_ok file cut done, backupMessages, List.map_append,
      List.mapIdx_eq_zipIdx_map, List.mapIdx_eq_zipIdx_map, List.map_map, length]
    rfl

/-- From what `increment` has sent a node can keep the file, whose newest version the sender
records, and if it serves that, `restore` gives the file back. From what `backup` has sent a node
can keep the encrypted file, and if it serves that, `restore` never does, unless the file is
empty: it does not decrypt. -/
theorem restore_served (versions : Except String Version.VersionManager) (flushFault : Option String)
    (lawful : cipher.Lawful) (file : u.file = .ok data)
    (bound : data.length ≤ isizeMax) (few : chunks.length < 2 ^ 32)
    (cut : Chunker.new.chunkData sha256 data = some (manifest, chunks))
    (told : Reads json (manifestValue manifest))
    (blocks : ∀ j piece, chunks[j]? = some piece →
      Reads json (blockPayload (fileName u.path) chunks.length data.length j piece))
    (encrypted : ∀ j stored, (encryptChunks cipher key random chunks)[j]? = some stored →
      Reads json (chunkPayload (fileName u.path) chunks.length data.length j stored)) :
    (∀ sent reported, executeIncrement sha256 versions flushFault u = some (sent, .ok reported) →
      (∃ entry older, reported.2.versions (fileName u.path) = entry :: older ∧
        entry.manifest = manifest) ∧
      Kept json incrementTags (fileName u.path) sent manifest chunks ∧
      ∀ other pieces, Kept json incrementTags (fileName u.path) sent other pieces →
        Served json d other pieces →
        ∃ text, d.executeRestore json sha256 = some (.ok text, .written data)) ∧
    (∀ sent reported, executeBackup sha256 cipher key random u = some (sent, .ok reported) →
      Kept json backupTags (fileName u.path) sent manifest
        ((encryptChunks cipher key random chunks).map (·.data)) ∧
      ∀ other pieces, Kept json backupTags (fileName u.path) sent other pieces →
        Served json d other pieces →
        (data = [] → ∃ text, d.executeRestore json sha256 = some (.ok text, .written data)) ∧
        (data ≠ [] → ∃ e, d.executeRestore json sha256 = some (.error e, .untouched))) := by
  obtain ⟨entries, pieces, whole⟩ := reassemble_chunkData bound few cut
  have paired : chunks.length = manifest.chunks.length := by simp [entries, pieces]
  refine ⟨fun sent reported done => ?_, fun sent reported done => ?_⟩
  · have kept := (increment_sent file cut paired told blocks done).kept
    refine ⟨(executeIncrement_ok file cut done).2,
      (kept _ _).mpr ⟨rfl, (List.map_id chunks).symm⟩, fun other taken node served => ?_⟩
    obtain ⟨rfl, rfl⟩ := (kept other taken).mp node
    exact restored_plain bound few cut (List.map_id chunks ▸ served)
  · have kept := (backup_sent file cut paired told encrypted done).kept
    refine ⟨(kept _ _).mpr ⟨rfl, rfl⟩, fun other taken node served => ?_⟩
    obtain ⟨rfl, rfl⟩ := (kept other taken).mp node
    exact ⟨fun empty => restored_empty bound few cut empty served,
      fun nonempty => restored_encrypted lawful bound few cut nonempty served⟩

def servedPiece (piece : Bytes) : List (String × Value) := [("data_hex", .string (hexText piece))]

/-- The download that is served the piece as the one chunk of the known manifest. -/
def knownDownload (piece : Bytes) : Download where
  target := "node:lv1:/a"
  localPath := "a"
  metaFault := none
  chunkFault _ := none
  metaRandom := 1
  chunkRandom _ := 2
  metaArrived := ["RESTORE_META_RESP:" ++ s!"restore-meta-{(1 : UInt64)}:" ++ jsonText (manifestValue knownManifest)]
  chunkArrived i :=
    ["RESTORE_CHUNK_RESP:" ++ s!"restore-chunk-{i}-{(2 : UInt64)}:" ++ jsonText (.object (servedPiece piece))]
  dirFault := none
  writeFault := none

def knownBlock : Value := blockPayload (fileName knownUpload.path) 1 3 0 [1, 2, 3]

def knownReading (piece : Bytes) : Serde :=
  reading [.object (servedPiece piece), manifestValue knownManifest, knownBlock, knownPayload]

theorem knownReading_manifest (piece : Bytes) :
    Reads (knownReading piece) (manifestValue knownManifest) := by
  have other : (Value.object (servedPiece piece)).text ≠ (manifestValue knownManifest).text := by
    simp [servedPiece, manifestValue, Value.text, textFields, quoted, escape]
  exact reads_found (by simp [other])

theorem knownDownload_served (piece : Bytes) :
    Served (knownReading piece) (knownDownload piece) knownManifest [piece] where
  target := by
    have split : Command.splitn ':' 3 "node:lv1:/a".toList =
      ["node".toList, "lv1".toList, "/a".toList] := by decide
    exact ⟨_, _, _, split⟩
  requested := ⟨rfl, fun _ => rfl⟩
  metadata := ⟨⟨[], [], rfl, by simp⟩, knownReading_manifest piece⟩
  paired := rfl
  answered i chunk found := by
    cases i with
    | zero =>
      cases found
      exact ⟨servedPiece piece, ⟨[], [], rfl, by simp⟩,
        reads_found (List.find?_cons_of_pos (by simp)), rfl⟩
    | succ i => cases found
  writable := ⟨rfl, rfl⟩

theorem knownReading_block (piece : Bytes) : Reads (knownReading piece) knownBlock := by
  have served : (Value.object (servedPiece piece)).text ≠ knownBlock.text := by
    simp [servedPiece, knownBlock, blockPayload, Value.text, textFields, quoted, escape]
  have told : (manifestValue knownManifest).text ≠ knownBlock.text := by
    simp [manifestValue, knownBlock, blockPayload, Value.text, textFields, quoted, escape]
  exact reads_found (by simp [served, told])

theorem knownReading_payload (piece : Bytes) : Reads (knownReading piece) knownPayload := by
  have served : (Value.object (servedPiece piece)).text ≠ knownPayload.text := by
    simp [servedPiece, knownPayload, chunkPayload, Value.text, textFields, quoted, escape]
  have told : (manifestValue knownManifest).text ≠ knownPayload.text := by
    simp [manifestValue, knownPayload, chunkPayload, Value.text, textFields, quoted, escape]
  have block : knownBlock.text ≠ knownPayload.text := by decide
  exact reads_found (by simp [served, told, block])

theorem restore_served_known :
    (∃ sent reported, executeIncrement knownDigest (.ok (.loadFromFile none)) none knownUpload =
        some (sent, .ok reported) ∧
      Kept (knownReading [1, 2, 3]) incrementTags (fileName knownUpload.path) sent knownManifest [[1, 2, 3]] ∧
      ∃ text, (knownDownload [1, 2, 3]).executeRestore (knownReading [1, 2, 3]) knownDigest =
        some (.ok text, .written [1, 2, 3])) ∧
    ∃ sent reported, executeBackup knownDigest knownCipher zeroKey zeroRandom knownUpload =
        some (sent, .ok reported) ∧
      Kept (knownReading knownText) backupTags (fileName knownUpload.path) sent knownManifest [knownText] ∧
      ∃ e, (knownDownload knownText).executeRestore (knownReading knownText) knownDigest =
        some (.error e, .untouched) := by
  have cut : Chunker.new.chunkData knownDigest [1, 2, 3] = some (knownManifest, [[1, 2, 3]]) := rfl
  have encrypted : encryptChunks knownCipher zeroKey zeroRandom [[1, 2, 3]] =
      [⟨zeroNonce, knownText⟩] := by decide
  have blocks (piece : Bytes) (j : Nat) (chunk : Bytes) (found : [[1, 2, 3]][j]? = some chunk) :
      Reads (knownReading piece) (blockPayload (fileName knownUpload.path) 1 3 j chunk) := by
    cases j with
    | zero =>
      cases found
      exact knownReading_block piece
    | succ j => cases found
  have stored (piece : Bytes) (j : Nat) (chunk : EncryptedChunk)
      (found : (encryptChunks knownCipher zeroKey zeroRandom [[1, 2, 3]])[j]? = some chunk) :
      Reads (knownReading piece) (chunkPayload (fileName knownUpload.path) 1 3 j chunk) := by
    rw [encrypted] at found
    cases j with
    | zero =>
      cases found
      exact knownReading_payload piece
    | succ j => cases found
  have served (piece : Bytes) := restore_served (d := knownDownload piece)
    (.ok (.loadFromFile none)) none knownCipher_lawful (u := knownUpload) rfl (by decide) (by decide)
    cut (knownReading_manifest piece) (blocks piece) (stored piece)
  obtain ⟨sent, reported, done⟩ : ∃ sent reported,
      executeIncrement knownDigest (.ok (.loadFromFile none)) none knownUpload =
        some (sent, .ok reported) := executeIncrement_faultless rfl rfl (fun _ => rfl) cut
  obtain ⟨sent', reported', done'⟩ : ∃ sent reported,
      executeBackup knownDigest knownCipher zeroKey zeroRandom knownUpload =
        some (sent, .ok reported) := executeBackup_faultless rfl rfl (fun _ => rfl) cut
  obtain ⟨-, kept, restored⟩ := (served [1, 2, 3]).1 sent reported done
  obtain ⟨kept', restored'⟩ := (served knownText).2 sent' reported' done'
  rw [encrypted] at kept'
  exact ⟨⟨sent, reported, done, kept, restored _ _ kept (knownDownload_served _)⟩,
    ⟨sent', reported', done', kept',
      (restored' _ _ kept' (knownDownload_served _)).2 (by decide)⟩⟩

/-- Whatever arrives, the local file is written exactly if the command reports success, and
then with chunks that came under its own tags, whose sizes and whose common hash are those of
the manifest that came. -/
theorem restore_verified (json : Serde) (d : Download) (sha256 : Bytes → Hash)
    (result : Except String String) (file : LocalFile)
    (done : d.executeRestore json sha256 = some (result, file)) :
    ((∃ text, result = .ok text) ↔ ∃ content, file = .written content) ∧
    (file = .broken → d.writeFault ≠ none) ∧
    ∀ content, file = .written content → ∃ manifest chunks,
      d.requestManifest json = .ok manifest ∧
      (List.range manifest.chunks.length).mapM (d.requestChunk json) = .ok chunks ∧
      Sized manifest.chunks chunks ∧ content = chunks.flatten ∧ sha256 content = manifest.fileHash := by
  rw [Download.executeRestore] at done
  split at done
  · split at done
    · cases done
      simp
    · rename_i manifest requested
      split at done
      · cases done
        simp
      · rename_i chunks fetched
        obtain ⟨answer, reassembled, done⟩ := Option.bind_eq_some_iff.mp done
        cases answer with
        | error e =>
          cases done
          simp
        | ok restored =>
          obtain ⟨-, sized, -, hash, rfl⟩ := (reassemble_eq_ok _ _ _ _).mp reassembled
          dsimp only at done
          split at done
          · cases done
            simp
          · rename_i fault
            cases done
            simp [fault]
          · cases done
            refine ⟨by simp, by simp, fun content same => ?_⟩
            cases same
            exact ⟨manifest, chunks, requested, fetched, sized, rfl, hash⟩
  · cases done
    simp

theorem restore_verified_known : ∃ manifest chunks,
    (knownDownload [1, 2, 3]).requestManifest (knownReading [1, 2, 3]) = .ok manifest ∧
    (List.range manifest.chunks.length).mapM
      ((knownDownload [1, 2, 3]).requestChunk (knownReading [1, 2, 3])) = .ok chunks ∧
    Sized manifest.chunks chunks ∧ [1, 2, 3] = chunks.flatten ∧
    knownDigest [1, 2, 3] = manifest.fileHash := by
  obtain ⟨text, restored⟩ := (knownDownload_served [1, 2, 3]).restored knownDigest
  have done : (knownDownload [1, 2, 3]).executeRestore (knownReading [1, 2, 3]) knownDigest =
      some (.ok text, .written [1, 2, 3]) := restored.trans rfl
  exact (restore_verified (knownReading [1, 2, 3]) (knownDownload [1, 2, 3]) knownDigest _ _ done).2.2
    [1, 2, 3] rfl

end

end LanLink.Backup
