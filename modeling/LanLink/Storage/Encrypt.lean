import LanLink.Core.Words

/-! Encryption of chunks. The cipher is outside the repository and a parameter, and so are
the random bytes of a nonce. -/
namespace LanLink.Encrypt
open Words

abbrev Key := List.Vector UInt8 32

abbrev ChunkNonce := List.Vector UInt8 12

/-- An authenticated cipher: what it does not accept is not decrypted. -/
structure Cipher where
  encrypt : Key → ChunkNonce → Bytes → Bytes
  decrypt : Key → ChunkNonce → Bytes → Option Bytes

def tagLen : Nat := 16

/-- What the cipher promises: its own texts are accepted, and they are longer by a tag. -/
structure Cipher.Lawful (c : Cipher) : Prop where
  decrypt_encrypt : ∀ key nonce plaintext,
    c.decrypt key nonce (c.encrypt key nonce plaintext) = some plaintext
  encrypt_length : ∀ key nonce plaintext,
    (c.encrypt key nonce plaintext).length = plaintext.length + tagLen

structure EncryptedChunk where
  nonce : ChunkNonce
  data : Bytes
  deriving DecidableEq

def chunkNonce (chunkIndex : UInt32) (random : List.Vector UInt8 8) : ChunkNonce :=
  ⟨littleEndian 4 chunkIndex.toNat ++ random.toList, by simp⟩

structure Encryptor where
  key : Key

namespace Encryptor

def encrypt (c : Cipher) (e : Encryptor) (random : List.Vector UInt8 8) (chunkIndex : UInt32)
    (plaintext : Bytes) : EncryptedChunk :=
  let nonce := chunkNonce chunkIndex random
  ⟨nonce, c.encrypt e.key nonce plaintext⟩

def storedIndex (encrypted : EncryptedChunk) : UInt32 :=
  (ofLittleEndian (encrypted.nonce.toList.take 4)).toUInt32

def decrypt (c : Cipher) (e : Encryptor) (chunkIndex : UInt32) (encrypted : EncryptedChunk) :
    Except String Bytes :=
  if storedIndex encrypted ≠ chunkIndex then
    .error s!"chunk index mismatch: nonce has {storedIndex encrypted}, expected {chunkIndex}"
  else match c.decrypt e.key encrypted.nonce encrypted.data with
  | some plaintext => .ok plaintext
  | none => .error "decryption failed: authentication tag mismatch or wrong key"

variable {c : Cipher} {e : Encryptor} {random : List.Vector UInt8 8} {i j : UInt32}
  {plaintext : Bytes}

theorem storedIndex_encrypt : storedIndex (e.encrypt c random i plaintext) = i := by
  have front : (littleEndian 4 i.toNat ++ random.toList).take 4 = littleEndian 4 i.toNat :=
    List.take_left' (littleEndian_length 4 i.toNat)
  have word : i.toNat < 256 ^ 4 := i.toNat_lt
  simp only [storedIndex, encrypt, chunkNonce, List.Vector.toList_mk, front,
    ofLittleEndian_littleEndian word]
  exact UInt32.ofNat_toNat

/-- A chunk is decrypted at its own index only. -/
theorem decrypt_encrypt_iff (lawful : c.Lawful) (result : Bytes) :
    e.decrypt c j (e.encrypt c random i plaintext) = .ok result ↔ i = j ∧ result = plaintext := by
  rw [decrypt, storedIndex_encrypt]
  by_cases same : i = j
  · subst same
    simp [encrypt, lawful.decrypt_encrypt, eq_comm]
  · simp [same]

theorem encrypt_length (lawful : c.Lawful) :
    (e.encrypt c random i plaintext).data.length = plaintext.length + tagLen :=
  lawful.encrypt_length ..

end Encryptor

end LanLink.Encrypt
