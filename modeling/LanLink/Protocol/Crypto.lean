import LanLink.Protocol.Frame

/-! Keys and nonces of the packet encryption. The cipher itself is outside: what
uses it takes it as a parameter. -/
namespace LanLink.Crypto
open Words LanLink.Frame

abbrev Psk := List.Vector UInt8 32

/-- Connection identifier and sequence number, both little-endian. -/
def makeNonce (connId : UInt64) (seq : UInt32) : Nonce :=
  ⟨littleEndian 8 connId.toNat ++ littleEndian 4 seq.toNat, by simp⟩

theorem makeNonce_injective : makeNonce c a = makeNonce d b ↔ c = d ∧ a = b := by
  constructor
  · intro same
    have bytes := congrArg List.Vector.toList same
    simp only [makeNonce, List.Vector.toList_mk] at bytes
    obtain ⟨ids, seqs⟩ := List.append_inj bytes (by simp)
    exact ⟨UInt64.toNat_inj.mp (littleEndian_injective c.toNat_lt d.toNat_lt ids),
      UInt32.toNat_inj.mp (littleEndian_injective a.toNat_lt b.toNat_lt seqs)⟩
  · rintro ⟨rfl, rfl⟩
    rfl

end LanLink.Crypto
