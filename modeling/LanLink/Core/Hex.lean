import Mathlib.Data.List.Basic

/-! Byte strings as hexadecimal texts. The writer uses small letters; the reader
takes both cases and refuses an odd number of digits. -/
namespace Hex

def encode (bytes : List UInt8) : List Char :=
  bytes.flatMap fun b => [Nat.digitChar (b.toNat / 16), Nat.digitChar (b.toNat % 16)]

def digit (c : Char) : Option Nat :=
  if '0' ≤ c ∧ c ≤ '9' then some (c.toNat - '0'.toNat)
  else if 'a' ≤ c ∧ c ≤ 'f' then some (c.toNat - 'a'.toNat + 10)
  else if 'A' ≤ c ∧ c ≤ 'F' then some (c.toNat - 'A'.toNat + 10)
  else none

def decode : List Char → Option (List UInt8)
  | [] => some []
  | [_] => none
  | high :: low :: rest => do
    let byte := 16 * (← digit high) + (← digit low)
    return byte.toUInt8 :: (← decode rest)

theorem encode_length (bytes : List UInt8) : (encode bytes).length = 2 * bytes.length := by
  induction bytes with
  | nil => rfl
  | cons byte rest ih =>
    rw [encode, List.flatMap_cons, List.length_append, ← encode, ih, List.length_cons]
    simp only [List.length_cons, List.length_nil]
    omega

theorem digit_digitChar (small : n < 16) : digit (Nat.digitChar n) = some n := by
  have all : ∀ m : Fin 16, digit (Nat.digitChar m) = some m.val := by decide
  exact all ⟨n, small⟩

theorem decode_encode (bytes : List UInt8) : decode (encode bytes) = some bytes := by
  induction bytes with
  | nil => rfl
  | cons byte rest ih =>
    have range := byte.toNat_lt
    have high := digit_digitChar (n := byte.toNat / 16) (by omega)
    have low := digit_digitChar (n := byte.toNat % 16) (by omega)
    have joined : 16 * (byte.toNat / 16) + byte.toNat % 16 = byte.toNat := Nat.div_add_mod _ _
    have unfolded : encode (byte :: rest) =
        Nat.digitChar (byte.toNat / 16) :: Nat.digitChar (byte.toNat % 16) :: encode rest := rfl
    simp only [unfolded, decode, high, low, ih, Option.bind_eq_bind, Option.bind_some, joined,
      Option.pure_def, Nat.toUInt8, UInt8.ofNat_toNat]

end Hex
