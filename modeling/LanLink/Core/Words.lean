import Mathlib.Data.Vector.Basic

/-! Fixed-width machine words as byte strings. Little-endian and big-endian
writers are total; the readers invert them on every value of the width and on
every byte string of the width. Checked arithmetic stands for integer operators
that abort on overflow. -/
namespace Words

abbrev Bytes := List UInt8

-- The law that membership tests for identifiers and hashes rely on, under one name.
instance instLawfulBEqVector : LawfulBEq (List.Vector UInt8 32) := inferInstance

/-- The `width` low-order base-256 digits of a number, least significant first. -/
def littleEndian : Nat → Nat → Bytes
  | 0, _ => []
  | width + 1, value => value.toUInt8 :: littleEndian width (value / 256)

def ofLittleEndian : Bytes → Nat
  | [] => 0
  | byte :: rest => byte.toNat + 256 * ofLittleEndian rest

def bigEndian (width value : Nat) : Bytes := (littleEndian width value).reverse

def ofBigEndian (bytes : Bytes) : Nat := ofLittleEndian bytes.reverse

@[simp] theorem littleEndian_length (width value : Nat) :
    (littleEndian width value).length = width := by
  induction width generalizing value with
  | zero => rfl
  | succ width ih => simp [littleEndian, ih]

@[simp] theorem bigEndian_length (width value : Nat) : (bigEndian width value).length = width := by
  simp [bigEndian]

theorem ofLittleEndian_littleEndian (fits : value < 256 ^ width) :
    ofLittleEndian (littleEndian width value) = value := by
  induction width generalizing value with
  | zero =>
    have : value = 0 := by simpa using fits
    simp [littleEndian, ofLittleEndian, this]
  | succ width ih =>
    have tail : value / 256 < 256 ^ width := by
      apply (Nat.div_lt_iff_lt_mul (by decide)).mpr
      simpa only [Nat.pow_succ] using fits
    simp only [littleEndian, ofLittleEndian, ih tail]
    exact Nat.mod_add_div value 256

theorem ofLittleEndian_lt (bytes : Bytes) : ofLittleEndian bytes < 256 ^ bytes.length := by
  induction bytes with
  | nil => simp [ofLittleEndian]
  | cons byte rest ih =>
    have small := byte.toNat_lt
    simp only [ofLittleEndian, List.length_cons, Nat.pow_succ]
    omega

/-- Reading loses nothing: the digits of the value read are the bytes themselves. -/
theorem littleEndian_ofLittleEndian (bytes : Bytes) :
    littleEndian bytes.length (ofLittleEndian bytes) = bytes := by
  induction bytes with
  | nil => rfl
  | cons byte rest ih =>
    have small := byte.toNat_lt
    have high : (byte.toNat + 256 * ofLittleEndian rest) / 256 = ofLittleEndian rest := by omega
    have low : (byte.toNat + 256 * ofLittleEndian rest).toUInt8 = byte := by
      apply UInt8.toNat_inj.mp
      change (byte.toNat + 256 * ofLittleEndian rest) % 256 = byte.toNat
      omega
    simp only [List.length_cons, littleEndian, ofLittleEndian, high, low, ih]

theorem littleEndian_injective (first : a < 256 ^ width) (second : b < 256 ^ width)
    (same : littleEndian width a = littleEndian width b) : a = b := by
  have read := congrArg ofLittleEndian same
  rwa [ofLittleEndian_littleEndian first, ofLittleEndian_littleEndian second] at read

theorem ofBigEndian_bigEndian (fits : value < 256 ^ width) :
    ofBigEndian (bigEndian width value) = value := by
  simp only [ofBigEndian, bigEndian, List.reverse_reverse]
  exact ofLittleEndian_littleEndian fits

theorem bigEndian_ofBigEndian (bytes : Bytes) :
    bigEndian bytes.length (ofBigEndian bytes) = bytes := by
  have digits := littleEndian_ofLittleEndian bytes.reverse
  rw [List.length_reverse] at digits
  rw [bigEndian, ofBigEndian, digits, List.reverse_reverse]

theorem ofLittleEndian_append (first second : Bytes) :
    ofLittleEndian (first ++ second) =
      ofLittleEndian first + 256 ^ first.length * ofLittleEndian second := by
  induction first with
  | nil => simp [ofLittleEndian]
  | cons byte rest ih =>
    have shift : 256 * (256 ^ rest.length * ofLittleEndian second) =
        256 ^ (rest.length + 1) * ofLittleEndian second := by
      rw [Nat.pow_succ, ← Nat.mul_assoc, Nat.mul_comm 256]
    simp only [List.cons_append, ofLittleEndian, ih, List.length_cons, Nat.mul_add, shift]
    omega

theorem ofBigEndian_append (first second : Bytes) :
    ofBigEndian (first ++ second) =
      ofBigEndian first * 256 ^ second.length + ofBigEndian second := by
  rw [ofBigEndian, List.reverse_append, ofLittleEndian_append, List.length_reverse, Nat.mul_comm,
    Nat.add_comm]
  rfl

theorem ofBigEndian_cons (byte : UInt8) (rest : Bytes) :
    ofBigEndian (byte :: rest) = byte.toNat * 256 ^ rest.length + ofBigEndian rest :=
  ofBigEndian_append [byte] rest

/-- A larger first digit outweighs the digits behind it. -/
theorem leading_digit_lt {a b : Nat} (less : a < b) (small : r < P) :
    a * P + r < b * P + s := by
  have next := Nat.mul_le_mul_right P less
  rw [Nat.succ_mul] at next
  omega

theorem ofBigEndian_lt (bytes : Bytes) : ofBigEndian bytes < 256 ^ bytes.length := by
  have bound := ofLittleEndian_lt bytes.reverse
  rwa [List.length_reverse] at bound

theorem ofBigEndian_injective (lengths : first.length = second.length)
    (same : ofBigEndian first = ofBigEndian second) : first = second := by
  rw [← bigEndian_ofBigEndian first, ← bigEndian_ofBigEndian second, lengths, same]

/-- The leading bytes are the leading digits. -/
theorem ofBigEndian_take (n : Nat) (bytes : Bytes) :
    ofBigEndian (bytes.take n) = ofBigEndian bytes / 256 ^ (bytes.length - n) := by
  have tail := ofBigEndian_lt (bytes.drop n)
  have split := ofBigEndian_append (bytes.take n) (bytes.drop n)
  rw [List.take_append_drop, List.length_drop] at split
  rw [List.length_drop] at tail
  rw [split, Nat.mul_comm, Nat.mul_add_div (Nat.pow_pos (by decide)), Nat.div_eq_of_lt tail,
    Nat.add_zero]

theorem ofBigEndian_take_lt {bytes : Bytes} : ofBigEndian (bytes.take n) < 256 ^ n := by
  have bound := ofBigEndian_lt (bytes.take n)
  have length : 256 ^ (bytes.take n).length ≤ 256 ^ n :=
    Nat.pow_le_pow_right (by decide) (List.length_take_le n bytes)
  omega

/-- The digits of a number in front of a string are the bytes it was read from. -/
theorem bigEndian_take {bytes : Bytes} (enough : n ≤ bytes.length) :
    bigEndian n (ofBigEndian (bytes.take n)) = bytes.take n := by
  have digits := bigEndian_ofBigEndian (bytes.take n)
  rwa [List.length_take_of_le enough] at digits

/-- A buffer of `n` zero bytes overwritten from the front, as far as bytes are present. -/
def fill (n : Nat) (bytes : Bytes) : List.Vector UInt8 n :=
  ⟨bytes.take n ++ List.replicate (n - bytes.length) 0, by simp; omega⟩

theorem fill_of_enough {bytes : Bytes} (enough : n ≤ bytes.length) :
    (fill n bytes).toList = bytes.take n := by
  rw [fill, List.Vector.toList_mk, Nat.sub_eq_zero_of_le enough, List.replicate_zero,
    List.append_nil]

theorem toUInt32_toNat (small : n < 2 ^ 32) : n.toUInt32.toNat = n := by
  simpa using Nat.mod_eq_of_lt small

theorem toUInt64_toNat (small : n < 2 ^ 64) : n.toUInt64.toNat = n := by
  simpa using Nat.mod_eq_of_lt small

theorem bigEndian_word {bytes : Bytes} (enough : 8 ≤ bytes.length) :
    bigEndian 8 (ofBigEndian (bytes.take 8)).toUInt64.toNat = bytes.take 8 := by
  rw [toUInt64_toNat ofBigEndian_take_lt, bigEndian_take enough]

/-- Addition on a machine word of `bits` bits; `none` is the overflow abort. -/
def checkedAdd (bits a b : Nat) : Option Nat := if a + b < 2 ^ bits then some (a + b) else none

/-- Subtraction on a machine word; `none` is the underflow abort. -/
def checkedSub (a b : Nat) : Option Nat := if b ≤ a then some (a - b) else none

/-- Multiplication on a machine word of `bits` bits; `none` is the overflow abort. -/
def checkedMul (bits a b : Nat) : Option Nat := if a * b < 2 ^ bits then some (a * b) else none

/-- Addition on a machine word whose overflow aborts in a build with checks and wraps
around in one without. -/
def addWord (checks : Bool) (bits a b : Nat) : Option Nat :=
  if a + b < 2 ^ bits then some (a + b) else if checks then none else some ((a + b) % 2 ^ bits)

/-- Subtraction of machine words in such a build. -/
def subWord (checks : Bool) (bits a b : Nat) : Option Nat :=
  if b ≤ a then some (a - b) else if checks then none else some (a + 2 ^ bits - b)

theorem addWord_of_lt (fits : a + b < 2 ^ bits) : addWord checks bits a b = some (a + b) :=
  if_pos fits

theorem addWord_unchecked (bits a b : Nat) :
    addWord false bits a b = some ((a + b) % 2 ^ bits) := by
  by_cases fits : a + b < 2 ^ bits
  · rw [addWord_of_lt fits, Nat.mod_eq_of_lt fits]
  · exact if_neg fits

theorem addWord_checked (overflows : 2 ^ bits ≤ a + b) : addWord true bits a b = none :=
  if_neg (Nat.not_lt.mpr overflows)

theorem subWord_of_le (fits : b ≤ a) : subWord checks bits a b = some (a - b) := if_pos fits

@[simp] theorem checkedAdd_of_lt (fits : a + b < 2 ^ bits) : checkedAdd bits a b = some (a + b) :=
  if_pos fits

@[simp] theorem checkedSub_of_le (fits : b ≤ a) : checkedSub a b = some (a - b) := if_pos fits

@[simp] theorem checkedMul_of_lt (fits : a * b < 2 ^ bits) : checkedMul bits a b = some (a * b) :=
  if_pos fits

theorem checkedAdd_eq_none (overflows : 2 ^ bits ≤ a + b) : checkedAdd bits a b = none :=
  if_neg (Nat.not_lt.mpr overflows)

end Words
