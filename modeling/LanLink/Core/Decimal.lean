import Mathlib.Algebra.GroupWithZero.Nat
import Mathlib.Data.List.Basic

/-! Zero-padded decimal numerals. A numeral is at least as wide as asked for
and wider where the number needs it, so of two numerals of one width only equal
numbers give the same text. -/
namespace Decimal

def padded (width n : Nat) : List Char := (Nat.toDigits 10 n).leftpad width '0'

theorem ofDigitChars_padded (width n : Nat) : Nat.ofDigitChars 10 (padded width n) 0 = n := by
  simp [padded, List.leftpad, Nat.ofDigitChars_append]

theorem padded_injective (same : padded width a = padded width b) : a = b := by
  have read := congrArg (Nat.ofDigitChars 10 · 0) same
  simpa only [ofDigitChars_padded] using read

theorem isDigit_of_mem_padded (member : c ∈ padded width n) : c.isDigit := by
  simp only [padded, List.leftpad, List.mem_append, List.mem_replicate] at member
  rcases member with ⟨_, rfl⟩ | digit
  · rfl
  · exact Nat.isDigit_of_mem_toDigits (by decide) (by decide) digit

theorem padded_length (positive : 0 < width) (small : n < 10 ^ width) :
    (padded width n).length = width := by
  rw [padded, List.length_leftpad, Nat.max_eq_left]
  exact (Nat.length_toDigits_le_iff (by decide) positive).mpr small

/-- A numeral behind a text can be split off when its width is known. -/
theorem append_padded_inj (positive : 0 < width) (first : a < 10 ^ width) (second : b < 10 ^ width)
    (same : front ++ padded width a = back ++ padded width b) : front = back ∧ a = b := by
  have widths : (padded width a).length = (padded width b).length := by
    rw [padded_length positive first, padded_length positive second]
  obtain ⟨fronts, numerals⟩ := List.append_inj' same widths
  exact ⟨fronts, padded_injective numerals⟩

/-- A numeral behind a text of digits. -/
theorem ofDigitChars_append_padded (positive : 0 < width) (small : n < 10 ^ width) :
    Nat.ofDigitChars 10 (text ++ padded width n) 0 =
      10 ^ width * Nat.ofDigitChars 10 text 0 + n := by
  rw [Nat.ofDigitChars_append, Nat.ofDigitChars_eq_ofDigitChars_zero, ofDigitChars_padded,
    padded_length positive small]

theorem ofDigitChars_cons (c : Char) (text : List Char) : Nat.ofDigitChars 10 (c :: text) 0 =
    10 ^ text.length * (c.toNat - '0'.toNat) + Nat.ofDigitChars 10 text 0 := by
  rw [Nat.ofDigitChars_cons, Nat.ofDigitChars_eq_ofDigitChars_zero, Nat.mul_zero, Nat.zero_add]

theorem ofDigitChars_lt (digits : ∀ c ∈ text, c.isDigit) :
    Nat.ofDigitChars 10 text 0 < 10 ^ text.length := by
  induction text with
  | nil => decide
  | cons c text ih =>
    have rest := ih fun d member => digits d (List.mem_cons_of_mem c member)
    have bounds := Char.isDigit_iff_toNat.mp (digits c List.mem_cons_self)
    rw [show '9'.toNat = '0'.toNat + 9 by decide] at bounds
    have leading := Nat.mul_le_mul_left (10 ^ text.length)
      (show c.toNat - '0'.toNat ≤ 9 by omega)
    rw [ofDigitChars_cons, List.length_cons, Nat.pow_succ]
    omega

/-- Of two texts of digits with one length, the one with the smaller value comes first. -/
theorem lex_of_ofDigitChars_lt (lengths : first.length = second.length)
    (digits : ∀ c ∈ first, c.isDigit) (digits' : ∀ c ∈ second, c.isDigit)
    (less : Nat.ofDigitChars 10 first 0 < Nat.ofDigitChars 10 second 0) :
    List.Lex (· < ·) first second := by
  induction first generalizing second with
  | nil =>
    rw [List.length_nil] at lengths
    rw [List.eq_nil_of_length_eq_zero lengths.symm] at less
    exact absurd less (Nat.lt_irrefl _)
  | cons c first ih =>
    cases second with
    | nil => exact absurd lengths (by simp)
    | cons d second =>
      have tails : first.length = second.length := Nat.succ.inj lengths
      have bounds := Char.isDigit_iff_toNat.mp (digits c List.mem_cons_self)
      have bounds' := Char.isDigit_iff_toNat.mp (digits' d List.mem_cons_self)
      have rest' := ofDigitChars_lt fun e member => digits' e (List.mem_cons_of_mem d member)
      rw [ofDigitChars_cons, ofDigitChars_cons, tails] at less
      rw [List.cons_lex_cons_iff]
      rcases Nat.lt_trichotomy c.toNat d.toNat with smaller | same | larger
      · exact .inl smaller
      · have equal : c = d := Char.toNat_inj.mp same
        subst equal
        exact .inr ⟨rfl, ih tails (fun e member => digits e (List.mem_cons_of_mem c member))
          (fun e member => digits' e (List.mem_cons_of_mem c member)) (by omega)⟩
      · have leading := Nat.mul_le_mul_left (10 ^ second.length)
          (show d.toNat - '0'.toNat + 1 ≤ c.toNat - '0'.toNat by omega)
        rw [Nat.mul_add] at leading
        omega
end Decimal
