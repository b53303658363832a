import Mathlib.Data.List.Basic

/-! Lists of records that stand one behind the other in a byte string. `Frame a
bytes` says that the bytes are a record of the value `a`. -/
namespace Records
variable {α : Type} {Frame : α → List UInt8 → Prop}

/-- The string begins with records of the values, in their order. -/
inductive Framed (Frame : α → List UInt8 → Prop) : List α → List UInt8 → Prop where
  | nil (bytes : List UInt8) : Framed Frame [] bytes
  | cons (first : Frame a record) (rest : Framed Frame l bytes) :
      Framed Frame (a :: l) (record ++ bytes)

theorem Framed.uncons (framed : Framed Frame (a :: l) bytes) :
    ∃ record rest, Frame a record ∧ bytes = record ++ rest ∧ Framed Frame l rest := by
  cases framed with
  | cons first rest => exact ⟨_, _, first, rfl, rest⟩

/-- Of the lists of at most `n` values whose records begin the string, the
longest one. -/
structure Longest (Frame : α → List UInt8 → Prop) (n : Nat) (bytes : List UInt8)
    (l : List α) : Prop where
  counted : l.length ≤ n
  framed : Framed Frame l bytes
  longest : ∀ other : List α, other.length ≤ n → Framed Frame other bytes → other <+: l

/-- A reader finds the record in front of a string and the rest behind it. -/
structure Reads (Frame : α → List UInt8 → Prop) (read : List UInt8 → Option (α × List UInt8)) :
    Prop where
  reads : Frame a record → read (record ++ rest) = some (a, rest)
  framed : read bytes = some (a, rest) → ∃ record, Frame a record ∧ bytes = record ++ rest

/-- At most `n` records, until one is not complete. -/
def readUpTo (read : List UInt8 → Option (α × List UInt8)) : Nat → List UInt8 → List α
  | 0, _ => []
  | n + 1, bytes =>
    match read bytes with
    | none => []
    | some (a, rest) => a :: readUpTo read n rest

variable {read : List UInt8 → Option (α × List UInt8)}

theorem readUpTo_framed (reads : Reads Frame read) (n : Nat) (bytes : List UInt8) :
    (readUpTo read n bytes).length ≤ n ∧ Framed Frame (readUpTo read n bytes) bytes := by
  induction n generalizing bytes with
  | zero => exact ⟨Nat.le_refl 0, .nil bytes⟩
  | succ n ih =>
    rw [readUpTo]
    split
    · exact ⟨Nat.zero_le _, .nil bytes⟩
    · rename_i a rest found
      obtain ⟨record, first, rfl⟩ := reads.framed found
      obtain ⟨counted, framed⟩ := ih rest
      exact ⟨Nat.succ_le_succ counted, .cons first framed⟩

/-- What is framed is read. -/
theorem prefix_readUpTo (reads : Reads Frame read) (framed : Framed Frame l bytes)
    (short : l.length ≤ n) : l <+: readUpTo read n bytes := by
  induction framed generalizing n with
  | nil bytes => exact List.nil_prefix
  | cons first rest ih =>
    cases n with
    | zero => simp at short
    | succ n =>
      simp only [readUpTo, reads.reads first]
      exact List.cons_prefix_cons.mpr ⟨rfl, ih (Nat.le_of_succ_le_succ short)⟩

theorem readUpTo_longest (reads : Reads Frame read) (n : Nat) (bytes : List UInt8) :
    Longest Frame n bytes (readUpTo read n bytes) where
  counted := (readUpTo_framed reads n bytes).1
  framed := (readUpTo_framed reads n bytes).2
  longest := fun _ short framed => prefix_readUpTo reads framed short

/-- Reading as many records as there are gives them back. -/
theorem readUpTo_all (reads : Reads Frame read) (framed : Framed Frame l bytes) :
    readUpTo read l.length bytes = l := by
  have all := prefix_readUpTo reads framed (Nat.le_refl _)
  exact (all.eq_of_length_le (readUpTo_framed reads l.length bytes).1).symm

end Records
