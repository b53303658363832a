import Mathlib.Data.List.DropRight
import Mathlib.Data.List.Infix

/-! The lines of a text. A line ends with a line feed, and a carriage return before the line feed
is not part of it; the last line need not be ended. -/
namespace Lines

/-- A text without the characters of a kind at its ends. -/
def strip (p : Char → Bool) (text : List Char) : List Char := (text.dropWhile p).rdropWhile p

theorem strip_sublist (p : Char → Bool) (text : List Char) : (strip p text).Sublist text :=
  (List.rdropWhile_prefix p _).sublist.trans (List.dropWhile_sublist p)

theorem strip_eq_self (visible : ∀ c ∈ text, ¬ p c) : strip p text = text := by
  rw [strip, List.dropWhile_eq_self_iff.mpr, List.rdropWhile_eq_self_iff.mpr]
  · exact fun some => visible _ (List.getLast_mem some)
  · exact fun some => visible _ (List.getElem_mem some)

theorem strip_getLast (some : strip p text ≠ []) : ¬ p ((strip p text).getLast some) :=
  List.rdropWhile_last_not p (text.dropWhile p) some

/-- A text without a prefix, as often as it begins with it. -/
def trimStartMatches (first text : List Char) : List Char := go text.length text
where
  go : Nat → List Char → List Char
    | 0, text => text
    | n + 1, text => if first <+: text then go n (text.drop first.length) else text

/-- A text without a suffix, as often as it ends with it. -/
def trimEndMatches (last text : List Char) : List Char := go text.length text
where
  go : Nat → List Char → List Char
    | 0, text => text
    | n + 1, text => if last <:+ text then go n (text.take (text.length - last.length)) else text

/-- A line without the carriage return at its end. -/
def chomp (line : List Char) : List Char :=
  if line.getLast? = some '\r' then line.dropLast else line

def lines (text : List Char) : List (List Char) :=
  let parts := text.splitOn '\n'
  parts.dropLast.map chomp ++ parts.getLast?.toList.filter (· ≠ [])

def unlines (ls : List (List Char)) : List Char := ls.flatMap (· ++ ['\n'])

@[simp] theorem unlines_nil : unlines [] = [] := rfl

@[simp] theorem unlines_cons (l : List Char) (ls : List (List Char)) :
    unlines (l :: ls) = l ++ '\n' :: unlines ls := by
  simp [unlines]

@[simp] theorem unlines_append (first second : List (List Char)) :
    unlines (first ++ second) = unlines first ++ unlines second := List.flatMap_append

theorem unlines_eq_nil : unlines ls = [] ↔ ls = [] := by
  cases ls with
  | nil => simp
  | cons l rest => simp

theorem splitOn_unlines (free : ∀ l ∈ ls, '\n' ∉ l) : (unlines ls).splitOn '\n' = ls ++ [[]] := by
  induction ls with
  | nil => rfl
  | cons l rest ih =>
    rw [unlines_cons, List.splitOn_append_cons_self_of_not_mem (free l List.mem_cons_self),
      ih fun other member => free other (List.mem_cons_of_mem l member), List.cons_append]

/-- A text of ended lines has these lines, without a carriage return at their ends. -/
theorem lines_unlines (free : ∀ l ∈ ls, '\n' ∉ l) : lines (unlines ls) = ls.map chomp := by
  simp [lines, splitOn_unlines free]

theorem mem_chomp (member : c ∈ chomp line) : c ∈ line := by
  rw [chomp] at member
  split at member
  · exact (List.dropLast_sublist _).subset member
  · exact member

theorem not_mem_splitOn (text part : List Char) (member : part ∈ text.splitOn '\n') :
    '\n' ∉ part := by
  induction text generalizing part with
  | nil =>
    rw [List.splitOn_eq_splitOnP, List.splitOnP_nil, List.mem_singleton] at member
    rw [member]
    exact List.not_mem_nil
  | cons c rest ih =>
    rw [List.splitOn_cons_eq_if_modifyHead] at member
    split at member
    · rcases List.mem_cons.mp member with rfl | later
      · exact List.not_mem_nil
      · exact ih part later
    · rename_i other
      obtain ⟨first, parts, split⟩ := List.exists_cons_of_ne_nil (List.splitOn_ne_nil '\n' rest)
      rw [split, List.modifyHead_cons] at member
      rcases List.mem_cons.mp member with rfl | later
      · have below := ih first (split ▸ List.mem_cons_self)
        simp only [List.mem_cons, not_or]
        exact ⟨fun same => other (by simp [← same]), below⟩
      · exact ih part (split ▸ List.mem_cons_of_mem first later)

/-- No line has a line feed. -/
theorem not_mem_lines (member : l ∈ lines text) : '\n' ∉ l := by
  rcases List.mem_append.mp member with ended | last
  · obtain ⟨part, inside, rfl⟩ := List.mem_map.mp ended
    exact mt mem_chomp (not_mem_splitOn text part ((List.dropLast_sublist _).subset inside))
  · obtain ⟨inside, -⟩ := List.mem_filter.mp last
    exact not_mem_splitOn text l (List.mem_of_getLast? (Option.mem_toList.mp inside))

end Lines
