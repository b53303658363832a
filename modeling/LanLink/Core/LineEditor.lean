import Mathlib.Data.List.Basic

/-! A line with a cursor between its characters, and the lines that were entered before it. A
line that is recalled is one of them. -/
namespace LineEditor
variable {α : Type}

structure Line (α : Type) where
  before : List α
  after : List α

namespace Line

def empty : Line α := ⟨[], []⟩

/-- The cursor is at the end. -/
def ofText (text : List α) : Line α := ⟨text, []⟩

def text (l : Line α) : List α := l.before ++ l.after

def type (l : Line α) (c : α) : Line α := ⟨l.before ++ [c], l.after⟩

def erase (l : Line α) : Line α := ⟨l.before.dropLast, l.after⟩

def left (l : Line α) : Line α :=
  match l.before.getLast? with
  | some c => ⟨l.before.dropLast, c :: l.after⟩
  | none => l

def right (l : Line α) : Line α :=
  match l.after with
  | c :: rest => ⟨l.before ++ [c], rest⟩
  | [] => l

@[simp] theorem text_left (l : Line α) : l.left.text = l.text := by
  obtain ⟨before, after⟩ := l
  rcases List.eq_nil_or_concat before with rfl | ⟨front, c, rfl⟩
  · rfl
  · simp [left, text]

@[simp] theorem text_right (l : Line α) : l.right.text = l.text := by
  obtain ⟨before, after⟩ := l
  cases after with
  | nil => rfl
  | cons c rest => simp [right, text]

theorem mem_text_erase {l : Line α} (member : c ∈ l.erase.text) : c ∈ l.text := by
  rcases List.mem_append.mp member with front | back
  · exact List.mem_append_left _ ((List.dropLast_sublist _).subset front)
  · exact List.mem_append_right _ back

end Line

structure Editor (α : Type) where
  line : Line α
  entries : List (List α)
  recalled : Option (Fin entries.length)

namespace Editor

def empty : Editor α := ⟨.empty, [], none⟩

def edit (e : Editor α) (line : Line α) : Editor α := ⟨line, e.entries, e.recalled⟩

def accept (e : Editor α) (entry : List α) : Editor α := ⟨.empty, e.entries ++ [entry], none⟩

def recollect (e : Editor α) (i : Fin e.entries.length) : Editor α :=
  ⟨.ofText e.entries[i], e.entries, some i⟩

def up (e : Editor α) : Editor α :=
  match e.recalled with
  | some i => if 0 < i.val then e.recollect ⟨i - 1, Nat.lt_of_le_of_lt (Nat.sub_le ..) i.isLt⟩ else e
  | none =>
    if filled : 0 < e.entries.length then e.recollect ⟨e.entries.length - 1, Nat.sub_one_lt_of_lt filled⟩
    else e

/-- Behind the last entry the line is empty. -/
def down (e : Editor α) : Editor α :=
  match e.recalled with
  | some i =>
    if more : i.val + 1 < e.entries.length then e.recollect ⟨i + 1, more⟩ else ⟨.empty, e.entries, none⟩
  | none => e

/-- All characters of the line and of the entries have a property. -/
structure Over (p : α → Prop) (e : Editor α) : Prop where
  line : ∀ c ∈ e.line.text, p c
  entries : ∀ entry ∈ e.entries, ∀ c ∈ entry, p c

section
variable {p : α → Prop} {e : Editor α}

theorem over_empty (p : α → Prop) : Over p .empty := ⟨nofun, nofun⟩

theorem Over.edit (typed : Over p e) (line : ∀ c ∈ l.text, p c) : Over p (e.edit l) :=
  ⟨line, typed.entries⟩

theorem Over.accept (typed : Over p e) (entry : ∀ c ∈ text, p c) : Over p (e.accept text) where
  line := nofun
  entries other member := by
    rcases List.mem_append.mp member with old | new
    · exact typed.entries other old
    · rw [List.mem_singleton.mp new]
      exact entry

theorem Over.recollect (typed : Over p e) (i : Fin e.entries.length) : Over p (e.recollect i) where
  line c member := typed.entries _ (List.getElem_mem i.isLt) c (by simpa [Editor.recollect, Line.ofText,
    Line.text] using member)
  entries := typed.entries

theorem Over.leave (typed : Over p e) : Over p ⟨.empty, e.entries, none⟩ where
  line _ member := absurd member List.not_mem_nil
  entries := typed.entries

end

end Editor

end LineEditor
