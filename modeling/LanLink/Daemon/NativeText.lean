import LanLink.Core.Lines
import Mathlib.Algebra.GroupWithZero.Nat
import Mathlib.Data.List.Flatten
import Mathlib.Data.List.ReduceOption

/-! The native commands that read lines: the first and the last of a file, those of the system's
logs, and those that hold a pattern, of a file or of a whole directory. -/
namespace LanLink.NativeText
open Lines

/-- What there is at a path: a file with its text, or the error of reading it, or a directory with
its entries in their order, and the error of reading it as a file. -/
inductive Node where
  | file (text : Except String (List Char))
  | dir (error : String) (entries : List (String × Node))

def Node.readToString : Node → Except String (List Char)
  | .file text => text
  | .dir error _ => .error error

/-- An output and an exit code. -/
abbrev Output := List Char × Nat

def failed (command path error : String) (code : Nat) : Output :=
  ((command ++ ": " ++ path ++ ": " ++ error ++ "\n").toList, code)

def cmdHead (path : String) (node : Node) (lines : UInt32) : Output :=
  match node.readToString with
  | .error e => failed "head" path e 1
  | .ok text => (unlines ((Lines.lines text).take lines.toNat), 0)

def cmdTail (path : String) (node : Node) (n : UInt32) : Output :=
  match node.readToString with
  | .error e => failed "tail" path e 1
  | .ok text =>
    let l := Lines.lines text
    let start := if l.length ≤ n.toNat then 0 else l.length - n.toNat
    (unlines (l.drop start), 0)

def contains (pattern line : List Char) : Bool := pattern <:+: line

/-- The loop over the lines from a number on; `shown` is the text of a line that is found. -/
def grepLines (pattern : List Char) (cnt : Bool) (shown : Nat → List Char → List Char) :
    Nat → List (List Char) → List Char × Nat → List Char × Nat
  | _, [], found => found
  | i, l :: rest, (out, m) =>
    if contains pattern l then
      grepLines pattern cnt shown (i + 1) rest (if cnt then out else out ++ shown i l, m + 1)
    else grepLines pattern cnt shown (i + 1) rest (out, m)

def numbered (path : String) (i : Nat) (l : List Char) : List Char :=
  path.toList ++ ':' :: Nat.toDigits 10 (i + 1) ++ ':' :: l ++ ['\n']

/-- A name in a directory. -/
def joinPath (path name : String) : String :=
  if path = "" then name
  else if path.toList.getLast? = some '/' then path ++ name
  else path ++ "/" ++ name

mutual
/-- An entry of a directory, at its path; what cannot be read is passed over. -/
def grepEntry (pattern : List Char) (ln cnt : Bool) (path : String) :
    Node → List Char × Nat → List Char × Nat
  | .dir _ entries, found => grepWalk pattern ln cnt path entries found
  | .file (.error _), found => found
  | .file (.ok text), (out, total) =>
    let shown := if ln then numbered path else fun _ l => path.toList ++ ':' :: l ++ ['\n']
    let (out, fm) := grepLines pattern cnt shown 0 (lines text) (out, 0)
    (out, total + fm)

def grepWalk (pattern : List Char) (ln cnt : Bool) (path : String) :
    List (String × Node) → List Char × Nat → List Char × Nat
  | [], found => found
  | (name, node) :: rest, found =>
    grepWalk pattern ln cnt path rest (grepEntry pattern ln cnt (joinPath path name) node found)
end

def cmdGrep (pattern : List Char) (path : String) (node : Node) (recursive ln cnt : Bool) : Output :=
  if recursive then
    let entries := match node with
      | .dir _ entries => entries
      | .file _ => []
    let (out, total) := grepWalk pattern ln cnt path entries ([], 0)
    (if cnt then Nat.toDigits 10 total ++ ['\n'] else out, if 0 < total then 0 else 1)
  else
    match node.readToString with
    | .error e => failed "grep" path e 2
    | .ok text =>
      let shown := if ln then numbered path else fun _ l => l ++ ['\n']
      let (out, m) := grepLines pattern cnt shown 0 (lines text) ([], 0)
      (if cnt then path.toList ++ ':' :: Nat.toDigits 10 m ++ ['\n'] else out, if 0 < m then 0 else 1)

/-- The lines that hold a pattern, with their numbers from 0 on. -/
def hits (pattern text : List Char) : List (List Char × Nat) :=
  (lines text).zipIdx.filter fun entry => contains pattern entry.1

theorem grepLines_eq (pattern : List Char) (cnt : Bool) (shown : Nat → List Char → List Char)
    (i : Nat) (ls : List (List Char)) (out : List Char) (m : Nat) :
    grepLines pattern cnt shown i ls (out, m) =
      let found := (ls.zipIdx i).filter fun entry => contains pattern entry.1
      (if cnt then out else out ++ found.flatMap fun entry => shown entry.2 entry.1,
        m + found.length) := by
  induction ls generalizing i out m with
  | nil => simp [grepLines]
  | cons l rest ih =>
    rw [grepLines, List.zipIdx_cons, List.filter_cons]
    by_cases found : contains pattern l
    · rw [if_pos found, if_pos found, ih]
      cases cnt <;> simp [Nat.add_assoc, Nat.add_comm 1]
    · rw [if_neg found, if_neg found, ih]

mutual
/-- The files below a path that can be read, in the order of the walk. -/
def texts (path : String) : Node → List (String × List Char)
  | .dir _ entries => textsOf path entries
  | .file (.error _) => []
  | .file (.ok text) => [(path, text)]

def textsOf (path : String) : List (String × Node) → List (String × List Char)
  | [] => []
  | (name, node) :: rest => texts (joinPath path name) node ++ textsOf path rest
end

/-- What the walk prints of a file that it reads. -/
def printed (pattern : List Char) (ln : Bool) (file : String × List Char) : List Char :=
  (hits pattern file.2).flatMap fun (l, i) =>
    if ln then numbered file.1 i l else file.1.toList ++ ':' :: l ++ ['\n']

/-- What is found in some files, behind what was found before. -/
def added (pattern : List Char) (ln cnt : Bool) (files : List (String × List Char)) :
    List Char × Nat → List Char × Nat
  | (out, total) =>
    (if cnt then out else out ++ files.flatMap (printed pattern ln),
      total + (files.map fun file => (hits pattern file.2).length).sum)

theorem added_append (pattern : List Char) (ln cnt : Bool) (first second : List (String × List Char))
    (found : List Char × Nat) : added pattern ln cnt second (added pattern ln cnt first found) =
      added pattern ln cnt (first ++ second) found := by
  cases cnt <;> simp [added, Nat.add_assoc]

theorem added_nil (pattern : List Char) (ln cnt : Bool) (found : List Char × Nat) :
    added pattern ln cnt [] found = found := by
  cases cnt <;> simp [added]

mutual
theorem grepEntry_eq (pattern : List Char) (ln cnt : Bool) (path : String) (node : Node)
    (found : List Char × Nat) :
    grepEntry pattern ln cnt path node found = added pattern ln cnt (texts path node) found := by
  match node with
  | .dir _ entries =>
    rw [grepEntry, texts]
    exact grepWalk_eq pattern ln cnt path entries found
  | .file (.error _) => rw [grepEntry, texts, added_nil]
  | .file (.ok text) =>
    obtain ⟨out, total⟩ := found
    rw [grepEntry, texts, grepLines_eq]
    cases ln <;> cases cnt <;> simp [added, printed, hits]

/-- The walk finds what there is in the files that can be read. -/
theorem grepWalk_eq (pattern : List Char) (ln cnt : Bool) (path : String)
    (entries : List (String × Node)) (found : List Char × Nat) :
    grepWalk pattern ln cnt path entries found =
      added pattern ln cnt (textsOf path entries) found := by
  match entries with
  | [] => rw [grepWalk, textsOf, added_nil]
  | (name, node) :: rest =>
    rw [grepWalk, textsOf, grepEntry_eq, grepWalk_eq, added_append]
end

/-- A search of a file on its own. -/
theorem cmdGrep_file (pattern : List Char) (path : String) (text : List Char) (ln cnt : Bool) :
    cmdGrep pattern path (.file (.ok text)) false ln cnt =
      (if cnt then path.toList ++ ':' :: Nat.toDigits 10 (hits pattern text).length ++ ['\n']
        else (hits pattern text).flatMap fun (l, i) => if ln then numbered path i l else l ++ ['\n'],
        if 0 < (hits pattern text).length then 0 else 1) := by
  simp only [cmdGrep, Bool.false_eq_true, if_false, Node.readToString, grepLines_eq]
  rw [Nat.zero_add]
  cases ln <;> cases cnt <;> rfl

theorem cmdGrep_dir (pattern : List Char) (path error : String) (entries : List (String × Node))
    (ln cnt : Bool) :
    cmdGrep pattern path (.dir error entries) true ln cnt =
      (if cnt then Nat.toDigits 10
          ((textsOf path entries).map fun file => (hits pattern file.2).length).sum ++ ['\n']
        else (textsOf path entries).flatMap (printed pattern ln),
        if 0 < ((textsOf path entries).map fun file => (hits pattern file.2).length).sum
          then 0 else 1) := by
  simp only [cmdGrep, if_true, grepWalk_eq, added]
  cases cnt <;> simp

/-- A search of a directory is a search of each file below it that can be read: with line numbers
it prints what these print, it counts the lines that they count, and it succeeds if one of them
does. -/
theorem grep_recursive (pattern : List Char) (path error : String) (entries : List (String × Node)) :
    let files := textsOf path entries
    let walk := cmdGrep pattern path (.dir error entries) true
    let alone (file : String × List Char) := cmdGrep pattern file.1 (.file (.ok file.2)) false
    (walk true false).1 = files.flatMap (fun file => (alone file true false).1) ∧
    (∀ ln, ∃ counts : String × List Char → Nat,
      (∀ file ∈ files, (alone file ln true).1 =
        file.1.toList ++ ':' :: Nat.toDigits 10 (counts file) ++ ['\n']) ∧
      (walk ln true).1 = Nat.toDigits 10 (files.map counts).sum ++ ['\n']) ∧
    ∀ ln cnt, (walk ln cnt).2 = 0 ↔ ∃ file ∈ files, (alone file ln cnt).2 = 0 := by
  intro files walk alone
  refine ⟨?_, fun ln => ⟨fun file => (hits pattern file.2).length, fun file _ => ?_, ?_⟩,
    fun ln cnt => ?_⟩
  · have one (file : String × List Char) : (alone file true false).1 = printed pattern true file := by
      simp only [alone, cmdGrep_file]
      rfl
    simp only [walk, cmdGrep_dir, one, Bool.false_eq_true, if_false]
    rfl
  · simp only [alone, cmdGrep_file, if_true]
  · simp only [walk, cmdGrep_dir, if_true]
    rfl
  · simp only [walk, alone, cmdGrep_dir, cmdGrep_file, ite_eq_left_iff, Nat.one_ne_zero, imp_false,
      not_not, List.sum_pos_iff_exists_pos_nat, List.mem_map]
    constructor
    · rintro ⟨_, ⟨file, member, rfl⟩, found⟩
      exact ⟨file, member, found⟩
    · rintro ⟨file, member, found⟩
      exact ⟨_, ⟨file, member, rfl⟩, found⟩

def priorityOf (p : String) : Option Nat :=
  match p with
  | "0" | "emerg" => some 0
  | "1" | "alert" => some 1
  | "2" | "crit" => some 2
  | "3" | "err" => some 3
  | "4" | "warning" => some 4
  | "5" | "notice" => some 5
  | "6" | "info" => some 6
  | "7" | "debug" => some 7
  | _ => none

/-- A line of the logs that is asked for. -/
def selects (unit : Option (List Char)) (priority : Option String) (line : List Char) : Bool :=
  let ofUnit := match unit with
    | some u => contains (trimEndMatches ".service".toList u) line
    | none => true
  let ofPriority := match priority.bind priorityOf with
    | some mp =>
      if mp ≤ 3 then contains "error".toList line || contains "emerg".toList line ||
        contains "crit".toList line
      else if mp ≤ 5 then contains "warn".toList line || contains "notice".toList line
      else true
    | none => true
  ofUnit && ofPriority

/-- The loop over the two logs, `none` for one that cannot be read. -/
def collect (unit : Option (List Char)) (priority : Option String) :
    List (Option (List Char)) → List Char → List Char
  | [], out => out
  | none :: rest, out => collect unit priority rest out
  | some content :: rest, out =>
    collect unit priority rest ((lines content).foldl
      (fun out line => if selects unit priority line then out ++ line ++ ['\n'] else out) out)

/-- The last lines of an output, if a number of them is given. -/
def keepLast (count : UInt32) (out : List Char) : List Char :=
  if 0 < count.toNat then
    let lv := lines out
    if count.toNat < lv.length then
      ['\n'].intercalate (lv.drop (lv.length - count.toNat)) ++ ['\n']
    else out
  else out

def cmdJournal (logs : List (Option (List Char))) (unit : Option (List Char)) (count : UInt32)
    (priority : Option String) : Output :=
  let out := keepLast count (collect unit priority logs [])
  if out = [] then ("No journal/log data available\n".toList, 0) else (out, 0)

/-- The lines of the logs that are asked for. -/
def selected (unit : Option (List Char)) (priority : Option String)
    (logs : List (Option (List Char))) : List (List Char) :=
  (logs.reduceOption.flatMap lines).filter (selects unit priority)

theorem foldl_selects (unit : Option (List Char)) (priority : Option String) (ls : List (List Char))
    (out : List Char) :
    ls.foldl (fun out line => if selects unit priority line then out ++ line ++ ['\n'] else out) out =
      out ++ unlines (ls.filter (selects unit priority)) := by
  induction ls generalizing out with
  | nil => simp
  | cons l rest ih =>
    rw [List.foldl_cons, ih, List.filter_cons]
    split <;> simp

theorem collect_eq (unit : Option (List Char)) (priority : Option String)
    (logs : List (Option (List Char))) (out : List Char) :
    collect unit priority logs out = out ++ unlines (selected unit priority logs) := by
  induction logs generalizing out with
  | nil => simp [collect, selected]
  | cons log rest ih =>
    cases log with
    | none =>
      rw [collect, ih]
      rfl
    | some content =>
      rw [collect, ih, foldl_selects]
      simp [selected]

theorem intercalate_unlines (some : ls ≠ []) : ['\n'].intercalate ls ++ ['\n'] = unlines ls := by
  induction ls with
  | nil => exact absurd rfl some
  | cons l rest ih =>
    cases rest with
    | nil => simp
    | cons next more =>
      rw [List.intercalate_cons_cons, unlines_cons, ← ih (List.cons_ne_nil next more)]
      simp

theorem count_zero (count : UInt32) : count = 0 ↔ count.toNat = 0 := UInt32.toNat_inj.symm

theorem keepLast_unlines (count : UInt32) (free : ∀ l ∈ ls, '\n' ∉ l) :
    keepLast count (unlines ls) =
      if count = 0 ∨ ls.length ≤ count.toNat then unlines ls
      else unlines ((ls.drop (ls.length - count.toNat)).map chomp) := by
  rw [keepLast, lines_unlines free]
  dsimp only
  rw [List.length_map]
  by_cases all : count = 0 ∨ ls.length ≤ count.toNat
  · rw [if_pos all]
    split
    · rename_i wanted
      refine if_neg (Nat.not_lt.mpr (all.resolve_left fun none => ?_))
      exact Nat.lt_irrefl 0 ((count_zero count).mp none ▸ wanted)
    · rfl
  · rw [if_neg all]
    obtain ⟨wanted, more⟩ := not_or.mp all
    have positive : count.toNat ≠ 0 := mt (count_zero count).mpr wanted
    have rest : (ls.map chomp).drop (ls.length - count.toNat) ≠ [] := by
      rw [ne_eq, List.drop_eq_nil_iff, List.length_map]
      omega
    rw [if_pos (by omega), if_pos (by omega), intercalate_unlines rest, List.map_drop]

/-- The journal shows the lines that are asked for, of one log behind the other, and only the last
ones where there are more than wanted. These are read a second time, and lose a second carriage
return. -/
theorem journal_lines (logs : List (Option (List Char))) (unit : Option (List Char)) (count : UInt32)
    (priority : Option String) :
    cmdJournal logs unit count priority =
      let found := selected unit priority logs
      (if found = [] then "No journal/log data available\n".toList
        else if count = 0 ∨ found.length ≤ count.toNat then unlines found
        else unlines ((found.drop (found.length - count.toNat)).map chomp), 0) := by
  have free : ∀ l ∈ selected unit priority logs, '\n' ∉ l := by
    intro l member
    obtain ⟨inside, -⟩ := List.mem_filter.mp member
    obtain ⟨content, -, line⟩ := List.mem_flatMap.mp inside
    exact not_mem_lines line
  rw [cmdJournal, collect_eq, List.nil_append, keepLast_unlines count free]
  dsimp only
  by_cases nothing : selected unit priority logs = []
  · simp [nothing]
  · rw [if_neg nothing]
    refine if_neg ?_
    split
    · exact unlines_eq_nil.not.mpr nothing
    · rename_i some
      obtain ⟨wanted, more⟩ := not_or.mp some
      have positive : count.toNat ≠ 0 := mt (count_zero count).mpr wanted
      rw [unlines_eq_nil, List.map_eq_nil_iff, List.drop_eq_nil_iff]
      omega

/-- The first lines of a file and the last ones are its lines. -/
theorem head_tail (path : String) (node : Node) (readable : node.readToString = .ok text)
    (n m : UInt32) (whole : n.toNat + m.toNat = (lines text).length) :
    (cmdHead path node n).1 ++ (cmdTail path node m).1 = unlines (lines text) := by
  rw [cmdHead, cmdTail, readable]
  dsimp only
  have start : (if (lines text).length ≤ m.toNat then 0 else (lines text).length - m.toNat) = n.toNat := by
    split <;> omega
  rw [start, ← unlines_append, List.take_append_drop]

end LanLink.NativeText
