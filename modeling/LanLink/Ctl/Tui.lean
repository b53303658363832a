import LanLink.Core.LineEditor
import LanLink.Core.Lines
import LanLink.Core.Runs
import LanLink.Registry.Center

/-! The terminal panel of the control program. Its cursor is an index into the bytes of the input
and goes on by one for each character that is typed, so it counts the characters of ASCII text
only. Drawing is left out but for the lines that are shown. -/
namespace LanLink.Tui
open LineEditor Runs
open LanLink.Center (isWhitespace)

def byteLen (text : List Char) : Nat := (text.map Char.utf8Size).sum

/-- The text before and behind a byte index, if the index is between two characters. -/
def splitBytes : List Char → Nat → Option (List Char × List Char)
  | text, 0 => some ([], text)
  | [], _ + 1 => none
  | c :: rest, n + 1 =>
    if c.utf8Size ≤ n + 1 then
      (splitBytes rest (n + 1 - c.utf8Size)).map fun (before, after) => (c :: before, after)
    else none

def trim : List Char → List Char := Lines.strip isWhitespace

def splitWhitespace (text : List Char) : List (List Char) :=
  (text.splitOnP isWhitespace).filter (· ≠ [])

def nodes : List (String × String) :=
  [("tuanzi", "192.168.31.244:9876"), ("rk1", "107.174.92.188:9876"), ("rk2", "23.238.57.141:9876"),
    ("lv1", "96.9.225.57:9876"), ("lv2", "173.249.199.86:9876"), ("lv3", "108.171.195.161:9876"),
    ("xh", "47.108.166.171:9876")]

def completions : List (List Char) :=
  ["help", "exit", "clear", "node", "exec", "push", "pull", "cat", "tail", "ls", "ps", "free", "df",
    "uptime", "hostname", "info", "service", "docker", "pkg"].map String.toList

def nodeNames : String := ", ".intercalate (nodes.map (·.1))

structure TuiApp where
  history : List (List Char)
  historyIdx : Option Nat
  input : List Char
  cursor : Nat
  output : List String
  scroll : Nat
  selectedNode : Nat
  showCompletions : Bool

namespace TuiApp

def new : TuiApp where
  history := []
  historyIdx := none
  input := []
  cursor := 0
  output := ["lan-linkctl TUI — 交互式远程终端", "7 个节点已配置。输入 help 查看命令。",
    "当前节点: tuanzi (192.168.31.244:9876)", ""]
  scroll := 0
  selectedNode := 0
  showCompletions := false

def currentNode (app : TuiApp) : Option (String × String) := nodes[app.selectedNode]?

def addOutput (app : TuiApp) (line : String) : TuiApp :=
  { app with output := app.output ++ [line], scroll := app.output.length }

def insertChar (app : TuiApp) (c : Char) : Option TuiApp :=
  (splitBytes app.input app.cursor).map fun (before, after) =>
    { app with input := before ++ c :: after, cursor := app.cursor + 1 }

def deleteChar (app : TuiApp) : Option TuiApp :=
  if 0 < app.cursor then
    match splitBytes app.input (app.cursor - 1) with
    | some (before, _ :: after) => some { app with input := before ++ after, cursor := app.cursor - 1 }
    | _ => none
  else some app

def moveLeft (app : TuiApp) : TuiApp := { app with cursor := app.cursor - 1 }

def moveRight (app : TuiApp) : TuiApp :=
  if app.cursor < byteLen app.input then { app with cursor := app.cursor + 1 } else app

def helpLines : List String :=
  [" 内置命令:", "  help              — 显示此帮助", "  exit/quit         — 退出 TUI",
    "  clear/cls         — 清屏", "  node <name>       — 切换节点 (tab 补全)",
    "  exec <cmd>        — 远程执行命令", "  push -l <本地> -r <远端> — 上传文件",
    "  pull -r <远端> -l <本地> — 下载文件", "  cat <path>        — 查看文件",
    "  tail <path>       — 查看文件末尾", "  ls [path]         — 列出目录",
    "  ps                — 进程列表", "  free              — 内存使用",
    "  df                — 磁盘使用", "", " 节点: " ++ nodeNames]

/-- A command for a node is not sent anywhere. -/
def command (app : TuiApp) : List (List Char) → Option TuiApp
  | [] => none
  | word :: arguments =>
    match String.ofList word with
    | "exit" | "quit" => some app
    | "clear" | "cls" => some { app with output := [] }
    | "help" => some (helpLines.foldl addOutput app)
    | "node" =>
      match arguments with
      | [] => app.currentNode.map fun node =>
        (app.addOutput ("当前节点: " ++ node.1 ++ " (" ++ node.2 ++ ")")).addOutput
          ("可用节点: " ++ nodeNames)
      | name :: _ =>
        match nodes.findIdx? fun node => node.1 = String.ofList name with
        | some idx =>
          let app := { app with selectedNode := idx }
          app.currentNode.map fun node =>
            app.addOutput ("切换到节点: " ++ node.1 ++ " (" ++ node.2 ++ ")")
        | none => some (app.addOutput ("未知节点: " ++ String.ofList name))
    | _ => some (app.addOutput "(执行中...)")

def submit (app : TuiApp) : Option TuiApp :=
  let cmd := trim app.input
  if cmd = [] then some app
  else do
    let app := { app with history := app.history ++ [cmd], historyIdx := none }
    let node ← app.currentNode
    let app ← (app.addOutput ("win@" ++ node.1 ++ "> " ++ String.ofList cmd)).command
      (splitWhitespace cmd)
    return { app with input := [], cursor := 0, showCompletions := false }

def historyUp (app : TuiApp) : Option TuiApp :=
  if app.history = [] then some app
  else
    let entryAt (idx : Nat) := app.history[idx]?.map fun entry =>
      { app with historyIdx := some idx, input := entry, cursor := byteLen entry }
    match app.historyIdx with
    | some i => if 0 < i then entryAt (i - 1) else some app
    | none => entryAt (app.history.length - 1)

def historyDown (app : TuiApp) : Option TuiApp :=
  match app.historyIdx with
  | some i =>
    if i + 1 < app.history.length then app.history[i + 1]?.map fun entry =>
      { app with historyIdx := some (i + 1), input := entry, cursor := byteLen entry }
    else some { app with historyIdx := none, input := [], cursor := 0 }
  | none => some app

/-- What the first word of a text is completed to, and how many words begin with it. -/
def matching (lower : List Char → List Char) (text : List Char) : List (List Char) :=
  let word := lower ((splitWhitespace text).headD [])
  completions.filter word.isPrefixOf

def completed (cmd : List Char) : List Char :=
  if cmd.all Char.isAlphanum then cmd ++ [' '] else cmd

def tabComplete (lower : List Char → List Char) (app : TuiApp) : TuiApp :=
  if app.input = [] then app
  else
    match matching lower app.input with
    | [cmd] => { app with
        input := completed cmd, cursor := byteLen (completed cmd), showCompletions := false }
    | [] => app
    | _ => { app with showCompletions := !app.showCompletions }

/-- The lines on a panel of a given height. -/
def visible (app : TuiApp) (height : Nat) : List String :=
  let start :=
    if app.output.length < app.scroll + height then
      if height < app.output.length then app.output.length - height else 0
    else app.scroll
  (app.output.drop start).take height

end TuiApp

inductive Key where
  | char (c : Char) (control : Bool)
  | enter
  | backspace
  | left
  | right
  | up
  | down
  | tab
  | pageUp
  | pageDown
  | home
  | toEnd

inductive Session where
  | running (app : TuiApp)
  | left

/-- Leaving the loop. -/
def leaves (app : TuiApp) : Key → Bool
  | .char c control => c = 'd' && control
  | .enter => trim app.input = "exit".toList || trim app.input = "quit".toList
  | _ => false

/-- `lower` is the lower case of a text. -/
def TuiApp.press (lower : List Char → List Char) (app : TuiApp) : Key → Option TuiApp
  | .char c control => if c = 'c' ∧ control then some (app.addOutput "^C") else app.insertChar c
  | .enter => app.submit
  | .backspace => app.deleteChar
  | .left => some app.moveLeft
  | .right => some app.moveRight
  | .up => app.historyUp
  | .down => app.historyDown
  | .tab => some (app.tabComplete lower)
  | .pageUp => some { app with scroll := app.scroll - 10 }
  | .pageDown => some { app with scroll := min (app.scroll + 10) (app.output.length - 1) }
  | .home => some { app with scroll := 0 }
  | .toEnd => some { app with scroll := app.output.length - 1 }

/-- One key; a session that is left takes no more. -/
def Session.step (lower : List Char → List Char) : Session → Key → Option Session
  | .running app, key =>
    if leaves app key then some .left else (app.press lower key).map .running
  | .left, _ => some .left

@[simp] theorem byteLen_append (first second : List Char) :
    byteLen (first ++ second) = byteLen first + byteLen second := by
  simp [byteLen]

theorem splitBytes_append (before after : List Char) :
    splitBytes (before ++ after) (byteLen before) = some (before, after) := by
  induction before with
  | nil => cases after <;> rfl
  | cons c rest ih =>
    have positive := c.utf8Size_pos
    obtain ⟨n, size⟩ : ∃ n, byteLen (c :: rest) = n + 1 :=
      Nat.exists_eq_add_one.mpr (by simp [byteLen]; omega)
    have left : n + 1 - c.utf8Size = byteLen rest := by
      rw [← size, byteLen, List.map_cons, List.sum_cons]
      exact Nat.add_sub_cancel_left ..
    have inside : c.utf8Size ≤ n + 1 := by
      rw [← size, byteLen, List.map_cons, List.sum_cons]
      exact Nat.le_add_right ..
    rw [size, List.cons_append, splitBytes, if_pos inside, left, ih]
    rfl

/-- No index is inside of a character. -/
theorem splitBytes_inside (before after : List Char) (inside : 0 < k) (wide : k < c.utf8Size) :
    splitBytes (before ++ c :: after) (byteLen before + k) = none := by
  induction before with
  | nil =>
    obtain ⟨k, rfl⟩ := Nat.exists_eq_add_one.mpr inside
    rw [show byteLen [] + (k + 1) = k + 1 from Nat.zero_add _, List.nil_append, splitBytes,
      if_neg (Nat.not_le.mpr wide)]
  | cons d rest ih =>
    have positive := d.utf8Size_pos
    have size : byteLen (d :: rest) = d.utf8Size + byteLen rest := rfl
    obtain ⟨n, total⟩ : ∃ n, byteLen (d :: rest) + k = n + 1 :=
      Nat.exists_eq_add_one.mpr (by omega)
    have left : n + 1 - d.utf8Size = byteLen rest + k := by omega
    rw [total, List.cons_append, splitBytes, if_pos (by omega), left, ih]
    rfl

theorem splitBytes_some (found : splitBytes text n = some (before, after)) :
    text = before ++ after ∧ n = byteLen before := by
  induction text generalizing n before with
  | nil =>
    cases n with
    | zero =>
      cases found
      exact ⟨rfl, rfl⟩
    | succ n => cases found
  | cons c rest ih =>
    cases n with
    | zero =>
      cases found
      exact ⟨rfl, rfl⟩
    | succ n =>
      rw [splitBytes] at found
      split at found
      · rename_i inside
        obtain ⟨⟨front, back⟩, split, done⟩ := Option.map_eq_some_iff.mp found
        cases done
        obtain ⟨rfl, size⟩ := ih split
        refine ⟨rfl, ?_⟩
        rw [byteLen, List.map_cons, List.sum_cons, ← byteLen]
        omega
      · cases found

/-- A character of more than one byte leaves the cursor inside of it, and the next character
that is typed aborts the program. -/
theorem insert_twice {app : TuiApp} (wide : 1 < c.utf8Size) (d : Char) :
    (app.insertChar c).bind (·.insertChar d) = none := by
  rw [TuiApp.insertChar]
  cases found : splitBytes app.input app.cursor with
  | none => rfl
  | some parts =>
    obtain ⟨before, after⟩ := parts
    obtain ⟨-, cursor⟩ := splitBytes_some found
    have inside := splitBytes_inside before after (k := 1) Nat.zero_lt_one wide
    rw [← cursor] at inside
    simp [TuiApp.insertChar, inside]

/-- The panel shows as many lines as it can, wherever the scrolling is. -/
theorem visible_length (app : TuiApp) (height : Nat) :
    (app.visible height).length = min height app.output.length := by
  rw [TuiApp.visible, List.length_take, List.length_drop]
  split
  · split <;> omega
  · omega

def Ascii (c : Char) : Prop := c.utf8Size = 1

instance (c : Char) : Decidable (Ascii c) := Nat.decEq _ _

def Key.Ascii : Key → Prop
  | .char c _ => Tui.Ascii c
  | _ => True

def decideAscii : (key : Key) → Decidable key.Ascii
  | .char c _ => Nat.decEq c.utf8Size 1
  | .enter | .backspace | .left | .right | .up | .down | .tab | .pageUp | .pageDown | .home
  | .toEnd => isTrue trivial

instance (key : Key) : Decidable key.Ascii := decideAscii key

theorem byteLen_ascii (ascii : ∀ c ∈ text, Ascii c) : byteLen text = text.length := by
  induction text with
  | nil => rfl
  | cons c rest ih =>
    have first := ascii c List.mem_cons_self
    rw [byteLen, List.map_cons, List.sum_cons, first, ← byteLen,
      ih fun d member => ascii d (List.mem_cons_of_mem c member), List.length_cons, Nat.add_comm]

/-- What the keys mean to a line and the entries before it. -/
def edits (lower : List Char → List Char) (e : Editor Char) : Key → Editor Char
  | .char c control => if c = 'c' ∧ control then e else e.edit (e.line.type c)
  | .enter => if trim e.line.text = [] then e else e.accept (trim e.line.text)
  | .backspace => e.edit e.line.erase
  | .left => e.edit e.line.left
  | .right => e.edit e.line.right
  | .up => e.up
  | .down => e.down
  | .tab =>
    if e.line.text = [] then e
    else
      match TuiApp.matching lower e.line.text with
      | [cmd] => e.edit (.ofText (TuiApp.completed cmd))
      | _ => e
  | _ => e

/-- The program's input and history are those of the editor, and its cursor is a count of
characters. -/
structure Shows (app : TuiApp) (e : Editor Char) : Prop where
  typed : e.Over Ascii
  input : app.input = e.line.text
  cursor : app.cursor = e.line.before.length
  history : app.history = e.entries
  recalled : app.historyIdx = e.recalled.map Fin.val
  node : app.selectedNode < nodes.length

theorem new_shows : Shows .new .empty := ⟨Editor.over_empty Ascii, rfl, rfl, rfl, rfl, by decide⟩

section
variable {app : TuiApp} {e : Editor Char}

theorem Shows.byteLen_before (shows : Shows app e) : byteLen e.line.before = e.line.before.length :=
  byteLen_ascii fun c member => shows.typed.line c (List.mem_append_left _ member)

theorem Shows.insertChar (shows : Shows app e) (ascii : Ascii c) :
    ∃ next, app.insertChar c = some next ∧ Shows next (e.edit (e.line.type c)) := by
  have split : splitBytes app.input app.cursor = some (e.line.before, e.line.after) := by
    rw [shows.input, shows.cursor, ← shows.byteLen_before]
    exact splitBytes_append ..
  refine ⟨{ app with input := e.line.before ++ c :: e.line.after, cursor := app.cursor + 1 },
    by rw [TuiApp.insertChar, split]; rfl, shows.typed.edit fun d member => ?_, ?_, ?_, shows.history,
    shows.recalled, shows.node⟩
  · rcases List.mem_append.mp member with front | back
    · rcases List.mem_append.mp front with old | new
      · exact shows.typed.line d (List.mem_append_left _ old)
      · rw [List.mem_singleton.mp new]
        exact ascii
    · exact shows.typed.line d (List.mem_append_right _ back)
  · simp [Editor.edit, Line.type, Line.text]
  · simp [Editor.edit, Line.type, shows.cursor]

theorem Shows.deleteChar (shows : Shows app e) :
    ∃ next, app.deleteChar = some next ∧ Shows next (e.edit e.line.erase) := by
  have typed := shows.typed.edit (l := e.line.erase) fun d member =>
    shows.typed.line d (Line.mem_text_erase member)
  obtain ⟨⟨before, after⟩, entries, recalled⟩ := e
  obtain ⟨-, input, cursor, history, idx, node⟩ := shows
  dsimp only at cursor input
  rcases List.eq_nil_or_concat' before with rfl | ⟨front, c, rfl⟩
  · have start : ¬ 0 < app.cursor := by simp [cursor]
    exact ⟨app, by rw [TuiApp.deleteChar, if_neg start], typed, input, cursor, history, idx, node⟩
  · have position : app.cursor - 1 = byteLen front := by
      rw [cursor, List.length_append, List.length_singleton, Nat.add_sub_cancel]
      refine (byteLen_ascii fun d member => typed.line d ?_).symm
      simp [Editor.edit, Line.erase, Line.text, member]
    have split : splitBytes app.input (app.cursor - 1) = some (front, c :: after) := by
      rw [input, position, Line.text, List.append_assoc]
      exact splitBytes_append ..
    have positive : 0 < app.cursor := by simp [cursor]
    refine ⟨{ app with input := front ++ after, cursor := app.cursor - 1 },
      by rw [TuiApp.deleteChar, if_pos positive, split], typed, ?_, ?_, history, idx, node⟩
    · simp [Editor.edit, Line.erase, Line.text]
    · simp [Editor.edit, Line.erase, cursor]

theorem Shows.moveLeft (shows : Shows app e) : Shows app.moveLeft (e.edit e.line.left) := by
  have typed := shows.typed.edit (l := e.line.left) (by simpa using shows.typed.line)
  refine ⟨typed, ?_, ?_, shows.history, shows.recalled, shows.node⟩
  · exact shows.input.trans e.line.text_left.symm
  · have cursor := shows.cursor
    rcases List.eq_nil_or_concat' e.line.before with none | ⟨front, c, some⟩
    · simp [TuiApp.moveLeft, Editor.edit, Line.left, cursor, none]
    · simp [TuiApp.moveLeft, Editor.edit, Line.left, cursor, some]

theorem Shows.moveRight (shows : Shows app e) : Shows app.moveRight (e.edit e.line.right) := by
  have typed := shows.typed.edit (l := e.line.right) (by simpa using shows.typed.line)
  have length : byteLen app.input = e.line.before.length + e.line.after.length := by
    rw [shows.input, byteLen_ascii shows.typed.line, Line.text, List.length_append]
  have cursor := shows.cursor
  rw [TuiApp.moveRight, length, cursor]
  cases behind : e.line.after with
  | nil =>
    have same : e.line.right = e.line := by rw [Line.right, behind]
    rw [List.length_nil, Nat.add_zero, if_neg (Nat.lt_irrefl _), same]
    exact ⟨same ▸ typed, shows.input, shows.cursor, shows.history, shows.recalled, shows.node⟩
  | cons c rest =>
    rw [if_pos (by simp)]
    refine ⟨typed, shows.input.trans e.line.text_right.symm, ?_, shows.history, shows.recalled, shows.node⟩
    simp [Editor.edit, Line.right, behind]

theorem Shows.recollect (shows : Shows app e) (i : Fin e.entries.length) :
    ∃ next, (app.history[i.val]?.map fun entry =>
        { app with historyIdx := some i.val, input := entry, cursor := byteLen entry }) = some next ∧
      Shows next (e.recollect i) := by
  have found : app.history[i.val]? = some e.entries[i] := by
    rw [shows.history]
    exact List.getElem?_eq_getElem i.isLt
  rw [found]
  refine ⟨_, rfl, shows.typed.recollect i, ?_, ?_, shows.history, rfl, shows.node⟩
  · exact (List.append_nil _).symm
  · exact byteLen_ascii (shows.typed.entries _ (List.getElem_mem i.isLt))

theorem Shows.historyUp (shows : Shows app e) :
    ∃ next, app.historyUp = some next ∧ Shows next e.up := by
  have recalled := shows.recalled
  have length := congrArg List.length shows.history
  rw [TuiApp.historyUp, Editor.up]
  cases known : e.recalled with
  | some i =>
    have filled : app.history ≠ [] := List.ne_nil_of_length_pos (length ▸ i.pos)
    rw [known, Option.map_some] at recalled
    rw [if_neg filled, recalled]
    dsimp only
    by_cases earlier : 0 < i.val
    · rw [if_pos earlier, if_pos earlier]
      exact shows.recollect ⟨i - 1, Nat.lt_of_le_of_lt (Nat.sub_le ..) i.isLt⟩
    · rw [if_neg earlier, if_neg earlier]
      exact ⟨app, rfl, shows⟩
  | none =>
    rw [known, Option.map_none] at recalled
    by_cases filled : 0 < e.entries.length
    · rw [if_neg (List.ne_nil_of_length_pos (length ▸ filled)), recalled]
      dsimp only
      rw [dif_pos filled, length]
      exact shows.recollect ⟨e.entries.length - 1, Nat.sub_one_lt_of_lt filled⟩
    · have empty : app.history = [] := List.eq_nil_of_length_eq_zero (by omega)
      rw [if_pos empty]
      dsimp only
      rw [dif_neg filled]
      exact ⟨app, rfl, shows⟩

theorem Shows.historyDown (shows : Shows app e) :
    ∃ next, app.historyDown = some next ∧ Shows next e.down := by
  have recalled := shows.recalled
  have length := congrArg List.length shows.history
  rw [TuiApp.historyDown, Editor.down]
  cases known : e.recalled with
  | some i =>
    rw [known, Option.map_some] at recalled
    rw [recalled]
    dsimp only
    by_cases more : i.val + 1 < e.entries.length
    · rw [dif_pos more, if_pos (by rw [length]; exact more)]
      exact shows.recollect ⟨i + 1, more⟩
    · rw [dif_neg more, if_neg (by rw [length]; exact more)]
      exact ⟨_, rfl, shows.typed.leave, rfl, rfl, shows.history, rfl, shows.node⟩
  | none =>
    rw [known, Option.map_none] at recalled
    rw [recalled]
    exact ⟨app, rfl, shows⟩

theorem completed_ascii : ∀ cmd ∈ completions, ∀ c ∈ TuiApp.completed cmd, Ascii c := by
  have ascii : completions.all fun cmd => (TuiApp.completed cmd).all (·.utf8Size = 1) := by
    decide +kernel
  simpa [Ascii] using ascii

theorem Shows.tabComplete (shows : Shows app e) (lower : List Char → List Char) :
    Shows (app.tabComplete lower) (edits lower e .tab) := by
  rw [TuiApp.tabComplete, edits, ← shows.input]
  by_cases empty : app.input = []
  · rw [if_pos empty, if_pos empty]
    exact shows
  · rw [if_neg empty, if_neg empty]
    have inside : ∀ cmd ∈ TuiApp.matching lower app.input, cmd ∈ completions := fun cmd member =>
      (List.mem_filter.mp member).1
    match found : TuiApp.matching lower app.input with
    | [] => exact shows
    | [cmd] =>
      have ascii := completed_ascii cmd (inside cmd (by simp [found]))
      refine ⟨shows.typed.edit (by simpa [Line.ofText, Line.text] using ascii), ?_, byteLen_ascii ascii,
        shows.history, shows.recalled, shows.node⟩
      exact (List.append_nil _).symm
    | _ :: _ :: _ =>
      exact ⟨shows.typed, shows.input, shows.cursor, shows.history, shows.recalled, shows.node⟩

end

theorem splitWhitespace_ne_nil (member : c ∈ text) (word : ¬ isWhitespace c) :
    splitWhitespace text ≠ [] := by
  have piece : ∃ part ∈ text.splitOnP isWhitespace, c ∈ part := by
    induction text with
    | nil => cases member
    | cons d rest ih =>
      rw [List.splitOnP_cons_eq_if_modifyHead]
      rcases List.mem_cons.mp member with rfl | behind
      · rw [if_neg word]
        obtain ⟨first, parts, split⟩ := List.exists_cons_of_ne_nil (List.splitOnP_ne_nil isWhitespace rest)
        rw [split]
        exact ⟨c :: first, List.mem_cons_self, List.mem_cons_self⟩
      · obtain ⟨part, inside, found⟩ := ih behind
        split
        · exact ⟨part, List.mem_cons_of_mem _ inside, found⟩
        · obtain ⟨first, parts, split⟩ := List.exists_cons_of_ne_nil (List.splitOnP_ne_nil isWhitespace rest)
          rw [split] at inside ⊢
          rcases List.mem_cons.mp inside with rfl | later
          · exact ⟨d :: part, List.mem_cons_self, List.mem_cons_of_mem d found⟩
          · exact ⟨part, List.mem_cons_of_mem _ later, found⟩
  obtain ⟨part, inside, found⟩ := piece
  exact List.ne_nil_of_mem (List.mem_filter.mpr ⟨inside, by simp [List.ne_nil_of_mem found]⟩)

/-- A command that is not blank has a first word. -/
theorem trim_words (entered : trim text ≠ []) : splitWhitespace (trim text) ≠ [] :=
  splitWhitespace_ne_nil (List.getLast_mem entered) (Lines.strip_getLast entered)

/-- A command writes to the output, and may choose another node. -/
structure Kept (app next : TuiApp) : Prop where
  history : next.history = app.history
  historyIdx : next.historyIdx = app.historyIdx
  node : next.selectedNode < nodes.length

theorem Kept.addOutput (kept : Kept app next) (line : String) : Kept app (next.addOutput line) :=
  ⟨kept.history, kept.historyIdx, kept.node⟩

theorem Kept.foldl (kept : Kept app next) (lines : List String) :
    Kept app (lines.foldl TuiApp.addOutput next) := by
  induction lines generalizing next with
  | nil => exact kept
  | cons line rest ih => exact ih (kept.addOutput line)

theorem currentNode_some (app : TuiApp) (node : app.selectedNode < nodes.length) :
    app.currentNode = some nodes[app.selectedNode] := List.getElem?_eq_getElem node

theorem command_kept (app : TuiApp) (node : app.selectedNode < nodes.length)
    (entered : words ≠ []) : ∃ next, app.command words = some next ∧ Kept app next := by
  have start : Kept app app := ⟨rfl, rfl, node⟩
  obtain ⟨word, arguments, rfl⟩ := List.exists_cons_of_ne_nil entered
  unfold TuiApp.command
  dsimp only
  split
  · exact ⟨app, rfl, start⟩
  · exact ⟨app, rfl, start⟩
  · exact ⟨_, rfl, rfl, rfl, node⟩
  · exact ⟨_, rfl, rfl, rfl, node⟩
  · exact ⟨_, rfl, start.foldl _⟩
  · split
    · rw [currentNode_some app node]
      exact ⟨_, rfl, (start.addOutput _).addOutput _⟩
    · split
      · rename_i idx found
        have chosen := (List.findIdx?_eq_some_iff_getElem.mp found).1
        rw [currentNode_some { app with selectedNode := idx } chosen]
        exact ⟨_, rfl, rfl, rfl, chosen⟩
      · exact ⟨_, rfl, start.addOutput _⟩
  · exact ⟨_, rfl, start.addOutput _⟩

/-- The program enters a command that is not blank, and empties the line. -/
theorem submit_some {app : TuiApp} (node : app.selectedNode < nodes.length)
    (entered : trim app.input ≠ []) : ∃ next, app.submit = some next ∧ next.input = [] ∧
      next.cursor = 0 ∧ next.history = app.history ++ [trim app.input] ∧ next.historyIdx = none ∧
      next.selectedNode < nodes.length := by
  rw [TuiApp.submit]
  dsimp only
  rw [if_neg entered, currentNode_some
    { app with history := app.history ++ [trim app.input], historyIdx := none } node]
  dsimp only [Option.bind_eq_bind, Option.bind_some]
  obtain ⟨next, run, kept⟩ := command_kept
    (TuiApp.addOutput { app with history := app.history ++ [trim app.input], historyIdx := none }
      ("win@" ++ nodes[app.selectedNode].1 ++ "> " ++ String.ofList (trim app.input)))
    node (trim_words entered)
  rw [run]
  exact ⟨_, rfl, rfl, rfl, kept.history, kept.historyIdx, kept.node⟩

section
variable {app : TuiApp} {e : Editor Char}

theorem Shows.submit (shows : Shows app e) (lower : List Char → List Char) :
    ∃ next, app.submit = some next ∧ Shows next (edits lower e .enter) := by
  rw [edits, ← shows.input]
  by_cases blank : trim app.input = []
  · rw [if_pos blank]
    exact ⟨app, if_pos blank, shows⟩
  · rw [if_neg blank]
    obtain ⟨next, run, input, cursor, history, idx, node⟩ := submit_some shows.node blank
    have ascii : ∀ c ∈ trim app.input, Ascii c := fun c member =>
      shows.typed.line c (shows.input ▸ (Lines.strip_sublist ..).subset member)
    exact ⟨next, run, shows.typed.accept ascii, input, cursor,
      by rw [history, shows.history]; rfl, idx, node⟩

/-- Every key means the same to the program as to the editor. -/
theorem Shows.press (shows : Shows app e) (lower : List Char → List Char) (ascii : key.Ascii) :
    ∃ next, app.press lower key = some next ∧ Shows next (edits lower e key) := by
  have output (lines : List String) (scroll : Nat) :
      Shows { app with output := lines, scroll := scroll } e :=
    ⟨shows.typed, shows.input, shows.cursor, shows.history, shows.recalled, shows.node⟩
  cases key with
  | char c control =>
    rw [TuiApp.press, edits]
    by_cases interrupt : c = 'c' ∧ control
    · rw [if_pos interrupt, if_pos interrupt]
      exact ⟨_, rfl, output _ _⟩
    · rw [if_neg interrupt, if_neg interrupt]
      exact shows.insertChar ascii
  | enter => exact shows.submit lower
  | backspace => exact shows.deleteChar
  | left => exact ⟨_, rfl, shows.moveLeft⟩
  | right => exact ⟨_, rfl, shows.moveRight⟩
  | up => exact shows.historyUp
  | down => exact shows.historyDown
  | tab => exact ⟨_, rfl, shows.tabComplete lower⟩
  | pageUp => exact ⟨_, rfl, output _ _⟩
  | pageDown => exact ⟨_, rfl, output _ _⟩
  | home => exact ⟨_, rfl, output _ _⟩
  | toEnd => exact ⟨_, rfl, output _ _⟩

theorem left_stays (lower : List Char → List Char) (keys : List Key) :
    exec (Session.step lower) .left keys = some .left := by
  induction keys with
  | nil => rfl
  | cons _ _ ih => exact ih

/-- A session on ASCII keys is one of the line editor. -/
theorem session_shows (lower : List Char → List Char) (shows : Shows app e)
    (ascii : ∀ key ∈ keys, key.Ascii) : ∃ s, exec (Session.step lower) (.running app) keys = some s ∧
      ∀ app, s = .running app → Shows app (keys.foldl (edits lower) e) := by
  induction keys generalizing app e with
  | nil =>
    refine ⟨_, rfl, fun next same => ?_⟩
    cases same
    exact shows
  | cons key rest ih =>
    have later (other : Key) (member : other ∈ rest) := ascii other (List.mem_cons_of_mem key member)
    by_cases leaving : leaves app key = true
    · exact ⟨.left, exec_cons.mpr ⟨.left, if_pos leaving, left_stays lower rest⟩, nofun⟩
    · obtain ⟨next, pressed, kept⟩ := shows.press lower (ascii key List.mem_cons_self)
      obtain ⟨s, run, held⟩ := ih kept later
      refine ⟨s, exec_cons.mpr ⟨.running next, ?_, run⟩, held⟩
      rw [Session.step, if_neg leaving, pressed]
      rfl

end

/-- The characters of a session's input are ASCII, its cursor counts them and no key aborts it. -/
theorem ascii_session (lower : List Char → List Char) (keys : List Key)
    (ascii : ∀ key ∈ keys, key.Ascii) : ∃ s, exec (Session.step lower) (.running .new) keys = some s ∧
      ∀ app, s = .running app → Shows app (keys.foldl (edits lower) .empty) :=
  session_shows lower new_shows ascii

def recalledKeys : List Key := ("ls".toList.map fun c => .char c false) ++ [.enter, .up, .left, .backspace]

theorem ascii_session_recalled : (∀ key ∈ recalledKeys, key.Ascii) ∧
    ∃ s, exec (Session.step id) (.running .new) recalledKeys = some s ∧
      ∀ app, s = .running app → Shows app (recalledKeys.foldl (edits id) .empty) :=
  have ascii : ∀ key ∈ recalledKeys, key.Ascii := by decide
  ⟨ascii, ascii_session id recalledKeys ascii⟩

/-- The index is between two characters. -/
def Between (text : List Char) (n : Nat) : Prop :=
  ∃ before after, text = before ++ after ∧ n = byteLen before

theorem splitBytes_none : splitBytes text n = none ↔ ¬ Between text n := by
  constructor
  · rintro missing ⟨before, after, rfl, rfl⟩
    rw [splitBytes_append] at missing
    cases missing
  · intro outside
    by_contra found
    obtain ⟨⟨before, after⟩, split⟩ := Option.ne_none_iff_exists'.mp found
    exact outside ⟨before, after, splitBytes_some split⟩

/-- What every session keeps, whatever the characters: the cursor is not behind the input, and
the indices of the history and of the nodes exist. -/
structure Sound (app : TuiApp) : Prop where
  cursor : app.cursor ≤ byteLen app.input
  recalled : ∀ i, app.historyIdx = some i → i < app.history.length
  node : app.selectedNode < nodes.length

theorem new_sound : Sound .new := ⟨Nat.le_refl _, nofun, by decide⟩

/-- The keys that abort. -/
def Misplaced (app : TuiApp) : Key → Prop
  | .char c control => ¬ (c = 'c' ∧ control) ∧ ¬ Between app.input app.cursor
  | .backspace => 0 < app.cursor ∧ ¬ Between app.input (app.cursor - 1)
  | _ => False

section
variable {app next : TuiApp}

theorem insertChar_sound (sound : Sound app) (inserted : app.insertChar c = some next) : Sound next := by
  rw [TuiApp.insertChar] at inserted
  obtain ⟨⟨before, after⟩, split, rfl⟩ := Option.map_eq_some_iff.mp inserted
  obtain ⟨-, cursor⟩ := splitBytes_some split
  have positive := c.utf8Size_pos
  refine ⟨?_, sound.recalled, sound.node⟩
  have size : byteLen (before ++ c :: after) = byteLen before + (c.utf8Size + byteLen after) := by simp [byteLen]
  dsimp only
  omega

theorem deleteChar_none (sound : Sound app) :
    app.deleteChar = none ↔ 0 < app.cursor ∧ ¬ Between app.input (app.cursor - 1) := by
  rw [TuiApp.deleteChar, ← splitBytes_none]
  by_cases positive : 0 < app.cursor
  · rw [if_pos positive]
    match split : splitBytes app.input (app.cursor - 1) with
    | none => simp [positive]
    | some (before, c :: after) => simp
    | some (before, []) =>
      obtain ⟨whole, position⟩ := splitBytes_some split
      rw [List.append_nil] at whole
      have bound := sound.cursor
      rw [whole] at bound
      omega
  · simp [positive]

theorem deleteChar_sound (sound : Sound app) (deleted : app.deleteChar = some next) : Sound next := by
  rw [TuiApp.deleteChar] at deleted
  split at deleted
  · split at deleted
    · rename_i before c after split
      cases deleted
      obtain ⟨whole, position⟩ := splitBytes_some split
      refine ⟨?_, sound.recalled, sound.node⟩
      dsimp only
      rw [position, byteLen_append]
      exact Nat.le_add_right ..
    · cases deleted
  · cases deleted
    exact sound

theorem recall_sound (sound : Sound app) (known : i < app.history.length) :
    ∃ next, (app.history[i]?.map fun entry =>
        { app with historyIdx := some i, input := entry, cursor := byteLen entry }) = some next ∧
      Sound next := by
  rw [List.getElem?_eq_getElem known]
  refine ⟨_, rfl, Nat.le_refl _, fun j same => ?_, sound.node⟩
  cases same
  exact known

theorem historyUp_sound (sound : Sound app) : ∃ next, app.historyUp = some next ∧ Sound next := by
  rw [TuiApp.historyUp]
  split
  · exact ⟨app, rfl, sound⟩
  · rename_i filled
    dsimp only
    split
    · rename_i i known
      split
      · exact recall_sound sound (Nat.lt_of_le_of_lt (Nat.sub_le ..) (sound.recalled i known))
      · exact ⟨app, rfl, sound⟩
    · exact recall_sound sound (Nat.sub_one_lt_of_lt (List.length_pos_iff.mpr filled))

theorem historyDown_sound (sound : Sound app) : ∃ next, app.historyDown = some next ∧ Sound next := by
  rw [TuiApp.historyDown]
  split
  · split
    · rename_i more
      exact recall_sound sound more
    · exact ⟨_, rfl, Nat.le_refl _, nofun, sound.node⟩
  · exact ⟨app, rfl, sound⟩

theorem submit_sound (sound : Sound app) : ∃ next, app.submit = some next ∧ Sound next := by
  by_cases blank : trim app.input = []
  · exact ⟨app, if_pos blank, sound⟩
  · obtain ⟨next, run, input, cursor, -, idx, node⟩ := submit_some sound.node blank
    exact ⟨next, run, by rw [cursor]; exact Nat.zero_le _, by rw [idx]; exact nofun, node⟩

theorem tabComplete_sound (sound : Sound app) (lower : List Char → List Char) :
    Sound (app.tabComplete lower) := by
  rw [TuiApp.tabComplete]
  split
  · exact sound
  · split
    · exact ⟨Nat.le_refl _, sound.recalled, sound.node⟩
    · exact sound
    · exact ⟨sound.cursor, sound.recalled, sound.node⟩

/-- A key aborts the program or keeps the invariant. -/
theorem press_sound (sound : Sound app) (lower : List Char → List Char) (key : Key) :
    (app.press lower key = none ↔ Misplaced app key) ∧
      ∀ next, app.press lower key = some next → Sound next := by
  have output (lines : List String) (scroll : Nat) : Sound { app with output := lines, scroll := scroll } :=
    ⟨sound.cursor, sound.recalled, sound.node⟩
  have total {result : Option TuiApp} (done : ∃ next, result = some next ∧ Sound next) :
      (result = none ↔ False) ∧ ∀ next, result = some next → Sound next := by
    obtain ⟨next, rfl, kept⟩ := done
    exact ⟨by simp, fun _ same => Option.some.inj same ▸ kept⟩
  cases key with
  | char c control =>
    rw [TuiApp.press, Misplaced]
    by_cases interrupt : c = 'c' ∧ control
    · rw [if_pos interrupt]
      refine ⟨by simp [interrupt], fun next same => Option.some.inj same ▸ output _ _⟩
    · rw [if_neg interrupt]
      refine ⟨?_, fun next => insertChar_sound sound⟩
      rw [TuiApp.insertChar, Option.map_eq_none_iff, splitBytes_none]
      exact (and_iff_right interrupt).symm
  | enter => exact total (submit_sound sound)
  | backspace => exact ⟨deleteChar_none sound, fun next => deleteChar_sound sound⟩
  | left => exact total ⟨_, rfl, (Nat.sub_le ..).trans sound.cursor, sound.recalled, sound.node⟩
  | right =>
    refine total ⟨_, rfl, ?_⟩
    rw [TuiApp.moveRight]
    split
    · rename_i more
      exact ⟨more, sound.recalled, sound.node⟩
    · exact sound
  | up => exact total (historyUp_sound sound)
  | down => exact total (historyDown_sound sound)
  | tab => exact total ⟨_, rfl, tabComplete_sound sound lower⟩
  | pageUp => exact total ⟨_, rfl, output _ _⟩
  | pageDown => exact total ⟨_, rfl, output _ _⟩
  | home => exact total ⟨_, rfl, output _ _⟩
  | toEnd => exact total ⟨_, rfl, output _ _⟩

end

/-- Every state of a session that is not left. -/
theorem session_sound (run : exec (Session.step lower) (.running .new) keys = some (.running app)) :
    Sound app := by
  refine Runs.invariant (P := fun s => ∀ app, s = .running app → Sound app) ?_ run ?_ app rfl
  · intro s key t sound step
    cases s with
    | left =>
      cases step
      exact nofun
    | running app =>
      rw [Session.step] at step
      split at step
      · cases step
        exact nofun
      · obtain ⟨next, pressed, rfl⟩ := Option.map_eq_some_iff.mp step
        rintro _ ⟨⟩
        exact (press_sound (sound app rfl) lower key).2 next pressed
  · rintro _ ⟨⟩
    exact new_sound

/-- A session aborts on a key that edits the input where the cursor is not between two of its
characters, and on no other. -/
theorem key_aborts_iff (run : exec (Session.step lower) (.running .new) keys = some (.running app))
    (key : Key) : Session.step lower (.running app) key = none ↔
      leaves app key = false ∧ Misplaced app key := by
  rw [Session.step]
  split
  · rename_i leaving
    simp [leaving]
  · rename_i staying
    rw [Option.map_eq_none_iff, (press_sound (session_sound run) lower key).1]
    simp [staying]

def wideApp : TuiApp := { TuiApp.new with input := ['é'], cursor := 1 }

theorem key_aborts_iff_wide :
    exec (Session.step id) (.running .new) [.char 'é' false] = some (.running wideApp) ∧
      (Session.step id (.running wideApp) (.char 'a' false) = none ↔
        leaves wideApp (.char 'a' false) = false ∧ Misplaced wideApp (.char 'a' false)) :=
  have typed : exec (Session.step id) (.running .new) [.char 'é' false] = some (.running wideApp) := rfl
  ⟨typed, key_aborts_iff typed (.char 'a' false)⟩

end LanLink.Tui
