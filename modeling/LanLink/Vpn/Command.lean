import Mathlib.Data.List.Basic
import Mathlib.Data.Nat.Digits.Defs

/-! The command line of the VPN: the long form behind the word `ll`, the short form without it,
and the grammar they share. The word is looked for among all arguments. -/
namespace LanLink.Vpn

/-- What an argument list asks for. -/
inductive Command where
  | cmd (target command : String)
  | ping (target : String)
  | nodes
  | status
  | backup (path target : String)
  | restore (target path : String)
  | storageGC
  | storagePrune (keep : Nat)
  | storageStats
  | increment (path target : String)
  | version (file : String)
  deriving DecidableEq

namespace Command

def isNodeAddress (addr : String) : Bool := "node:".toList.isPrefixOf addr.toList

/-- At most `n` pieces; the last one keeps its separators. -/
def splitn (separator : Char) : Nat → List Char → List (List Char)
  | 0, _ => []
  | 1, text => [text]
  | n + 2, text =>
    if separator ∈ text then
      text.takeWhile (· ≠ separator) ::
        splitn separator (n + 1) (text.dropWhile (· ≠ separator)).tail
    else [text]

/-- Where a restored file goes when no path is given. -/
def restoredPath (target : String) : String :=
  match (splitn ':' 3 target.toList)[2]? with
  | some path => String.ofList (path.dropWhile (· = '/'))
  | none => "restored_file"

/-- Digits after an optional plus sign, in a word of 64 bits. -/
def parseUsize (word : String) : Option Nat :=
  let digits := match word.toList with
    | '+' :: digits => digits
    | digits => digits
  if digits = [] ∨ ¬ digits.all Char.isDigit then none
  else
    let n := Nat.ofDigitChars 10 digits 0
    if n < 2 ^ 64 then some n else none

def invalidAddress (target : String) : String :=
  s!"invalid target address '{target}': expected node:<name>"

def invalidTarget (target : String) : String :=
  s!"invalid target '{target}': expected node:<name>:<path>"

/-- The end of `storage prune`, with its optional count. -/
def parsePrune (word : Option String) : Except String Command :=
  let keep : Except String Nat := match word with
    | some word =>
      match parseUsize word with
      | some keep => .ok keep
      | none => .error s!"invalid number '{word}': expected a positive integer"
    | none => .ok 10
  match keep with
  | .error text => .error text
  | .ok keep => if keep = 0 then .error "keep count must be positive" else .ok (.storagePrune keep)

/-- The form that starts with `ll`. -/
def parseLong (args : List String) : Except String Command :=
  if empty : args.length < 2 then
    .error "expected subcommand after 'll'. Usage: ll <cmd|ping|nodes|status>"
  else match args[1] with
  | "cmd" =>
    if few : args.length < 4 then .error "usage: ll cmd node:<name> <command>"
    else
      let target := args[2]
      if !isNodeAddress target then .error (invalidAddress target)
      else .ok (.cmd target (" ".intercalate (args.drop 3)))
  | "ping" =>
    if few : args.length < 3 then .error "usage: ll ping node:<name>"
    else
      let target := args[2]
      if !isNodeAddress target then .error (invalidAddress target)
      else .ok (.ping target)
  | "nodes" => .ok .nodes
  | "status" => .ok .status
  | "backup" =>
    if few : args.length < 4 then .error "usage: ll backup <path> node:<name>"
    else
      let path := args[2]
      let target := args[3]
      if !isNodeAddress target then .error (invalidAddress target)
      else .ok (.backup path target)
  | "restore" =>
    if few : args.length < 3 then .error "usage: ll restore node:<name>:<path> [local-path]"
    else
      let target := args[2]
      if !isNodeAddress target then .error (invalidTarget target)
      else .ok (.restore target (if more : args.length > 3 then args[3] else restoredPath target))
  | "storage" =>
    if few : args.length < 3 then .error "usage: ll storage <gc|prune|stats> [args]"
    else match args[2] with
    | "gc" => .ok .storageGC
    | "prune" => parsePrune (if more : args.length > 3 then some args[3] else none)
    | "stats" => .ok .storageStats
    | sub => .error s!"unknown storage subcommand '{sub}'. Available: gc, prune, stats"
  | "increment" | "inc" =>
    if few : args.length < 4 then .error "usage: ll increment <path> node:<name>"
    else
      let path := args[2]
      let target := args[3]
      if !isNodeAddress target then .error (invalidAddress target)
      else .ok (.increment path target)
  | "version" | "ver" =>
    if few : args.length < 3 then .error "usage: ll version <file>"
    else .ok (.version args[2])
  | sub => .error s!"unknown subcommand '{sub}'. Available: cmd, ping, nodes, status, backup, restore, storage, increment, version"

def parseShortCommand (args : List String) : Except String Command :=
  if empty : args.length = 0 then .error "empty command"
  else match args[0] with
  | "cmd" =>
    if few : args.length < 3 then .error "usage: cmd node:<name> <command>"
    else
      let target := args[1]
      if !isNodeAddress target then .error (invalidAddress target)
      else .ok (.cmd target (" ".intercalate (args.drop 2)))
  | "ping" =>
    if few : args.length < 2 then .error "usage: ping node:<name>"
    else
      let target := args[1]
      if !isNodeAddress target then .error (invalidAddress target)
      else .ok (.ping target)
  | "nodes" => .ok .nodes
  | "status" => .ok .status
  | "backup" =>
    if few : args.length < 3 then .error "usage: backup <path> node:<name>"
    else
      let path := args[1]
      let target := args[2]
      if !isNodeAddress target then .error (invalidAddress target)
      else .ok (.backup path target)
  | "restore" =>
    if few : args.length < 2 then .error "usage: restore node:<name>:<path> [local-path]"
    else
      let target := args[1]
      if !isNodeAddress target then .error (invalidTarget target)
      else .ok (.restore target (if more : args.length > 2 then args[2] else restoredPath target))
  | "storage" =>
    if few : args.length < 2 then .error "usage: storage <gc|prune|stats> [args]"
    else match args[1] with
    | "gc" => .ok .storageGC
    | "prune" => parsePrune (if more : args.length > 2 then some args[2] else none)
    | "stats" => .ok .storageStats
    | sub => .error s!"unknown storage subcommand '{sub}'. Available: gc, prune, stats"
  | "increment" | "inc" =>
    if few : args.length < 3 then .error "usage: increment <path> node:<name>"
    else
      let path := args[1]
      let target := args[2]
      if !isNodeAddress target then .error (invalidAddress target)
      else .ok (.increment path target)
  | "version" | "ver" =>
    if few : args.length < 2 then .error "usage: version <file>"
    else .ok (.version args[1])
  | sub => .error s!"unknown command '{sub}'. Available: ll cmd, ll ping, ll nodes, ll status, ll backup, ll restore, ll storage, ll increment, ll version"

def parseCommand (args : List String) : Except String Command :=
  match args.findIdx? (· = "ll") with
  | some pos => parseLong (args.drop pos)
  | none =>
    if args = [] then .error "empty command. Usage: ll <cmd|ping|nodes|status> [args]"
    else parseShortCommand args

/-- The words that make up a command. -/
inductive Denotes : List String → Command → Prop where
  | cmd (node : isNodeAddress target) :
      Denotes ("cmd" :: target :: word :: words) (.cmd target (" ".intercalate (word :: words)))
  | ping (node : isNodeAddress target) : Denotes ("ping" :: target :: rest) (.ping target)
  | nodes : Denotes ("nodes" :: rest) .nodes
  | status : Denotes ("status" :: rest) .status
  | backup (node : isNodeAddress target) :
      Denotes ("backup" :: path :: target :: rest) (.backup path target)
  | restore (node : isNodeAddress target) :
      Denotes ["restore", target] (.restore target (restoredPath target))
  | restoreTo (node : isNodeAddress target) :
      Denotes ("restore" :: target :: path :: rest) (.restore target path)
  | storageGC : Denotes ("storage" :: "gc" :: rest) .storageGC
  | prune : Denotes ["storage", "prune"] (.storagePrune 10)
  | pruneTo (count : parseUsize word = some keep) (positive : 0 < keep) :
      Denotes ("storage" :: "prune" :: word :: rest) (.storagePrune keep)
  | storageStats : Denotes ("storage" :: "stats" :: rest) .storageStats
  | increment (name : word = "increment" ∨ word = "inc") (node : isNodeAddress target) :
      Denotes (word :: path :: target :: rest) (.increment path target)
  | version (name : word = "version" ∨ word = "ver") :
      Denotes (word :: file :: rest) (.version file)

theorem parsePrune_ok : parsePrune word = .ok c ↔
    word = none ∧ c = .storagePrune 10 ∨
      ∃ text keep, word = some text ∧ parseUsize text = some keep ∧ 0 < keep ∧
        c = .storagePrune keep := by
  cases word with
  | none =>
    have ten : parsePrune none = .ok (.storagePrune 10) := rfl
    rw [ten, Except.ok.injEq]
    simp [eq_comm]
  | some text =>
    rw [parsePrune]
    cases parsed : parseUsize text with
    | none => simp [parsed]
    | some keep =>
      by_cases zero : keep = 0
      · simp [parsed, zero]
      · have positive := Nat.pos_of_ne_zero zero
        simp [parsed, zero, positive, eq_comm]

theorem denotes_increment (name : word = "increment" ∨ word = "inc")
    (parsed : (if few : (word :: rest).length < 3 then .error "usage: increment <path> node:<name>"
      else if !isNodeAddress (word :: rest)[2] then .error (invalidAddress (word :: rest)[2])
      else .ok (.increment (word :: rest)[1] (word :: rest)[2]) : Except String Command) = .ok c) :
    Denotes (word :: rest) c := by
  rcases rest with _ | ⟨path, _ | ⟨target, rest⟩⟩
  · simp at parsed
  · simp at parsed
  · by_cases node : isNodeAddress target
    · have same : Command.increment path target = c := by simpa +arith [node] using parsed
      exact same ▸ .increment name node
    · simp +arith [node] at parsed

theorem denotes_version (name : word = "version" ∨ word = "ver")
    (parsed : (if few : (word :: rest).length < 2 then .error "usage: version <file>"
      else .ok (.version (word :: rest)[1]) : Except String Command) = .ok c) :
    Denotes (word :: rest) c := by
  rcases rest with _ | ⟨file, rest⟩
  · simp at parsed
  · have same : Command.version file = c := by simpa +arith using parsed
    exact same ▸ .version name

theorem denotes_storage (parsed : (if few : ("storage" :: rest).length < 2 then
        .error "usage: storage <gc|prune|stats> [args]"
      else match ("storage" :: rest)[1] with
      | "gc" => .ok .storageGC
      | "prune" => parsePrune (if more : ("storage" :: rest).length > 2 then
          some ("storage" :: rest)[2] else none)
      | "stats" => .ok .storageStats
      | sub => .error s!"unknown storage subcommand '{sub}'. Available: gc, prune, stats" :
      Except String Command) = .ok c) : Denotes ("storage" :: rest) c := by
  rcases rest with _ | ⟨word, rest⟩
  · simp at parsed
  · rw [dif_neg (by simp +arith)] at parsed
    simp only [List.getElem_cons_succ, List.getElem_cons_zero] at parsed
    split at parsed
    · exact Except.ok.inj parsed ▸ .storageGC
    · rcases parsePrune_ok.mp parsed with ⟨alone, rfl⟩ | ⟨text, keep, given, count, positive, rfl⟩
      · rcases rest with _ | ⟨text, rest⟩
        · exact .prune
        · simp at alone
      · rcases rest with _ | ⟨other, rest⟩
        · simp at given
        · have same : other = text := by simpa using given
          exact .pruneTo (same ▸ count) positive
    · exact Except.ok.inj parsed ▸ .storageStats
    · cases parsed

/-- Only the grammar is accepted. -/
theorem denotes_of_parsed (parsed : parseShortCommand args = .ok c) : Denotes args c := by
  rcases args with _ | ⟨sub, rest⟩
  · cases parsed
  rw [parseShortCommand, dif_neg (by simp)] at parsed
  simp only [List.getElem_cons_zero] at parsed
  split at parsed
  -- cmd
  · rcases rest with _ | ⟨target, _ | ⟨word, words⟩⟩
    · simp at parsed
    · simp at parsed
    · by_cases node : isNodeAddress target
      · have same : Command.cmd target (" ".intercalate (word :: words)) = c := by simpa +arith [node] using parsed
        exact same ▸ .cmd node
      · simp +arith [node] at parsed
  -- ping
  · rcases rest with _ | ⟨target, rest⟩
    · simp at parsed
    · by_cases node : isNodeAddress target
      · have same : Command.ping target = c := by simpa +arith [node] using parsed
        exact same ▸ .ping node
      · simp +arith [node] at parsed
  -- nodes, status
  · exact Except.ok.inj parsed ▸ .nodes
  · exact Except.ok.inj parsed ▸ .status
  -- backup
  · rcases rest with _ | ⟨path, _ | ⟨target, rest⟩⟩
    · simp at parsed
    · simp at parsed
    · by_cases node : isNodeAddress target
      · have same : Command.backup path target = c := by simpa +arith [node] using parsed
        exact same ▸ .backup node
      · simp +arith [node] at parsed
  -- restore
  · rcases rest with _ | ⟨target, rest⟩
    · simp at parsed
    · by_cases node : isNodeAddress target
      · rcases rest with _ | ⟨path, rest⟩
        · have same : Command.restore target (restoredPath target) = c := by simpa +arith [node] using parsed
          exact same ▸ .restore node
        · have same : Command.restore target path = c := by simpa +arith [node] using parsed
          exact same ▸ .restoreTo node
      · simp +arith [node] at parsed
  · exact denotes_storage parsed
  -- increment, inc
  · exact denotes_increment (.inl rfl) parsed
  · exact denotes_increment (.inr rfl) parsed
  -- version, ver
  · exact denotes_version (.inl rfl) parsed
  · exact denotes_version (.inr rfl) parsed
  · cases parsed

/-- Each command of the grammar is returned for its words. -/
theorem Denotes.parsed (denotes : Denotes args c) : parseShortCommand args = .ok c := by
  cases denotes with
  | cmd node => simp [parseShortCommand, node]
  | ping node => simp [parseShortCommand, node]
  | nodes => simp [parseShortCommand]
  | status => simp [parseShortCommand]
  | backup node => simp [parseShortCommand, node]
  | restore node => simp [parseShortCommand, node]
  | restoreTo node => simp [parseShortCommand, node]
  | storageGC => simp [parseShortCommand]
  | prune => rfl
  | pruneTo count positive =>
    have pruned := parsePrune_ok.mpr (.inr ⟨_, _, rfl, count, positive, rfl⟩)
    simpa +arith [parseShortCommand] using pruned
  | storageStats => simp [parseShortCommand]
  | increment name node => rcases name with rfl | rfl <;> simp [parseShortCommand, node]
  | version name => rcases name with rfl | rfl <;> simp [parseShortCommand]

theorem parseShortCommand_ok : parseShortCommand args = .ok c ↔ Denotes args c :=
  ⟨denotes_of_parsed, Denotes.parsed⟩

/-- Behind its first word the long form is read as the short one. -/
theorem parseLong_ok : parseLong ("ll" :: args) = .ok c ↔ Denotes args c := by
  rw [← parseShortCommand_ok]
  rcases args with _ | ⟨sub, rest⟩
  · simp [parseLong, parseShortCommand]
  · rw [parseLong, parseShortCommand, dif_neg (by simp)]
    simp only [List.getElem_cons_succ, List.getElem_cons_zero]
    split
    -- an unknown word is an error in both forms, with a different text
    rotate_right
    · simp
    -- the tests on the lengths agree, as does what follows them
    all_goals rcases rest with _ | ⟨first, _ | ⟨second, rest⟩⟩ <;> simp +arith

/-- The words behind the first `ll`. -/
def afterLl (args : List String) : List String := (args.dropWhile (· ≠ "ll")).tail

theorem findIdx?_ll (there : "ll" ∈ args) :
    ∃ pos, args.findIdx? (· = "ll") = some pos ∧ args.drop pos = "ll" :: afterLl args := by
  induction args with
  | nil => cases there
  | cons word rest ih =>
    by_cases first : word = "ll"
    · subst first
      exact ⟨0, by simp [List.findIdx?_cons], by simp [afterLl]⟩
    · have later : "ll" ∈ rest := (List.mem_cons.mp there).resolve_left (Ne.symm first)
      obtain ⟨pos, found, after⟩ := ih later
      refine ⟨pos + 1, by simp [List.findIdx?_cons, first, found], ?_⟩
      rw [List.drop_succ_cons, after, afterLl, afterLl, List.dropWhile_cons_of_pos (by simpa using first)]

/-- Only what stands behind the first `ll` is read, wherever it stands. -/
theorem parseCommand_ok (args : List String) (c : Command) : parseCommand args = .ok c ↔
    Denotes (if "ll" ∈ args then afterLl args else args) c := by
  by_cases there : "ll" ∈ args
  · obtain ⟨pos, found, after⟩ := findIdx?_ll there
    rw [if_pos there, parseCommand, found]
    dsimp only
    rw [after]
    exact parseLong_ok
  · have missing : args.findIdx? (· = "ll") = none := by
      rw [List.findIdx?_eq_none_iff]
      intro word member
      exact decide_eq_false fun same => there (same ▸ member)
    rw [if_neg there, parseCommand, missing, ← parseShortCommand_ok]
    dsimp only
    split
    · rename_i empty
      rw [empty]
      simp [parseShortCommand]
    · exact Iff.rfl

/-- Both fail, or both return the same command. -/
def Agree : Except String Command → Except String Command → Prop
  | .ok c, .ok d => c = d
  | .error _, .error _ => True
  | _, _ => False

theorem agree_iff : Agree first second ↔ ∀ c, first = .ok c ↔ second = .ok c := by
  cases first with
  | error text =>
    cases second with
    | error other => simp [Agree]
    | ok d => simp [Agree]
  | ok c =>
    cases second with
    | error text => simp [Agree]
    | ok d =>
      simp only [Agree, Except.ok.injEq]
      exact ⟨fun same _ => by rw [same], fun both => ((both c).mp rfl).symm⟩

/-- The long form agrees with the same words alone unless a later `ll` begins other words. -/
theorem forms_agree_iff (a : List String) :
    Agree (parseCommand (["ll"] ++ a)) (parseCommand a) ↔
      "ll" ∉ a ∨ ∀ c, Denotes a c ↔ Denotes (afterLl a) c := by
  have long (c : Command) : parseCommand (["ll"] ++ a) = .ok c ↔ Denotes a c := by
    rw [parseCommand_ok, if_pos (by simp)]
    exact Iff.rfl
  simp only [agree_iff, long, parseCommand_ok]
  by_cases there : "ll" ∈ a
  · simp [there]
  · simp [there]

/-- A remote command whose last word is `ll`. -/
theorem later_ll_misread :
    ¬ Agree (parseCommand (["ll"] ++ ["cmd", "node:x", "echo", "ll"]))
      (parseCommand ["cmd", "node:x", "echo", "ll"]) := by
  rw [agree_iff]
  intro both
  have long : parseCommand (["ll"] ++ ["cmd", "node:x", "echo", "ll"]) =
      .ok (.cmd "node:x" "echo ll") := by decide
  have short := (both _).mp long
  revert short
  decide

end Command
end LanLink.Vpn
