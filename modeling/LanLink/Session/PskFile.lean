import LanLink.Core.Hex
import LanLink.Core.Lines
import LanLink.Registry.Center
import LanLink.Session.Pull

/-! The file of the shared key. A daemon reads it or writes it anew when it starts, and a client
on the same machine reads it. -/
namespace LanLink.PskFile
open Words Runs
open LanLink.Center (isWhitespace)
open LanLink.Crypto (Psk)
open LanLink.FilePull (utf8)

def pskOf (bytes : Bytes) : Option Psk := if fits : bytes.length = 32 then some ⟨bytes, fits⟩ else none

def pskOfHex (digits : List Char) : Option Psk := (Hex.decode digits).bind pskOf

/-- A start of the daemon: its argument, the key that it generates if it needs one, and whether
it can write the file. -/
structure Start where
  psk : Option String
  generated : Psk
  writable : Bool

/-- The key of a file that is kept. -/
def kept (existing : Bytes) : Option Psk :=
  if existing.length = 64 then pskOfHex (existing.map fun b => Char.ofNat b.toNat) else none

/-- The daemon's key and the file that it leaves; an argument that is no key aborts. -/
def loadOrGeneratePsk (file : Option Bytes) (args : Start) : Option (Psk × Option Bytes) :=
  match args.psk with
  | some hex => (pskOfHex hex.toList).map fun key => (key, file)
  | none =>
    match file.bind kept with
    | some key => some (key, file)
    | none =>
      let written := utf8 (.ofList (Hex.encode args.generated.toList))
      some (args.generated, if args.writable then some written else file)

/-- The client's text of a key, if it has one. -/
def resolvePsk (arg env : Option String) (file : Option Bytes) : Option String :=
  match arg, env with
  | some hex, _ => some hex
  | none, some hex => some hex
  | none, none => do
    let text ← String.fromUTF8? ⟨(← file).toArray⟩
    let trimmed := Lines.strip isWhitespace text.toList
    if trimmed = [] then none else some (.ofList trimmed)

def clientPsk (arg env : Option String) (file : Option Bytes) : Option Psk :=
  (resolvePsk arg env file).bind fun hex => pskOfHex hex.toList

/-- A start of the daemon as a step of the file. -/
def step (file : Option Bytes) (args : Start) : Option (Option Bytes) :=
  (loadOrGeneratePsk file args).map (·.2)

theorem digit_ascii (digit : Hex.digit c = some n) : c.toNat < 128 ∧ ¬ isWhitespace c := by
  have small : c ≤ 'f' := by
    rw [Hex.digit] at digit
    split at digit
    · rename_i range
      exact Char.le_trans range.2 (by decide)
    · split at digit
      · rename_i range
        exact range.2
      · split at digit
        · rename_i range
          exact Char.le_trans range.2 (by decide)
        · cases digit
  have bound : c.toNat ≤ 'f'.toNat := small
  have all : ∀ n : Fin 128, isWhitespace (Char.ofNat n) = true → Hex.digit (Char.ofNat n) = none := by
    decide
  refine ⟨Nat.lt_of_le_of_lt bound (by decide), fun blank => ?_⟩
  have none := all ⟨c.toNat, Nat.lt_of_le_of_lt bound (by decide)⟩
  rw [Char.ofNat_toNat] at none
  rw [none blank] at digit
  cases digit

theorem decode_digits (decoded : Hex.decode digits = some bytes) :
    digits.length = 2 * bytes.length ∧ ∀ c ∈ digits, c.toNat < 128 ∧ ¬ isWhitespace c := by
  induction digits using Hex.decode.induct generalizing bytes with
  | case1 =>
    cases decoded
    exact ⟨rfl, nofun⟩
  | case2 c => cases decoded
  | case3 high low rest ih =>
    simp only [Hex.decode, Option.bind_eq_bind, Option.bind_eq_some_iff, Option.pure_def,
      Option.some.injEq] at decoded
    obtain ⟨h, first, l, second, tail, more, rfl⟩ := decoded
    obtain ⟨length, ascii⟩ := ih more
    refine ⟨by simp only [List.length_cons, length]; omega, fun c member => ?_⟩
    rcases List.mem_cons.mp member with rfl | later
    · exact digit_ascii first
    · rcases List.mem_cons.mp later with rfl | last
      · exact digit_ascii second
      · exact ascii c last

theorem utf8_ofList (chars : List Char) :
    utf8 (.ofList chars) = chars.flatMap String.utf8EncodeChar := by
  simp [utf8, List.utf8Encode]

theorem utf8_length (chars : List Char) : chars.length ≤ (utf8 (.ofList chars)).length := by
  rw [utf8_ofList]
  induction chars with
  | nil => exact Nat.le_refl _
  | cons c rest ih =>
    have positive := c.utf8Size_pos
    rw [List.flatMap_cons, List.length_append, String.length_utf8EncodeChar, List.length_cons]
    omega

/-- An ASCII text has a byte for each character. -/
theorem utf8_ascii (ascii : ∀ c ∈ chars, c.toNat < 128) :
    utf8 (.ofList chars) = chars.map fun c => UInt8.ofNat c.toNat := by
  rw [utf8_ofList]
  induction chars with
  | nil => rfl
  | cons c rest ih =>
    have single : c.utf8Size = 1 := by
      have small : c.val.toNat < 128 := ascii c List.mem_cons_self
      exact Char.utf8Size_eq_one_iff.mpr (UInt32.le_iff_toNat_le.mpr (Nat.le_of_lt_succ small))
    rw [List.flatMap_cons, ih fun d member => ascii d (List.mem_cons_of_mem c member),
      String.utf8EncodeChar_eq_singleton single]
    rfl

theorem chars_utf8 (ascii : ∀ c ∈ chars, c.toNat < 128) :
    (utf8 (.ofList chars)).map (fun b => Char.ofNat b.toNat) = chars := by
  rw [utf8_ascii ascii, List.map_map]
  refine (List.map_congr_left fun c member => ?_).trans (List.map_id chars)
  have small := ascii c member
  rw [Function.comp_apply, UInt8.toNat_ofNat_of_lt' (Nat.lt_trans small (by decide)), Char.ofNat_toNat]
  rfl

theorem utf8_chars (bytes : Bytes) (ascii : ∀ b ∈ bytes, (Char.ofNat b.toNat).toNat < 128) :
    utf8 (.ofList (bytes.map fun b => Char.ofNat b.toNat)) = bytes := by
  rw [utf8_ascii (by simpa using ascii), List.map_map]
  refine (List.map_congr_left fun b member => ?_).trans (List.map_id bytes)
  have code : ∀ n : Fin 256, (Char.ofNat n).toNat = n := by decide +kernel
  rw [Function.comp_apply, code ⟨b.toNat, b.toNat_lt⟩, UInt8.ofNat_toNat]
  rfl

theorem pskOfHex_digits (key : pskOfHex digits = some psk) :
    digits.length = 64 ∧ ∀ c ∈ digits, c.toNat < 128 ∧ ¬ isWhitespace c := by
  obtain ⟨bytes, decoded, fits⟩ := Option.bind_eq_some_iff.mp key
  obtain ⟨length, ascii⟩ := decode_digits decoded
  rw [pskOf] at fits
  split at fits
  · rename_i full
    exact ⟨by rw [length, full], ascii⟩
  · cases fits

/-- The file holds the digits of the key and nothing else. -/
def Holds (file : Option Bytes) (psk : Psk) : Prop :=
  ∃ digits, file = some (utf8 (.ofList digits)) ∧ pskOfHex digits = some psk

theorem Holds.kept (holds : Holds file psk) : file.bind PskFile.kept = some psk := by
  obtain ⟨digits, rfl, key⟩ := holds
  obtain ⟨length, ascii⟩ := pskOfHex_digits key
  have small : ∀ c ∈ digits, c.toNat < 128 := fun c member => (ascii c member).1
  have full : (utf8 (.ofList digits)).length = 64 := by
    rw [utf8_ascii small, List.length_map, length]
  rw [Option.bind_some, PskFile.kept, if_pos full, chars_utf8 small, key]

theorem Holds.client (holds : Holds file psk) : clientPsk none none file = some psk := by
  obtain ⟨digits, rfl, key⟩ := holds
  obtain ⟨length, ascii⟩ := pskOfHex_digits key
  have visible := Lines.strip_eq_self fun c member => (ascii c member).2
  have filled : digits ≠ [] := List.ne_nil_of_length_pos (by omega)
  rw [clientPsk, resolvePsk]
  simp [FilePull.fromUTF8_utf8, visible, filled, key]

theorem Holds.load (holds : Holds file psk) (args : Start) :
    (args.psk = none → loadOrGeneratePsk file args = some (psk, file)) ∧
      ∀ next, step file args = some next → next = file := by
  have kept := holds.kept
  constructor
  · intro own
    rw [loadOrGeneratePsk, own, kept]
  · intro next stepped
    rw [step, loadOrGeneratePsk] at stepped
    cases given : args.psk with
    | some hex =>
      rw [given] at stepped
      obtain ⟨_, found, rfl⟩ := Option.map_eq_some_iff.mp stepped
      obtain ⟨key, -, rfl⟩ := Option.map_eq_some_iff.mp found
      rfl
    | none =>
      rw [given, kept] at stepped
      exact (Option.some.inj stepped).symm

/-- A start without an argument leaves the digits of its key, if it can write them. -/
theorem holds_started (started : loadOrGeneratePsk file args = some (psk, left))
    (own : args.psk = none) (saved : args.writable) : Holds left psk := by
  rw [loadOrGeneratePsk, own] at started
  dsimp only at started
  split at started
  · rename_i key found
    cases started
    obtain ⟨existing, rfl, key⟩ := Option.bind_eq_some_iff.mp found
    rw [PskFile.kept] at key
    split at key
    · obtain ⟨-, ascii⟩ := pskOfHex_digits key
      refine ⟨_, congrArg some (utf8_chars existing fun b member => ?_).symm, key⟩
      exact (ascii _ (List.mem_map_of_mem member)).1
    · cases key
  · rw [if_pos saved] at started
    cases started
    refine ⟨_, rfl, ?_⟩
    rw [pskOfHex, Hex.decode_encode, Option.bind_some, pskOf, dif_pos args.generated.toList_length]
    rfl

/-- After a start without an argument that could write the file, however often the daemon is
started again, its key is the same, and a client that is given none has it too. -/
theorem psk_agreed (started : loadOrGeneratePsk file args = some (psk, left)) (own : args.psk = none)
    (saved : args.writable) (run : exec step left between = some now) :
    clientPsk none none now = some psk ∧
      ∀ again : Start, again.psk = none → loadOrGeneratePsk now again = some (psk, now) := by
  have holds : Holds now psk := by
    refine Runs.invariant (P := fun file => Holds file psk) ?_ run (holds_started started own saved)
    intro s a t holds stepped
    rwa [(holds.load a).2 t stepped]
  exact ⟨holds.client, fun again => (holds.load again).1⟩

def freshStart : Start := ⟨none, .replicate 32 1, true⟩

def freshFile : Option Bytes := some (utf8 (.ofList (Hex.encode freshStart.generated.toList)))

theorem fresh_started :
    loadOrGeneratePsk none freshStart = some (freshStart.generated, freshFile) := rfl

def secondStart : Start := ⟨none, .replicate 32 2, true⟩

theorem psk_agreed_fresh : exec step freshFile [secondStart] = some freshFile ∧
    clientPsk none none freshFile = some freshStart.generated ∧
    ∀ again : Start, again.psk = none →
      loadOrGeneratePsk freshFile again = some (freshStart.generated, freshFile) := by
  have run : exec step freshFile [secondStart] = some freshFile := by
    rw [exec, step, ((holds_started fresh_started rfl rfl).load secondStart).1 rfl]
    rfl
  exact ⟨run, psk_agreed fresh_started rfl rfl run⟩

/-- A file that a client takes a key from is kept by the daemon just when nothing, not even the
end of a line, is around the digits. -/
theorem psk_kept_iff (client : clientPsk none none (some existing) = some psk) :
    (∀ args : Start, args.psk = none →
      loadOrGeneratePsk (some existing) args = some (psk, some existing)) ↔ existing.length = 64 := by
  obtain ⟨hex, resolved, key⟩ := Option.bind_eq_some_iff.mp client
  simp only [resolvePsk, Option.bind_eq_bind, Option.bind_some, Option.bind_eq_some_iff] at resolved
  obtain ⟨text, parsed, found⟩ := resolved
  split at found
  · cases found
  · cases found
    rw [String.toList_ofList] at key
    obtain ⟨length, ascii⟩ := pskOfHex_digits key
    have bytes := FilePull.utf8_fromUTF8 parsed
    constructor
    · intro kept
      by_contra long
      have lost : PskFile.kept existing = none := if_neg long
      have own (key : Psk) : key = psk := by
        have start := kept ⟨none, key, false⟩ rfl
        rw [loadOrGeneratePsk, Option.bind_some, lost] at start
        exact (Prod.mk.inj (Option.some.inj start)).1
      have same := (own (.replicate 32 0)).trans (own (.replicate 32 1)).symm
      exact absurd same (by decide)
    · intro full args own
      have short := utf8_length text.toList
      rw [String.ofList_toList, bytes, full] at short
      have whole : Lines.strip isWhitespace text.toList = text.toList :=
        (Lines.strip_sublist ..).eq_of_length_le (by rw [length]; exact short)
      have holds : Holds (some existing) psk := by
        refine ⟨_, ?_, key⟩
        rw [whole, String.ofList_toList, bytes]
      exact (holds.load args).1 own

theorem psk_kept_iff_ended :
    let ended := utf8 "0101010101010101010101010101010101010101010101010101010101010101\n"
    (∀ args : Start, args.psk = none → loadOrGeneratePsk (some ended) args =
      some (freshStart.generated, some ended)) ↔ ended.length = 64 :=
  psk_kept_iff (by decide)

end LanLink.PskFile
