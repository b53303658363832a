import Mathlib.Data.Vector.Basic

/-! JSON values and the records, integers, texts and byte arrays that derived
serializers write and read. Numbers are integers: a fraction is refused by every
reader, as `null` is. -/
namespace Json

inductive Value where
  | null
  | bool (b : Bool)
  | number (n : Int)
  | string (text : String)
  | array (values : List Value)
  | object (fields : List (String × Value))

/-- A character of a text, escaped where the format asks for it. -/
def escape (c : Char) : List Char :=
  if c = '"' then ['\\', '"']
  else if c = '\\' then ['\\', '\\']
  else if c = '\n' then ['\\', 'n']
  else if c = '\r' then ['\\', 'r']
  else if c = '\t' then ['\\', 't']
  else if c = '\x08' then ['\\', 'b']
  else if c = '\x0c' then ['\\', 'f']
  else if c.toNat < 0x20 then
    ['\\', 'u', '0', '0', Nat.digitChar (c.toNat / 16), Nat.digitChar (c.toNat % 16)]
  else [c]

def quoted (text : String) : List Char := '"' :: text.toList.flatMap escape ++ ['"']

def numeral : Int → List Char
  | .ofNat n => Nat.toDigits 10 n
  | .negSucc n => '-' :: Nat.toDigits 10 (n + 1)

mutual
/-- The text of a value, without any blank. -/
def Value.text : Value → List Char
  | .null => ['n', 'u', 'l', 'l']
  | .bool true => ['t', 'r', 'u', 'e']
  | .bool false => ['f', 'a', 'l', 's', 'e']
  | .number n => numeral n
  | .string s => quoted s
  | .array values => '[' :: textValues values ++ [']']
  | .object fields => '\x7b' :: textFields fields ++ ['\x7d']

def textValues : List Value → List Char
  | [] => []
  | [value] => value.text
  | value :: rest => value.text ++ ',' :: textValues rest

def textFields : List (String × Value) → List Char
  | [] => []
  | [(name, value)] => quoted name ++ ':' :: value.text
  | (name, value) :: rest => quoted name ++ ':' :: value.text ++ ',' :: textFields rest
end

def spaces (indent : Nat) : List Char := List.replicate indent ' '

mutual
/-- The text of a value with one entry on every line, two blanks deeper at every level. -/
def Value.pretty (indent : Nat) : Value → List Char
  | .array [] => ['[', ']']
  | .array (value :: values) =>
    '[' :: '\n' :: spaces (indent + 2) ++ value.pretty (indent + 2) ++
      prettyValues (indent + 2) values ++ '\n' :: spaces indent ++ [']']
  | .object [] => ['\x7b', '\x7d']
  | .object ((name, value) :: fields) =>
    '\x7b' :: '\n' :: spaces (indent + 2) ++ quoted name ++ ':' :: ' ' :: value.pretty (indent + 2) ++
      prettyFields (indent + 2) fields ++ '\n' :: spaces indent ++ ['\x7d']
  | .null => ['n', 'u', 'l', 'l']
  | .bool true => ['t', 'r', 'u', 'e']
  | .bool false => ['f', 'a', 'l', 's', 'e']
  | .number n => numeral n
  | .string s => quoted s

def prettyValues (indent : Nat) : List Value → List Char
  | [] => []
  | value :: rest =>
    ',' :: '\n' :: spaces indent ++ value.pretty indent ++ prettyValues indent rest

def prettyFields (indent : Nat) : List (String × Value) → List Char
  | [] => []
  | (name, value) :: rest =>
    ',' :: '\n' :: spaces indent ++ quoted name ++ ':' :: ' ' :: value.pretty indent ++
      prettyFields indent rest
end

/-- A field has to be there once. -/
def field (fields : List (String × Value)) (name : String) : Option Value :=
  match fields.filter fun entry => entry.1 = name with
  | [entry] => some entry.2
  | _ => none

/-- The values of a record's fields. Fields of other names are ignored, and an
array gives the fields in their order. -/
def record (names : List String) : Value → Option (List Value)
  | .object fields => names.mapM (field fields)
  | .array values => if values.length = names.length then some values else none
  | _ => none

def asNat (bound : Nat) : Value → Option Nat
  | .number n => if 0 ≤ n ∧ n < bound then some n.toNat else none
  | _ => none

def asU8 (value : Value) : Option UInt8 := (asNat (2 ^ 8) value).map UInt8.ofNat

def asU64 (value : Value) : Option UInt64 := (asNat (2 ^ 64) value).map UInt64.ofNat

def asString : Value → Option String
  | .string text => some text
  | _ => none

def asBool : Value → Option Bool
  | .bool b => some b
  | _ => none

def asVector (length : Nat) : Value → Option (List.Vector UInt8 length)
  | .array values =>
    (values.mapM asU8).bind fun bytes =>
      if fits : bytes.length = length then some ⟨bytes, fits⟩ else none
  | _ => none

/-- The fields of an object whose values are all of one kind, in their order. -/
def asFields (read : Value → Option α) : Value → Option (List (String × α))
  | .object fields => fields.mapM fun entry => (read entry.2).map fun a => (entry.1, a)
  | _ => none

def ofFields (write : α → Value) (fields : List (String × α)) : Value :=
  .object (fields.map fun entry => (entry.1, write entry.2))

def ofU8 (byte : UInt8) : Value := .number byte.toNat

def ofU64 (word : UInt64) : Value := .number word.toNat

def ofVector (bytes : List.Vector UInt8 length) : Value := .array (bytes.toList.map ofU8)

theorem asNat_number (small : n < bound) : asNat bound (.number (n : Nat)) = some n := by
  have fits : (n : Int) < bound := by exact_mod_cast small
  simp [asNat, fits]

@[simp] theorem asU8_ofU8 (byte : UInt8) : asU8 (ofU8 byte) = some byte := by
  simp [asU8, ofU8, asNat_number byte.toNat_lt]

@[simp] theorem asU64_ofU64 (word : UInt64) : asU64 (ofU64 word) = some word := by
  simp [asU64, ofU64, asNat_number word.toNat_lt]

theorem mapM_asU8 (bytes : List UInt8) : (bytes.map ofU8).mapM asU8 = some bytes := by
  induction bytes with
  | nil => rfl
  | cons byte rest ih => simp [ih]

@[simp] theorem asVector_ofVector (bytes : List.Vector UInt8 length) :
    asVector length (ofVector bytes) = some bytes := by
  simp only [asVector, ofVector, mapM_asU8, Option.bind_some, bytes.toList_length, dite_true]
  rfl

theorem asFields_ofFields {read : Value → Option α} {write : α → Value}
    (reads : ∀ a, read (write a) = some a) (fields : List (String × α)) :
    asFields read (ofFields write fields) = some fields := by
  rw [ofFields, asFields]
  induction fields with
  | nil => rfl
  | cons entry rest ih =>
    rw [List.map_cons, List.mapM_cons, ih, reads]
    rfl

@[simp] theorem asString_string (text : String) : asString (.string text) = some text := rfl

@[simp] theorem asBool_bool (b : Bool) : asBool (.bool b) = some b := rfl

end Json
