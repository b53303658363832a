import LanLink.Vpn.LanRouter

/-! The texts that are node addresses, apart from how the parser takes them to
pieces. -/
namespace LanLink.Vpn

/-- A name as an address can hold it. -/
structure NodeName where
  text : String
  nonempty : text ≠ ""
  plain : ':' ∉ text.toList

structure Port where
  number : UInt16
  nonzero : number ≠ 0

/-- The texts of a 16-bit number: digits, of any length, behind an optional plus sign. -/
inductive U16Text : List Char → UInt16 → Prop where
  | digits (nonempty : digits ≠ []) (all : ∀ c ∈ digits, c.isDigit)
      (value : Nat.ofDigitChars 10 digits 0 = port.toNat) : U16Text digits port
  | plus (nonempty : digits ≠ []) (all : ∀ c ∈ digits, c.isDigit)
      (value : Nat.ofDigitChars 10 digits 0 = port.toNat) : U16Text ('+' :: digits) port

inductive NodeAddress : String → ParsedAddress → Prop where
  | named (name : NodeName) : NodeAddress ("node:" ++ name.text) ⟨name.text, none⟩
  | ported (name : NodeName) (port : Port) (text : String)
      (number : U16Text text.toList port.number) :
      NodeAddress ("node:" ++ name.text ++ ":" ++ text) ⟨name.text, some port.number⟩

/-- An address written out, the port in decimal. -/
def printAddress (name : NodeName) : Option Port → String
  | none => "node:" ++ name.text
  | some port => "node:" ++ name.text ++ ":" ++ toString port.number

theorem splitOnce_none (plain : ':' ∉ chars) : splitOnce chars = (chars, none) := by
  have all : ∀ c ∈ chars, decide (c ≠ ':') = true := by
    intro c member
    exact decide_eq_true fun colon => plain (colon ▸ member)
  have rest : chars.dropWhile (· ≠ ':') = [] := by
    rw [← List.append_nil chars, List.dropWhile_append_of_pos all]
    rfl
  rw [splitOnce, rest]

theorem splitOnce_some (plain : ':' ∉ first) :
    splitOnce (first ++ ':' :: rest) = (first, some rest) := by
  have all : ∀ c ∈ first, decide (c ≠ ':') = true := by
    intro c member
    exact decide_eq_true fun colon => plain (colon ▸ member)
  rw [splitOnce, List.dropWhile_append_of_pos all, List.takeWhile_append_of_pos all]
  simp

/-- Every text is one of the two. -/
theorem splitOnce_cases (chars : List Char) : ':' ∉ chars ∨
    ∃ first rest, chars = first ++ ':' :: rest ∧ ':' ∉ first := by
  by_cases member : ':' ∈ chars
  · obtain ⟨first, rest, split, plain⟩ := List.eq_append_cons_of_mem member
    exact .inr ⟨first, rest, split, plain⟩
  · exact .inl member

/-- The digits behind the sign. -/
def unsigned : List Char → List Char
  | '+' :: rest => rest
  | all => all

theorem unsigned_digits (all : ∀ c ∈ digits, c.isDigit) : unsigned digits = digits := by
  rw [unsigned]
  intro rest plus
  rw [plus] at all
  exact absurd (all '+' List.mem_cons_self) (by decide)

theorem parseU16_iff : parseU16 chars = some port ↔ unsigned chars ≠ [] ∧
    (∀ c ∈ unsigned chars, c.isDigit) ∧
    Nat.ofDigitChars 10 (unsigned chars) 0 = port.toNat := by
  show (if unsigned chars ≠ [] ∧ (unsigned chars).all Char.isDigit ∧
    Nat.ofDigitChars 10 (unsigned chars) 0 < 2 ^ 16 then
      some (Nat.ofDigitChars 10 (unsigned chars) 0).toUInt16 else none) = some port ↔ _
  rw [← List.all_eq_true]
  generalize Nat.ofDigitChars 10 (unsigned chars) 0 = n
  have word : n < 2 ^ 16 ∧ n.toUInt16 = port ↔ n = port.toNat := by
    constructor
    · rintro ⟨small, rfl⟩
      exact (Nat.mod_eq_of_lt small).symm
    · rintro rfl
      exact ⟨port.toNat_lt, UInt16.ofNat_toNat⟩
  rw [← word]
  split
  · rename_i read
    simp only [Option.some.injEq, read.1, read.2.1, read.2.2, true_and, ne_eq, not_false_eq_true]
  · rename_i unread
    refine iff_of_false nofun fun ⟨nonempty, all, small, _⟩ => unread ⟨nonempty, all, small⟩

/-- Reading a number accepts exactly its texts. -/
theorem parseU16_text : parseU16 chars = some port ↔ U16Text chars port := by
  rw [parseU16_iff]
  constructor
  · rintro ⟨nonempty, all, value⟩
    cases chars with
    | nil => exact absurd rfl nonempty
    | cons c rest =>
      by_cases plus : c = '+'
      · subst plus
        exact .plus nonempty all value
      · have same : unsigned (c :: rest) = c :: rest := by
          rw [unsigned]
          intro others first
          exact plus (List.cons.inj first).1
        rw [same] at nonempty all value
        exact .digits nonempty all value
  · rintro (⟨nonempty, all, value⟩ | ⟨nonempty, all, value⟩)
    · rw [unsigned_digits all]
      exact ⟨nonempty, all, value⟩
    · exact ⟨nonempty, all, value⟩

theorem parse_scheme {addr : String} (spelled : addr.toList = "node".toList ++ ':' :: rest) :
    ParsedAddress.parse addr = match splitOnce rest with
      | ([], _) => .error (.invalidFormat "node name cannot be empty")
      | (name, none) => .ok ⟨.ofList name, none⟩
      | (name, some portStr) =>
        match parseU16 portStr with
        | none => .error (.invalidFormat s!"invalid port number: {String.ofList portStr}")
        | some port =>
          if port = 0 then .error (.invalidFormat "port number cannot be zero")
          else .ok ⟨.ofList name, some port⟩ := by
  rw [ParsedAddress.parse, spelled, splitOnce_some (by decide)]
  rfl

/-- The name that some characters spell. -/
def NodeName.ofChars (chars : List Char) (nonempty : chars ≠ []) (plain : ':' ∉ chars) : NodeName where
  text := .ofList chars
  nonempty := fun empty => nonempty (String.ofList_eq_empty_iff.mp empty)
  plain := by rwa [String.toList_ofList]

theorem NodeName.chars_ne_nil (name : NodeName) : name.text.toList ≠ [] :=
  fun empty => name.nonempty (String.toList_eq_nil_iff.mp empty)

theorem parse_complete (address : NodeAddress s parsed) : ParsedAddress.parse s = .ok parsed := by
  cases address with
  | named name =>
    have spelled : ("node:" ++ name.text).toList = "node".toList ++ ':' :: name.text.toList := by
      rw [String.toList_append]
      rfl
    rw [parse_scheme spelled, splitOnce_none name.plain]
    cases chars : name.text.toList with
    | nil => exact absurd chars name.chars_ne_nil
    | cons c rest =>
      rw [← String.ofList_toList (s := name.text), chars]
  | ported name port text number =>
    have spelled : ("node:" ++ name.text ++ ":" ++ text).toList =
        "node".toList ++ ':' :: (name.text.toList ++ ':' :: text.toList) := by
      rw [String.toList_append, String.toList_append, String.toList_append, List.append_assoc,
        List.append_assoc]
      rfl
    rw [parse_scheme spelled, splitOnce_some name.plain]
    cases chars : name.text.toList with
    | nil => exact absurd chars name.chars_ne_nil
    | cons c rest =>
      simp only [parseU16_text.mpr number, if_neg port.nonzero]
      rw [← String.ofList_toList (s := name.text), chars]

theorem parse_sound (parsed : ParsedAddress.parse s = .ok address) : NodeAddress s address := by
  rcases splitOnce_cases s.toList with plain | ⟨scheme, rest, spelled, plain⟩
  · rw [ParsedAddress.parse, splitOnce_none plain] at parsed
    cases parsed
  by_cases node : scheme = "node".toList
  · subst node
    rw [parse_scheme spelled] at parsed
    rcases splitOnce_cases rest with named | ⟨name, portStr, ported, named⟩
    · rw [splitOnce_none named] at parsed
      cases rest with
      | nil => cases parsed
      | cons c chars =>
        cases parsed
        have text : s = "node:" ++ String.ofList (c :: chars) := by
          rw [← String.toList_inj, spelled]
          simp only [String.toList_append, String.toList_ofList]
          rfl
        rw [text]
        exact .named (.ofChars (c :: chars) (List.cons_ne_nil c chars) named)
    · rw [ported, splitOnce_some named] at parsed
      cases name with
      | nil => cases parsed
      | cons c chars =>
        cases read : parseU16 portStr with
        | none =>
          simp only [read] at parsed
          cases parsed
        | some port =>
          simp only [read] at parsed
          split at parsed
          · cases parsed
          · rename_i nonzero
            cases parsed
            have text : s = "node:" ++ String.ofList (c :: chars) ++ ":" ++ String.ofList portStr := by
              rw [← String.toList_inj, spelled, ported]
              simp only [String.toList_append, String.toList_ofList, List.append_assoc]
              rfl
            have number : U16Text (String.ofList portStr).toList port := by
              rw [String.toList_ofList]
              exact parseU16_text.mp read
            rw [text]
            exact .ported (.ofChars (c :: chars) (List.cons_ne_nil c chars) named) ⟨port, nonzero⟩ _ number
  · rw [ParsedAddress.parse, spelled, splitOnce_some plain] at parsed
    simp only [if_pos node] at parsed
    cases parsed

theorem printAddress_grammar (name : NodeName) (port : Option Port) :
    NodeAddress (printAddress name port) ⟨name.text, port.map Port.number⟩ := by
  cases port with
  | none => exact .named name
  | some port =>
    have decimal : (toString port.number).toList = Nat.toDigits 10 port.number.toNat :=
      Nat.toList_repr
    have number : U16Text (toString port.number).toList port.number := by
      rw [decimal]
      apply U16Text.digits Nat.toDigits_ne_nil
      · exact fun c member => Nat.isDigit_of_mem_toDigits (by decide) (by decide) member
      · exact Nat.ofDigitChars_ten_toDigits
    exact .ported name port _ number

/-- Parsing accepts exactly the node addresses, with the name and the port that stand in
them, and reads back what is printed. -/
theorem parse_grammar (s : String) (address : ParsedAddress) (name : NodeName)
    (port : Option Port) : (ParsedAddress.parse s = .ok address ↔ NodeAddress s address) ∧
    ParsedAddress.parse (printAddress name port) = .ok ⟨name.text, port.map Port.number⟩ :=
  ⟨⟨parse_sound, parse_complete⟩, parse_complete (printAddress_grammar name port)⟩

end LanLink.Vpn
