import RoadAtlas.Json.Number

/-!
JSON values and the strict reading of a JSON text: no comments, no trailing commas, no byte order
mark, and nothing but blanks around the value.

A string may hold escaped UTF-16 units that pair up to no character. Such a string is well formed
but is no text, so a string is an optional text here, and only who needs its text notices.

* `Json.parse?` reads a whole text;
* `Json.string?`, `Json.array?`, `Json.object?` and their companions take values apart.
-/

namespace RoadAtlas

/-- A JSON value; objects keep their members in order, repeated names included. -/
inductive Json where
  | null
  | bool (b : Bool)
  | number (n : JsonNumber)
  | string (text : Option String)
  | array (items : List Json)
  | object (members : List (Option String × Json))

namespace Json

/-! ### Blanks and literals -/

/-- The characters that may stand around a value. -/
def isBlank (c : Char) : Bool := c == ' ' || c == '\n' || c == '\t' || c == '\r'

/-- The text behind its leading blanks. -/
def skipBlanks (s : List Char) : List Char := s.dropWhile isBlank

theorem length_skipBlanks_le (s : List Char) : (skipBlanks s).length ≤ s.length :=
  (List.dropWhile_suffix isBlank).length_le

/-- What is left of a text of which something was read. -/
abbrev Rest (s : List Char) : Type := { r : List Char // r.length < s.length }

/-! ### Strings -/

/-- A character of a string, or a UTF-16 unit that it spells out. -/
inductive Piece where
  | plain (c : Char)
  | unit (value : Nat)
  deriving DecidableEq, Repr

/-- The value of a hexadecimal digit. -/
def hexDigit? (c : Char) : Option Nat :=
  if '0' ≤ c ∧ c ≤ '9' then some (c.toNat - '0'.toNat)
  else if 'a' ≤ c ∧ c ≤ 'f' then some (c.toNat - 'a'.toNat + 10)
  else if 'A' ≤ c ∧ c ≤ 'F' then some (c.toNat - 'A'.toNat + 10)
  else none

/-- The value of four hexadecimal digits. -/
def hexUnit? (a b c d : Char) : Option Nat := do
  let a ← hexDigit? a
  let b ← hexDigit? b
  let c ← hexDigit? c
  let d ← hexDigit? d
  return ((a * 16 + b) * 16 + c) * 16 + d

/-- The character that a letter stands for behind a backslash. -/
def escape? (c : Char) : Option Char :=
  match c with
  | '"' => some '"'
  | '\\' => some '\\'
  | '/' => some '/'
  | 'b' => some '\x08'
  | 'f' => some '\x0c'
  | 'n' => some '\n'
  | 'r' => some '\r'
  | 't' => some '\t'
  | _ => none

/-- The pieces of a string up to its closing quote, and what follows. -/
def pieces : (s : List Char) → Option (List Piece × Rest s)
  | [] => none
  | '"' :: rest => some ([], ⟨rest, by simp⟩)
  | '\\' :: 'u' :: a :: b :: c :: d :: rest => do
    let unit ← hexUnit? a b c d
    let (more, ⟨rest', h⟩) ← pieces rest
    return (.unit unit :: more, ⟨rest', by simp only [List.length_cons]; omega⟩)
  | '\\' :: c :: rest => do
    let c ← escape? c
    let (more, ⟨rest', h⟩) ← pieces rest
    return (.plain c :: more, ⟨rest', by simp only [List.length_cons]; omega⟩)
  | c :: rest => do
    if c.toNat < 32 ∨ c = '\\' then
      none
    let (more, ⟨rest', h⟩) ← pieces rest
    return (.plain c :: more, ⟨rest', by simp only [List.length_cons]; omega⟩)

/-- The unit is the first half of a pair. -/
def isHighSurrogate (unit : Nat) : Bool := 0xd800 ≤ unit && unit < 0xdc00

/-- The unit is the second half of a pair. -/
def isLowSurrogate (unit : Nat) : Bool := 0xdc00 ≤ unit && unit < 0xe000

/-- The characters that pieces make up; `none` when a half of a pair stands alone. -/
def joinPieces : List Piece → Option (List Char)
  | [] => some []
  | .plain c :: rest => (joinPieces rest).map (c :: ·)
  | .unit high :: .unit low :: rest =>
    if isHighSurrogate high then
      if isLowSurrogate low then
        let c := Char.ofNat (0x10000 + (high - 0xd800) * 0x400 + (low - 0xdc00))
        (joinPieces rest).map (c :: ·)
      else none
    else if isLowSurrogate high then none
    else (joinPieces (.unit low :: rest)).map (Char.ofNat high :: ·)
  | .unit unit :: rest =>
    if isHighSurrogate unit || isLowSurrogate unit then none
    else (joinPieces rest).map (Char.ofNat unit :: ·)

/-- The text that pieces make up. -/
def textOf? (pieces : List Piece) : Option String := (joinPieces pieces).map String.ofList

/-! ### Numbers -/

/-- A run of digits, not empty, and what follows it. -/
def digits? (s : List Char) : Option (List Char × Rest s) :=
  match s with
  | c :: rest =>
    if c.isDigit then
      some (c :: rest.takeWhile Char.isDigit, ⟨rest.dropWhile Char.isDigit, by
        have := (List.dropWhile_suffix Char.isDigit (l := rest)).length_le
        simp only [List.length_cons]
        omega⟩)
    else none
  | [] => none

/-- The digits behind a point, if there is one. -/
def fraction? (s : List Char) : Option (List Char × { r : List Char // r.length ≤ s.length }) :=
  match s with
  | '.' :: rest => do
    let (digits, ⟨rest', h⟩) ← digits? rest
    return (digits, ⟨rest', by simp only [List.length_cons]; omega⟩)
  | s => some ([], ⟨s, Nat.le_refl _⟩)

/-- The sign and the digits of an exponent, if there is one. -/
def exponent? (s : List Char) :
    Option (Option (Bool × List Char) × { r : List Char // r.length ≤ s.length }) :=
  match s with
  | c :: rest =>
    if c = 'e' ∨ c = 'E' then
      match rest with
      | '-' :: rest => do
        let (digits, ⟨rest', h⟩) ← digits? rest
        return (some (true, digits), ⟨rest', by simp only [List.length_cons]; omega⟩)
      | '+' :: rest => do
        let (digits, ⟨rest', h⟩) ← digits? rest
        return (some (false, digits), ⟨rest', by simp only [List.length_cons]; omega⟩)
      | rest => do
        let (digits, ⟨rest', h⟩) ← digits? rest
        return (some (false, digits), ⟨rest', by simp only [List.length_cons]; omega⟩)
    else some (none, ⟨c :: rest, Nat.le_refl _⟩)
  | [] => some (none, ⟨[], Nat.le_refl _⟩)

/-- A number without its sign: no zero leads other digits. -/
def unsigned? (negative : Bool) (s : List Char) : Option (JsonNumber × Rest s) := do
  let (whole, ⟨s₁, h₁⟩) ← digits? s
  if whole.head? = some '0' ∧ 1 < whole.length then
    none
  let (fraction, ⟨s₂, h₂⟩) ← fraction? s₁
  let (exponent, ⟨s₃, h₃⟩) ← exponent? s₂
  return (⟨negative, whole, fraction, exponent⟩, ⟨s₃, by omega⟩)

/-- A number. -/
def number? (s : List Char) : Option (JsonNumber × Rest s) :=
  match s with
  | '-' :: rest => do
    let (n, ⟨rest', h⟩) ← unsigned? true rest
    return (n, ⟨rest', by simp only [List.length_cons]; omega⟩)
  | s => unsigned? false s

/-! ### Values -/

mutual

/-- The value at the front of a text, behind blanks. -/
def value (s : List Char) : Option (Json × Rest s) :=
  have front := length_skipBlanks_le s
  match hs : skipBlanks s with
  | '{' :: rest =>
    have shorter : rest.length < s.length := by
      rw [hs, List.length_cons] at front
      omega
    match hr : skipBlanks rest with
    | '}' :: rest' => some (.object [], ⟨rest', by
        have := length_skipBlanks_le rest
        rw [hr, List.length_cons] at this
        omega⟩)
    | _ => do
      let (members, ⟨rest', h⟩) ← members rest
      return (.object members, ⟨rest', by omega⟩)
  | '[' :: rest =>
    have shorter : rest.length < s.length := by
      rw [hs, List.length_cons] at front
      omega
    match hr : skipBlanks rest with
    | ']' :: rest' => some (.array [], ⟨rest', by
        have := length_skipBlanks_le rest
        rw [hr, List.length_cons] at this
        omega⟩)
    | _ => do
      let (items, ⟨rest', h⟩) ← items rest
      return (.array items, ⟨rest', by omega⟩)
  | '"' :: rest => do
    let (found, ⟨rest', h⟩) ← pieces rest
    return (.string (textOf? found), ⟨rest', by rw [hs, List.length_cons] at front; omega⟩)
  | 't' :: 'r' :: 'u' :: 'e' :: rest => some (.bool true, ⟨rest, by
      rw [hs] at front
      simp only [List.length_cons] at front
      omega⟩)
  | 'f' :: 'a' :: 'l' :: 's' :: 'e' :: rest => some (.bool false, ⟨rest, by
      rw [hs] at front
      simp only [List.length_cons] at front
      omega⟩)
  | 'n' :: 'u' :: 'l' :: 'l' :: rest => some (.null, ⟨rest, by
      rw [hs] at front
      simp only [List.length_cons] at front
      omega⟩)
  | text => do
    let (n, ⟨rest, h⟩) ← number? text
    return (.number n, ⟨rest, by rw [hs] at front; omega⟩)
termination_by (s.length, 0)

/-- The items of an array up to its closing bracket; there is at least one. -/
def items (s : List Char) : Option (List Json × Rest s) := do
  let (item, ⟨rest, h⟩) ← value s
  have front := length_skipBlanks_le rest
  match hr : skipBlanks rest with
  | ',' :: rest' =>
    have shorter : rest'.length < s.length := by
      rw [hr, List.length_cons] at front
      omega
    let (more, ⟨rest'', h'⟩) ← items rest'
    return (item :: more, ⟨rest'', by omega⟩)
  | ']' :: rest' => return ([item], ⟨rest', by rw [hr, List.length_cons] at front; omega⟩)
  | _ => none
termination_by (s.length, 1)

/-- The members of an object up to its closing brace; there is at least one. -/
def members (s : List Char) : Option (List (Option String × Json) × Rest s) := do
  have front := length_skipBlanks_le s
  match hs : skipBlanks s with
  | '"' :: rest =>
    let (found, ⟨rest₁, h₁⟩) ← pieces rest
    have front₁ := length_skipBlanks_le rest₁
    match hc : skipBlanks rest₁ with
    | ':' :: rest₂ =>
      have shorter₂ : rest₂.length < s.length := by
        rw [hs, List.length_cons] at front
        rw [hc, List.length_cons] at front₁
        omega
      let (v, ⟨rest₃, h₃⟩) ← value rest₂
      have front₃ := length_skipBlanks_le rest₃
      match hr : skipBlanks rest₃ with
      | ',' :: rest₄ =>
        have shorter₄ : rest₄.length < s.length := by
          rw [hr, List.length_cons] at front₃
          omega
        let (more, ⟨rest₅, h₅⟩) ← members rest₄
        return ((textOf? found, v) :: more, ⟨rest₅, by omega⟩)
      | '}' :: rest₄ =>
        return ([(textOf? found, v)], ⟨rest₄, by rw [hr, List.length_cons] at front₃; omega⟩)
      | _ => none
    | _ => none
  | _ => none
termination_by (s.length, 1)

end

/-- The value of a text, which holds nothing else. -/
def parse? (text : String) : Option Json := do
  let (v, ⟨rest, _⟩) ← value text.toList
  if (skipBlanks rest).isEmpty then some v else none

/-! ### Taking values apart -/

/-- The text of a string. -/
def string? : Json → Option String
  | string text => text
  | _ => none

def bool? : Json → Option Bool
  | bool b => some b
  | _ => none

/-- The double of a number. -/
def float? : Json → Option Float
  | number n => n.toFloat?
  | _ => none

/-- The items of an array, each read by `item`. -/
def array? {α : Type} (item : Json → Option α) : Json → Option (List α)
  | array items => items.mapM item
  | _ => none

/-- The members of an object whose names are all texts. -/
def object? : Json → Option (List (String × Json))
  | object members => members.mapM fun (name, v) => name.map fun name => (name, v)
  | _ => none

end Json

end RoadAtlas
