import Conformance.Json.Basic
import Conformance.Json.Magnitude

/-!
Reading JSON texts.

The grammar is the strict one: no comments, no byte order mark, no control
characters inside strings. Values that the grammar admits may still be beyond
what a tree holds: strings in which a surrogate escape is not one half of a
pair, numbers too large for a double, and what nests more than 127 deep. They
become `unreadable`, and reading goes on behind them. An object whose fields
have such a string as a name ends there.
-/

namespace Conformance.Json

/-- The characters that may stand between the parts of a text. -/
def isSpace (c : Char) : Bool :=
  c == ' ' || c == '\t' || c == '\n' || c == '\r'

/-- The text from its next part on. -/
def skipSpace (s : List Char) : List Char := s.dropWhile isSpace

/-- How deep arrays and objects may nest. -/
def maxDepth : Nat := 127

/-! ## Strings -/

/-- The value of a hexadecimal digit. -/
def hexDigit? (c : Char) : Option Nat :=
  if '0' ≤ c ∧ c ≤ '9' then some (c.toNat - '0'.toNat)
  else if 'a' ≤ c ∧ c ≤ 'f' then some (c.toNat - 'a'.toNat + 10)
  else if 'A' ≤ c ∧ c ≤ 'F' then some (c.toNat - 'A'.toNat + 10)
  else none

/-- The value of four hexadecimal digits. -/
def hexUnit? (a b c d : Char) : Option Nat := do
  let a ← hexDigit? a
  let b ← hexDigit? b
  let c ← hexDigit? c
  let d ← hexDigit? d
  return ((a * 16 + b) * 16 + c) * 16 + d

/-- The character that a letter stands for after a backslash. -/
def escaped? : Char → Option Char
  | '"' => some '"'
  | '\\' => some '\\'
  | '/' => some '/'
  | 'b' => some '\x08'
  | 'f' => some '\x0c'
  | 'n' => some '\n'
  | 'r' => some '\r'
  | 't' => some '\t'
  | _ => none

/-- The character that two halves of a surrogate pair stand for. -/
def pairChar (high low : Nat) : Char :=
  Char.ofNat (0x10000 + (high - 0xd800) * 0x400 + (low - 0xdc00))

/-- Whether a unit is the first half of a surrogate pair. -/
def isHighSurrogate (unit : Nat) : Bool := decide (0xd800 ≤ unit) && decide (unit ≤ 0xdbff)

/-- Whether a unit is the second half of a surrogate pair. -/
def isLowSurrogate (unit : Nat) : Bool := decide (0xdc00 ≤ unit) && decide (unit ≤ 0xdfff)

/-- A part of a string as it is written. -/
inductive StringPart where
  /-- A character, by itself or by the letter of an escape. -/
  | char (c : Char)
  /-- A unit of 16 bits, by its four digits. -/
  | unit (value : Nat)
deriving DecidableEq, Repr

/-- The parts of a string after its opening quote, and what follows the
closing one. -/
def readParts : List Char → Option (List StringPart × List Char)
  | [] => none
  | '"' :: rest => some ([], rest)
  | '\\' :: 'u' :: a :: b :: c :: d :: rest => do
    let unit ← hexUnit? a b c d
    let (parts, rest) ← readParts rest
    return (.unit unit :: parts, rest)
  | '\\' :: letter :: rest => do
    let c ← escaped? letter
    let (parts, rest) ← readParts rest
    return (.char c :: parts, rest)
  | c :: rest => do
    guard (c ≠ '\\' ∧ 0x20 ≤ c.toNat)
    let (parts, rest) ← readParts rest
    return (.char c :: parts, rest)

/-- The characters that parts stand for, if every surrogate is one half of a
pair. -/
def joinParts : List StringPart → Option (List Char)
  | [] => some []
  | .char c :: rest => (joinParts rest).map fun chars => c :: chars
  | .unit value :: rest =>
    if isLowSurrogate value then none
    else if isHighSurrogate value then
      match rest with
      | .unit low :: rest =>
        if isLowSurrogate low then (joinParts rest).map fun chars => pairChar value low :: chars
        else none
      | _ => none
    else (joinParts rest).map fun chars => Char.ofNat value :: chars

/-- The rest of a string after its opening quote, and what follows the closing
one. The string is nothing if a surrogate in it stands alone. -/
def readString (s : List Char) : Option (Option String × List Char) := do
  let (parts, rest) ← readParts s
  return ((joinParts parts).map String.ofList, rest)

/-! ## Numbers -/

/-- The sign in front of an exponent, and the rest. -/
def readSign : List Char → List Char × List Char
  | '-' :: rest => (['-'], rest)
  | '+' :: rest => (['+'], rest)
  | rest => ([], rest)

/-- An exponent: how it is written, its value, and what follows it. A number
without one has the exponent nought. -/
def readExponent : List Char → Option (List Char × Int × List Char)
  | [] => some ([], 0, [])
  | c :: rest =>
    if c == 'e' || c == 'E' then
      let (sign, digits) := readSign rest
      match digits.takeWhile Char.isDigit with
      | [] => none
      | power =>
        let value : Int := digitsValue power
        some (c :: (sign ++ power), if sign = ['-'] then -value else value,
          digits.dropWhile Char.isDigit)
    else some ([], 0, c :: rest)

/-- The digits after a decimal point, if there is one, and what follows them. -/
def readFraction : List Char → Option (List Char × List Char)
  | '.' :: rest =>
    match rest.takeWhile Char.isDigit with
    | [] => none
    | digits => some (digits, rest.dropWhile Char.isDigit)
  | rest => some ([], rest)

/-- A number at the start of a text, and what follows it. -/
def readNumber (s : List Char) : Option (Json × List Char) := do
  let (sign, s) := match s with
    | '-' :: rest => (['-'], rest)
    | _ => ([], s)
  let whole := s.takeWhile Char.isDigit
  match whole with
  | [] => none
  | '0' :: _ :: _ => none
  | _ =>
    let (fraction, rest) ← readFraction (s.dropWhile Char.isDigit)
    let (power, exponent, rest) ← readExponent rest
    let value :=
      if exceedsDouble whole fraction exponent then unreadable
      else if sign.isEmpty && fraction.isEmpty && power.isEmpty then nat (digitsValue whole)
      else
        let point := if fraction.isEmpty then [] else ['.']
        number (.other (String.ofList (sign ++ whole ++ point ++ fraction ++ power)))
    some (value, rest)

/-! ## Values -/

/-- What follows `word` in a text that starts with it. -/
def dropWord? : List Char → List Char → Option (List Char)
  | [], s => some s
  | w :: word, c :: s => if w = c then dropWord? word s else none
  | _ :: _, [] => none

/-- A value, or as much of one as the text holds. The second part is what
follows the value, and `none` if the text stops being JSON inside it. -/
abbrev Reading := Json × Option (List Char)

/-- A scalar that is spelled by one word. -/
def readWord (word : String) (value : Json) (s : List Char) : Reading :=
  match dropWord? word.toList s with
  | some rest => (value, some rest)
  | none => (malformed, none)

/-- An array or object, if it may be opened at its depth. -/
def held : Nat → Json → Json
  | 0, _ => unreadable
  | _ + 1, tree => tree

/-- A field in front of others. Nothing is held behind a name that is unreadable. -/
def withField (name? : Option String) (value : Json) (fields : List (String × Json)) :
    List (String × Json) :=
  match name? with
  | some name => (name, value) :: fields
  | none => [("", malformed)]

mutual

/-- A value, after any space. `depth` says how many more arrays and objects
may be opened. -/
def readValue : Nat → Nat → List Char → Reading
  | 0, _, _ => (malformed, none)
  | fuel + 1, depth, s =>
    match skipSpace s with
    | '"' :: rest =>
      match readString rest with
      | some (some text, rest) => (string text, some rest)
      | some (none, rest) => (unreadable, some rest)
      | none => (malformed, none)
    | '[' :: rest =>
      match skipSpace rest with
      | ']' :: rest => (held depth (array []), some rest)
      | _ =>
        let (items, rest) := readItems fuel (depth - 1) rest
        (held depth (array items), rest)
    | '{' :: rest =>
      match skipSpace rest with
      | '}' :: rest => (held depth (object []), some rest)
      | _ =>
        let (fields, rest) := readFields fuel (depth - 1) rest
        (held depth (object fields), rest)
    | 'n' :: rest => readWord "ull" null rest
    | 't' :: rest => readWord "rue" (bool true) rest
    | 'f' :: rest => readWord "alse" (bool false) rest
    | s =>
      match readNumber s with
      | some (value, rest) => (value, some rest)
      | none => (malformed, none)

/-- The items of an array up to its closing bracket. -/
def readItems : Nat → Nat → List Char → List Json × Option (List Char)
  | 0, _, _ => ([malformed], none)
  | fuel + 1, depth, s =>
    match readValue fuel depth s with
    | (item, none) => ([item, malformed], none)
    | (item, some rest) =>
      match skipSpace rest with
      | ',' :: rest =>
        let (items, rest) := readItems fuel depth rest
        (item :: items, rest)
      | ']' :: rest => ([item], some rest)
      | _ => ([item, malformed], none)

/-- The fields of an object up to its closing brace. -/
def readFields : Nat → Nat → List Char → List (String × Json) × Option (List Char)
  | 0, _, _ => ([("", malformed)], none)
  | fuel + 1, depth, s =>
    match skipSpace s with
    | '"' :: rest =>
      match readString rest with
      | none => ([("", malformed)], none)
      | some (name?, rest) =>
        match skipSpace rest with
        | ':' :: rest =>
          match readValue fuel depth rest with
          | (value, none) => (withField name? value [("", malformed)], none)
          | (value, some rest) =>
            match skipSpace rest with
            | ',' :: rest =>
              let (fields, rest) := readFields fuel depth rest
              (withField name? value fields, rest)
            | '}' :: rest => (withField name? value [], some rest)
            | _ => (withField name? value [("", malformed)], none)
        | _ => ([("", malformed)], none)
    | _ => ([("", malformed)], none)

end

/-- A text read as JSON: the tree, and whether nothing but space follows it. -/
structure Document where
  /-- The tree, or as much of it as the text holds. -/
  tree : Json
  /-- Whether the text ends with the tree. -/
  complete : Bool

/-- Reads a text. Each step of reading uses up at least one character, so the
length of the text bounds the steps. -/
def read (text : String) : Document :=
  let chars := text.toList
  match readValue (2 * chars.length + 2) maxDepth chars with
  | (tree, some rest) => ⟨tree, (skipSpace rest).isEmpty⟩
  | (tree, none) => ⟨tree, false⟩

/-- The tree of a text that is JSON as a whole and readable. -/
def parse? (text : String) : Option Json :=
  let document := read text
  if document.complete && document.tree.isReadable then some document.tree else none

end Conformance.Json
