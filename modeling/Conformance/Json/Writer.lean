import Conformance.Json.Basic

/-!
Writing JSON texts, on one line or indented by two blanks. Quotes, backslashes
and control characters are escaped; all other characters are written as they
are.
-/

namespace Conformance.Json

/-- A hexadecimal digit. -/
def hexDigit (n : Nat) : Char :=
  if n < 10 then Char.ofNat ('0'.toNat + n) else Char.ofNat ('a'.toNat + (n - 10))

/-- A character as it is written inside a string. -/
def escape (c : Char) : List Char :=
  match c with
  | '"' => ['\\', '"']
  | '\\' => ['\\', '\\']
  | '\x08' => ['\\', 'b']
  | '\x0c' => ['\\', 'f']
  | '\n' => ['\\', 'n']
  | '\r' => ['\\', 'r']
  | '\t' => ['\\', 't']
  | c =>
    if c.toNat < 0x20 then ['\\', 'u', '0', '0', hexDigit (c.toNat / 16), hexDigit (c.toNat % 16)]
    else [c]

/-- A text between quotes. -/
def quote (s : String) : String :=
  "\"" ++ String.ofList (s.toList.flatMap escape) ++ "\""

/-- A number as it is written. -/
def writeNumber : JsonNumber → String
  | .natural n => toString n
  | .other literal => literal

mutual

/-- A tree on one line, without blanks. -/
def compact : Json → String
  | null => "null"
  | bool value => if value then "true" else "false"
  | number value => writeNumber value
  | string value => quote value
  | array items => "[" ++ ",".intercalate (compactItems items) ++ "]"
  | object fields => "\x7b" ++ ",".intercalate (compactFields fields) ++ "\x7d"
  | unreadable => ""
  | malformed => ""

/-- The items of an array, each on one line. -/
def compactItems : List Json → List String
  | [] => []
  | item :: rest => compact item :: compactItems rest

/-- The fields of an object, each on one line. -/
def compactFields : List (String × Json) → List String
  | [] => []
  | (name, value) :: rest => (quote name ++ ":" ++ compact value) :: compactFields rest

end

/-- A new line, indented by a number of steps. -/
def newLine (indent : Nat) : String :=
  "\n" ++ String.ofList (List.replicate (2 * indent) ' ')

/-- Lines between brackets, indented one step further than the brackets. -/
def block (opening closing : String) (indent : Nat) (lines : List String) : String :=
  if lines.isEmpty then opening ++ closing
  else
    opening ++ newLine (indent + 1) ++ ("," ++ newLine (indent + 1)).intercalate lines ++
      newLine indent ++ closing

mutual

/-- A tree over several lines. -/
def indented (indent : Nat) : Json → String
  | array items => block "[" "]" indent (indentedItems (indent + 1) items)
  | object fields => block "\x7b" "\x7d" indent (indentedFields (indent + 1) fields)
  | null => "null"
  | bool value => if value then "true" else "false"
  | number value => writeNumber value
  | string value => quote value
  | unreadable => ""
  | malformed => ""

/-- The items of an array over several lines. -/
def indentedItems (indent : Nat) : List Json → List String
  | [] => []
  | item :: rest => indented indent item :: indentedItems indent rest

/-- The fields of an object over several lines. -/
def indentedFields (indent : Nat) : List (String × Json) → List String
  | [] => []
  | (name, value) :: rest =>
    (quote name ++ ": " ++ indented indent value) :: indentedFields indent rest

end

/-- A tree over several lines, starting at the margin. -/
def pretty (tree : Json) : String := indented 0 tree

end Conformance.Json
