import Conformance.Json.Basic
import Conformance.Text.Blank

/-!
Decoding JSON trees.

A tree is decoded in the order of its text, and the first fault in that order
is the one reported. Objects are read by a `Layout`, which says what each
field sets; a field that the layout does not know is passed over, whether or
not its value is readable. An object may also be written as an array of the
values of its fields, in the order of the layout. Some objects can be decoded
only after the whole of them was collected. All of a collected tree must be
readable, and words and tags in it may be written in one more way than
elsewhere.
-/

namespace Conformance

/-- Why a tree is refused. -/
inductive DecodeError where
  /-- The text is not JSON, or a part of it that has to be kept is not held. -/
  | malformed
  /-- An object lacks a field. -/
  | missingField (name : String)
  /-- An object has a field twice. -/
  | repeatedField (name : String)
  /-- An array in the place of an object has too few items or too many. -/
  | wrongLength
  /-- A value is not of the kind that stands in its place. -/
  | unexpected
  /-- A text in the place of a truth value names none. -/
  | notBoolean (text : String)
  /-- A text in the place of a language version names none. -/
  | notLanguageVersion (text : String)
  /-- A text in the place of an optional truth value names none. -/
  | notSwitch (text : String)
deriving DecidableEq, Repr

/-- The message of an error, for the faults that have a text of their own. -/
def DecodeError.message? : DecodeError → Option String
  | notBoolean text => some ("expected boolean, found '" ++ text ++ "'")
  | notLanguageVersion text => some ("unknown language version '" ++ text ++ "'")
  | notSwitch text =>
    some ("invalid boolean value: '" ++ text ++ "'. Expected true, false, 'true', or 'false'")
  | _ => none

namespace Json

/-- When a tree is decoded. -/
inductive Manner where
  /-- As its text is read. -/
  | streamed
  /-- After the whole of it was collected. -/
  | collected
deriving DecidableEq, Repr

/-- A decoder of trees. -/
abbrev Decoder (α : Type) := Json → Except DecodeError α

/-- The error for a value of another kind than its place asks for. -/
def refuse {α : Type} : Decoder α
  | malformed => .error .malformed
  | _ => .error .unexpected

/-- Decodes a text. -/
def decodeString : Decoder String
  | string value => .ok value
  | tree => refuse tree

/-- Decodes a whole number of 32 bits that is written with digits alone. -/
def decodeUInt32 : Decoder UInt32
  | number (.natural n) => if n < UInt32.size then .ok (UInt32.ofNat n) else .error .unexpected
  | tree => refuse tree

/-- Decodes the items of an array, each by the same decoder. -/
def decodeItems {α : Type} (decode : Decoder α) : List Json → Except DecodeError (List α)
  | [] => .ok []
  | item :: rest => do
    let value ← decode item
    let values ← decodeItems decode rest
    return value :: values

/-- Decodes an array. -/
def decodeList {α : Type} (decode : Decoder α) : Decoder (List α)
  | array items => decodeItems decode items
  | tree => refuse tree

/-- Decodes null to nothing, and anything else by the decoder. -/
def decodeNullable {α : Type} (decode : Decoder α) : Decoder (Option α)
  | null => .ok none
  | tree => do return some (← decode tree)

/-- Whether a tree says that a word carries nothing. -/
def isNothing : Manner → Json → Bool
  | _, null => true
  | .collected, object [] => true
  | _, _ => false

/-- Decodes a word out of a table. A word may also be written as an object
whose one field has it as its name and carries nothing. -/
def decodeKeyword {α : Type} (table : List (String × α)) (manner : Manner) : Decoder α
  | string word => match table.lookup word with
    | some value => .ok value
    | none => .error .unexpected
  | object [(word, value)] => match table.lookup word, isNothing manner value with
    | some value, true => .ok value
    | _, _ => .error .unexpected
  | tree => refuse tree

/-- Decodes a tag: a word out of a table, for which a collected tree may also
have its place in the table. -/
def decodeTag {α : Type} (table : List (String × α)) (manner : Manner) : Decoder α
  | string word => match table.lookup word with
    | some value => .ok value
    | none => .error .unexpected
  | number (.natural n) => match manner, table[n]? with
    | .collected, some (_, value) => .ok value
    | _, _ => .error .unexpected
  | tree => refuse tree

/-- Decodes a truth value, which may also be written as a text in any case. -/
def decodeBool : Decoder Bool
  | bool value => .ok value
  | string text =>
    if Text.lowerLatin text = "true" then .ok true
    else if Text.lowerLatin text = "false" then .ok false
    else .error (.notBoolean (Text.lowerLatin text))
  | tree => refuse tree

/-! ## Objects -/

/-- How an object is read. -/
structure Layout (α : Type) where
  /-- What an object without fields is read as. -/
  start : α
  /-- The fields that an object must have. -/
  required : List String
  /-- What each field does to the value read so far, in the order that an array
  has their values in. Other fields are passed over. -/
  fields : List (String × (Json → α → Except DecodeError α))
  /-- Whether other fields are collected for later. -/
  collects : Bool := false

namespace Layout

variable {α : Type}

/-- What a field of a name does to the value read so far. -/
def field? (layout : Layout α) (name : String) : Option (Json → α → Except DecodeError α) :=
  layout.fields.lookup name

/-- Reads fields in order. `seen` holds the names of the known fields before. -/
def readFields (layout : Layout α) (seen : List String) (value : α) :
    List (String × Json) → Except DecodeError (List String × α)
  | [] => .ok (seen, value)
  | (_, malformed) :: _ => .error .malformed
  | (name, tree) :: rest =>
    match layout.field? name with
    | none =>
      if layout.collects && !tree.isReadable then .error .malformed
      else layout.readFields seen value rest
    | some set =>
      if name ∈ seen then .error (.repeatedField name)
      else do
        let value ← set tree value
        layout.readFields (name :: seen) value rest

/-- Reads the fields of an object and asks for those it must have. -/
def decodeFields (layout : Layout α) (fields : List (String × Json)) : Except DecodeError α := do
  let (seen, value) ← layout.readFields [] layout.start fields
  match layout.required.find? fun name => name ∉ seen with
  | some name => .error (.missingField name)
  | none => .ok value

/-- Reads the items of an array as the values of fields, in order. Fields that an object
must have must not be left over. -/
def readItems (required : List String) (value : α) :
    List (String × (Json → α → Except DecodeError α)) → List Json → Except DecodeError α
  | [], [] => .ok value
  | [], _ :: _ => .error .wrongLength
  | (name, _) :: fields, [] =>
    if name ∈ required then .error .wrongLength else readItems required value fields []
  | (_, set) :: fields, item :: items => do
    readItems required (← set item value) fields items

/-- Decodes an object, or an array in the place of one. -/
def decode (layout : Layout α) : Decoder α
  | object fields => layout.decodeFields fields
  | array items => readItems layout.required layout.start layout.fields items
  | tree => refuse tree

end Layout

/-- Decodes the tree of a text, and then asks that nothing follows it. -/
def decodeDocument {α : Type} (decode : Decoder α) (tree : Json) (complete : Bool) :
    Except DecodeError α := do
  let value ← decode tree
  if complete then .ok value else .error .malformed

end Json

end Conformance
