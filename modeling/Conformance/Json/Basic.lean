/-!
JSON trees.

Objects keep their fields in the order in which they were written, and keep
repeated fields. A tree may lack parts of the text that it was read from. In
the place of a value that JSON admits but a tree does not hold stands
`unreadable`, which a decoder may still pass over. Where a text is not JSON any
more the tree ends in `malformed`, and so does each array and object that was
open there, which lets a decoder report the first fault of a text in its order.
-/

namespace Conformance

/-- A JSON number, as far as declarations tell numbers apart. -/
inductive JsonNumber where
  /-- Digits alone. -/
  | natural (value : Nat)
  /-- A number with a sign, a fraction or an exponent, as it was written. -/
  | other (literal : String)
deriving DecidableEq, Repr

/-- A JSON tree, or as much of one as a text holds. -/
inductive Json where
  | null
  | bool (value : Bool)
  | number (value : JsonNumber)
  | string (value : String)
  | array (items : List Json)
  | object (fields : List (String × Json))
  /-- A value that is not held, although JSON admits it. -/
  | unreadable
  /-- The end of a tree in front of a fault: the text is not JSON any more, or
  the name of a field is not held. -/
  | malformed

namespace Json

instance : Inhabited Json := ⟨null⟩

/-- The number written with digits alone. -/
def nat (n : Nat) : Json := number (.natural n)

/-- An array of texts. -/
def strings (texts : List String) : Json := array (texts.map string)

/-- The text, or null. -/
def ofOption {α : Type} (encode : α → Json) : Option α → Json
  | some a => encode a
  | none => null

mutual

/-- Whether a tree is held as a whole. -/
def isReadable : Json → Bool
  | unreadable => false
  | malformed => false
  | array items => areReadable items
  | object fields => haveReadable fields
  | _ => true

/-- Whether trees are held as a whole. -/
def areReadable : List Json → Bool
  | [] => true
  | item :: rest => item.isReadable && areReadable rest

/-- Whether the values of fields are held as a whole. -/
def haveReadable : List (String × Json) → Bool
  | [] => true
  | (_, value) :: rest => value.isReadable && haveReadable rest

end

/-- The first field of a name. -/
def field? (name : String) : Json → Option Json
  | object fields => fields.lookup name
  | _ => none

end Json

end Conformance
