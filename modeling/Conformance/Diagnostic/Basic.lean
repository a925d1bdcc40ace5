import Conformance.Diagnostic.Rule
import Conformance.Span
import Conformance.Text.Template

/-!
Diagnostics.

A `Diagnostic` carries the names of the members and types that it is about. Its
message is made by `Diagnostic.render`, which fills the template of its code.
-/

namespace Conformance

/-- What is put into a message template. -/
inductive Argument where
  /-- The name of a member. -/
  | member (display : String)
  /-- The name of a type. -/
  | type (display : String)
  /-- A keyword, the name of a feature or of a version. -/
  | text (display : String)
  /-- A number. -/
  | number (value : Nat)
deriving DecidableEq, Repr

namespace Argument

/-- The text that an argument puts into a message. -/
def display : Argument → String
  | member display => display
  | type display => display
  | text display => display
  | number value => toString value

end Argument

/-- A further location that a diagnostic points at. -/
structure Note where
  span : Span
  code : Nat
  arguments : List Argument
deriving DecidableEq, Repr

/-- A diagnostic whose message is not yet made. -/
structure Diagnostic where
  code : Nat
  span : Span
  arguments : List Argument
  category : Category
  notes : List Note := []
deriving DecidableEq, Repr

namespace Diagnostic

/-- The category of the diagnostics with a code. A code without a rule is an error. -/
def categoryOf (code : Nat) : Category :=
  match Rule.ofCode? code with
  | some rule => rule.category
  | none => .error

/-- A diagnostic with a code, in the category of the code. -/
def ofCode (code : Nat) (span : Span) (arguments : List Argument) : Diagnostic where
  code := code
  span := span
  arguments := arguments
  category := categoryOf code

/-- The diagnostic that a rule is broken. -/
def breach (rule : Rule) (span : Span) (arguments : List Argument) : Diagnostic :=
  ofCode rule.code span arguments

/-- The diagnostic with one further location. -/
def withNote (diagnostic : Diagnostic) (note : Note) : Diagnostic :=
  { diagnostic with notes := diagnostic.notes ++ [note] }

/-- Whether a diagnostic is an error. -/
def isError (diagnostic : Diagnostic) : Bool := decide (diagnostic.category = .error)

/-- The message for a code and its arguments. -/
def messageOf (code : Nat) (arguments : List Argument) : String :=
  let template := match Rule.ofCode? code with
    | some rule => rule.template
    | none => "Unexpected diagnostic code."
  Text.fill template (arguments.map Argument.display)

end Diagnostic

/-- A further location with its message. -/
structure RenderedNote where
  span : Span
  message : String
  category : Category
  code : Nat
deriving DecidableEq, Repr

/-- A diagnostic with its message. -/
structure RenderedDiagnostic where
  span : Span
  message : String
  category : Category
  code : Nat
  /-- The texts of the arguments, in the order of the template. -/
  arguments : List String := []
  notes : List RenderedNote := []
deriving DecidableEq, Repr

/-- Whether a rendered diagnostic is an error. -/
def RenderedDiagnostic.isError (diagnostic : RenderedDiagnostic) : Bool :=
  decide (diagnostic.category = .error)

/-- Makes the message of a further location. -/
def Note.render (note : Note) : RenderedNote where
  span := note.span
  message := Diagnostic.messageOf note.code note.arguments
  category := .message
  code := note.code

/-- Makes the message of a diagnostic and of its further locations. -/
def Diagnostic.render (diagnostic : Diagnostic) : RenderedDiagnostic where
  span := diagnostic.span
  message := messageOf diagnostic.code diagnostic.arguments
  category := diagnostic.category
  code := diagnostic.code
  arguments := diagnostic.arguments.map Argument.display
  notes := diagnostic.notes.map Note.render

/-- The written form of a code: four digits at least, after the name of the language. -/
def Diagnostic.formatCode (code : Nat) : String :=
  let digits := toString code
  "CS" ++ String.ofList (List.replicate (4 - digits.length) '0') ++ digits

end Conformance
