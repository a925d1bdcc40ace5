/-!
Arguments of the command line.

Arguments are read from left to right. A value that follows its option, and
the manifest, wait until the next option or the end before they are looked at,
so of two faults the later one may be the one that is reported: unknown
options, values for options that take none, and a second manifest are faults
at once.
-/

namespace Conformance.CommandLine

/-- What the command line asks for. -/
structure Arguments where
  /-- The path of the manifest. -/
  manifest : String
  /-- The assembly to report on. -/
  assembly : Option String := none
  /-- Whether the implementation map is asked for. -/
  implementations : Bool := false
  /-- Whether the report is written as JSON. -/
  json : Bool := false
  /-- Whether the text is in colour. Without it, terminals get colours. -/
  pretty : Option Bool := none
deriving DecidableEq, Repr

/-- Why reading arguments ends without a run: a request that is answered
instead, or a misuse. -/
inductive Stop where
  | help
  | version
  /-- There is no manifest. -/
  | manifestMissing
  /-- An option is unknown, or there is a second manifest. -/
  | unknown
  /-- An option has no value, or a value is not of the kind that is needed. -/
  | invalidValue
  /-- An option is given twice. -/
  | repeated
  /-- An option that takes no value has one. -/
  | valueNotTaken
deriving DecidableEq, Repr

/-- What takes a value. -/
inductive Slot where
  | manifest
  | assembly
  | pretty
deriving DecidableEq, Repr

/-- Options that take no value. -/
inductive Switch where
  | implementations
  | json
  | help
  | version
deriving DecidableEq, Repr

/-- What the arguments read so far have given. -/
structure Given where
  manifest : Option String := none
  assembly : Option String := none
  pretty : Option Bool := none
  implementations : Bool := false
  json : Bool := false
deriving DecidableEq, Repr

/-- A value that is still to be looked at, or to come. -/
structure Pending where
  slot : Slot
  value : Option String
deriving DecidableEq, Repr

/-- How far reading has come. -/
structure Progress where
  given : Given := {}
  pending : Option Pending := none
  /-- Whether a separator was read, so that nothing is an option any more. -/
  isSeparated : Bool := false
deriving DecidableEq, Repr

/-! ## Values -/

/-- Truth values. -/
def parseSwitch (text : String) : Except Stop Bool :=
  if text = "true" then .ok true else if text = "false" then .ok false else .error .invalidValue

namespace Given

/-- Takes a value over. -/
def set (given : Given) (slot : Slot) (value : String) : Except Stop Given :=
  match slot with
  | .manifest =>
    if given.manifest.isSome then .error .repeated
    else if value.isEmpty then .error .invalidValue
    else .ok { given with manifest := some value }
  | .assembly =>
    if given.assembly.isSome then .error .repeated
    else .ok { given with assembly := some value }
  | .pretty =>
    if given.pretty.isSome then .error .repeated
    else do return { given with pretty := some (← parseSwitch value) }

/-- Takes an option without a value over. -/
def turnOn (given : Given) : Switch → Except Stop Given
  | .help => .error .help
  | .version => .error .version
  | .implementations =>
    if given.implementations then .error .repeated
    else .ok { given with implementations := true }
  | .json => if given.json then .error .repeated else .ok { given with json := true }

end Given

/-! ## Single arguments -/

/-- An argument, told apart by its dashes. -/
inductive Token where
  /-- Two dashes alone. -/
  | separator
  /-- Two dashes, a name, and a value behind an equals sign. -/
  | long (name : String) (value : Option String)
  /-- One dash, a letter, and what follows it. -/
  | short (letter : Char) (rest : String)
  /-- Anything else. One dash alone is a value too. -/
  | plain (text : String)
deriving DecidableEq, Repr

/-- The text in front of the first equals sign, and the one behind it. -/
def splitValue (text : List Char) : String × Option String :=
  let name := text.takeWhile fun c => c != '='
  (String.ofList name,
    match text.drop name.length with
    | _ :: value => some (String.ofList value)
    | [] => none)

/-- What kind of argument a text is. -/
def Token.ofArgument (text : String) : Token :=
  match text.toList with
  | ['-', '-'] => separator
  | '-' :: '-' :: rest => let (name, value) := splitValue rest; long name value
  | '-' :: letter :: rest => short letter (String.ofList rest)
  | _ => plain text

/-- The option of a name. -/
def slotNamed? (name : String) : Option Slot :=
  if name = "assembly" then some .assembly
  else if name = "pretty" then some .pretty
  else none

/-- The option without a value of a name. -/
def switchNamed? (name : String) : Option Switch :=
  if name = "implementations" then some .implementations
  else if name = "json" then some .json
  else if name = "help" then some .help
  else if name = "version" then some .version
  else none

/-- The value behind a letter, with or without an equals sign between them. -/
def attachedValue? (rest : String) : Option String :=
  match rest.toList with
  | [] => none
  | '=' :: value => some (String.ofList value)
  | _ => some rest

namespace Progress

/-- Takes the value that waits over. -/
def settle (progress : Progress) : Except Stop Progress :=
  match progress.pending with
  | none => .ok progress
  | some ⟨_, none⟩ => .error .invalidValue
  | some ⟨slot, some value⟩ => do
    return { progress with given := ← progress.given.set slot value, pending := none }

/-- Whether the manifest was given, looked at or not. -/
def hasManifest (progress : Progress) : Bool :=
  progress.given.manifest.isSome || progress.pending.any fun pending => pending.slot = .manifest

/-- Reads the manifest. -/
def readManifest (progress : Progress) (path : String) : Except Stop Progress := do
  if progress.hasManifest then throw .unknown
  return { ← progress.settle with pending := some ⟨.manifest, some path⟩ }

/-- Reads an option that takes a value, with the value if it is attached. -/
def readSlot (progress : Progress) (slot : Slot) (value : Option String) :
    Except Stop Progress := do
  let settled ← progress.settle
  match value with
  | some value => return { settled with given := ← settled.given.set slot value }
  | none => return { settled with pending := some ⟨slot, none⟩ }

/-- Reads an option that takes no value. -/
def readSwitch (progress : Progress) (switch : Switch) : Except Stop Progress := do
  let settled ← progress.settle
  return { settled with given := ← settled.given.turnOn switch }

/-- Reads an option by its name. -/
def readLong (progress : Progress) (name : String) (value : Option String) :
    Except Stop Progress :=
  match slotNamed? name, switchNamed? name with
  | some slot, _ => progress.readSlot slot value
  | none, some switch => if value.isSome then .error .valueNotTaken else progress.readSwitch switch
  | none, none => .error .unknown

/-- Reads an option by its letter. -/
def readShort (progress : Progress) (letter : Char) (rest : String) : Except Stop Progress :=
  if letter = 'a' then progress.readSlot .assembly (attachedValue? rest)
  else if letter = 'h' then progress.readSwitch .help
  else if letter = 'V' then progress.readSwitch .version
  else .error .unknown

/-- Reads an argument that is no option: the value that is to come, or the manifest. -/
def readPlain (progress : Progress) (text : String) : Except Stop Progress :=
  match progress.pending with
  | some ⟨slot, none⟩ => .ok { progress with pending := some ⟨slot, some text⟩ }
  | _ => progress.readManifest text

/-- Reads one argument. -/
def read (progress : Progress) (text : String) : Except Stop Progress :=
  if progress.isSeparated then progress.readManifest text
  else
    match Token.ofArgument text with
    | .separator => .ok { progress with isSeparated := true }
    | .long name value => progress.readLong name value
    | .short letter rest => progress.readShort letter rest
    | .plain text => progress.readPlain text

end Progress

/-! ## All arguments -/

/-- The arguments that a list of texts stands for. -/
def Arguments.parse (texts : List String) : Except Stop Arguments := do
  let given := (← (← texts.foldlM Progress.read {}).settle).given
  match given.manifest with
  | none => throw .manifestMissing
  | some manifest =>
    return {
      manifest
      assembly := given.assembly
      implementations := given.implementations
      json := given.json
      pretty := given.pretty }

end Conformance.CommandLine
