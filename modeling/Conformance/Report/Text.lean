import Conformance.Report.Basic
import Conformance.Text.Blank

/-!
Reports as texts, plain or in colour. Colours are those of terminals: a
control sequence in front of a part, and one behind it that ends the colour.
-/

namespace Conformance

/-! ## Colour -/

/-- The parts of a text that are set off by colour. -/
inductive Emphasis where
  | category (category : Category)
  | code
  /-- The label of a further location. -/
  | note
  /-- What stands for an implementation that is missing. -/
  | missing
  /-- A summary that counts errors. -/
  | failure
  /-- The title of a part of a longer text. -/
  | title
  /-- What is to be typed as it stands. -/
  | literal
deriving DecidableEq, Repr

/-- The colour and weight of a part: the numbers of each control sequence in
front of it. -/
def Emphasis.attributes : Emphasis → List String
  | category .error => ["1;31"]
  | category .warning => ["1;33"]
  | category .suggestion => ["1;34"]
  | category .message => ["1;36"]
  | code => ["94"]
  | note => ["2"]
  | missing => ["31"]
  | failure => ["31"]
  | title => ["1", "4"]
  | literal => ["1"]

/-- A control sequence. -/
def controlSequence (numbers : String) : String := "\x1b[" ++ numbers ++ "m"

/-- A part of a text, set off if the text is in colour. -/
def paint (colored : Bool) (emphasis : Emphasis) (text : String) : String :=
  if colored then
    String.join (emphasis.attributes.map controlSequence) ++ text ++ controlSequence "0"
  else text

/-! ## Diagnostics -/

/-- The place of a diagnostic. -/
def Span.location (span : Span) : String :=
  if span.file.isEmpty then "<unknown>"
  else
    span.file ++ "(" ++ toString span.start.toNat ++ "," ++ toString span.length.toNat ++ ")"

/-- The line of a further location. -/
def RenderedNote.text (colored : Bool) (note : RenderedNote) : String :=
  paint colored .note "  Related" ++ ": " ++ note.span.location ++ " - " ++ note.message

/-- The lines of a diagnostic, without the end of the last. -/
def RenderedDiagnostic.text (colored : Bool) (diagnostic : RenderedDiagnostic) : String :=
  let category := Text.lowerLatin diagnostic.category.name
  let head := diagnostic.span.location ++ " - " ++
    paint colored (.category diagnostic.category) category ++ " " ++
    paint colored .code (Diagnostic.formatCode diagnostic.code) ++ ": " ++ diagnostic.message
  "\n".intercalate (head :: diagnostic.notes.map (RenderedNote.text colored))

/-- Lines, each with its end. -/
def endedLines (lines : List String) : String :=
  String.join (lines.map fun line => line ++ "\n")

/-- The text of a list of diagnostics. -/
def diagnosticsText (colored : Bool) (diagnostics : List RenderedDiagnostic) : String :=
  endedLines (diagnostics.map (RenderedDiagnostic.text colored))

/-! ## Implementations -/

/-- What an interface member is implemented by. -/
def ImplementationEntry.target (colored : Bool) (entry : ImplementationEntry) : String :=
  match entry.implementation, entry.source with
  | some member, some source => member ++ " (" ++ source.name ++ ")"
  | some member, none => member
  | none, _ => paint colored .missing "<none>"

/-- The line of an entry, without its end. -/
def ImplementationEntry.text (colored : Bool) (entry : ImplementationEntry) : String :=
  entry.type ++ ": " ++ entry.interfaceMember ++ " -> " ++ entry.target colored

/-- The text of an implementation map. -/
def implementationsText (colored : Bool) (entries : List ImplementationEntry) : String :=
  endedLines (entries.map (ImplementationEntry.text colored))

/-! ## Summary -/

/-- A number of things, with the word for them in its right form. -/
def counted (n : Nat) (word : String) : String :=
  if n = 1 then toString n ++ " " ++ word else toString n ++ " " ++ word ++ "s"

/-- The summary of a report that has errors or warnings. -/
def foundText (errors warnings : Nat) : String :=
  let parts := (if errors = 0 then [] else [counted errors "error"]) ++
    (if warnings = 0 then [] else [counted warnings "warning"])
  "Found " ++ " and ".intercalate parts ++ "."

/-- The summary of a report. -/
def summaryText (colored : Bool) (errors warnings : Nat) : String :=
  if errors = 0 ∧ warnings = 0 then "No diagnostics."
  else if errors = 0 then foundText errors warnings
  else paint colored .failure (foundText errors warnings)

/-- The summary of a report. -/
def Report.summary (colored : Bool) (report : Report) : String :=
  summaryText colored report.errorCount report.warningCount

end Conformance
